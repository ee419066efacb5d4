import SessionManager.Library.Transition
import SessionManager.Runtime.Provider

open transition

namespace session_manager.docker_runtime

open docker

/-- The answers that harm a container: `containers.run` raises after it has
created one, and a 409 does not lead back to it; or a health check gives up on a
container that `containers.get` has found. -/
def Create.harmed (made : Option RuntimeId) : Create → Answer → Bool
  | .run, .raised error => made.isSome && error ≠ .APIError (some 409)
  | .get, .raised _ => made.isSome
  | .wait container true, answer => made ≠ some container.id && answer.gives_up
  | _, _ => false

def Call.harmed (answer : Answer) : Call → Bool
  | .suspended (.create _ create) made _ => create.harmed made answer
  | _ => false

/-- A removal the call asks for succeeds. -/
def Call.removed (answer : Answer) : Call → Bool
  | .suspended (.create _ (.remove _)) _ _ => answer = .done
  | _ => true

namespace DockerRuntimeProvider

/-- Nobody else creates or removes containers while the call is under way, no two
of them have one name, and the removals the call asks for succeed. -/
def undisturbed (p : Pid) (s : DockerRuntimeProvider) : Event → Prop
  | .docker q (.create _ container) => q = p ∧ s.engine.taken container.name = false
  | .docker q _ => q = p
  | .answer q answer => q = p → ∀ call ∈ s.calls.get? p, call.removed answer = true
  | .outside (.state ..) => True
  | .outside _ => False
  | .call .. | .resume _ => True

/-- The step does not answer the call in a way that harms a container. -/
def harmless (p : Pid) (s : DockerRuntimeProvider) : Event → Prop
  | .answer q answer => q = p → ∀ call ∈ s.calls.get? p, call.harmed answer = false
  | _ => True

instance (p : Pid) (s : DockerRuntimeProvider) (event : Event) : Decidable (undisturbed p s event) := by
  unfold undisturbed
  split <;> infer_instance

instance (p : Pid) (s : DockerRuntimeProvider) (event : Event) : Decidable (harmless p s event) := by
  unfold harmless
  split <;> infer_instance

end DockerRuntimeProvider

/-- The container that the call is removing. -/
def Create.removes : Create → Option RuntimeId
  | .remove container => some container.id
  | _ => none

/-- What a call has done to the containers that were there before. The one it
has created is new and alone under its name; only one that it is removing may
be missing, and is once the removal has succeeded. -/
structure Create.Held (before engine : Engine) (session_id : SessionId) (made : Option RuntimeId)
    (create : Create) (answer : Option Answer) : Prop where
  live : ∀ id, create.removes ≠ some id → (engine.live id ↔ before.live id ∨ made = some id)
  fresh : ∀ id, made = some id → ¬ before.live id
  only : ∀ id, made = some id →
    ∀ id', engine.named id' (.session session_id) → engine.live id' → id' = id
  gone : answer ≠ none → ∀ id, create.removes = some id → ¬ engine.live id

/-- The container a call goes on with as long as no answer has harmed one: its
own, or one that was there before and is not given up. -/
def Create.Sound (before : Engine) (made : Option RuntimeId) : Create → Option Answer → Prop
  | .run, some (.container container) => made = some container.id
  | .run, some (.raised error) => made = none ∨ error = .APIError (some 409)
  | .get, some (.container container) =>
    made = some container.id ∨ made = none ∧ before.live container.id
  | .get, some (.raised _) => made = none
  | .run, _ | .get, _ => True
  | .wait container true, answer =>
    made = some container.id ∨
      made = none ∧ before.live container.id ∧ ∀ a ∈ answer, a.gives_up = false
  | .logs container true, _ | .remove container, _ => made = some container.id
  | _, _ => made = none

/-- The call after an answer that harms a container. -/
def Create.Torn (before : Engine) (made : Option RuntimeId) : Create → Option Answer → Prop
  | .run, some (.raised error) => made ≠ none ∧ error ≠ .APIError (some 409)
  | .get, some (.raised _) => made ≠ none
  | .wait container true, some answer =>
    made = none ∧ before.live container.id ∧ answer.gives_up = true
  | .logs container true, _ | .remove container, _ => made = none ∧ before.live container.id
  | _, _ => False

section Held

variable {before engine : Engine} {session_id : SessionId} {made : Option RuntimeId} {create next : Create}
  {a : Answer} {answer : Option Answer} {s : DockerRuntimeProvider} {p : Pid}

/-- The containers are as they were when none is being removed and none was made: no
step so far has changed which exist. -/
theorem Create.Held.restored (h : create.Held before engine session_id made answer)
    (hremoves : create.removes = none) (hmade : made = none) (id : RuntimeId) :
    engine.live id ↔ before.live id := by
  simpa [hmade] using h.live id (by simp [hremoves])

/-- A container that the call has created and leaves is one too many, since its id is
new to the engine. -/
theorem Create.Held.not_restored (h : create.Held before engine session_id made answer)
    (hremoves : create.removes = none) (hmade : made ≠ none) :
    ¬ ∀ id, engine.live id ↔ before.live id := by
  obtain ⟨id, hid⟩ := Option.ne_none_iff_exists'.mp hmade
  intro hsame
  exact h.fresh id hid ((hsame id).mp ((h.live id (by simp [hremoves])).mpr (.inr hid)))

private theorem Create.removes_of_resume (hresume : create.resume a = some (.await next)) : create.removes = none := by
  cases Create.resumed hresume <;> rfl

private theorem Create.Held.resumed (h : create.Held before engine session_id made answer)
    (hresume : create.resume a = some (.await next)) : next.Held before engine session_id made none where
  live id _ := h.live id (by simp [removes_of_resume hresume])
  fresh := h.fresh
  only := h.only
  gone hanswer := absurd rfl hanswer

private theorem Create.Held.answered (h : create.Held before s.engine session_id made none)
    (hanswers : s.answers p made (.create session_id create) a)
    (hremoved : (Call.suspended (.create session_id create) made none).removed a) :
    create.Held before s.engine session_id made (some a) where
  live := h.live
  fresh := h.fresh
  only := h.only
  gone _ id hremoves := by
    cases create with
    | remove container =>
      obtain rfl : container.id = id := Option.some.inj hremoves
      obtain rfl : a = .done := of_decide_eq_true hremoved
      exact hanswers
    | lock | find | start | wait | logs | run | get => cases hremoves

/-- The container that `containers.run` creates is the only one of its name, as Docker
refuses a name that is taken. -/
theorem Create.Held.created {id : RuntimeId} (h : create.Held before engine session_id none none)
    (hremoves : create.removes = none) (hfresh : engine.get? id = none)
    (hfree : engine.taken (.session session_id) = false) :
    create.Held before (engine.apply (.create id (sandbox session_id))) session_id (some id) none where
  live id' _ := by
    rw [← h.restored hremoves rfl id']
    constructor
    · intro hlive
      rcases Engine.live_of_apply hlive with hold | ⟨new, heq, -⟩
      · exact .inl hold
      · cases heq
        exact .inr rfl
    · rintro (hold | ⟨⟨⟩⟩)
      · exact Engine.live_apply hold (by simp)
      · exact Engine.live_create hfresh rfl
  fresh := by
    rintro _ ⟨⟩ hlive
    obtain ⟨container, hget, -⟩ := (h.restored hremoves rfl id).mpr hlive
    rw [hfresh] at hget
    cases hget
  only := by
    rintro _ ⟨⟩ id' hnamed hlive
    rcases Engine.live_of_apply hlive with hold | ⟨new, heq, -⟩
    · rcases Engine.named_of_apply hnamed with hname | ⟨new, heq, -⟩
      · rw [Engine.taken_of_live hname hold] at hfree
        cases hfree
      · cases heq
        rfl
    · cases heq
      rfl
  gone hanswer := absurd rfl hanswer

private theorem Create.Held.removed {container : Container}
    (h : (Create.remove container).Held before engine session_id made none) :
    (Create.remove container).Held before (engine.apply (.remove container.id)) session_id made none where
  live id hid := by
    have hne : Change.remove container.id ≠ .remove id := fun heq => hid (by cases heq; rfl)
    rw [← h.live id hid]
    exact ⟨Engine.live_of_apply_of_ne_create (by simp), fun hlive => Engine.live_apply hlive hne⟩
  fresh := h.fresh
  only id hmade id' hnamed hlive :=
    h.only id hmade id' (Engine.named_of_apply_of_ne_create (by simp) hnamed)
      (Engine.live_of_apply_of_ne_create (by simp) hlive)
  gone hanswer := absurd rfl hanswer

private theorem Create.Held.state {id : RuntimeId} {status : String} {health : Option String}
    (h : create.Held before engine session_id made answer) :
    create.Held before (engine.apply (.state id status health)) session_id made answer where
  live id' hid := Engine.live_apply_state.trans (h.live id' hid)
  fresh := h.fresh
  only id' hmade id'' hnamed hlive :=
    h.only id' hmade id'' (Engine.named_of_apply_of_ne_create (by simp) hnamed)
      (Engine.live_apply_state.mp hlive)
  gone hanswer id' hremoves hlive := h.gone hanswer id' hremoves (Engine.live_apply_state.mp hlive)

end Held

section Answers

variable {before engine : Engine} {session_id : SessionId} {made : Option RuntimeId} {create next : Create}
  {a : Answer} {answer : Option Answer} {s : DockerRuntimeProvider} {p : Pid} {runtime_id : RuntimeId}

/-- What a call has got as long as no answer harms a container: the answer fits what the
call has done so far. -/
theorem Create.Sound.answered (hheld : create.Held before s.engine session_id made none)
    (h : create.Sound before made none) (hanswers : s.answers p made (.create session_id create) a)
    (hharmless : create.harmed made a = false) : create.Sound before made (some a) := by
  cases create with
  | lock | find | start | remove => exact h
  | wait container cleanup =>
    cases cleanup with
    | false => exact h
    | true =>
      rcases h with hown | ⟨hmade, hlive, -⟩
      · exact .inl hown
      · refine .inr ⟨hmade, hlive, ?_⟩
        rintro _ ⟨⟩
        simpa [harmed, hmade] using hharmless
  | logs container cleanup => cases cleanup <;> exact h
  | run =>
    cases a with
    | container => exact hanswers
    | raised error =>
      rcases Bool.and_eq_false_iff.mp hharmless with hmade | herror
      · exact .inl (by simpa using hmade)
      · exact .inr (by simpa using herror)
    | done | listed | state | deadline => trivial
  | get =>
    cases a with
    | container container =>
      obtain ⟨hlive, hnamed⟩ := hanswers
      cases made with
      | none => exact .inr ⟨rfl, (hheld.restored rfl rfl container.id).mp hlive⟩
      | some id => exact .inl (by rw [hheld.only id rfl container.id hnamed hlive])
    | raised error => simpa [Sound, harmed] using hharmless
    | done | listed | state | deadline => trivial

/-- An answer that harms a container leaves the call torn: what it has made or is to
remove will not be as it was. -/
theorem Create.Sound.harmed (h : create.Sound before made none) (hharmed : create.harmed made a = true) :
    create.Torn before made (some a) := by
  cases create with
  | lock | find | start | logs | remove => cases hharmed
  | wait container cleanup =>
    cases cleanup with
    | false => cases hharmed
    | true =>
      obtain ⟨hother, hgives_up⟩ : made ≠ some container.id ∧ a.gives_up = true := by
        simpa [Create.harmed] using hharmed
      obtain ⟨hmade, hlive, -⟩ := h.resolve_left hother
      exact ⟨hmade, hlive, hgives_up⟩
  | run | get =>
    cases a with
    | raised => simpa [Create.harmed, Torn, Option.isSome_iff_ne_none] using hharmed
    | done | listed | container | state | deadline => cases hharmed

private theorem Create.Torn.answered (h : create.Torn before made none) : create.Torn before made (some a) := by
  cases create with
  | lock | find | start | run | get => cases h
  | remove => exact h
  | wait container cleanup => cases cleanup <;> cases h
  | logs container cleanup => cases cleanup <;> exact h

/-- What a call goes on with when no answer has harmed a container: the next await is
one of a sound call. -/
theorem Create.Sound.resumed (h : create.Sound before made (some a))
    (hresume : create.resume a = some (.await next)) : next.Sound before made none := by
  have hown (container : Container) (hgives_up : a.gives_up = true)
      (h : made = some container.id ∨
        made = none ∧ before.live container.id ∧ ∀ a' ∈ some a, a'.gives_up = false) :
      made = some container.id := by
    rcases h with hown | ⟨-, -, hgoes⟩
    · exact hown
    · simp [hgoes a rfl] at hgives_up
  cases Create.resumed hresume with
  | locked | stopped | running | started | logged => exact h
  | absent | conflict => trivial
  | @poll container cleanup =>
    cases cleanup with
    | false => exact h
    | true => exact h.imp_right fun ⟨hmade, hlive, _⟩ => ⟨hmade, hlive, by simp⟩
  | @exited container cleanup _ _ hgives_up =>
    cases cleanup with
    | false => exact h
    | true => exact hown container hgives_up h
  | gave_up hgives_up => exact hown _ hgives_up h
  | created => exact .inl h
  | found => exact h.imp_right fun ⟨hmade, hlive⟩ => ⟨hmade, hlive, by simp⟩

/-- Only a container that was there before is given up in a way that harms it. -/
private theorem Create.Torn.of_wait {container : Container} {cleanup : Bool}
    (h : (Create.wait container cleanup).Torn before made (some a)) :
    cleanup = true ∧ made = none ∧ before.live container.id ∧ a.gives_up = true := by
  cases cleanup with
  | false => cases h
  | true => exact ⟨rfl, h⟩

/-- A call that has harmed a container goes on to the end without noticing, whatever it
is answered. -/
theorem Create.Torn.resumed (h : create.Torn before made (some a))
    (hresume : create.resume a = some (.await next)) : next.Torn before made none := by
  cases Create.resumed hresume with
  | locked | absent | stopped | running | started | created | found => cases h
  | conflict => exact h.2 rfl
  | poll hgoes =>
    obtain ⟨-, -, -, hgives_up⟩ := h.of_wait
    simp [hgoes] at hgives_up
  | exited =>
    obtain ⟨rfl, hmade, hlive, -⟩ := h.of_wait
    exact ⟨hmade, hlive⟩
  | gave_up => exact ⟨h.1, h.2.1⟩
  | logged => exact h

/-- A call that raises without having harmed a container leaves things as they were. -/
theorem Create.Sound.raised (hheld : create.Held before engine session_id made (some a))
    (h : create.Sound before made (some a)) (hresume : create.resume a = some .raised) (id : RuntimeId) :
    engine.live id ↔ before.live id := by
  cases Create.resumed hresume with
  | unlisted | unstarted | left | logged_left | unfound => exact hheld.restored rfl h id
  | uncreated hother => exact hheld.restored rfl (h.resolve_right hother) id
  | @removed container =>
    obtain rfl : made = some container.id := h
    by_cases hid : container.id = id
    · subst hid
      exact iff_of_false (hheld.gone (by simp) _ rfl) (hheld.fresh _ rfl)
    · rw [hheld.live id (by simpa [removes] using hid)]
      simp [hid]

/-- A call that raises after it has harmed a container does not leave things as they
were. -/
theorem Create.Torn.raised (hheld : create.Held before engine session_id made (some a))
    (h : create.Torn before made (some a)) (hresume : create.resume a = some .raised) :
    ¬ ∀ id, engine.live id ↔ before.live id := by
  cases Create.resumed hresume with
  | unlisted | unstarted | left | logged_left => cases h
  | unfound => exact hheld.not_restored rfl h
  | uncreated => exact hheld.not_restored rfl h.1
  | removed => exact fun hsame => hheld.gone (by simp) _ rfl ((hsame _).mpr h.2)

/-- A call that has harmed a container cannot end with a handle any more. -/
theorem Create.Torn.not_healthy (h : create.Torn before made (some a)) :
    create.resume a ≠ some (.healthy runtime_id) := by
  intro hresume
  cases Create.resumed hresume with
  | healthy hgoes =>
    obtain ⟨-, -, -, hgives_up⟩ := h.of_wait
    simp [hgoes] at hgives_up

end Answers

/-- A call and the containers as long as no answer has harmed one. -/
def Call.Sound (before engine : Engine) : Call → Prop
  | .suspended (.create session_id create) made answer =>
    create.Held before engine session_id made answer ∧ create.Sound before made answer
  | .suspended .. => False
  | .raised => ∀ id, engine.live id ↔ before.live id
  | .created .. | .returned => True

/-- A call and the containers after an answer that has harmed one. -/
def Call.Torn (before engine : Engine) : Call → Prop
  | .suspended (.create session_id create) made answer =>
    create.Held before engine session_id made answer ∧ create.Torn before made answer
  | .raised => ¬ ∀ id, engine.live id ↔ before.live id
  | _ => False

namespace DockerRuntimeProvider

/-- What a step means for one call, when nobody else disturbs it. -/
inductive Turned (s : DockerRuntimeProvider) (p : Pid) (call : Call) : Event → Engine → Call → Prop
  | other {event : Event} (hother : ∀ a, event ≠ .answer p a) : Turned s p call event s.engine call
  | state {id : RuntimeId} {status : String} {health : Option String} :
      Turned s p call (.outside (.state id status health)) (s.engine.apply (.state id status health)) call
  | docker {await : Await} {made : Option RuntimeId} {change : Change}
      (hcall : call = .suspended await made none) (hasks : await.asks made change)
      (hadmits : s.engine.admits change) (hguard : undisturbed p s (.docker p change)) :
      Turned s p call (.docker p change) (s.engine.apply change) (.suspended await (notes made change) none)
  | answer {await : Await} {made : Option RuntimeId} {a : Answer} (hcall : call = .suspended await made none)
      (hanswers : s.answers p made await a) (hremoved : call.removed a) :
      Turned s p call (.answer p a) s.engine (.suspended await made (some a))
  | resume {await : Await} {made : Option RuntimeId} {a : Answer} {next : Call}
      (hcall : call = .suspended await made (some a)) (hresume : await.resume made a = some next) :
      Turned s p call (.resume p) s.engine next

variable {before engine' : Engine} {s s' : DockerRuntimeProvider} {p : Pid} {session_id : SessionId}
  {call call' : Call} {event : Event} {events : List Event}

/-- A step of the system turns the call in one of the ways of `Turned`, while nobody
else touches the containers of its session. -/
theorem turned (hcall : s.calls.get? p = some call) (hguard : undisturbed p s event)
    (hstep : s.step event = some s') :
    ∃ call', s'.calls.get? p = some call' ∧ Turned s p call event s'.engine call' := by
  have hmodify (next : Call) : (s.calls.modify p fun _ => next).get? p = some next := by
    rw [Table.get?_modify_self, hcall, Option.map_some]
  have hkeeps {q : Pid} (hq : q ≠ p) (next : Call) : (s.calls.modify q fun _ => next).get? p = some call := by
    rw [Table.get?_modify_of_ne _ _ hq.symm, hcall]
  cases stepped hstep with
  | call => exact ⟨call, Table.get?_insert_of_some _ hcall, .other (by simp)⟩
  | @docker q change await made hq hasks hadmits =>
    obtain rfl : q = p := by
      cases change with
      | create => exact hguard.1
      | state | remove => exact hguard
    exact ⟨_, hmodify _, .docker (Option.some.inj (hcall.symm.trans hq)) hasks hadmits hguard⟩
  | @answer q a await made hq hanswers =>
    by_cases hqp : q = p
    · subst hqp
      exact ⟨_, hmodify _, .answer (Option.some.inj (hcall.symm.trans hq)) hanswers (hguard rfl call hcall)⟩
    · exact ⟨call, hkeeps hqp _, .other (by simp [hqp])⟩
  | @resume q a await made next hq hresume =>
    by_cases hqp : q = p
    · subst hqp
      exact ⟨_, hmodify _, .resume (Option.some.inj (hcall.symm.trans hq)) hresume⟩
    · exact ⟨call, hkeeps hqp _, .other (by simp)⟩
  | @outside change =>
    cases change with
    | state => exact ⟨call, hcall, .state⟩
    | create | remove => cases hguard

end DockerRuntimeProvider

section Steps

variable {before engine' : Engine} {s : DockerRuntimeProvider} {p : Pid} {call call' : Call} {event : Event}
  {session_id : SessionId} {create : Create} {made : Option RuntimeId} {change : Change}

/-- A request of `create` that Docker carries out. -/
private theorem Create.Held.docker (h : create.Held before s.engine session_id made none)
    (hasks : (Await.create session_id create).asks made change) (hadmits : s.engine.admits change)
    (hguard : s.undisturbed p (.docker p change)) :
    create.Held before (s.engine.apply change) session_id (DockerRuntimeProvider.notes made change) none := by
  rcases Await.asks_cases hasks with ⟨rfl, rfl, id, rfl⟩ | ⟨container, rfl, rfl⟩
  · exact h.created rfl hadmits hguard.2
  · exact h.removed

/-- One step of a call that has harmed no container, and harms none in the step. -/
theorem Call.Sound.turned (h : call.Sound before s.engine) (hturned : s.Turned p call event engine' call')
    (hcall : s.calls.get? p = some call) (hharmless : s.harmless p event) : call'.Sound before engine' := by
  cases hturned with
  | other => exact h
  | state =>
    match call, h with
    | .suspended (.create ..) .., ⟨hheld, hsound⟩ => exact ⟨hheld.state, hsound⟩
    | .raised, hsame => exact fun id => Engine.live_apply_state.trans (hsame id)
    | .created .., _ | .returned, _ => trivial
  | @docker await made change heq hasks hadmits hguard =>
    subst heq
    cases await with
    | create session_id create =>
      refine ⟨h.1.docker hasks hadmits hguard, ?_⟩
      rcases Await.asks_cases hasks with ⟨rfl, -⟩ | ⟨container, rfl, rfl⟩
      · trivial
      · exact h.2
    | stop | delete => cases h
  | @answer await made a heq hanswers hremoved =>
    subst heq
    cases await with
    | create session_id create =>
      obtain ⟨hheld, hsound⟩ := h
      exact ⟨hheld.answered hanswers hremoved, hsound.answered hheld hanswers (hharmless rfl _ hcall)⟩
    | stop | delete => cases h
  | @resume await made a next heq hresume =>
    subst heq
    cases await with
    | create session_id create =>
      obtain ⟨hheld, hsound⟩ := h
      obtain ⟨goes, hgoes, rfl⟩ := Option.map_eq_some_iff.mp hresume
      cases goes with
      | await next => exact ⟨hheld.resumed hgoes, hsound.resumed hgoes⟩
      | healthy => trivial
      | raised => exact hsound.raised hheld hgoes
    | stop | delete => cases h

/-- The step in which a container comes to harm: one the call has made will be left
behind, or one it has found will be removed. -/
theorem Call.Sound.harmed (h : call.Sound before s.engine) (hturned : s.Turned p call event engine' call')
    (hcall : s.calls.get? p = some call) (hharm : ¬ s.harmless p event) : call'.Torn before engine' := by
  cases hturned with
  | other hother =>
    refine absurd ?_ hharm
    cases event with
    | answer q a => exact fun hq => absurd (by rw [hq]) (hother a)
    | call | docker | resume | outside => trivial
  | state | docker | resume => exact absurd trivial hharm
  | @answer await made a heq hanswers hremoved =>
    subst heq
    have hharmed : (Call.suspended await made none).harmed a = true := by
      simpa [DockerRuntimeProvider.harmless, hcall] using hharm
    cases await with
    | create session_id create => exact ⟨h.1.answered hanswers hremoved, h.2.harmed hharmed⟩
    | stop | delete => cases h

/-- One step of a call that has harmed a container: the harm is not made good. -/
theorem Call.Torn.turned (h : call.Torn before s.engine) (hturned : s.Turned p call event engine' call') :
    call'.Torn before engine' := by
  cases hturned with
  | other => exact h
  | state =>
    match call, h with
    | .suspended (.create ..) .., ⟨hheld, htorn⟩ => exact ⟨hheld.state, htorn⟩
    | .raised, hdiffer => exact fun hsame => hdiffer fun id => Engine.live_apply_state.symm.trans (hsame id)
  | @docker await made change heq hasks hadmits hguard =>
    subst heq
    cases await with
    | create session_id create =>
      refine ⟨h.1.docker hasks hadmits hguard, ?_⟩
      rcases Await.asks_cases hasks with ⟨rfl, -⟩ | ⟨container, rfl, rfl⟩
      · cases h.2
      · exact h.2
    | stop | delete => cases h
  | @answer await made a heq hanswers hremoved =>
    subst heq
    cases await with
    | create session_id create => exact ⟨h.1.answered hanswers hremoved, h.2.answered⟩
    | stop | delete => cases h
  | @resume await made a next heq hresume =>
    subst heq
    cases await with
    | create session_id create =>
      obtain ⟨hheld, htorn⟩ := h
      obtain ⟨goes, hgoes, rfl⟩ := Option.map_eq_some_iff.mp hresume
      cases goes with
      | await next => exact ⟨hheld.resumed hgoes, htorn.resumed hgoes⟩
      | healthy => exact htorn.not_healthy hgoes
      | raised => exact htorn.raised hheld hgoes
    | stop | delete => cases h

end Steps

namespace DockerRuntimeProvider

variable {s s' : DockerRuntimeProvider} {p : Pid} {session_id : SessionId} {events : List Event}

/-- What a call and its containers are after a run, by its answers: either all of them
were harmless, or one was not and the harm is still there. -/
theorem settles (hcall : s.calls.get? p = some (.suspended (.create session_id .lock) none none))
    (hexec : exec step events s = some s') (hguard : Along (undisturbed p) step events s) :
    (Along (harmless p) step events s ∧
      ∃ call, s'.calls.get? p = some call ∧ call.Sound s.engine s'.engine) ∨
    (¬ Along (harmless p) step events s ∧
      ∃ call, s'.calls.get? p = some call ∧ call.Torn s.engine s'.engine) := by
  have hstart : (Call.suspended (.create session_id .lock) none none).Sound s.engine s.engine := by
    refine ⟨⟨fun id _ => by simp, ?_, ?_, fun hanswer => absurd rfl hanswer⟩, rfl⟩
    · rintro _ ⟨⟩
    · rintro _ ⟨⟩
  refine Along.settles (I := fun t => ∃ call, t.calls.get? p = some call ∧ call.Sound s.engine t.engine)
    (J := fun t => ∃ call, t.calls.get? p = some call ∧ call.Torn s.engine t.engine)
    ?_ ?_ ?_ ⟨_, hcall, hstart⟩ hguard hexec
  · rintro t event u ⟨call, hcall, hsound⟩ hguard hharmless hstep
    obtain ⟨call', hcall', hturned⟩ := turned hcall hguard hstep
    exact ⟨call', hcall', hsound.turned hturned hcall hharmless⟩
  · rintro t event u ⟨call, hcall, hsound⟩ hguard hharm hstep
    obtain ⟨call', hcall', hturned⟩ := turned hcall hguard hstep
    exact ⟨call', hcall', hsound.harmed hturned hcall hharm⟩
  · rintro t event u ⟨call, hcall, htorn⟩ hguard hstep
    obtain ⟨call', hcall', hturned⟩ := turned hcall hguard hstep
    exact ⟨call', hcall', htorn.turned hturned⟩

/-- When `create` raises, the containers that exist are those that existed before,
if and only if none of its answers has harmed one. -/
theorem create_restores (hcall : s.calls.get? p = some (.suspended (.create session_id .lock) none none))
    (hexec : exec step events s = some s') (hguard : Along (undisturbed p) step events s)
    (hended : ∃ call ∈ s'.calls.get? p, call.ended = true) :
    (s'.calls.get? p = some .raised → ∀ id, s'.engine.live id ↔ s.engine.live id) ↔
      Along (harmless p) step events s := by
  obtain ⟨call, hcall', hended⟩ := hended
  rcases settles hcall hexec hguard with ⟨hfine, call', hget, hsound⟩ | ⟨hslip, call', hget, htorn⟩
  · refine iff_of_true (fun hraised => ?_) hfine
    obtain rfl : Call.raised = call' := Option.some.inj (hraised.symm.trans hget)
    exact hsound
  · obtain rfl : call = call' := Option.some.inj (hcall'.symm.trans hget)
    refine iff_of_false (fun hkept => ?_) hslip
    cases call with
    | raised => exact htorn (hkept hget)
    | suspended => cases hended
    | created | returned => cases htorn

/-- `create` is called for session 1. -/
def called (engine : Engine) : DockerRuntimeProvider :=
  ⟨engine, .empty, Table.insert .empty 1 (.suspended (.create 1 .lock) none none)⟩

/-- No container has the label of the session. -/
def unlisted : List Event := [.answer 1 .done, .resume 1, .answer 1 (.listed []), .resume 1]

/-- The container that was created exits, and is removed. -/
theorem create_restores_exited : ∃ s' : DockerRuntimeProvider, s'.calls.get? 1 = some .raised ∧
    s'.engine.named "a" (.session 1) ∧ ∀ id, s'.engine.live id ↔ (called .empty).engine.live id := by
  generalize hevents : unlisted ++ [.docker 1 (.create "a" (sandbox 1)), .answer 1 (.container ⟨"a", "created"⟩),
    .resume 1, .outside (.state "a" "exited" none), .answer 1 (.state (some "exited") none), .resume 1,
    .answer 1 .done, .resume 1, .docker 1 (.remove "a"), .answer 1 .done, .resume 1] = events
  have htest : (exec step events (called .empty)).any (fun s' => s'.calls.get? 1 = some .raised ∧
      s'.engine.named "a" (.session 1)) = true ∧ Along (undisturbed 1) step events (called .empty) ∧
      Along (harmless 1) step events (called .empty) := by
    subst hevents
    decide +kernel
  obtain ⟨htest, hguard, hharmless⟩ := htest
  obtain ⟨s', hexec, htest⟩ := Option.any_eq_true _ _ |>.mp htest
  obtain ⟨hraised, hnamed⟩ := of_decide_eq_true htest
  exact ⟨s', hraised, hnamed,
    (create_restores rfl hexec hguard ⟨.raised, hraised, rfl⟩).mpr hharmless hraised⟩

/-- Somebody else's container under the name of session 1. -/
def theirs : Engine := Table.insert .empty "b" ⟨.session 1, false, some 1, "exited", none, false⟩

/-- A container that does not start is left when `create` raises, and somebody
else's container is removed for having the name and not being healthy. -/
theorem create_leaves :
    (∃ events s', exec step events (called .empty) = some s' ∧
      Along (undisturbed 1) step events (called .empty) ∧ s'.calls.get? 1 = some .raised ∧
      ¬ (called .empty).engine.live "a" ∧ s'.engine.live "a") ∧
    ∃ events s', exec step events (called theirs) = some s' ∧
      Along (undisturbed 1) step events (called theirs) ∧ s'.calls.get? 1 = some .raised ∧
      (called theirs).engine.live "b" ∧ ¬ s'.engine.live "b" := by
  constructor
  · generalize hevents : unlisted ++ [.docker 1 (.create "a" (sandbox 1)),
      .answer 1 (.raised (.APIError (some 500))), .resume 1] = events
    have htest : (exec step events (called .empty)).any (fun s' => s'.calls.get? 1 = some .raised ∧
        s'.engine.live "a") = true ∧ Along (undisturbed 1) step events (called .empty) := by
      subst hevents
      decide +kernel
    obtain ⟨s', hexec, htest'⟩ := Option.any_eq_true _ _ |>.mp htest.1
    obtain ⟨hraised, hlive⟩ := of_decide_eq_true htest'
    exact ⟨events, s', hexec, htest.2, hraised, by decide, hlive⟩
  · generalize hevents : unlisted ++ [.answer 1 (.raised (.APIError (some 409))), .resume 1,
      .answer 1 (.container ⟨"b", "exited"⟩), .resume 1, .answer 1 (.state (some "exited") none), .resume 1,
      .answer 1 .done, .resume 1, .docker 1 (.remove "b"), .answer 1 .done, .resume 1] = events
    have htest : (exec step events (called theirs)).any (fun s' => s'.calls.get? 1 = some .raised ∧
        ¬ s'.engine.live "b") = true ∧ Along (undisturbed 1) step events (called theirs) := by
      subst hevents
      decide +kernel
    obtain ⟨s', hexec, htest'⟩ := Option.any_eq_true _ _ |>.mp htest.1
    obtain ⟨hraised, hlive⟩ := of_decide_eq_true htest'
    exact ⟨events, s', hexec, htest.2, hraised, by decide, hlive⟩

end DockerRuntimeProvider

end session_manager.docker_runtime
