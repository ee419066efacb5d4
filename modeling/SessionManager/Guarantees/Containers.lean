import SessionManager.Library.Transition
import SessionManager.Runtime.Provider

open transition

namespace session_manager.docker_runtime

open docker

/-- The container a call of `create` is about, as far as it knows one. -/
def Create.about : Create → Option Answer → Option Container
  | .find, some (.listed (existing :: _)) => some existing
  | .start container, _ | .wait container _, _ | .logs container _, _ | .remove container, _ => some container
  | .run, some (.container container) | .get, some (.container container) => some container
  | _, _ => none

/-- The call has seen that its session has no container, and has created none. -/
def Create.clear (made : Option RuntimeId) : Create → Option Answer → Prop
  | .find, some (.listed []) => True
  | .run, _ => made = none
  | _, _ => False

/-- What a call of `create` knows about the containers while it holds the lock. -/
structure Create.Fits (engine : Engine) (session_id : SessionId) (made : Option RuntimeId)
    (create : Create) (answer : Option Answer) : Prop where
  about : ∀ container ∈ create.about answer, engine.belongs container.id session_id
  clear : create.clear made answer → ∀ id, engine.belongs id session_id → ¬ engine.live id
  made : ∀ id, made = some id → engine.belongs id session_id

section List

variable {engine : Engine} {session_id : SessionId} {id : RuntimeId} {container : Container}

private theorem belongs_of_mem_list (h : container ∈ engine.list session_id) :
    engine.belongs container.id session_id := by
  simp only [Engine.list, List.mem_map, List.mem_filter, Bool.and_eq_true, decide_eq_true_eq] at h
  obtain ⟨⟨id, row⟩, ⟨hrow, ⟨hmanaged, hlabel⟩, -⟩, rfl⟩ := h
  exact ⟨row, engine.get?_eq_some_iff_mem.mpr hrow, hmanaged, hlabel⟩

private theorem exists_mem_list (h : engine.belongs id session_id) (hlive : engine.live id) :
    ∃ container ∈ engine.list session_id, container.id = id := by
  obtain ⟨row, hget, hmanaged, hlabel⟩ := h
  obtain ⟨row', hget', hremoved⟩ := hlive
  obtain rfl : row = row' := Option.some.inj (hget.symm.trans hget')
  refine ⟨⟨id, row.status⟩, List.mem_map.mpr ⟨(id, row), ?_, rfl⟩, rfl⟩
  simp [engine.get?_eq_some_iff_mem.mp hget, hmanaged, hlabel, hremoved]

end List

section Fits

variable {s : DockerRuntimeProvider} {engine : Engine} {p : Pid} {session_id : SessionId} {create next : Create}
  {made : Option RuntimeId} {a : Answer} {answer : Option Answer} {runtime_id : RuntimeId}

/-- An answer of Docker is about the containers of the session: those with its labels,
and the one with its name. -/
theorem Create.Fits.answered (h : create.Fits s.engine session_id made none)
    (hnamed : ∀ id, s.engine.named id (.session session_id) → s.engine.belongs id session_id)
    (hanswers : s.answers p made (.create session_id create) a) :
    create.Fits s.engine session_id made (some a) := by
  refine ⟨?_, ?_, h.made⟩
  · intro container hcontainer
    cases create with
    | lock => cases a <;> cases hcontainer
    | find =>
      cases a with
      | listed containers =>
        cases containers with
        | nil => cases hcontainer
        | cons existing rest =>
          obtain rfl : existing = container := Option.some.inj hcontainer
          have hlisted : (existing :: rest).Perm (s.engine.list session_id) := hanswers
          exact belongs_of_mem_list (hlisted.mem_iff.mp List.mem_cons_self)
      | done | container | state | deadline | raised => cases hcontainer
    | start | wait | logs | remove => exact h.about container hcontainer
    | run =>
      cases a with
      | container => exact h.made container.id (by cases hcontainer; exact hanswers)
      | done | listed | state | deadline | raised => cases hcontainer
    | get =>
      cases a with
      | container => exact hnamed container.id (by cases hcontainer; exact hanswers.2)
      | done | listed | state | deadline | raised => cases hcontainer
  · intro hclear id hbelongs hlive
    cases create with
    | find =>
      cases a with
      | listed containers =>
        cases containers with
        | nil =>
          have hlisted : [].Perm (s.engine.list session_id) := hanswers
          obtain ⟨container, hcontainer, -⟩ := exists_mem_list hbelongs hlive
          rw [List.nil_perm.mp hlisted] at hcontainer
          cases hcontainer
        | cons => exact hclear
      | done | container | state | deadline | raised => exact hclear
    | run => exact h.clear hclear id hbelongs hlive
    | lock | start | wait | logs | get | remove => exact hclear

/-- What a call knows when it goes on: it has either found a container of its session,
or found that there is none. -/
theorem Create.Fits.resumed (h : create.Fits engine session_id made (some a))
    (hresume : create.resume a = some (.await next)) : next.Fits engine session_id made none := by
  refine ⟨?_, ?_, h.made⟩
  · intro container hcontainer
    refine h.about container ?_
    cases Create.resumed hresume with
    | locked | absent | conflict => cases hcontainer
    | stopped | running | started | poll | exited | gave_up | logged | created | found => exact hcontainer
  · intro hclear
    cases Create.resumed hresume with
    | absent => exact h.clear trivial
    | locked | stopped | running | started | poll | exited | gave_up | logged | created | conflict | found =>
      cases hclear

/-- The container of a returned handle is one of the session: it was found by the
session's label, or has just been run with it. -/
theorem Create.Fits.created (h : create.Fits engine session_id made (some a))
    (hresume : create.resume a = some (.healthy runtime_id)) : engine.belongs runtime_id session_id := by
  cases Create.resumed hresume with
  | healthy => exact h.about _ rfl

/-- What others do to the containers does not mislead a call, as long as nobody creates
one that the call has made sure is not there. -/
theorem Create.Fits.apply (h : create.Fits engine session_id made answer) {c : Change}
    (hc : create.clear made answer → ¬ c.creates session_id) :
    create.Fits (engine.apply c) session_id made answer := by
  refine ⟨fun container hcontainer => Engine.belongs_apply c (h.about container hcontainer), ?_,
    fun id hid => Engine.belongs_apply c (h.made id hid)⟩
  intro hclear id hbelongs hlive
  rcases Engine.belongs_of_apply hbelongs with hold | ⟨new, rfl, -, hmanaged, hlabel⟩
  · exact h.clear hclear id hold (Engine.live_of_apply_belongs hold hlive)
  · exact hc hclear ⟨hmanaged, hlabel⟩

end Fits

/-- What is known of a call: one that is in its critical section holds the lock
of its session, and the containers it works with are of that session. -/
def Call.Fits (engine : Engine) (locks : RowLocks SessionId Pid) (p : Pid) : Call → Prop
  | .suspended (.create session_id create) made answer =>
    (create ≠ .lock ∨ answer ≠ none → locks session_id = some p) ∧ create.Fits engine session_id made answer
  | .created session_id runtime_id => engine.belongs runtime_id session_id
  | _ => True

section Calls

variable {engine : Engine} {locks locks' : RowLocks SessionId Pid} {p : Pid} {call : Call} {c : Change}

private theorem Call.Fits.apply (h : call.Fits engine locks p)
    (hc : ∀ session_id create made answer, call = .suspended (.create session_id create) made answer →
      create.clear made answer → ¬ c.creates session_id) : call.Fits (engine.apply c) locks p := by
  cases call with
  | suspended await made answer =>
    cases await with
    | create session_id create => exact ⟨h.1, h.2.apply (hc session_id create made answer rfl)⟩
    | stop | delete => trivial
  | created => exact Engine.belongs_apply c h
  | returned | raised => trivial

private theorem Call.Fits.relock (h : call.Fits engine locks p)
    (hlocks : ∀ session_id, locks session_id = some p → locks' session_id = some p) :
    call.Fits engine locks' p := by
  cases call with
  | suspended await made answer =>
    cases await with
    | create session_id create => exact ⟨fun hpast => hlocks session_id (h.1 hpast), h.2⟩
    | stop | delete => trivial
  | created => exact h
  | returned | raised => trivial

end Calls

namespace DockerRuntimeProvider

structure Orderly (s : DockerRuntimeProvider) : Prop where
  sole : s.engine.Sole
  named : s.engine.Ours
  fits : ∀ p call, s.calls.get? p = some call → call.Fits s.engine s._create_locks p
  /-- A container that is reloaded while that of an earlier handle is still there
  is the same one. -/
  agrees : ∀ p q session_id runtime_id container cleanup made status health,
    s.calls.get? p = some (.created session_id runtime_id) →
    s.calls.get? q = some (.suspended (.create session_id (.wait container cleanup)) made
      (some (.state status health))) →
    s.engine.live runtime_id → container.id = runtime_id

variable {s s' : DockerRuntimeProvider} {p q : Pid} {session_id session_id' : SessionId} {create : Create}
  {made made' : Option RuntimeId} {reply : Option Answer} {a : Answer} {await : Await} {next : Call} {c : Change}

private theorem Orderly.create_fits (h : s.Orderly)
    (hcall : s.calls.get? p = some (.suspended (.create session_id create) made reply)) :
    create.Fits s.engine session_id made reply :=
  (h.fits p _ hcall).2

private theorem Orderly.holds (h : s.Orderly)
    (hcall : s.calls.get? p = some (.suspended (.create session_id create) made reply))
    (hpast : create ≠ .lock ∨ reply ≠ none) : s._create_locks session_id = some p :=
  (h.fits p _ hcall).1 hpast

/-- A container is only created by the request of `containers.run`. -/
private theorem creates_of_asks (hasks : await.asks made c) (hcreates : c.creates session_id) :
    await = .create session_id .run ∧ made = none := by
  cases c with
  | create id container =>
    obtain ⟨session_id', rfl, hmade, rfl⟩ := Await.asks_create hasks
    obtain rfl : session_id' = session_id := Option.some.inj hcreates.2
    exact ⟨rfl, hmade⟩
  | state | remove => cases hcreates

/-- Nobody else creates a container for a session while a call counts on that: the other
call would need the lock that this one holds. -/
theorem Orderly.not_creates (h : s.Orderly) (hcall : s.calls.get? p = some (.suspended await made none))
    (hasks : await.asks made c) (hq : q ≠ p)
    (hother : s.calls.get? q = some (.suspended (.create session_id create) made' reply))
    (hclear : create.clear made' reply) : ¬ c.creates session_id := by
  intro hcreates
  obtain ⟨rfl, rfl⟩ := creates_of_asks hasks hcreates
  have hp := h.holds hcall (.inl (by simp))
  have hlock : create ≠ .lock := by
    rintro rfl
    cases hclear
  have hq' := h.holds hother (.inl hlock)
  exact hq (Option.some.inj (hq'.symm.trans hp))

/-- A new call knows nothing yet, holds no lock and has made no container. -/
theorem Orderly.call (h : s.Orderly) {request : Request} :
    Orderly { s with calls := s.calls.insert p (.suspended request.start none none) } := by
  have hcalls (q : Pid) (call : Call)
      (hq : (s.calls.insert p (.suspended request.start none none)).get? q = some call) :
      s.calls.get? q = some call ∨ call = .suspended request.start none none := by
    rcases s.calls.get?_insert_cases hq with hold | ⟨-, -, hnew⟩
    · exact .inl hold
    · exact .inr hnew
  refine ⟨h.sole, h.named, fun q call hq => ?_, ?_⟩
  · rcases hcalls q call hq with hold | rfl
    · exact h.fits q call hold
    · cases request with
      | create session_id =>
        refine ⟨by simp, ?_, fun hclear => ?_, by simp⟩
        · rintro container ⟨⟩
        · cases hclear
      | stop | delete => trivial
  · intro p' q session_id runtime_id container cleanup made status health hp' hq hlive
    rcases hcalls p' _ hp' with hold | hnew
    · rcases hcalls q _ hq with hold' | hnew'
      · exact h.agrees p' q session_id runtime_id container cleanup made status health hold hold' hlive
      · cases request <;> cases hnew'
    · cases hnew

private theorem Orderly.live_of_apply (h : s.Orderly) {runtime_id : RuntimeId}
    (hcreated : s.calls.get? p = some (.created session_id runtime_id))
    (hlive : (s.engine.apply c).live runtime_id) : s.engine.live runtime_id :=
  Engine.live_of_apply_belongs (h.fits p _ hcreated) hlive

/-- What somebody else does to Docker creates no container of a session, so no call has
to expect one. -/
theorem Orderly.outside (h : s.Orderly) (hforeign : c.foreign = true) :
    Orderly { s with engine := s.engine.apply c } := by
  have hcreates (session_id : SessionId) : ¬ c.creates session_id := by
    unfold Change.foreign at hforeign
    split at hforeign
    · rintro ⟨hmanaged, -⟩
      simp_all
    · cases hforeign
    · cases c <;> simp_all [Change.creates]
  have hname (id : RuntimeId) (container : docker.Container) (session_id : SessionId)
      (hc : c = .create id container) : container.name ≠ .session session_id := by
    rintro hname
    obtain ⟨name, managed, label, status, health, removed⟩ := container
    subst hc hname
    cases hforeign
  refine ⟨h.sole.apply fun session_id hc => absurd hc (hcreates session_id),
    h.named.apply fun id container session_id hc hn => absurd hn (hname id container session_id hc),
    fun q call hq => (h.fits q call hq).apply fun session_id _ _ _ _ _ => hcreates session_id, ?_⟩
  intro p' q session_id runtime_id container cleanup made status health hp' hq hlive
  exact h.agrees p' q session_id runtime_id container cleanup made status health hp' hq (h.live_of_apply hp' hlive)

/-- The other calls are as they were. -/
private theorem get?_modify_cases {call : Call} (hq : (s.calls.modify p fun _ => next).get? q = some call) :
    q ≠ p ∧ s.calls.get? q = some call ∨ q = p ∧ call = next := by
  rw [Table.get?_modify] at hq
  split at hq
  · obtain ⟨_, -, rfl⟩ := Option.map_eq_some_iff.mp hq
    exact .inr ⟨‹_›, rfl⟩
  · exact .inl ⟨‹_›, hq⟩

private theorem live_of_state {id : RuntimeId} {state : Option String × Option String}
    (h : s.engine.state id = some state) : s.engine.live id := by
  obtain ⟨container, hcontainer, -⟩ := Option.map_eq_some_iff.mp h
  obtain ⟨hget, hremoved⟩ := Option.filter_eq_some_iff.mp hcontainer
  exact ⟨container, hget, by simpa using hremoved⟩

private theorem create_of_created {runtime_id : RuntimeId}
    (hresume : await.resume made a = some (.created session_id runtime_id)) :
    ∃ create, await = .create session_id create := by
  cases await with
  | create session_id' create =>
    obtain ⟨goes, -, hgoes⟩ := Option.map_eq_some_iff.mp hresume
    cases goes <;> cases hgoes
    exact ⟨create, rfl⟩
  | stop | delete =>
    obtain ⟨goes, -, hgoes⟩ := Option.map_eq_some_iff.mp hresume
    cases goes <;> cases hgoes

/-- A call that goes on waits for its next answer. -/
private theorem answer_of_suspended {await' : Await}
    (hresume : await.resume made a = some (.suspended await' made' reply)) : reply = none := by
  cases await with
  | create | stop | delete =>
    obtain ⟨goes, -, hgoes⟩ := Option.map_eq_some_iff.mp hresume
    cases goes <;> cases hgoes
    rfl

/-- What a call knows when its own request is carried out. -/
private theorem Orderly.fits_docker (h : s.Orderly)
    (hcall : s.calls.get? p = some (.suspended (.create session_id create) made none))
    (hasks : (Await.create session_id create).asks made c) (hadmits : s.engine.admits c) :
    create.Fits (s.engine.apply c) session_id (notes made c) none := by
  rcases Await.asks_cases hasks with ⟨rfl, rfl, id, rfl⟩ | ⟨container, rfl, rfl⟩
  · refine ⟨?_, fun hclear => ?_, ?_⟩
    · rintro container ⟨⟩
    · cases hclear
    · rintro id ⟨⟩
      exact ⟨_, (Table.get?_insert _ _ hadmits _).trans (if_pos rfl), rfl, rfl⟩
  · refine (h.create_fits hcall).apply (c := .remove container.id) fun hclear => ?_
    cases hclear

/-- The request of a call is carried out. If it creates a container, the session had
none. -/
theorem Orderly.docker (h : s.Orderly) (hcall : s.calls.get? p = some (.suspended await made none))
    (hasks : await.asks made c) (hadmits : s.engine.admits c) :
    Orderly { s with
      engine := s.engine.apply c
      calls := s.calls.modify p fun _ => .suspended await (notes made c) none } := by
  have hclear (session_id : SessionId) (hcreates : c.creates session_id) (id : RuntimeId)
      (hbelongs : s.engine.belongs id session_id) : ¬ s.engine.live id := by
    obtain ⟨rfl, rfl⟩ := creates_of_asks hasks hcreates
    exact (h.create_fits hcall).clear rfl id hbelongs
  refine ⟨h.sole.apply hclear, h.named.apply ?_, fun q call hq => ?_, ?_⟩
  · rintro id container session_id rfl hname
    obtain ⟨session_id', -, -, rfl⟩ := Await.asks_create hasks
    cases hname
    exact ⟨rfl, rfl⟩
  · rcases get?_modify_cases hq with ⟨hne, hold⟩ | ⟨rfl, rfl⟩
    · refine (h.fits q call hold).apply fun session_id create made' reply heq hclear' => ?_
      subst heq
      exact h.not_creates hcall hasks hne hold hclear'
    · cases await with
      | create session_id create =>
        exact ⟨(h.fits q _ hcall).1, h.fits_docker hcall hasks hadmits⟩
      | stop | delete => trivial
  · intro p' q session_id runtime_id container cleanup made status health hp' hq hlive
    rcases get?_modify_cases hp' with ⟨-, hold⟩ | ⟨-, hnew⟩
    · rcases get?_modify_cases hq with ⟨-, hold'⟩ | ⟨-, hnew⟩
      · exact h.agrees p' q session_id runtime_id container cleanup made status health hold hold'
          (h.live_of_apply hold hlive)
      · cases hnew
    · cases hnew

/-- A call gets its answer, and with the answer to its first await the lock of its
session. -/
theorem Orderly.answer (h : s.Orderly) (hcall : s.calls.get? p = some (.suspended await made none))
    (hanswers : s.answers p made await a) :
    Orderly { s with
      _create_locks := s.locks p await
      calls := s.calls.modify p fun _ => .suspended await made (some a) } := by
  refine ⟨h.sole, h.named, fun q call hq => ?_, ?_⟩
  · rcases get?_modify_cases hq with ⟨hne, hold⟩ | ⟨rfl, rfl⟩
    · refine (h.fits q call hold).relock fun session_id hheld => ?_
      dsimp only [locks]
      split
      · exact RowLocks.acquire_of_held hanswers.2 hheld
      · exact hheld
    · cases await with
      | create session_id create =>
        refine ⟨fun _ => ?_, (h.create_fits hcall).answered (fun id => h.named id session_id) hanswers⟩
        cases create with
        | lock => exact RowLocks.acquire_self ..
        | find | start | wait | logs | run | get | remove => exact h.holds hcall (.inl (by simp))
      | stop | delete => trivial
  · intro p' q session_id runtime_id container cleanup made status health hp' hq hlive
    rcases get?_modify_cases hp' with ⟨-, hold⟩ | ⟨-, hnew⟩
    · rcases get?_modify_cases hq with ⟨-, hold'⟩ | ⟨rfl, hnew⟩
      · exact h.agrees p' q session_id runtime_id container cleanup made status health hold hold' hlive
      · cases hnew
        have hbelongs : s.engine.belongs container.id session_id := (h.create_fits hcall).about container rfl
        exact h.sole session_id _ _ hbelongs (live_of_state hanswers) (h.fits p' _ hold) hlive
    · cases hnew

/-- A call goes on with what its answer told it, or ends and gives its lock back. -/
theorem Orderly.resume (h : s.Orderly) (hcall : s.calls.get? p = some (.suspended await made (some a)))
    (hresume : await.resume made a = some next) :
    Orderly { s with
      _create_locks := if next.ended then s._create_locks.release p else s._create_locks
      calls := s.calls.modify p fun _ => next } := by
  refine ⟨h.sole, h.named, fun q call hq => ?_, ?_⟩
  · rcases get?_modify_cases hq with ⟨hne, hold⟩ | ⟨rfl, rfl⟩
    · refine (h.fits q call hold).relock fun session_id hheld => ?_
      dsimp only
      split
      · exact RowLocks.release_of_held hheld hne
      · exact hheld
    · cases await with
      | create session_id create =>
        obtain ⟨goes, hgoes, rfl⟩ := Option.map_eq_some_iff.mp hresume
        cases goes with
        | await create' =>
          exact ⟨fun _ => h.holds hcall (.inr (by simp)), (h.create_fits hcall).resumed hgoes⟩
        | healthy runtime_id => exact (h.create_fits hcall).created hgoes
        | raised => trivial
      | stop | delete =>
        obtain ⟨goes, -, rfl⟩ := Option.map_eq_some_iff.mp hresume
        cases goes <;> trivial
  · intro p' q session_id runtime_id container cleanup made' status health hp' hq hlive
    rcases get?_modify_cases hq with ⟨hne, hold⟩ | ⟨-, rfl⟩
    · rcases get?_modify_cases hp' with ⟨-, hold'⟩ | ⟨rfl, rfl⟩
      · exact h.agrees p' q session_id runtime_id container cleanup made' status health hold' hold hlive
      · obtain ⟨create, rfl⟩ := create_of_created hresume
        have hheld := h.holds hcall (.inr (by simp))
        have hheld' := h.holds hold (.inr (by simp))
        exact absurd (Option.some.inj (hheld'.symm.trans hheld)) hne
    · cases answer_of_suspended hresume

/-- Every step keeps the calls and the containers in order, in whichever order requests,
effects and answers come. -/
theorem Orderly.step (h : s.Orderly) {event : Event} (hstep : s.step event = some s') : s'.Orderly := by
  cases stepped hstep with
  | call => exact h.call
  | docker hcall hasks hadmits => exact h.docker hcall hasks hadmits
  | answer hcall hanswers => exact h.answer hcall hanswers
  | resume hcall hresume => exact h.resume hcall hresume
  | outside hforeign => exact h.outside hforeign

/-- The provider before its first call, whatever containers there are. -/
def initial (engine : Engine) : DockerRuntimeProvider := ⟨engine, .empty, .empty⟩

/-- Nobody calls anything before the first step, and the sessions have one container
each at most by assumption. -/
theorem Orderly.initial {engine : Engine} (hsole : engine.Sole) (hours : engine.Ours) :
    (initial engine).Orderly := by
  refine ⟨hsole, hours, fun p call hcall => ?_, fun p q session_id runtime_id _ _ _ _ _ hp => ?_⟩
  · cases hcall
  · cases hp

variable {runtime_id runtime_id' : RuntimeId} {event : Event}

/-- A call returns a handle of the container it has just reloaded, so the container is
there at that moment. -/
theorem created_cases (hstep : s.step event = some s')
    (hq : s'.calls.get? q = some (.created session_id runtime_id)) :
    s.calls.get? q = some (.created session_id runtime_id) ∨
      s'.engine = s.engine ∧ ∃ container cleanup made status health, container.id = runtime_id ∧
        s.calls.get? q = some (.suspended (.create session_id (.wait container cleanup)) made
          (some (.state status health))) := by
  cases stepped hstep with
  | call =>
    rcases s.calls.get?_insert_cases hq with hold | ⟨-, -, hnew⟩
    · exact .inl hold
    · cases hnew
  | docker | answer =>
    rcases get?_modify_cases hq with ⟨-, hold⟩ | ⟨-, hnew⟩
    · exact .inl hold
    · cases hnew
  | outside => exact .inl hq
  | resume hcall hresume =>
    rcases get?_modify_cases hq with ⟨-, hold⟩ | ⟨rfl, rfl⟩
    · exact .inl hold
    · obtain ⟨create, rfl⟩ := create_of_created hresume
      obtain ⟨goes, hgoes, hcreated⟩ := Option.map_eq_some_iff.mp hresume
      cases goes <;> cases hcreated
      obtain ⟨container, cleanup, status, rfl, rfl, hid⟩ := Create.resume_healthy hgoes
      exact .inr ⟨rfl, container, cleanup, _, status, _, hid, hcall⟩

/-- A call that has returned stays so, with the id it has returned. -/
theorem created_stays (hstep : s.step event = some s')
    (hp : s.calls.get? p = some (.created session_id runtime_id)) :
    s'.calls.get? p = some (.created session_id runtime_id) := by
  have hmodify {q : Pid} {await : Await} {made : Option RuntimeId} {reply : Option Answer} {next : Call}
      (hcall : s.calls.get? q = some (.suspended await made reply)) :
      (s.calls.modify q fun _ => next).get? p = some (.created session_id runtime_id) := by
    have hne : p ≠ q := by
      rintro rfl
      rw [hp] at hcall
      cases hcall
    rw [Table.get?_modify_of_ne _ _ hne, hp]
  cases stepped hstep with
  | call => exact Table.get?_insert_of_some _ hp
  | docker hcall | answer hcall | resume hcall => exact hmodify hcall
  | outside => exact hp

/-- A container of a session that is there after a step was there before it: one that is
removed does not come back. -/
theorem live_of_step (hstep : s.step event = some s') (hbelongs : s.engine.belongs runtime_id session_id)
    (hlive : s'.engine.live runtime_id) : s.engine.live runtime_id := by
  cases stepped hstep with
  | docker | outside => exact Engine.live_of_apply_belongs hbelongs hlive
  | call | answer | resume => exact hlive

/-- At every moment a session has at most one container, and two calls of `create`
for it return the same runtime id when the container of the first is still there
as the second returns. -/
theorem create_idempotent {engine : Engine} (hsole : engine.Sole) (hours : engine.Ours)
    (hrun : Run DockerRuntimeProvider.step (fun _ _ => True) (initial engine) s) :
    s.engine.Sole ∧
    ∀ p q session_id runtime_id, s.calls.get? p = some (.created session_id runtime_id) →
      (∀ runtime_id', s.calls.get? q ≠ some (.created session_id runtime_id')) →
      ∀ s', Run DockerRuntimeProvider.step (fun _ _ => True) s s' →
        ∀ runtime_id', s'.calls.get? q = some (.created session_id runtime_id') →
          s'.engine.live runtime_id → runtime_id = runtime_id' := by
  have horderly : s.Orderly :=
    hrun.invariant (fun _ _ _ h _ hstep => h.step hstep) (.initial hsole hours)
  refine ⟨horderly.sole, ?_⟩
  intro p q session_id runtime_id hp hq s' hrun'
  suffices hkept : s'.Orderly ∧ s'.calls.get? p = some (.created session_id runtime_id) ∧
      ∀ runtime_id', s'.calls.get? q = some (.created session_id runtime_id') →
        s'.engine.live runtime_id → runtime_id = runtime_id' from hkept.2.2
  refine hrun'.invariant (I := fun s' => s'.Orderly ∧
    s'.calls.get? p = some (.created session_id runtime_id) ∧
    ∀ runtime_id', s'.calls.get? q = some (.created session_id runtime_id') →
      s'.engine.live runtime_id → runtime_id = runtime_id') ?_
    ⟨horderly, hp, fun runtime_id' hq' => absurd hq' (hq runtime_id')⟩
  rintro t event u ⟨horderly, hp, hagrees⟩ - hstep
  refine ⟨horderly.step hstep, created_stays hstep hp, fun runtime_id' hq' hlive => ?_⟩
  have hlive' := live_of_step hstep (horderly.fits p _ hp) hlive
  rcases created_cases hstep hq' with hold | ⟨-, container, cleanup, made, status, health, rfl, hold⟩
  · exact hagrees runtime_id' hold hlive'
  · exact (horderly.agrees p q session_id runtime_id container cleanup made status health hp hold hlive').symm

/-- Two calls for one session, the second of which waits for the lock and then
for the container that was stopped in between. -/
theorem create_idempotent_stopped :
    ∃ s s' : DockerRuntimeProvider, ∃ runtime_id, s.calls.get? 1 = some (.created 7 "a") ∧
      Run DockerRuntimeProvider.step (fun _ _ => True) s s' ∧
      s'.calls.get? 2 = some (.created 7 runtime_id) ∧ s'.engine.live "a" ∧ s.engine.Sole ∧ "a" = runtime_id := by
  have hnone (id : RuntimeId) (P : docker.Container → Prop) :
      ¬ ∃ container ∈ (Table.empty : Engine).get? id, P container := by
    rintro ⟨container, hget, -⟩
    cases hget
  have hsole : Engine.Sole .empty := fun _ id _ hbelongs => absurd hbelongs (hnone id _)
  have hours : Engine.Ours .empty := fun id _ hnamed => absurd hnamed (hnone id _)
  generalize hfinds : [Event.call 3 (.stop "a"), .answer 3 (.container ⟨"a", "running"⟩), .resume 3,
    .answer 3 (.state (some "running") (some "healthy")), .resume 3, .outside (.state "a" "exited" none),
    .answer 2 .done, .resume 2, .answer 2 (.listed [⟨"a", "exited"⟩]), .resume 2,
    .outside (.state "a" "running" (some "starting")), .answer 2 .done, .resume 2,
    .answer 2 (.state (some "running") (some "starting")), .resume 2,
    .outside (.state "a" "running" (some "healthy")),
    .answer 2 (.state (some "running") (some "healthy")), .resume 2] = finds
  obtain ⟨s, hrun, hp, hq, hexec⟩ : ∃ s, Run DockerRuntimeProvider.step (fun _ _ => True) (initial .empty) s ∧
      s.calls.get? 1 = some (.created 7 "a") ∧
      s.calls.get? 2 = some (.suspended (.create 7 .lock) none none) ∧
      (exec DockerRuntimeProvider.step finds s).any (fun s' =>
        s'.calls.get? 2 = some (.created 7 "a") ∧ s'.engine.live "a") = true := by
    subst hfinds
    exact Run.exists_of_exec (fun _ _ => trivial) [.call 1 (.create 7), .answer 1 .done, .resume 1,
      .call 2 (.create 7), .answer 1 (.listed []), .resume 1, .docker 1 (.create "a" (sandbox 7)),
      .outside (.state "a" "running" (some "healthy")), .answer 1 (.container ⟨"a", "created"⟩), .resume 1,
      .answer 1 (.state (some "running") (some "healthy")), .resume 1] _ (by decide +kernel)
  obtain ⟨s', hexec, htest⟩ := Option.any_eq_true _ _ |>.mp hexec
  obtain ⟨hq', hlive⟩ := of_decide_eq_true htest
  have hrun' : Run DockerRuntimeProvider.step (fun _ _ => True) s s' := Run.of_exec (fun _ _ => trivial) hexec
  obtain ⟨hsole', hsame⟩ := create_idempotent hsole hours hrun
  refine ⟨s, s', "a", hp, hrun', hq', hlive, hsole', ?_⟩
  refine hsame 1 2 7 "a" hp (fun runtime_id => ?_) s' hrun' "a" hq' hlive
  rw [hq]
  simp

end DockerRuntimeProvider

end session_manager.docker_runtime
