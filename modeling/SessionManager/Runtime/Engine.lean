import SessionManager.Library.Table
import SessionManager.Domain

namespace session_manager.docker

/-- The name of a container. `session` is the name computer-use-session-<hex> of
a session id, which no `other` name is. -/
inductive ContainerName
  | session (session_id : SessionId)
  | other (name : String)
deriving DecidableEq, Repr

/-- A container of the Docker engine. The labels are those of `docker_runtime`:
`managed` when the managed and namespace labels are this program's, `session_id`
what the session label parses to. -/
structure Container where
  name : ContainerName
  managed : Bool
  session_id : Option SessionId
  status : String
  health : Option String := none
  removed : Bool := false
deriving DecidableEq, Repr

/-- The container is the other one in another state. -/
structure Container.SameLabels (container other : Container) : Prop where
  name : container.name = other.name
  managed : container.managed = other.managed
  session_id : container.session_id = other.session_id
  removed : other.removed = true → container.removed = true

private theorem Container.SameLabels.refl (container : Container) : container.SameLabels container :=
  ⟨rfl, rfl, rfl, id⟩

/-- Every container ever created. A removed one keeps its entry, so its id is
not used again. -/
abbrev Engine := Table RuntimeId Container

/-- What happens to the containers, by this program or by anybody else. -/
inductive Change
  | create (id : RuntimeId) (container : Container)
  | state (id : RuntimeId) (status : String) (health : Option String)
  | remove (id : RuntimeId)

/-- The change creates a container with the labels this program gives to one of
the session. -/
def Change.creates (session_id : SessionId) : Change → Prop
  | .create _ container => container.managed = true ∧ container.session_id = some session_id
  | _ => False

namespace Engine

/-- The names of `create` are only used with the session label it gives. -/
def well_named (container : Container) : Bool :=
  match container.name with
  | .session session_id => container.session_id = some session_id
  | .other _ => true

/-- Whether a container that is not removed has the name. -/
def taken (engine : Engine) (name : ContainerName) : Bool :=
  engine.any fun _ container => container.name = name && !container.removed

/-- Labels and names are fixed when a container is created. -/
def change (engine : Engine) : Change → Option Engine
  | .create id container =>
    if engine.get? id = none ∧ engine.taken container.name = false ∧ well_named container = true then
      some (engine.insert id container)
    else none
  | .state id status health =>
    some (engine.modify id fun container => { container with status := status, health := health })
  | .remove id => some (engine.modify id fun container => { container with removed := true })

/-- The change as it is made, whoever asked for it and under any name. -/
def apply (engine : Engine) : Change → Engine
  | .create id container => engine.insert id container
  | .state id status health =>
    engine.modify id fun container => { container with status := status, health := health }
  | .remove id => engine.modify id fun container => { container with removed := true }

/-- A container of this id was created with the label of the session. -/
def labelled (engine : Engine) (id : RuntimeId) (session_id : SessionId) : Prop :=
  ∃ container ∈ engine.get? id, container.session_id = some session_id

/-- A container of this id was created under the name. -/
def named (engine : Engine) (id : RuntimeId) (name : ContainerName) : Prop :=
  ∃ container ∈ engine.get? id, container.name = name

/-- The container of this id has not been removed. -/
def live (engine : Engine) (id : RuntimeId) : Prop :=
  ∃ container ∈ engine.get? id, container.removed = false

/-- The container of this id has the labels this program gives to one of the
session, whether it is still there or not. -/
def belongs (engine : Engine) (id : RuntimeId) (session_id : SessionId) : Prop :=
  ∃ container ∈ engine.get? id, container.managed = true ∧ container.session_id = some session_id

instance (engine : Engine) (id : RuntimeId) : Decidable (engine.live id) :=
  inferInstanceAs (Decidable (∃ _ ∈ _, _))

instance (engine : Engine) (id : RuntimeId) (session_id : SessionId) :
    Decidable (engine.belongs id session_id) :=
  inferInstanceAs (Decidable (∃ _ ∈ _, _))

instance (engine : Engine) (id : RuntimeId) (session_id : SessionId) :
    Decidable (engine.labelled id session_id) :=
  inferInstanceAs (Decidable (∃ _ ∈ _, _))

instance (engine : Engine) (id : RuntimeId) (name : ContainerName) :
    Decidable (engine.named id name) :=
  inferInstanceAs (Decidable (∃ _ ∈ _, _))

/-- The container is running. -/
def running (engine : Engine) (id : RuntimeId) : Bool :=
  (engine.get? id).any fun container => container.status = "running" && !container.removed

variable {engine engine' : Engine} {id id' : RuntimeId} {session_id session_id' : SessionId}
  {container container' : Container} {c : Change}

/-- A container has one label for its session, and so belongs to one session. -/
theorem labelled_unique (h : engine.labelled id session_id) (h' : engine.labelled id session_id') :
    session_id = session_id' := by
  obtain ⟨container, hget, hlabel⟩ := h
  obtain ⟨container', hget', hlabel'⟩ := h'
  obtain rfl : container = container' := Option.some.inj (hget.symm.trans hget')
  exact Option.some.inj (hlabel.symm.trans hlabel')

private theorem change_eq_apply (hchange : engine.change c = some engine') : engine' = engine.apply c := by
  cases c with
  | create id container =>
    simp only [change, Option.ite_none_right_eq_some, Option.some.injEq] at hchange
    exact hchange.2.symm
  | state | remove => exact (Option.some.inj hchange).symm

private theorem modify_fixed {f : Container → Container}
    (hf : ∀ container, (f container).SameLabels container)
    (hget : engine.get? id = some container) :
    ∃ container', (engine.modify id' f).get? id = some container' ∧ container'.SameLabels container := by
  rw [Table.get?_modify, hget]
  by_cases hid : id = id'
  · exact ⟨f container, by simp [hid], hf container⟩
  · exact ⟨container, by simp [hid], .refl container⟩

/-- A container keeps its id, its name and its labels for good, whatever becomes of it. -/
theorem apply_fixed (c : Change) (hget : engine.get? id = some container) :
    ∃ container', (engine.apply c).get? id = some container' ∧ container'.SameLabels container := by
  cases c with
  | create id' new => exact ⟨container, Table.get?_insert_of_some _ hget, .refl container⟩
  | state => exact modify_fixed (fun _ => ⟨rfl, rfl, rfl, fun h => h⟩) hget
  | remove => exact modify_fixed (fun _ => ⟨rfl, rfl, rfl, fun _ => rfl⟩) hget

/-- A container after a change was there before, or is created by it. -/
theorem apply_cases (hget : (engine.apply c).get? id = some container') :
    (∃ container, engine.get? id = some container ∧ container'.SameLabels container) ∨
      (engine.get? id = none ∧ c = .create id container') := by
  cases hold : engine.get? id with
  | some container =>
    obtain ⟨container'', hget'', hsame⟩ := apply_fixed c hold
    obtain rfl : container'' = container' := Option.some.inj (hget''.symm.trans hget)
    exact .inl ⟨container, rfl, hsame⟩
  | none =>
    cases c with
    | create id' new =>
      rcases Table.get?_insert_cases _ hget with hget | ⟨-, rfl, rfl⟩
      · rw [hold] at hget
        cases hget
      · exact .inr ⟨rfl, rfl⟩
    | state | remove => simp [apply, Table.get?_modify, hold] at hget

section Apply

/-- A container that belongs to a session does so after any change, also once it is
removed. -/
theorem belongs_apply (c : Change) (h : engine.belongs id session_id) :
    (engine.apply c).belongs id session_id := by
  obtain ⟨container, hget, hmanaged, hlabel⟩ := h
  obtain ⟨container', hget', hsame⟩ := apply_fixed c hget
  exact ⟨container', hget', hsame.managed.trans hmanaged, hsame.session_id.trans hlabel⟩

/-- A container gets its labels when it is created and at no other time, by whoever
creates it. -/
theorem belongs_of_apply (h : (engine.apply c).belongs id session_id) :
    engine.belongs id session_id ∨ ∃ new, c = .create id new ∧ engine.get? id = none ∧
      new.managed = true ∧ new.session_id = some session_id := by
  obtain ⟨container', hget', hmanaged, hlabel⟩ := h
  rcases apply_cases hget' with ⟨container, hget, hsame⟩ | ⟨hnone, rfl⟩
  · exact .inl ⟨container, hget, hsame.managed ▸ hmanaged, hsame.session_id ▸ hlabel⟩
  · exact .inr ⟨container', rfl, hnone, hmanaged, hlabel⟩

/-- A container gets its name when it is created and at no other time. -/
theorem named_of_apply {name : ContainerName} (h : (engine.apply c).named id name) :
    engine.named id name ∨ ∃ new, c = .create id new ∧ engine.get? id = none ∧ new.name = name := by
  obtain ⟨container', hget', hname⟩ := h
  rcases apply_cases hget' with ⟨container, hget, hsame⟩ | ⟨hnone, rfl⟩
  · exact .inl ⟨container, hget, hsame.name ▸ hname⟩
  · exact .inr ⟨container', rfl, hnone, hname⟩

/-- A removed container does not come back: what is there was there before, or has just
been created under a new id. -/
theorem live_of_apply (h : (engine.apply c).live id) :
    engine.live id ∨ ∃ new, c = .create id new ∧ engine.get? id = none := by
  obtain ⟨container', hget', hlive⟩ := h
  rcases apply_cases hget' with ⟨container, hget, hsame⟩ | ⟨hnone, rfl⟩
  · refine .inl ⟨container, hget, ?_⟩
    by_contra hremoved
    rw [Bool.not_eq_false] at hremoved
    rw [hsame.removed hremoved] at hlive
    cases hlive
  · exact .inr ⟨container', rfl, hnone⟩

/-- A container stays until it is removed itself; stopping it or losing its health is
not enough. -/
theorem live_apply (h : engine.live id) (hc : c ≠ .remove id) : (engine.apply c).live id := by
  obtain ⟨container, hget, hlive⟩ := h
  cases c with
  | create id' new => exact ⟨container, Table.get?_insert_of_some _ hget, hlive⟩
  | state id' status health =>
    by_cases hid : id = id'
    · subst hid
      exact ⟨_, (Table.get?_modify_self ..).trans (congrArg (Option.map _) hget), hlive⟩
    · exact ⟨container, (Table.get?_modify_of_ne _ _ hid).trans hget, hlive⟩
  | remove id' =>
    have hne : id ≠ id' := fun hid => hc (by rw [hid])
    exact ⟨container, (Table.get?_modify_of_ne _ _ hne).trans hget, hlive⟩

/-- Unless a container is created, the containers that are there were there before. -/
theorem live_of_apply_of_ne_create (hc : ∀ id new, c ≠ .create id new) (h : (engine.apply c).live id) :
    engine.live id := by
  rcases live_of_apply h with hlive | ⟨new, heq, -⟩
  · exact hlive
  · exact absurd heq (hc id new)

/-- Unless a container is created, the names are those there were before. -/
theorem named_of_apply_of_ne_create {name : ContainerName} (hc : ∀ id new, c ≠ .create id new)
    (h : (engine.apply c).named id name) : engine.named id name := by
  rcases named_of_apply h with hname | ⟨new, heq, -⟩
  · exact hname
  · exact absurd heq (hc id new)

/-- No container comes or goes when one changes its state or its health. -/
theorem live_apply_state {id' : RuntimeId} {status : String} {health : Option String} :
    (engine.apply (.state id' status health)).live id ↔ engine.live id :=
  ⟨live_of_apply_of_ne_create (by simp), fun h => live_apply h (by simp)⟩

/-- The name of a container that is there is taken, so Docker refuses another one of
that name. -/
theorem taken_of_live {name : ContainerName} (hnamed : engine.named id name) (hlive : engine.live id) :
    engine.taken name = true := by
  obtain ⟨container, hget, hname⟩ := hnamed
  obtain ⟨container', hget', hremoved⟩ := hlive
  obtain rfl : container = container' := Option.some.inj (hget.symm.trans hget')
  exact (Table.any_eq_true_iff ..).mpr ⟨id, container, hget, by simp [hname, hremoved]⟩

/-- A new container is there, if it is not created as removed. Its id is new to the
engine. -/
theorem live_create {new : Container} (hfresh : engine.get? id = none) (hnew : new.removed = false) :
    (engine.apply (.create id new)).live id :=
  ⟨new, (Table.get?_insert _ _ hfresh id).trans (if_pos rfl), hnew⟩

end Apply

section Sole

/-- A session has at most one container. -/
def Sole (engine : Engine) : Prop :=
  ∀ session_id id id', engine.belongs id session_id → engine.live id →
    engine.belongs id' session_id → engine.live id' → id = id'

/-- The names of `create` are used by this program only. -/
def Ours (engine : Engine) : Prop :=
  ∀ id session_id, engine.named id (.session session_id) → engine.belongs id session_id

/-- A session keeps to the containers it has, unless one is created for it: no other
change makes a container come back. -/
theorem live_of_apply_belongs (hbelongs : engine.belongs id session_id) (h : (engine.apply c).live id) :
    engine.live id := by
  rcases live_of_apply h with hlive | ⟨-, -, hnone⟩
  · exact hlive
  · obtain ⟨container, hget, -⟩ := hbelongs
    rw [hnone] at hget
    cases hget

/-- A session keeps to one container if one is only created for it while it has none.
The lock of `create` and its lookup see to that. -/
theorem Sole.apply (h : engine.Sole)
    (hc : ∀ session_id, c.creates session_id → ∀ id, engine.belongs id session_id → ¬ engine.live id) :
    (engine.apply c).Sole := by
  intro session_id id id' hbelongs hlive hbelongs' hlive'
  rcases belongs_of_apply hbelongs with hold | ⟨new, rfl, -, hmanaged, hlabel⟩
  · rcases belongs_of_apply hbelongs' with hold' | ⟨new, rfl, -, hmanaged, hlabel⟩
    · exact h session_id id id' hold (live_of_apply_belongs hold hlive) hold' (live_of_apply_belongs hold' hlive')
    · exact absurd (live_of_apply_belongs hold hlive) (hc session_id ⟨hmanaged, hlabel⟩ id hold)
  · rcases belongs_of_apply hbelongs' with hold' | ⟨_, heq, -⟩
    · exact absurd (live_of_apply_belongs hold' hlive') (hc session_id ⟨hmanaged, hlabel⟩ id' hold')
    · cases heq
      rfl

/-- The names of `create` stay this program's, as nobody else creates a container under
one. -/
theorem Ours.apply (h : engine.Ours)
    (hc : ∀ id container session_id, c = .create id container → container.name = .session session_id →
      c.creates session_id) : (engine.apply c).Ours := by
  intro id session_id hnamed
  rcases named_of_apply hnamed with hold | ⟨new, rfl, hnone, hname⟩
  · exact belongs_apply c (h id session_id hold)
  · exact ⟨new, (Table.get?_insert _ _ hnone id).trans (if_pos rfl), hc id new session_id rfl hname⟩

end Sole

private theorem change_fixed (hchange : engine.change c = some engine')
    (hget : engine.get? id = some container) :
    ∃ container', engine'.get? id = some container' ∧ container'.SameLabels container :=
  change_eq_apply hchange ▸ apply_fixed c hget

/-- A label stays, also after a change of somebody else. So what a task has learnt of a
container's label stays true. -/
theorem change_labelled (hchange : engine.change c = some engine')
    (h : engine.labelled id session_id) : engine'.labelled id session_id := by
  obtain ⟨container, hget, hlabel⟩ := h
  obtain ⟨container', hget', hsame⟩ := change_fixed hchange hget
  exact ⟨container', hget', hsame.session_id.trans hlabel⟩

/-- Every container with a name of `create` carries its label. -/
def Named (engine : Engine) : Prop :=
  ∀ id session_id, engine.named id (.session session_id) → engine.labelled id session_id

/-- There is no container to be named before the first one is created. -/
theorem Named.empty : Named Table.empty := by
  rintro _ _ ⟨_, hget, -⟩
  cases hget

/-- A container after a change was there before, or is created by it. -/
private theorem change_cases (hchange : engine.change c = some engine')
    (hget : engine'.get? id = some container') :
    (∃ container, engine.get? id = some container ∧ container.name = container'.name) ∨
      well_named container' = true := by
  rw [change_eq_apply hchange] at hget
  rcases apply_cases hget with ⟨container, hold, hsame⟩ | ⟨-, rfl⟩
  · exact .inl ⟨container, hold, hsame.name.symm⟩
  · simp only [change, Option.ite_none_right_eq_some] at hchange
    exact .inr hchange.1.2.2

/-- Every container with a name of `create` goes on to carry its label: the engine
admits no other container of such a name. -/
theorem Named.change (h : Named engine) (hchange : engine.change c = some engine') :
    Named engine' := by
  rintro id session_id ⟨container', hget', hname'⟩
  rcases change_cases hchange hget' with ⟨container, hget, hname⟩ | hnew
  · exact change_labelled hchange (h id session_id ⟨container, hget, hname.trans hname'⟩)
  · refine ⟨container', hget', ?_⟩
    simpa [well_named, hname'] using hnew

end Engine

end session_manager.docker
