import SessionManager.Library.Transition
import SessionManager.World.Step
import Mathlib.Data.List.Nodup
import Mathlib.Data.List.Perm.Subperm

open transition unit_of_work

namespace session_manager.runtime_reconciler

/-- A runtime is selected whenever there is a candidate, whatever the session is bound
to. -/
theorem select_eq_none {runtime_id : Option RuntimeId} {candidates : List RuntimeInfo} :
    _select_runtime runtime_id candidates = none ↔ candidates = [] := by
  constructor
  · intro h
    unfold _select_runtime at h
    split at h
    · split at h
      · cases h
      · simpa using h
    · simpa using h
  · rintro rfl
    simp [_select_runtime]

/-- The runtime a session is bound to is selected when it is a candidate. An empty id
counts as no binding. -/
theorem select_bound {candidates : List RuntimeInfo} {bound : RuntimeInfo}
    (hmem : bound ∈ candidates) (hnonempty : bound.runtime_id ≠ "")
    (hone : ∀ a ∈ candidates, a.runtime_id = bound.runtime_id → a = bound) :
    _select_runtime (some bound.runtime_id) candidates = some bound := by
  have htruthy : truthy (some bound.runtime_id) = true := by simpa [truthy] using hnonempty
  rw [_select_runtime, if_pos htruthy]
  cases hfind : candidates.find? fun item => some item.runtime_id = some bound.runtime_id with
  | none =>
    have hnot := List.find?_eq_none.mp hfind bound hmem
    simp at hnot
  | some exact =>
    have hid : exact.runtime_id = bound.runtime_id := by simpa using List.find?_some hfind
    rw [hone exact (List.mem_of_find?_eq_some hfind) hid]

private theorem reconcile_session_sublist (now : Time) (candidates : List RuntimeInfo)
    (session : AgentSession) :
    (reconcile_session now candidates session).1.Sublist candidates := by
  unfold reconcile_session duplicates
  split
  · exact List.nil_sublist _
  · split
    · exact List.Sublist.refl _
    · split
      · exact List.nil_sublist _
      · split
        · exact List.filter_sublist
        · exact List.filter_sublist

/-- What one iteration of the second loop deletes. -/
private theorem mem_reconcile_session {now : Time} {candidates : List RuntimeInfo} {session : AgentSession}
    {runtime : RuntimeInfo} (hmem : runtime ∈ candidates) :
    runtime ∈ (reconcile_session now candidates session).1 ↔
      session.deleted_at = none ∧ (session.expires_at ≤ now ∨ active session.status = true ∧
        ∀ selected, _select_runtime session.runtime_id candidates = some selected →
          runtime.runtime_id ≠ selected.runtime_id) := by
  unfold reconcile_session
  by_cases hdeleted : session.deleted_at = none
  · by_cases hexpired : session.expires_at ≤ now
    · simp [hdeleted, hexpired, hmem]
    · by_cases hactive : active session.status = true
      · cases hselect : _select_runtime session.runtime_id candidates with
        | none => simp [hdeleted, hexpired, hactive, hmem, duplicates]
        | some selected => simp [hdeleted, hexpired, hactive, hmem, duplicates]
      · simp [hdeleted, hexpired, hactive]
  · have hsome : session.deleted_at.isSome = true := Option.isSome_iff_ne_none.mpr hdeleted
    simp [hdeleted, hsome]

namespace Pass

variable {pass : Pass} {runtime : RuntimeInfo} {session_id : SessionId} {session : AgentSession}

/-- The reasons to delete a listed runtime: its session is missing, deleted or
expired, or is active and another runtime is selected for it. -/
def condemns (pass : Pass) (runtime : RuntimeInfo) : Prop :=
  pass.sessions.get? runtime.session_id = none ∨
  ∃ session, pass.sessions.get? runtime.session_id = some session ∧
    (session.deleted_at.isSome = true ∨ session.expires_at ≤ pass.now ∨
      active session.status = true ∧
        _select_runtime session.runtime_id (pass.candidates runtime.session_id) ≠ some runtime)

/-- The candidates of a session are the listed runtimes with its label; the binding in
the database plays no part in it. -/
theorem mem_candidates :
    runtime ∈ pass.candidates session_id ↔ runtime ∈ pass.runtimes ∧ runtime.session_id = session_id := by
  simp [candidates]

private theorem mem_orphans :
    runtime ∈ pass.orphans ↔ runtime ∈ pass.runtimes ∧
      ∀ session, pass.sessions.get? runtime.session_id = some session →
        session.deleted_at.isSome = true := by
  rw [orphans, List.mem_filter]
  cases pass.sessions.get? runtime.session_id <;> simp

/-- The second loop deletes a runtime in the iteration of its own session only. -/
private theorem mem_second_loop :
    (runtime ∈ pass.sessions.rows.flatMap fun s =>
        (reconcile_session pass.now (pass.candidates s.1) s.2).1) ↔
      ∃ session, pass.sessions.get? runtime.session_id = some session ∧
        runtime ∈ (reconcile_session pass.now (pass.candidates runtime.session_id) session).1 := by
  rw [List.mem_flatMap]
  constructor
  · rintro ⟨⟨session_id, session⟩, hrow, hdelete⟩
    have hcandidate := (reconcile_session_sublist ..).subset hdelete
    obtain ⟨-, rfl⟩ := mem_candidates.mp hcandidate
    exact ⟨session, pass.sessions.get?_eq_some_iff_mem.mpr hrow, hdelete⟩
  · rintro ⟨session, hget, hdelete⟩
    exact ⟨(runtime.session_id, session), pass.sessions.get?_eq_some_iff_mem.mp hget, hdelete⟩

/-- The listed runtimes with the id of one are that one. -/
def one_entry (pass : Pass) : Prop :=
  ∀ a ∈ pass.runtimes, ∀ b ∈ pass.runtimes, a.runtime_id = b.runtime_id → a = b

/-- A listing of distinct containers has one entry for each of them, which is what
Docker lists. -/
theorem one_entry_of_nodup (hdistinct : (pass.runtimes.map RuntimeInfo.runtime_id).Nodup) :
    pass.one_entry :=
  fun _ ha _ hb hid => List.inj_on_of_nodup_map hdistinct ha hb hid

/-- The runtimes deleted are the listed ones there is a reason to delete, each for one
of the reasons of `condemns`. -/
theorem mem_deletions (hone : pass.one_entry) :
    runtime ∈ pass.deletions ↔ runtime ∈ pass.runtimes ∧ pass.condemns runtime := by
  rw [deletions, List.mem_append, mem_orphans, mem_second_loop]
  constructor
  · rintro (⟨hlisted, horphan⟩ | ⟨session, hget, hdelete⟩)
    · refine ⟨hlisted, ?_⟩
      cases hget : pass.sessions.get? runtime.session_id with
      | none => exact .inl hget
      | some session => exact .inr ⟨session, hget, .inl (horphan session hget)⟩
    · have hcandidate := (reconcile_session_sublist ..).subset hdelete
      obtain ⟨-, hreason⟩ := (mem_reconcile_session hcandidate).mp hdelete
      refine ⟨(mem_candidates.mp hcandidate).1, .inr ⟨session, hget, .inr ?_⟩⟩
      rcases hreason with hexpired | ⟨hactive, hother⟩
      · exact .inl hexpired
      · exact .inr ⟨hactive, fun hselect => hother runtime hselect rfl⟩
  · rintro ⟨hlisted, hmissing | ⟨session, hget, hreason⟩⟩
    · exact .inl ⟨hlisted, fun session hget => by simp [hmissing] at hget⟩
    · cases hdeleted : session.deleted_at with
      | some at_ =>
        refine .inl ⟨hlisted, fun session' hget' => ?_⟩
        obtain rfl : session = session' := Option.some.inj (hget.symm.trans hget')
        simp [hdeleted]
      | none =>
        have hcandidate : runtime ∈ pass.candidates runtime.session_id :=
          mem_candidates.mpr ⟨hlisted, rfl⟩
        refine .inr ⟨session, hget, (mem_reconcile_session hcandidate).mpr ⟨hdeleted, ?_⟩⟩
        rcases hreason with hsome | hexpired | ⟨hactive, hother⟩
        · simp [hdeleted] at hsome
        · exact .inl hexpired
        · refine .inr ⟨hactive, fun selected hselect hid => hother ?_⟩
          have hselected := (mem_candidates.mp (select_mem hselect)).1
          rw [hselect, hone runtime hlisted selected hselected hid]

private theorem deletions_nodup (hdistinct : (pass.runtimes.map RuntimeInfo.runtime_id).Nodup) :
    (pass.deletions.map RuntimeInfo.runtime_id).Nodup := by
  have hruntimes : pass.runtimes.Nodup := List.Nodup.of_map _ hdistinct
  have hkeys := List.pairwise_map.mp pass.sessions.nodup
  have hloop : (pass.sessions.rows.flatMap fun s =>
      (reconcile_session pass.now (pass.candidates s.1) s.2).1).Nodup := by
    refine List.nodup_flatMap.mpr ⟨fun s _ => ?_, hkeys.imp fun hne runtime ha hb => hne ?_⟩
    · exact (hruntimes.filter _).sublist (reconcile_session_sublist ..)
    · have hfirst := (mem_candidates.mp ((reconcile_session_sublist ..).subset ha)).2
      have hsecond := (mem_candidates.mp ((reconcile_session_sublist ..).subset hb)).2
      exact hfirst.symm.trans hsecond
  have hdeletions : pass.deletions.Nodup := by
    refine List.nodup_append'.mpr ⟨hruntimes.filter _, hloop, fun runtime horphan hdelete => ?_⟩
    obtain ⟨session, hget, hdelete⟩ := mem_second_loop.mp hdelete
    have hcandidate := (reconcile_session_sublist ..).subset hdelete
    have hdeleted := (mem_orphans.mp horphan).2 session hget
    have hundeleted := ((mem_reconcile_session hcandidate).mp hdelete).1
    simp [hundeleted] at hdeleted
  have hone := one_entry_of_nodup hdistinct
  exact hdeletions.map_on fun a ha b hb =>
    hone a ((mem_deletions hone).mp ha).1 b ((mem_deletions hone).mp hb).1

/-- The copy the pass commits becomes the row, when nobody else wrote the session since
the pass read it. -/
theorem apply_transaction {db : Database} (hread : pass.sessions = db.sessions)
    (session_id : SessionId) :
    (db.apply pass.transaction).sessions.get? session_id =
      (pass.sessions.get? session_id).map fun session =>
        (reconcile_session pass.now (pass.candidates session_id) session).2 := by
  rw [Database.apply_sessions_get? rfl, ← hread]
  cases hget : pass.sessions.get? session_id with
  | none => rfl
  | some session =>
    have hupdate : pass.transaction.update_session session_id = Loaded.update
        ⟨session, (reconcile_session pass.now (pass.candidates session_id) session).2⟩ := by
      simp [transaction, copy, hget]
    rw [Option.map_some, Option.map_some, hupdate, Loaded.update_getD]
    exact congrArg some (Columns.update_loaded ..)

end Pass

/-- A pass on its own, with the deletions it has asked its provider for and
whether each of them ended well. -/
structure Alone where
  task : Reconcile
  requests : List (RuntimeId × Bool)

/-- The deletion whose end the input reports. -/
def Reconcile.asked : Reconcile → Input → List (RuntimeId × Bool)
  | .delete (runtime :: _) _, .runtime ok => [(runtime.runtime_id, ok)]
  | _, _ => []

def Alone.step (db : Database) (pass : Alone) (l : Label) : Option Alone :=
  match pass.task.resume db l with
  | some (.proceed (.reconcile next)) => some ⟨next, pass.requests ++ pass.task.asked l.input⟩
  | _ => none

/-- `reconcile` up to its commit, over the committed database `db`. -/
abbrev Alone.Run (db : Database) (pass : Pass) (requests : List (RuntimeId × Bool)) : Prop :=
  transition.Run (Alone.step db) (fun _ _ => True) ⟨.list, []⟩ ⟨.commit pass, requests⟩

namespace Alone

variable {db : Database} {pass : Pass} {requests : List (RuntimeId × Bool)}

/-- The requests made and the deletions pending are those the pass decided on
when it read the sessions. -/
def Deciding (db : Database) (a : Alone) : Prop :=
  match a.task with
  | .list | .select _ => a.requests = []
  | .delete pending pass => pending ≠ [] ∧ pass.sessions = db.sessions ∧
      a.requests.map Prod.fst ++ pending.map RuntimeInfo.runtime_id =
        pass.deletions.map RuntimeInfo.runtime_id
  | .commit pass => pass.sessions = db.sessions ∧
      a.requests.map Prod.fst = pass.deletions.map RuntimeInfo.runtime_id
  | .returned | .raised => True

private theorem deciding_next {pending : List RuntimeInfo} (hread : pass.sessions = db.sessions)
    (hdecided : requests.map Prod.fst ++ pending.map RuntimeInfo.runtime_id =
      pass.deletions.map RuntimeInfo.runtime_id) :
    Deciding db ⟨next_deletion pending pass, requests⟩ := by
  cases pending with
  | nil => exact ⟨hread, by simpa using hdecided⟩
  | cons runtime pending => exact ⟨by simp, hread, hdecided⟩

/-- The steps of a pass on its own. -/
inductive Stepped (db : Database) : Alone → Alone → Prop
  | listed (runtimes : List RuntimeInfo) (requests : List (RuntimeId × Bool)) :
      Stepped db ⟨.list, requests⟩ ⟨.select runtimes, requests⟩
  | read (pass : Pass) (hread : pass.sessions = db.sessions) (requests : List (RuntimeId × Bool)) :
      Stepped db ⟨.select pass.runtimes, requests⟩ ⟨next_deletion pass.deletions pass, requests⟩
  | deleted (pending : List RuntimeInfo) (pass : Pass) (ok : Bool)
      (requests : List (RuntimeId × Bool)) :
      Stepped db ⟨.delete pending pass, requests⟩ ⟨next_deletion pending.tail pass,
        requests ++ (Reconcile.delete pending pass).asked (.runtime ok)⟩
  | raised (a : Alone) (requests : List (RuntimeId × Bool)) : Stepped db a ⟨.raised, requests⟩

/-- A step of a pass on its own is one of those listed: the listing, the SELECT, a
deletion with its answer, or a raise that ends the pass. -/
theorem stepped {a a' : Alone} {l : Label} (hstep : a.step db l = some a') : Stepped db a a' := by
  obtain ⟨task, requests⟩ := a
  obtain ⟨p, input, now, uuid⟩ := l
  simp only [step] at hstep
  split at hstep
  · rename_i next hnext
    obtain rfl := Option.some.inj hstep
    cases task with
    | list =>
      cases input with
      | listed runtimes =>
        cases runtimes with
        | none =>
          cases hnext
          exact .raised _ _
        | some runtimes =>
          cases hnext
          simpa [Reconcile.asked] using Stepped.listed runtimes requests
      | _ => cases hnext
    | select runtimes =>
      cases input with
      | returned =>
        cases hnext
        simpa [Reconcile.asked] using Stepped.read ⟨runtimes, db.sessions, now⟩ rfl requests
      | failed =>
        cases hnext
        exact .raised _ _
      | _ => cases hnext
    | delete pending pass =>
      cases input with
      | runtime ok =>
        cases hnext
        exact .deleted pending pass ok requests
      | _ => cases hnext
    | commit pass =>
      cases input with
      | failed =>
        cases hnext
        exact .raised _ _
      | _ => cases hnext
    | _ => cases hnext
  · cases hstep

private theorem stepped_deciding {a a' : Alone} (h : a.Deciding db) (hstep : Stepped db a a') :
    a'.Deciding db := by
  cases hstep with
  | listed runtimes requests => exact h
  | read pass hread requests =>
    obtain rfl : requests = [] := h
    exact deciding_next hread rfl
  | deleted pending pass ok requests =>
    obtain ⟨hpending, hread, hdecided⟩ := h
    obtain ⟨runtime, pending, rfl⟩ := List.exists_cons_of_ne_nil hpending
    exact deciding_next hread (by simpa [Reconcile.asked] using hdecided)
  | raised a requests => trivial

/-- Up to its commit a pass has asked for its deletions, each one once and in the order
in which it has decided on them. -/
theorem requests_eq (hrun : Run db pass requests) :
    pass.sessions = db.sessions ∧
      requests.map Prod.fst = pass.deletions.map RuntimeInfo.runtime_id :=
  transition.Run.invariant (I := Deciding db)
    (fun _ _ _ h _ hstep => stepped_deciding h (stepped hstep))
    (show Deciding db ⟨.list, []⟩ from rfl) hrun

/-- The provider may answer each request in any way; the pass gets to its commit. -/
private theorem run_deletions (db : Database) (pass : Pass) (ok : RuntimeId → Bool) (pending : List RuntimeInfo)
    (requests : List (RuntimeId × Bool)) :
    transition.Run (step db) (fun _ _ => True) ⟨next_deletion pending pass, requests⟩
      ⟨.commit pass, requests ++ pending.map fun r => (r.runtime_id, ok r.runtime_id)⟩ := by
  induction pending generalizing requests with
  | nil =>
    rw [List.map_nil, List.append_nil]
    exact .refl
  | cons runtime pending ih =>
    have hstep : step db ⟨next_deletion (runtime :: pending) pass, requests⟩
        { pid := 0, input := .runtime (ok runtime.runtime_id) } =
        some ⟨next_deletion pending pass, requests ++ [(runtime.runtime_id, ok runtime.runtime_id)]⟩ :=
      rfl
    have hrest := ih (requests ++ [(runtime.runtime_id, ok runtime.runtime_id)])
    rw [List.append_assoc] at hrest
    exact (transition.Run.single trivial hstep).trans hrest

/-- A pass gets to its commit, whatever the provider answers to its deletions: each
error is caught and logged, and the loop goes on. -/
theorem reaches_commit (hread : pass.sessions = db.sessions) (ok : RuntimeId → Bool) :
    Run db pass (pass.deletions.map fun r => (r.runtime_id, ok r.runtime_id)) := by
  obtain ⟨runtimes, sessions, now⟩ := pass
  obtain rfl : sessions = db.sessions := hread
  have hlist : step db ⟨.list, []⟩ { pid := 0, input := .listed (some runtimes) } =
      some ⟨.select runtimes, []⟩ := rfl
  have hselect : step db ⟨.select runtimes, []⟩ { pid := 0, input := .returned, now := now } =
      some ⟨next_deletion (Pass.deletions ⟨runtimes, db.sessions, now⟩) ⟨runtimes, db.sessions, now⟩, []⟩ :=
    rfl
  refine (transition.Run.single trivial hlist).trans ((transition.Run.single trivial hselect).trans ?_)
  exact run_deletions db _ ok _ []

end Alone

/-- The listed runtimes of a session whose deletion was not asked for or failed. -/
def Pass.left (pass : Pass) (requests : List (RuntimeId × Bool)) (session_id : SessionId) :
    List RuntimeInfo :=
  (pass.candidates session_id).filter fun runtime => (runtime.runtime_id, true) ∉ requests

namespace Pass

variable {db : Database} {pass : Pass} {requests : List (RuntimeId × Bool)} {runtime : RuntimeInfo}
  {session_id : SessionId} {session : AgentSession}

/-- A listed runtime is asked for exactly when there is a reason to delete it. -/
theorem requested_iff (hone : pass.one_entry)
    (hrequests : requests.map Prod.fst = pass.deletions.map RuntimeInfo.runtime_id)
    (hlisted : runtime ∈ pass.runtimes) :
    runtime.runtime_id ∈ requests.map Prod.fst ↔ pass.condemns runtime := by
  rw [hrequests, List.mem_map]
  constructor
  · rintro ⟨deleted, hdelete, hid⟩
    obtain ⟨hmem, hcondemned⟩ := (mem_deletions hone).mp hdelete
    rwa [← hone deleted hmem runtime hlisted hid]
  · intro hcondemned
    exact ⟨runtime, (mem_deletions hone).mpr ⟨hlisted, hcondemned⟩, rfl⟩

/-- The runtime that an undeleted, unexpired session of the same label is bound to
stays, because it is the one that is selected. -/
theorem not_condemns_bound (hone : pass.one_entry) (hlisted : runtime ∈ pass.runtimes)
    (hnonempty : runtime.runtime_id ≠ "")
    (hget : pass.sessions.get? runtime.session_id = some session)
    (hundeleted : session.deleted_at = none) (hunexpired : pass.now < session.expires_at)
    (hbound : session.runtime_id = some runtime.runtime_id) : ¬ pass.condemns runtime := by
  have hselect : _select_runtime session.runtime_id (pass.candidates runtime.session_id) =
      some runtime := by
    rw [hbound]
    exact select_bound (mem_candidates.mpr ⟨hlisted, rfl⟩) hnonempty fun a ha hid =>
      hone a (mem_candidates.mp ha).1 runtime hlisted hid
  rintro (hmissing | ⟨session', hget', hreason⟩)
  · simp [hget] at hmissing
  · obtain rfl : session = session' := Option.some.inj (hget.symm.trans hget')
    rcases hreason with hdeleted | hexpired | ⟨-, hother⟩
    · simp [hundeleted] at hdeleted
    · exact absurd hexpired (Nat.not_le.mpr hunexpired)
    · exact hother hselect

/-- What is left of the runtimes of an active, unexpired session is the selected one,
when the deletions of the others succeeded. -/
theorem select_of_left (hone : pass.one_entry)
    (hrequests : requests.map Prod.fst = pass.deletions.map RuntimeInfo.runtime_id)
    (hget : pass.sessions.get? session_id = some session) (hactive : active session.status = true)
    (hsucceed : ∀ runtime ∈ pass.candidates session_id, (runtime.runtime_id, false) ∉ requests)
    (hleft : runtime ∈ pass.left requests session_id) :
    session.deleted_at = none ∧
      _select_runtime session.runtime_id (pass.candidates session_id) = some runtime := by
  obtain ⟨hcandidate, hkept⟩ := List.mem_filter.mp hleft
  obtain ⟨hlisted, rfl⟩ := mem_candidates.mp hcandidate
  have hnot : ¬ pass.condemns runtime := by
    intro hcondemned
    obtain ⟨⟨id, ok⟩, hmem, hid⟩ :=
      List.mem_map.mp ((requested_iff hone hrequests hlisted).mpr hcondemned)
    obtain rfl : id = runtime.runtime_id := hid
    cases ok with
    | true => simp [hmem] at hkept
    | false => exact hsucceed runtime hcandidate hmem
  constructor
  · by_contra hdeleted
    exact hnot (.inr ⟨session, hget, .inl (Option.isSome_iff_ne_none.mpr hdeleted)⟩)
  · by_contra hother
    exact hnot (.inr ⟨session, hget, .inr (.inr ⟨hactive, hother⟩)⟩)

/-- An active session whose deletions all succeeded is left with one runtime at most,
whatever the listing held for it. -/
theorem length_left_le_one (hdistinct : (pass.runtimes.map RuntimeInfo.runtime_id).Nodup)
    (hrequests : requests.map Prod.fst = pass.deletions.map RuntimeInfo.runtime_id)
    (hget : pass.sessions.get? session_id = some session) (hactive : active session.status = true)
    (hsucceed : ∀ runtime ∈ pass.candidates session_id, (runtime.runtime_id, false) ∉ requests) :
    (pass.left requests session_id).length ≤ 1 := by
  have hone := one_entry_of_nodup hdistinct
  have hnodup : (pass.left requests session_id).Nodup :=
    ((List.Nodup.of_map _ hdistinct).filter _).filter _
  cases hselect : _select_runtime session.runtime_id (pass.candidates session_id) with
  | none =>
    have hempty : pass.left requests session_id = [] := by
      simp [left, select_eq_none.mp hselect]
    simp [hempty]
  | some selected =>
    have hsubset : pass.left requests session_id ⊆ [selected] := by
      intro runtime hleft
      obtain ⟨-, hselect'⟩ := select_of_left hone hrequests hget hactive hsucceed hleft
      exact List.mem_singleton.mpr (Option.some.inj (hselect'.symm.trans hselect))
    exact (List.subperm_of_subset hnodup hsubset).length_le

/-- The runtime that is left is the one the session is bound to after the commit, so row
and engine agree again. -/
theorem bound_of_left (hone : pass.one_entry) (hread : pass.sessions = db.sessions)
    (hrequests : requests.map Prod.fst = pass.deletions.map RuntimeInfo.runtime_id)
    (hget : pass.sessions.get? session_id = some session) (hactive : active session.status = true)
    (hunexpired : pass.now < session.expires_at)
    (hsucceed : ∀ runtime ∈ pass.candidates session_id, (runtime.runtime_id, false) ∉ requests)
    (hleft : runtime ∈ pass.left requests session_id) :
    ∃ row, (db.apply pass.transaction).sessions.get? session_id = some row ∧
      row.runtime_id = some runtime.runtime_id := by
  obtain ⟨hundeleted, hselect⟩ := select_of_left hone hrequests hget hactive hsucceed hleft
  refine ⟨_, by rw [apply_transaction hread, hget, Option.map_some], ?_⟩
  have hexpired : ¬ session.expires_at ≤ pass.now := Nat.not_le.mpr hunexpired
  simp [reconcile_session, hundeleted, hexpired, hactive, hselect, bind_selected_runtime_id]

/-- What one pass asks its provider to delete, whatever the provider answers:
each runtime once, exactly those there is a reason to delete. It reaches its
commit, and if the deletions of the runtimes of a session succeed, the session
is left with at most the runtime the commit binds it to. -/
theorem reconcile_deletes (db : Database) (pass : Pass) (hread : pass.sessions = db.sessions)
    (hdistinct : (pass.runtimes.map RuntimeInfo.runtime_id).Nodup) :
    (∀ ok : RuntimeId → Bool, ∃ requests, Alone.Run db pass requests ∧
      ∀ request ∈ requests, request.2 = ok request.1) ∧
    ∀ requests, Alone.Run db pass requests →
      (requests.map Prod.fst).Nodup ∧
      (∀ runtime_id ∈ requests.map Prod.fst, ∃ runtime ∈ pass.runtimes,
        runtime.runtime_id = runtime_id) ∧
      (∀ runtime ∈ pass.runtimes,
        (runtime.runtime_id ∈ requests.map Prod.fst ↔ pass.condemns runtime)) ∧
      (∀ runtime ∈ pass.runtimes, ∀ session,
        pass.sessions.get? runtime.session_id = some session → session.deleted_at = none →
        pass.now < session.expires_at → session.runtime_id = some runtime.runtime_id →
        runtime.runtime_id ≠ "" → runtime.runtime_id ∉ requests.map Prod.fst) ∧
      ∀ session_id session, pass.sessions.get? session_id = some session →
        active session.status = true → pass.now < session.expires_at →
        (∀ runtime ∈ pass.candidates session_id, (runtime.runtime_id, false) ∉ requests) →
        (pass.left requests session_id).length ≤ 1 ∧
        (db.conflict pass.transaction = false → ∀ runtime ∈ pass.left requests session_id,
          ∃ row, (db.apply pass.transaction).sessions.get? session_id = some row ∧
            row.runtime_id = some runtime.runtime_id) := by
  have hone := one_entry_of_nodup hdistinct
  constructor
  · intro ok
    refine ⟨_, Alone.reaches_commit hread ok, fun request hrequest => ?_⟩
    obtain ⟨runtime, -, rfl⟩ := List.mem_map.mp hrequest
    rfl
  · intro requests hrun
    obtain ⟨-, hrequests⟩ := Alone.requests_eq hrun
    refine ⟨hrequests ▸ deletions_nodup hdistinct, ?_, ?_, ?_, ?_⟩
    · intro runtime_id hmem
      rw [hrequests] at hmem
      obtain ⟨runtime, hdelete, hid⟩ := List.mem_map.mp hmem
      exact ⟨runtime, ((mem_deletions hone).mp hdelete).1, hid⟩
    · intro runtime hlisted
      exact requested_iff hone hrequests hlisted
    · intro runtime hlisted session hget hundeleted hunexpired hbound hnonempty hmem
      have hcondemned := (requested_iff hone hrequests hlisted).mp hmem
      exact not_condemns_bound hone hlisted hnonempty hget hundeleted hunexpired hbound hcondemned
    · intro session_id session hget hactive hunexpired hsucceed
      refine ⟨length_left_le_one hdistinct hrequests hget hactive hsucceed, fun _ runtime hleft => ?_⟩
      exact bound_of_left hone hread hrequests hget hactive hunexpired hsucceed hleft

/-- Of the two containers of a session the one it is not bound to is deleted. -/
theorem reconcile_deletes_duplicate : ∃ (db : Database) (pass : Pass),
    pass.runtimes = [⟨"b", 1, "running", 10⟩, ⟨"a", 1, "running", 10⟩] ∧
    ∀ requests, Alone.Run db pass requests →
      "b" ∈ requests.map Prod.fst ∧ "a" ∉ requests.map Prod.fst := by
  let session : AgentSession := { status := .READY, runtime_id := some "a", expires_at := 10 }
  let db : Database := { Database.empty with sessions := Table.empty.insert 1 session }
  refine ⟨db, ⟨[⟨"b", 1, "running", 10⟩, ⟨"a", 1, "running", 10⟩], db.sessions, 0⟩, rfl,
    fun requests hrun => ?_⟩
  obtain ⟨-, -, hexact, hbound, -⟩ := (reconcile_deletes db _ rfl (by decide)).2 requests hrun
  constructor
  · exact (hexact ⟨"b", 1, "running", 10⟩ (by decide)).mpr
      (.inr ⟨session, rfl, .inr (.inr ⟨rfl, by decide⟩)⟩)
  · exact hbound ⟨"a", 1, "running", 10⟩ (by decide) session rfl rfl (by decide) rfl (by decide)

/-- The runtime a session is bound to carries the label of another session that
does not exist, and is deleted as an orphan. A stopped session is bound to the
runtime of another session, whose own binding is then refused. -/
theorem foreign_bindings :
    (∃ (db : Database) (pass : Pass) (session : AgentSession), pass.sessions = db.sessions ∧
      (pass.runtimes.map RuntimeInfo.runtime_id).Nodup ∧
      Alone.Run db pass [("a", true)] ∧
      pass.sessions.get? 1 = some session ∧ session.runtime_id = some "a" ∧
      session.status = .READY ∧ session.deleted_at = none ∧ pass.now < session.expires_at) ∧
    ∃ (db : Database) (pass : Pass) (session : AgentSession), pass.sessions = db.sessions ∧
      (pass.runtimes.map RuntimeInfo.runtime_id).Nodup ∧
      Alone.Run db pass [] ∧ db.conflict pass.transaction = true ∧
      pass.sessions.get? 1 = some session ∧ session.status = .CREATING ∧
      session.deleted_at = none ∧ pass.now < session.expires_at ∧ session.runtime_id = none ∧
      pass.left [] 1 = [⟨"a", 1, "running", 10⟩] := by
  constructor
  · let session : AgentSession := { status := .READY, runtime_id := some "a", expires_at := 10 }
    refine ⟨{ Database.empty with sessions := Table.empty.insert 1 session },
      ⟨[⟨"a", 2, "running", 10⟩], _, 0⟩, _, rfl, by decide, ?_, rfl, rfl, rfl, rfl, by decide⟩
    exact Alone.reaches_commit rfl fun _ => true
  · let stopped : AgentSession := { status := .STOPPED, runtime_id := some "a", expires_at := 10 }
    refine ⟨{ Database.empty with
        sessions := (Table.empty.insert 1 { expires_at := 10 }).insert 2 stopped },
      ⟨[⟨"a", 1, "running", 10⟩], _, 0⟩, _, rfl, by decide, ?_, by decide, rfl, rfl, rfl, by decide,
      rfl, by decide⟩
    exact Alone.reaches_commit rfl fun _ => true

end Pass

end session_manager.runtime_reconciler
