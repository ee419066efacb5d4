import SessionManager.Database.State
import SessionManager.Runtime.Docker

open unit_of_work

namespace session_manager.runtime_reconciler

/-- `ACTIVE_SESSION_STATUSES`. -/
def active (status : SessionStatus) : Bool :=
  match status with
  | .CREATING | .READY | .RUNNING | .STOPPING => true
  | .STOPPED | .FAILED | .EXPIRED => false

def _select_runtime (runtime_id : Option RuntimeId) (candidates : List RuntimeInfo) :
    Option RuntimeInfo :=
  if truthy runtime_id then
    match candidates.find? fun item => some item.runtime_id = runtime_id with
    | some exact => some exact
    | none => candidates.head?
  else candidates.head?

/-- What one pass read: the listed runtimes, the session rows and the clock. -/
structure Pass where
  runtimes : List RuntimeInfo
  sessions : Table SessionId AgentSession
  now : Time

def set_status (status : SessionStatus) (session : AgentSession) : AgentSession :=
  { session with status := status, version := session.version + 1 }

/-- The candidates the second loop deletes as duplicates. -/
def duplicates (selected : Option RuntimeInfo) (candidates : List RuntimeInfo) : List RuntimeInfo :=
  candidates.filter fun duplicate =>
    match selected with
    | none => true
    | some selected => duplicate.runtime_id ≠ selected.runtime_id

/-- The assignments of the second loop to an active session once its runtime is
selected. -/
def bind_selected (selected : RuntimeInfo) (session : AgentSession) : AgentSession :=
  let session :=
    if session.runtime_id ≠ some selected.runtime_id then
      { session with runtime_id := some selected.runtime_id, version := session.version + 1 }
    else session
  if selected.status = "running" then
    if session.status = .CREATING then set_status .READY session else session
  else if session.status = .STOPPING then set_status .STOPPED session
  else set_status .FAILED session

/-- One iteration of the second loop: the runtimes it deletes and the session
it leaves. -/
def reconcile_session (now : Time) (candidates : List RuntimeInfo) (session : AgentSession) :
    List RuntimeInfo × AgentSession :=
  if session.deleted_at.isSome then ([], session)
  else if session.expires_at ≤ now then
    (candidates, if session.status ≠ .EXPIRED then set_status .EXPIRED session else session)
  else if !active session.status then ([], session)
  else
    match _select_runtime session.runtime_id candidates with
    | none =>
      (duplicates none candidates,
        if session.status ≠ .CREATING then set_status .FAILED session else session)
    | some selected => (duplicates (some selected) candidates, bind_selected selected session)

/-- What becomes of a session whose runtime was selected: READY out of CREATING,
unchanged while running, STOPPED once stopping, FAILED otherwise. -/
theorem bind_selected_status (selected : RuntimeInfo) (session : AgentSession) :
    (bind_selected selected session).status =
      if selected.status = "running" then
        if session.status = .CREATING then .READY else session.status
      else if session.status = .STOPPING then .STOPPED else .FAILED := by
  unfold bind_selected set_status
  by_cases hbound : session.runtime_id = some selected.runtime_id <;>
    simp only [hbound, ne_eq, not_true_eq_false, not_false_eq_true, if_true, if_false] <;>
    split <;> split <;> rfl

/-- Binding a runtime never deletes the session, nor undoes its deletion. -/
theorem bind_selected_deleted_at (selected : RuntimeInfo) (session : AgentSession) :
    (bind_selected selected session).deleted_at = session.deleted_at := by
  unfold bind_selected set_status
  by_cases hbound : session.runtime_id = some selected.runtime_id <;>
    simp only [hbound, ne_eq, not_true_eq_false, not_false_eq_true, if_true, if_false] <;>
    split <;> split <;> rfl

/-- The session is bound to the selected runtime, whatever it was bound to before. -/
theorem bind_selected_runtime_id (selected : RuntimeInfo) (session : AgentSession) :
    (bind_selected selected session).runtime_id = some selected.runtime_id := by
  unfold bind_selected set_status
  by_cases hbound : session.runtime_id = some selected.runtime_id <;>
    simp only [hbound, ne_eq, not_true_eq_false, not_false_eq_true, if_true, if_false] <;>
    split <;> split <;> simp [hbound]

/-- The transitions a pass makes, if any: to EXPIRED, to FAILED, from CREATING to READY,
and from STOPPING to STOPPED. -/
theorem reconcile_session_status (now : Time) (candidates : List RuntimeInfo)
    (session : AgentSession) :
    (reconcile_session now candidates session).2.status = session.status ∨
    (reconcile_session now candidates session).2.status = .EXPIRED ∨
    (reconcile_session now candidates session).2.status = .FAILED ∨
    (session.status = .CREATING ∧
      (reconcile_session now candidates session).2.status = .READY) ∨
    (session.status = .STOPPING ∧
      (reconcile_session now candidates session).2.status = .STOPPED) := by
  unfold reconcile_session
  split
  · exact .inl rfl
  · split
    · dsimp only
      split
      · exact .inr (.inl rfl)
      · exact .inl rfl
    · split
      · exact .inl rfl
      · split
        · dsimp only
          split
          · exact .inr (.inr (.inl rfl))
          · exact .inl rfl
        · simp only [bind_selected_status]
          split <;> split <;> simp_all

/-- A pass never deletes a session, nor brings a deleted one back. -/
theorem reconcile_session_deleted_at (now : Time) (candidates : List RuntimeInfo)
    (session : AgentSession) :
    (reconcile_session now candidates session).2.deleted_at = session.deleted_at := by
  unfold reconcile_session
  split
  · rfl
  · split
    · dsimp only
      split <;> rfl
    · split
      · rfl
      · split
        · dsimp only
          split <;> rfl
        · exact bind_selected_deleted_at ..

/-- The runtime that is selected is one of the candidates, never just the one the
session is bound to. -/
theorem select_mem {runtime_id : Option RuntimeId} {candidates : List RuntimeInfo}
    {selected : RuntimeInfo} (h : _select_runtime runtime_id candidates = some selected) :
    selected ∈ candidates := by
  unfold _select_runtime at h
  split at h
  · split at h
    · rename_i exact hfind
      obtain rfl := Option.some.inj h
      exact List.mem_of_find?_eq_some hfind
    · exact List.mem_of_head? h
  · exact List.mem_of_head? h

/-- A pass binds a session to one of its candidates, or not at all: it keeps what the
session was bound to otherwise. -/
theorem reconcile_session_runtime_id (now : Time) (candidates : List RuntimeInfo)
    (session : AgentSession) :
    (reconcile_session now candidates session).2.runtime_id = session.runtime_id ∨
    ∃ selected ∈ candidates,
      (reconcile_session now candidates session).2.runtime_id = some selected.runtime_id := by
  unfold reconcile_session
  split
  · exact .inl rfl
  · split
    · refine .inl ?_
      dsimp only
      split <;> rfl
    · split
      · exact .inl rfl
      · split
        · refine .inl ?_
          dsimp only
          split <;> rfl
        · rename_i selected hselect
          exact .inr ⟨selected, select_mem hselect, bind_selected_runtime_id ..⟩

namespace Pass

def candidates (pass : Pass) (session_id : SessionId) : List RuntimeInfo :=
  pass.runtimes.filter fun runtime => runtime.session_id = session_id

/-- The first loop: runtimes of missing or deleted sessions. -/
def orphans (pass : Pass) : List RuntimeInfo :=
  pass.runtimes.filter fun runtime =>
    match pass.sessions.get? runtime.session_id with
    | none => true
    | some session => session.deleted_at.isSome

/-- Every runtime the pass asks its provider to delete, in order. -/
def deletions (pass : Pass) : List RuntimeInfo :=
  pass.orphans ++ pass.sessions.rows.flatMap fun s =>
    (reconcile_session pass.now (pass.candidates s.1) s.2).1

/-- The copy of a session the pass commits. -/
def copy (pass : Pass) (session_id : SessionId) : Option (Loaded AgentSession) :=
  (pass.sessions.get? session_id).map fun session =>
    ⟨session, (reconcile_session pass.now (pass.candidates session_id) session).2⟩

end Pass

/-- The await points of `RuntimeReconciler.reconcile`. -/
inductive Reconcile
  | list
  | select (runtimes : List RuntimeInfo)
  | delete (pending : List RuntimeInfo) (pass : Pass)
  | commit (pass : Pass)
  | returned
  | raised

def Reconcile.ended : Reconcile → Bool
  | returned | raised => true
  | _ => false

/-- The pass at its next deletion, or at its commit when none is left. -/
def next_deletion (pending : List RuntimeInfo) (pass : Pass) : Reconcile :=
  if pending.isEmpty then .commit pass else .delete pending pass

end session_manager.runtime_reconciler
