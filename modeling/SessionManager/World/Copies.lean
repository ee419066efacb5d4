import SessionManager.World.Commits

open unit_of_work

namespace session_manager

open sessions run_executor runtime_reconciler

/-- The copy of the session a task is about to commit. -/
def Task.session_copy (session_id : SessionId) : Task → Option (Loaded AgentSession)
  | create_session (.commit_failed id session) =>
    if session_id = id then some ⟨session, sessions.set_status .FAILED session⟩ else none
  | create_session (.commit_ready id session runtime_id) =>
    if session_id = id then some ⟨session, bind_runtime runtime_id session⟩ else none
  | create_run (.commit request session ..) =>
    if session_id = request.session_id then some ⟨session, sessions.set_status .RUNNING session⟩ else none
  | stop_session (.commit_stopping id session) =>
    if session_id = id then some ⟨session, sessions.set_status .STOPPING session⟩ else none
  | stop_session (.commit_failed id session) =>
    if session_id = id then some ⟨session, sessions.set_status .FAILED session⟩ else none
  | stop_session (.commit_stopped id session ..) =>
    if session_id = id then some ⟨session, sessions.set_status .STOPPED session⟩ else none
  | delete_session (.commit id session _ now) =>
    if session_id = id then some ⟨session, mark_deleted now session⟩ else none
  | execute (.append _ run site (.commit _)) =>
    if session_id = run.session_id then site.session else none
  | reconcile (.commit pass) => pass.copy session_id
  | _ => none

section Commit

variable {l : Label} {task next conflict : Task} {tx : Transaction} {session_id : SessionId}

private theorem update_row_eq (uuid : SessionId) (x : Loaded AgentSession) :
    update_row uuid x session_id = (if session_id = uuid then some x else none).bind Loaded.update := by
  unfold update_row
  split <;> rfl

/-- A commit updates the session from that copy only: it writes the columns in which the
copy differs from what was loaded, and no others. -/
theorem Commit.update_session_eq (h : Commit l task tx next conflict) :
    tx.update_session session_id = (task.session_copy session_id).bind Loaded.update := by
  cases h with
  | insert_session => rfl
  | append run_id run site =>
    simp only [append_transaction, Task.session_copy]
    split
    · rename_i hsession
      cases site.session <;> simp [update_row, hsession]
    · rename_i hsession
      cases site.session <;> simp [update_row, hsession]
  | reconcile => rfl
  | create_failed | create_ready | create_run | stopping | stop_failed | stopped | deleted =>
    exact update_row_eq ..

end Commit

end session_manager
