import SessionManager.World.Written

open unit_of_work

namespace session_manager

open sessions run_executor runtime_reconciler lifecycle

/-- The task is about to make the session READY on a copy that was CREATING. -/
def Task.marks (session_id : SessionId) : Task → Bool
  | create_session (.commit_ready id ..) => id = session_id
  | reconcile (.commit pass) => pass.outcome session_id = some (.CREATING, .READY)
  | _ => false

/-- The task is about to stop or delete the session, and with it to cancel the
given runs. -/
def Task.closes (session_id : SessionId) : Task → Option (List RunId)
  | stop_session (.commit_stopped id _ cancelled _) | delete_session (.commit id _ cancelled _) =>
    if id = session_id then some cancelled else none
  | reconcile (.commit pass) =>
    if pass.outcome session_id = some (.STOPPING, .STOPPED) then some [] else none
  | _ => none

def Task.expires (session_id : SessionId) : Task → Bool
  | reconcile (.commit pass) =>
    (pass.outcome session_id).any fun x => x.1 ≠ .EXPIRED && x.2 = .EXPIRED
  | _ => false

namespace World

/-- The step resumes a task whose commit returns. -/
def Commits (w : World) (l : Label) (task : Task) : Prop :=
  w.tasks.get? l.pid = some task ∧ l.input = .returned

/-- The step of the system behind a step of the life cycle. -/
def Does (w : World) (l : Label) (session_id : SessionId) : Kind RunId → Prop
  | .quiet => True
  | .mark => ∃ task, w.Commits l task ∧ task.marks session_id = true
  | .close ids => ∃ task, w.Commits l task ∧ task.closes session_id = some ids
  | .expire => ∃ task, w.Commits l task ∧ task.expires session_id = true
  | .relapse => ∃ r, w.Relapses l session_id r

/-- The step of the system is a step of the life cycle of the session. -/
def Moves (w : World) (l : Label) (session_id : SessionId) (w' : World) : Prop :=
  ∃ kind, Move l.pid (w.lifecycle session_id) kind (w'.lifecycle session_id) ∧
    w.Does l session_id kind

variable {w w' : World} {l : Label} {session_id : SessionId} {task next conflict : Task}
  {tx : Transaction}

/-- A step that only moves the view of its own task is a quiet step of the life cycle.
Most steps of the services are refined by this. -/
theorem Moves.shift {v : View RunId} (hshift : Shift (w.lifecycle session_id) l.pid v)
    (hsee : w'.lifecycle session_id = (w.lifecycle session_id).see l.pid v) :
    w.Moves l session_id w' :=
  ⟨.quiet, hsee ▸ .shift hshift, trivial⟩

/-- A commit is a step of the life cycle once its writes are: what it leaves of the
session, of the runs and of the committing task is compared with the move, field by
field. -/
theorem Moves.of_commit (htask : w.tasks.get? l.pid = some task) {v : View RunId} {kind : Kind RunId}
    {session : Option (SessionStatus × Bool)} {created : List RunId} {runs : RunId → Option RunStatus}
    (hview : next.view session_id = v)
    (hsession : ((w.commit l.pid tx next).lifecycle session_id).session = session)
    (hcreated : ((w.commit l.pid tx next).lifecycle session_id).created = created)
    (hruns : ((w.commit l.pid tx next).lifecycle session_id).runs = runs)
    (hmove : Move l.pid (w.lifecycle session_id) kind
      { (w.lifecycle session_id).see l.pid v with
        session := session
        created := created
        runs := runs })
    (hdoes : w.Does l session_id kind) : w.Moves l session_id (w.commit l.pid tx next) := by
  subst hview
  exact ⟨kind, commit_lifecycle htask hsession hcreated hruns ▸ hmove, hdoes⟩

/-- A transaction that updates no run takes none from its session and leaves every key
as it is. -/
theorem no_update_keeps (h : tx.update_run = fun _ => none) : tx.KeepsRuns := by
  intro r f hf
  rw [h] at hf
  cases hf

/-- A commit that writes the copy of one session only. -/
private theorem Moves.of_status {uuid : SessionId} {x : Loaded AgentSession} (kind : Kind RunId)
    (htask : w.tasks.get? l.pid = some task) (hidle : next.view session_id = .idle)
    (hsession : tx.insert_session = none) (hrun : tx.insert_run = none)
    (hupdate : tx.update_session = update_row uuid x) (hruns : tx.update_run = fun _ => none)
    (hdeleted : x.current.deleted_at = x.loaded.deleted_at)
    (hmove : session_id = uuid → Move l.pid (w.lifecycle session_id) kind
      { (w.lifecycle session_id).see l.pid .idle with
        session := (w.lifecycle session_id).set x.current.status })
    (hdoes : session_id = uuid → w.Does l session_id kind) :
    w.Moves l session_id (w.commit l.pid tx next) := by
  have hsame : ∀ r row, w.db.runs.get? r = some row → row.session_id = session_id →
      ((tx.update_run r).getD id row).status = row.status := by
    simp [hruns]
  have hstatus :
      (session_id = uuid ∧ (w.commit l.pid tx next).lifecycle session_id = _) ∨
      (w.commit l.pid tx next).lifecycle session_id = _ :=
    commit_status htask hdeleted hsession hrun (no_update_keeps hruns) hupdate hsame
  rw [hidle] at hstatus
  rcases hstatus with ⟨hid, hlife⟩ | hlife
  · exact ⟨kind, hlife ▸ hmove hid, hdoes hid⟩
  · exact ⟨.quiet, hlife ▸ .shift .leave, trivial⟩

/-- The INSERT of `create_session` creates the session. Its primary key keeps the commit
from creating one that somebody has created before. -/
theorem insert_session_moves {id : SessionId} {session : AgentSession}
    (hrow : session.status = .CREATING ∧ session.deleted_at = none)
    (htask : w.tasks.get? l.pid = some (.create_session (.insert id session)))
    (hconflict : w.db.conflict { insert_session := some (id, session) } = false) :
    w.Moves l session_id (w.commit l.pid { insert_session := some (id, session) }
      (.create_session (.runtime id session .lock))) := by
  have hfresh : w.db.sessions.get? id = none := (Database.conflict_eq_false hconflict).1 _ rfl
  have hkeeps : Transaction.KeepsRuns { insert_session := some (id, session) } :=
    no_update_keeps rfl
  have hget : ∀ j, (w.db.apply { insert_session := some (id, session) }).sessions.get? j =
      if j = id then some session else (w.db.sessions.get? j).map (Option.getD none fun row => row) :=
    Database.apply_insert_session rfl hfresh
  by_cases hid : session_id = id
  · subst hid
    refine .of_commit htask (if_pos rfl) ?_ (commit_created rfl hkeeps)
      (commit_runs_same rfl hkeeps fun _ _ _ _ => rfl) (.insert ?_) trivial
    · simp [lifecycle, hget, hrow]
    · simp [lifecycle, hfresh]
  · refine .of_commit htask (if_neg (Ne.symm hid)) ?_ (commit_created rfl hkeeps)
      (commit_runs_same rfl hkeeps fun _ _ _ _ => rfl) (.shift .leave) trivial
    simp [lifecycle, hget, hid]

/-- `create_session` marks its session FAILED on a CREATING copy, which is a step of the
life cycle whatever the row has become since. -/
theorem create_failed_moves {id : SessionId} {session : AgentSession} {error : Error}
    (htask : w.tasks.get? l.pid = some (.create_session (.commit_failed id session))) :
    w.Moves l session_id (w.commit l.pid
      { update_session := update_row id ⟨session, sessions.set_status .FAILED session⟩ }
      (.create_session (.raised error))) :=
  .of_status .quiet htask rfl rfl rfl rfl rfl rfl (fun _ => .set (.inl rfl)) fun _ => trivial

/-- `create_session` makes its session READY: the marking step, taken on a copy that was
CREATING when it was made. -/
theorem create_ready_moves {id : SessionId} {session : AgentSession} {runtime_id : RuntimeId}
    (hinput : l.input = .returned)
    (htask : w.tasks.get? l.pid = some (.create_session (.commit_ready id session runtime_id))) :
    w.Moves l session_id (w.commit l.pid
      { update_session := update_row id ⟨session, bind_runtime runtime_id session⟩ }
      (.create_session (.refresh id))) := by
  refine .of_status .mark htask rfl rfl rfl rfl rfl rfl ?_ ?_
  · rintro rfl
    exact .mark ((lifecycle_views htask).trans (if_pos rfl))
  · rintro rfl
    exact ⟨_, ⟨htask, hinput⟩, by simp [Task.marks]⟩

/-- `stop_session` writes STOPPING before its call of Docker and FAILED after a call
that raises; neither closes the session. -/
theorem stop_status_moves {id : SessionId} {session : AgentSession}
    {status : SessionStatus} (hstatus : status = .FAILED ∨ status = .STOPPING) {next : StopSession}
    (htask : w.tasks.get? l.pid = some task) :
    w.Moves l session_id (w.commit l.pid
      (stop_transaction id ⟨session, sessions.set_status status session⟩ [] l.now)
      (.stop_session next)) :=
  .of_status .quiet htask rfl rfl rfl rfl (by simp [stop_transaction]) rfl
    (fun _ => .set hstatus) fun _ => trivial

/-- Nobody starts a run that the closing task has locked. -/
private theorem not_starting_of_closes (h : w.Consistent) {id : SessionId} {cancelled : List RunId}
    (htask : w.tasks.get? l.pid = some task) (hcloses : task.closes id = some cancelled)
    (hactive : w.holds_active l.pid id cancelled) {r : RunId} (hr : r ∈ cancelled) (q : Pid) :
    (w.lifecycle id).views q ≠ .exec r .starting := by
  intro hq
  obtain ⟨row, hrow, -⟩ := hactive r hr
  obtain ⟨run, hheld, -⟩ := h.starting hq
  obtain rfl : l.pid = q := Option.some.inj (hrow.1.symm.trans hheld.1)
  rw [lifecycle_views htask] at hq
  obtain ⟨_, _, rfl, -⟩ := Task.view_eq_exec hq
  cases hcloses

/-- The commits that stop or delete a session and cancel its runs. -/
private theorem Moves.of_close (h : w.Consistent) {id : SessionId} {x : Loaded AgentSession}
    {cancelled : List RunId} {now : Time} (status : SessionStatus → SessionStatus) (delete : Bool)
    (htask : w.tasks.get? l.pid = some task) (hinput : l.input = .returned)
    (hidle : next.view session_id = .idle) (hcloses : task.closes id = some cancelled)
    (hactive : w.holds_active l.pid id cancelled)
    (hkeeps : (stop_transaction id x cancelled now).KeepsRuns)
    (hstatus : (∀ old, status old = .STOPPED) ∨
      (w.lifecycle id).views l.pid = .closed ∧ ∀ old, status old = old)
    (hwrite : ∀ row, (x.write row).status = status row.status ∧
      (x.write row).deleted_at.isSome = (row.deleted_at.isSome || delete)) :
    w.Moves l session_id (w.commit l.pid (stop_transaction id x cancelled now) next) := by
  by_cases hid : session_id = id
  · subst hid
    refine .of_commit htask hidle (commit_session_map rfl fun row => ?_) (commit_created rfl hkeeps)
      (commit_runs_cancel hactive hkeeps) (.close status delete hstatus ?_ ?_)
      ⟨task, ⟨htask, hinput⟩, hcloses⟩
    · simpa [stop_transaction, update_row_getD] using hwrite row
    · intro r hr
      obtain ⟨row, hrow, hsession, hst⟩ := hactive r hr
      exact ⟨row.status, lifecycle_runs_eq_some.mpr ⟨row, hrow.2, hsession, rfl⟩, hst⟩
    · exact fun r hr => not_starting_of_closes h htask hcloses hactive hr
  · refine ⟨.quiet, ?_, trivial⟩
    rw [commit_untouched htask rfl rfl hkeeps (fun row => ?_) fun r row hget hrow => ?_, hidle]
    · exact .shift .leave
    · simp [stop_transaction, update_row_getD, hid]
    · exact cancel_rows_other hactive hget (hrow ▸ hid)

/-- The last commit of `stop_session` closes the session and cancels the runs it has
locked. Consistency says that these are still active in the rows. -/
theorem stopped_moves (h : w.Consistent) {id : SessionId} {session : AgentSession}
    {cancelled : List RunId} {now : Time}
    (hrow : session.status = .STOPPING ∧ w.holds_active l.pid id cancelled)
    (htask : w.tasks.get? l.pid = some (.stop_session (.commit_stopped id session cancelled now)))
    (hinput : l.input = .returned)
    (hkeeps : (stop_transaction id ⟨session, sessions.set_status .STOPPED session⟩ cancelled
      now).KeepsRuns) :
    w.Moves l session_id (w.commit l.pid
      (stop_transaction id ⟨session, sessions.set_status .STOPPED session⟩ cancelled now)
      (.stop_session (.refresh id))) := by
  refine .of_close h (fun _ => .STOPPED) false htask hinput rfl (by simp [Task.closes]) hrow.2 hkeeps
    (.inl fun _ => rfl) fun row => ?_
  simp [sessions.set_status, column, hrow.1]

/-- The commit of `delete_session` closes the session for good, with the runs it has
locked, as the one of `stop_session` does. -/
theorem deleted_moves (h : w.Consistent) {id : SessionId} {session : AgentSession}
    {cancelled : List RunId} {now : Time}
    (hrow : session.deleted_at = none ∧ w.holds_active l.pid id cancelled)
    (htask : w.tasks.get? l.pid = some (.delete_session (.commit id session cancelled now)))
    (hinput : l.input = .returned)
    (hkeeps : (stop_transaction id ⟨session, mark_deleted now session⟩ cancelled now).KeepsRuns) :
    w.Moves l session_id (w.commit l.pid
      (stop_transaction id ⟨session, mark_deleted now session⟩ cancelled now)
      (.delete_session .returned)) := by
  have hdeleted (row : AgentSession) :
      (Loaded.write ⟨session, mark_deleted now session⟩ row).deleted_at.isSome = true := by
    simp [mark_deleted, column, hrow.1]
  by_cases hstopped : session.status = .STOPPED
  · refine .of_close h (fun old => old) true htask hinput rfl (by simp [Task.closes]) hrow.2 hkeeps
      (.inr ⟨(lifecycle_views htask).trans (if_pos ⟨rfl, hstopped⟩), fun _ => rfl⟩)
      fun row => ⟨?_, by rw [hdeleted, Bool.or_true]⟩
    simp [mark_deleted, sessions.set_status, hstopped]
  · refine .of_close h (fun _ => .STOPPED) true htask hinput rfl (by simp [Task.closes]) hrow.2
      hkeeps (.inl fun _ => rfl) fun row => ⟨?_, by rw [hdeleted, Bool.or_true]⟩
    simp [mark_deleted, sessions.set_status, column, Ne.symm hstopped]

end World

end session_manager
