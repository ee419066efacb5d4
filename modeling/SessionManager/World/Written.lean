import SessionManager.World.Shift

open unit_of_work

namespace session_manager

open sessions run_executor runtime_reconciler lifecycle

/-- A row that a transaction may leave alone is the same run either way, whether the
transaction updates it or not. -/
theorem Transaction.KeepsRuns.getD {tx : Transaction} (h : tx.KeepsRuns) (r : RunId)
    (row : AgentRun) : SameRun row ((tx.update_run r).getD id row) := by
  cases hupdate : tx.update_run r with
  | none => exact .refl row
  | some f => exact h r f hupdate row

namespace World

variable {w : World} {p : Pid} {tx : Transaction} {task next : Task} {session_id : SessionId}

/-- The life cycle of a session after a commit, put together from its parts: the row,
the list of runs and their statuses. The committing task moves to its next view. -/
theorem commit_lifecycle (htask : w.tasks.get? p = some task)
    {session : Option (SessionStatus × Bool)} {created : List RunId} {runs : RunId → Option RunStatus}
    (hsession : ((w.commit p tx next).lifecycle session_id).session = session)
    (hcreated : ((w.commit p tx next).lifecycle session_id).created = created)
    (hruns : ((w.commit p tx next).lifecycle session_id).runs = runs) :
    (w.commit p tx next).lifecycle session_id =
      { (w.lifecycle session_id).see p (next.view session_id) with
        session := session
        created := created
        runs := runs } := by
  subst hsession hcreated hruns
  rw [State.mk.injEq]
  refine ⟨rfl, rfl, rfl, funext fun q => ?_⟩
  rw [State.see_views]
  split
  · rename_i hq
    simp [lifecycle, hq, htask]
  · rename_i hq
    simp [lifecycle, Table.get?_modify_of_ne _ _ hq]

section Session

variable (hinsert : tx.insert_session = none)
include hinsert

private theorem commit_session :
    ((w.commit p tx next).lifecycle session_id).session =
      (w.db.sessions.get? session_id).map fun row =>
        (((tx.update_session session_id).getD id row).status,
          ((tx.update_session session_id).getD id row).deleted_at.isSome) := by
  simp [lifecycle, Database.apply_sessions_get? hinsert, Function.comp_def]

/-- A commit that leaves the status and the deletion mark of the session alone, whatever
else it writes into the row. -/
theorem commit_session_same
    (hsame : ∀ row, ((tx.update_session session_id).getD id row).status = row.status ∧
      ((tx.update_session session_id).getD id row).deleted_at = row.deleted_at) :
    ((w.commit p tx next).lifecycle session_id).session = (w.lifecycle session_id).session := by
  rw [commit_session hinsert]
  simp only [lifecycle, hsame]

/-- A commit that sets the status of the session and leaves its deletion mark. A session
that nobody has created stays so. -/
theorem commit_session_set {status : SessionStatus}
    (hset : ∀ row, ((tx.update_session session_id).getD id row).status = status ∧
      ((tx.update_session session_id).getD id row).deleted_at = row.deleted_at) :
    ((w.commit p tx next).lifecycle session_id).session =
      (w.lifecycle session_id).set status := by
  rw [commit_session hinsert]
  simp only [lifecycle, State.set, hset, Option.map_map, Function.comp_def]

/-- A commit that maps the status and may set the deletion mark, which it never takes
back. -/
theorem commit_session_map {status : SessionStatus → SessionStatus} {delete : Bool}
    (hset : ∀ row, ((tx.update_session session_id).getD id row).status = status row.status ∧
      ((tx.update_session session_id).getD id row).deleted_at.isSome =
        (row.deleted_at.isSome || delete)) :
    ((w.commit p tx next).lifecycle session_id).session =
      (w.lifecycle session_id).session.map fun x => (status x.1, x.2 || delete) := by
  rw [commit_session hinsert]
  simp only [lifecycle, hset, Option.map_map, Function.comp_def]

end Session

section Runs

/-- A commit that inserts no run leaves the list of the session's runs as it was, in its
order. -/
theorem commit_created (hinsert : tx.insert_run = none) (hkeeps : tx.KeepsRuns) :
    ((w.commit p tx next).lifecycle session_id).created = (w.lifecycle session_id).created := by
  have hrows : ∀ r ∈ w.db.runs.rows,
      decide (((tx.update_run r.1).getD id r.2).session_id = session_id) =
        decide (r.2.session_id = session_id) := fun r _ => by rw [(hkeeps.getD r.1 r.2).1]
  simp only [lifecycle, commit_db, Database.apply, hinsert, Option.elim_none, id_eq,
    Table.updateRows, Table.mapRows, List.filter_map, List.map_map, Function.comp_def]
  rw [List.filter_congr hrows]

/-- The statuses of a session's runs after a commit without a new run, read off the
updates of the rows. -/
theorem commit_runs (hinsert : tx.insert_run = none) (hkeeps : tx.KeepsRuns) (r : RunId) :
    ((w.commit p tx next).lifecycle session_id).runs r =
      ((w.db.runs.get? r).filter fun row => row.session_id = session_id).map fun row =>
        ((tx.update_run r).getD id row).status := by
  simp only [lifecycle, commit_db, Database.apply_runs_get? hinsert]
  cases hget : w.db.runs.get? r with
  | none => rfl
  | some row =>
    simp only [Option.map_some, Option.filter_some, (hkeeps.getD r row).1]
    split <;> rfl

/-- A commit that leaves the statuses of the session's runs alone. The runs of other
sessions may change. -/
theorem commit_runs_same (hinsert : tx.insert_run = none) (hkeeps : tx.KeepsRuns)
    (hsame : ∀ r row, w.db.runs.get? r = some row → row.session_id = session_id →
      ((tx.update_run r).getD id row).status = row.status) :
    ((w.commit p tx next).lifecycle session_id).runs = (w.lifecycle session_id).runs := by
  funext r
  rw [commit_runs hinsert hkeeps]
  simp only [lifecycle]
  cases hget : w.db.runs.get? r with
  | none => rfl
  | some row =>
    simp only [Option.filter_some]
    split
    · rename_i hsession
      simp [hsame r row hget (by simpa using hsession)]
    · rfl

end Runs

section Insert

variable {run_id : RunId} {row : AgentRun} (hinsert : tx.insert_run = some (run_id, row))
  (hfresh : w.db.runs.get? run_id = none) (hupdate : tx.update_run = fun _ => none)
include hinsert hfresh hupdate

/-- A new run is the last one of its session, and is on no other session's list. -/
theorem commit_created_insert :
    ((w.commit p tx next).lifecycle session_id).created =
      if row.session_id = session_id then (w.lifecycle session_id).created ++ [run_id]
      else (w.lifecycle session_id).created := by
  have hrows : (w.db.apply tx).runs.rows = w.db.runs.rows ++ [(run_id, row)] := by
    have hkeys : run_id ∉ w.db.runs.keys := (Table.get?_eq_none_iff _).mp hfresh
    simp [Database.apply, hinsert, hupdate, Table.insert, hkeys, Table.updateRows, Table.mapRows]
  simp only [lifecycle, commit_db, hrows, List.filter_append, List.map_append]
  by_cases hsession : row.session_id = session_id <;> simp [hsession]

/-- A new run has the status it is inserted with, in its own session only. To every
other session it does not exist. -/
theorem commit_runs_insert (r : RunId) :
    ((w.commit p tx next).lifecycle session_id).runs r =
      if r = run_id then if row.session_id = session_id then some row.status else none
      else (w.lifecycle session_id).runs r := by
  simp only [lifecycle, commit_db, Database.apply_insert_run hinsert hfresh, hupdate]
  split
  · by_cases hsession : row.session_id = session_id <;> simp [hsession]
  · simp

end Insert

/-- A commit that touches neither the session nor a status of its runs only moves the
view of its task. -/
theorem commit_untouched (htask : w.tasks.get? p = some task) (hsession : tx.insert_session = none)
    (hrun : tx.insert_run = none) (hkeeps : tx.KeepsRuns)
    (hsame : ∀ row, ((tx.update_session session_id).getD id row).status = row.status ∧
      ((tx.update_session session_id).getD id row).deleted_at = row.deleted_at)
    (hruns : ∀ r row, w.db.runs.get? r = some row → row.session_id = session_id →
      ((tx.update_run r).getD id row).status = row.status) :
    (w.commit p tx next).lifecycle session_id =
      (w.lifecycle session_id).see p (next.view session_id) :=
  commit_lifecycle htask (commit_session_same hsession hsame) (commit_created hrun hkeeps)
    (commit_runs_same hrun hkeeps hruns)

section Status

variable {uuid : SessionId} {x : Loaded AgentSession} (htask : w.tasks.get? p = some task)
  (hdeleted : x.current.deleted_at = x.loaded.deleted_at)
include htask hdeleted

/-- A commit that writes one session: it sets the status there, and touches nothing of
the others. -/
theorem commit_status (hsession : tx.insert_session = none) (hrun : tx.insert_run = none)
    (hkeeps : tx.KeepsRuns) (hupdate : tx.update_session = update_row uuid x)
    (hruns : ∀ r row, w.db.runs.get? r = some row → row.session_id = session_id →
      ((tx.update_run r).getD id row).status = row.status) :
    (session_id = uuid ∧ (w.commit p tx next).lifecycle session_id =
      { (w.lifecycle session_id).see p (next.view session_id) with
        session := (w.lifecycle session_id).set x.current.status }) ∨
    (w.commit p tx next).lifecycle session_id =
      (w.lifecycle session_id).see p (next.view session_id) := by
  by_cases hid : session_id = uuid
  · by_cases hstatus : x.current.status = x.loaded.status
    · refine .inr (commit_untouched htask hsession hrun hkeeps (fun row => ?_) hruns)
      simp [hupdate, update_row_getD, hid, hstatus, hdeleted]
    · refine .inl ⟨hid, commit_lifecycle htask (commit_session_set hsession fun row => ?_)
        (commit_created hrun hkeeps) (commit_runs_same hrun hkeeps hruns)⟩
      simp [hupdate, update_row_getD, hid, hdeleted, column_of_ne _ hstatus]
  · refine .inr (commit_untouched htask hsession hrun hkeeps (fun row => ?_) hruns)
    simp [hupdate, update_row_getD, hid]

end Status

section Cancel

variable {uuid : SessionId} {x : Loaded AgentSession} {cancelled : List RunId} {now : Time}
  (hactive : w.holds_active p uuid cancelled)
include hactive

/-- The runs of a session whose active runs are cancelled: the given ones are CANCELLED,
the others as they were. -/
theorem commit_runs_cancel (hkeeps : (stop_transaction uuid x cancelled now).KeepsRuns) :
    ((w.commit p (stop_transaction uuid x cancelled now) next).lifecycle uuid).runs =
      (w.lifecycle uuid).cancel cancelled := by
  funext r
  rw [commit_runs rfl hkeeps]
  simp only [stop_transaction, cancel_rows, State.cancel]
  split
  · rename_i hr
    obtain ⟨row, hrow, hsession, -⟩ := hactive r hr
    simp [hrow.2, hsession]
  · rfl

/-- The other sessions keep the statuses of their runs, because the runs that are
cancelled are all of the one session. -/
theorem cancel_rows_other {r : RunId} {row : AgentRun} (hget : w.db.runs.get? r = some row)
    (hother : row.session_id ≠ uuid) :
    ((cancel_rows cancelled now r).getD id row).status = row.status := by
  unfold cancel_rows
  split
  · rename_i hr
    obtain ⟨row', ⟨-, hget'⟩, hsession, -⟩ := hactive r hr
    rw [hget, Option.some.injEq] at hget'
    exact absurd (hget' ▸ hsession) hother
  · rfl

end Cancel

end World

end session_manager
