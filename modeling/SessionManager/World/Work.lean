import SessionManager.World.View

open unit_of_work

namespace session_manager.run_executor

open lifecycle

/-- How an executor's work goes on in a step that commits nothing. -/
inductive WorkChange (db : Database) (l : Label) :
    Option (RunId × AgentRun × Phase) → Option (RunId × AgentRun × Phase) → Prop
  | stay (work : Option (RunId × AgentRun × Phase)) : WorkChange db l work work
  | leave (work : Option (RunId × AgentRun × Phase)) : WorkChange db l work none
  | reload {run_id : RunId} {run run' : AgentRun} (hget : db.runs.get? run_id = some run') :
      WorkChange db l (some (run_id, run, .running)) (some (run_id, run', checked run'))
  | retry {run_id : RunId} {run : AgentRun} {loaded : RunStatus} :
      WorkChange db l (some (run_id, run, .deciding loaded)) (some (run_id, run, .running))
  | relapse {run_id : RunId} {run : AgentRun} (hfailed : l.input = .failed) :
      WorkChange db l (some (run_id, run, .tail)) (some (run_id, run, .running))

/-- What a resumed executor does: it locks the PENDING run it has selected, it
commits, or it goes on without a write. -/
inductive Resumed (db : Database) (l : Label) (task : Execute) : Action → Prop
  | lock {run_id : RunId} {run : AgentRun} (htask : task = .select run_id)
      (hget : db.runs.get? run_id = some run) (hpending : run.status = .PENDING) :
      Resumed db l task (.lock_run run_id (.execute (.get_session run_id run)))
  | refuse {run_id : RunId} (htask : task = .select run_id) :
      Resumed db l task (.lock_run run_id (.execute .returned))
  | commit (tx : Transaction) (next conflict : Task) : Resumed db l task (.commit tx next conflict)
  | go {next : Execute} (action : Action) (hgoes : action.goes = some (.execute next))
      (hwork : WorkChange db l task.work next.work) : Resumed db l task action

private theorem work_after_append (db : Database) (l : Label) (run_id : RunId) (run : AgentRun) (site : Site) :
    WorkChange db l (Execute.append run_id run site .publish).work (after_append run_id run site).work := by
  cases site with
  | started | emitted | message => exact .stay _
  | completed | failed => exact .leave _

/-- An executor whose append has raised is either over or still at work on its run: the
error goes to the agent, or to the failure branch. -/
theorem work_append_raised_eq {run_id : RunId} {run : AgentRun} {error : String} {site : Site}
    {work : RunId × AgentRun × Phase} (h : (append_raised run_id run error site).work = some work) :
    work = (run_id, run, .running) := by
  cases site <;> cases h <;> rfl

private theorem work_append_raised (db : Database) {l : Label} (hfailed : l.input = .failed)
    (run_id : RunId) (run : AgentRun) (error : String) (site : Site) (stage : Stage) :
    WorkChange db l (Execute.append run_id run site stage).work
      (append_raised run_id run error site).work := by
  cases site with
  | started | failed => exact .leave _
  | emitted => exact .stay _
  | message =>
    cases stage with
    | flush | commit => exact .retry
    | refresh | publish => exact .relapse hfailed
  | completed => exact .relapse hfailed

/-- How an executor goes on when a constraint refuses one of its commits, the one of
`run.completed` aside. -/
theorem work_refused (db : Database) (l : Label) (run_id : RunId) (run : AgentRun) (error : String)
    {site : Site} (hsite : site ≠ .completed) (event_id : EventId) :
    WorkChange db l (Execute.append run_id run site (.commit event_id)).work
      (append_raised run_id run error site).work := by
  cases site with
  | started | failed => exact .leave _
  | emitted => exact .stay _
  | message => exact .retry
  | completed => exact absurd rfl hsite

private theorem work_checked (db : Database) (l : Label) (run_id : RunId) (run : AgentRun) :
    WorkChange db l (some (run_id, run, checked run)) (some (run_id, run, .running)) := by
  unfold checked
  split
  · exact .stay _
  · exact .retry

private theorem Resumed.proceed {db : Database} {l : Label} {task next : Execute}
    (hwork : WorkChange db l task.work next.work) : Resumed db l task (.proceed (.execute next)) :=
  .go _ rfl hwork

private theorem checked_of_ne {run : AgentRun} (h : run.status ≠ .CANCELLED) :
    checked run = .deciding run.status :=
  if_neg h

/-- What a resumed executor does, for the life cycle: the many awaits of `execute` come
down to a lock, a commit, or a change of its work. -/
theorem Execute.resumed {db : Database} {l : Label} {task : Execute} {action : Action}
    (h : task.resume db l = some action) : Resumed db l task action := by
  cases Execute.resumes h with
  | taken => exact .refuse rfl
  | lock _ hget hpending => exact .lock rfl hget hpending
  | commit => exact .commit ..
  | flush | call_agent | raise => exact .go _ rfl (.stay _)
  | publish => exact .proceed (work_after_append ..)
  | start | refresh | emit | answer | run_lost | sequence | rollback | reload_session
  | refresh_run_failed => exact .proceed (.stay _)
  | refresh_run _ hget => exact .proceed (.reload hget)
  | session_lost | refresh_session_failed => exact .proceed (work_checked ..)
  | refresh_session _ _ hrun =>
    refine .proceed ?_
    simp only [work, checked_of_ne hrun]
    exact .stay _
  | reload_run _ hget hrun =>
    refine .proceed ?_
    simp only [work, ← checked_of_ne hrun]
    exact .reload hget
  | append_failed hfailed => exact .proceed (work_append_raised db hfailed ..)
  | sequence_failed => exact .proceed .retry
  | missing | no_session | cancelled | reload_missing | reload_cancelled | select_failed
  | get_session_failed | rollback_failed | reload_run_failed | reload_session_failed =>
    exact .proceed (.leave _)

end session_manager.run_executor
