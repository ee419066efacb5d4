import SessionManager.Lifecycle.Log
import SessionManager.World.Calls
import SessionManager.World.Work

namespace session_manager

open sessions run_executor lifecycle

def EventType.mark : EventType → Mark
  | RUN_STARTED => .opening
  | RUN_COMPLETED | RUN_FAILED => .closing
  | _ => .inner

/-- The entry an event is in the log of its session. -/
def SessionEvent.entry (event : SessionEvent) : Option (Entry RunId) :=
  event.run_id.map fun run_id => ⟨event.id, run_id, event.event_type.mark⟩

/-- What an executor holds of the log while it is inside an append. -/
def run_executor.Site.pen (run_id : RunId) (site : Site) : Stage → Pen RunId
  | .commit event_id => .holding run_id event_id site.event_type.mark
  | .flush =>
    match site with
    | completed => .due run_id
    | _ => .down
  | .refresh | .publish =>
    match site with
    | message .. => .due run_id
    | _ => .down

/-- What a task holds of the log of the session. -/
def Task.pen (session_id : SessionId) : Task → Pen RunId
  | execute (.append run_id run site stage) =>
    if run.session_id = session_id then site.pen run_id stage else .down
  | _ => .down

/-- An event of an agent neither opens nor closes the block of its run, whatever the
agent reports. -/
theorem run_executor.Site.mark_emitted (session : AgentSession) (event_type : AgentEventType)
    (payload : Payload) : (emitted session event_type payload).event_type.mark = .inner := by
  obtain ⟨event_type, hagent⟩ := event_type
  cases event_type <;> first | rfl | exact absurd hagent (by decide)

/-- An executor takes the first id of its run while it starts it, and no later one opens
a block. -/
theorem run_executor.Site.mark_opening_iff {site : Site} {status : RunStatus} {ph : Phase}
    (hph : site.phase status false = some ph) :
    site.event_type.mark = .opening ↔ ph = .starting := by
  cases site with
  | emitted =>
    cases hph
    simp [mark_emitted]
  | started | message | completed | failed =>
    cases hph
    simp [event_type, EventType.mark]

/-- Only `run.started` opens a block: every other site appends inside one or at its end. -/
theorem run_executor.Site.started_of_opening {site : Site}
    (hmark : site.event_type.mark = .opening) : ∃ session now, site = .started session now := by
  cases site with
  | started session now => exact ⟨session, now, rfl⟩
  | emitted => simp [mark_emitted] at hmark
  | message | completed | failed => cases hmark

/-- What a task holds of the log fits what it may do to the session. -/
private theorem Task.pen_fits (session_id : SessionId) (task : Task) :
    Pen.Fits (task.view session_id) (task.pen session_id) := by
  unfold Task.pen
  split
  · rename_i run_id run site stage
    split
    · rename_i hsession
      rw [execute_view rfl]
      cases site <;> cases stage <;>
        simp only [Execute.work, Site.phase, Stage.written, Site.pen, Site.mark_emitted,
          Option.map_some, Option.elim_some, hsession, if_true, Bool.false_eq_true, if_false] <;>
        constructor
    · exact .down _
  · exact .down _

namespace World

/-- The event log of one session in a state of the system. -/
def log (w : World) (session_id : SessionId) : Log RunId Pid where
  entries := (w.db.events.filter fun event => event.session_id = session_id).filterMap
    SessionEvent.entry
  next := w.db.next_event_id
  pens := fun p => (w.tasks.get? p).elim .down (Task.pen session_id)

variable {w w' : World} {l : Label} {p : Pid} {session_id : SessionId} {task next : Task}

/-- A suspended task holds of the log what `Task.pen` says. Tasks of other sessions hold
nothing of it. -/
theorem log_pens (htask : w.tasks.get? p = some task) :
    (w.log session_id).pens p = task.pen session_id := by
  simp [log, htask]

/-- Every pen fits the view of its task, whichever task and session; the log says
nothing of a task that the life cycle does not know. -/
theorem log_fits (w : World) (session_id : SessionId) (p : Pid) :
    Pen.Fits ((w.lifecycle session_id).views p) ((w.log session_id).pens p) := by
  cases htask : w.tasks.get? p with
  | none => simpa [lifecycle, log, htask] using .down _
  | some task =>
    rw [lifecycle_views htask, log_pens htask]
    exact task.pen_fits session_id

/-- The pens move with the task of a step only, so the log after a step is known from
its entries and from the task that was resumed. -/
theorem step_log (hstep : w.step l = some w') (hnext : w'.tasks.get? l.pid = some next)
    {entries : List (Entry RunId)} (hentries : (w'.log session_id).entries = entries) :
    w'.log session_id =
      { entries := entries
        next := w'.db.next_event_id
        pens := Function.update (w.log session_id).pens l.pid (next.pen session_id) } := by
  have hpens : (w'.log session_id).pens =
      Function.update (w.log session_id).pens l.pid (next.pen session_id) := by
    funext q
    rw [Function.update_apply]
    split
    · rename_i hq
      rw [hq, log_pens hnext]
    · rename_i hq
      simp [log, step_tasks_of_ne hstep hq]
  subst hentries
  rw [← hpens]
  rfl

end World

end session_manager
