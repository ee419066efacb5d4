import SessionManager.Reconciler.Restart
import SessionManager.System.State
import SessionManager.World.Calls
import SessionManager.World.Copies

open transition unit_of_work

namespace session_manager

open runtime_reconciler docker schedule

namespace runtime_reconciler

/-- The candidates of a session give no reason to fail it: the one selected is
running or the session is being stopped, or there is none while it is being
created. -/
def spared (candidates : List RuntimeInfo) (session : AgentSession) : Prop :=
  match _select_runtime session.runtime_id candidates with
  | none => session.status = .CREATING
  | some selected => selected.status = "running" ∨ session.status = .STOPPING

instance (candidates : List RuntimeInfo) (session : AgentSession) :
    Decidable (spared candidates session) := by
  unfold spared
  split <;> infer_instance

/-- The commit of the pass sets the session to FAILED. -/
def Pass.fails (pass : Pass) (session_id : SessionId) : Prop :=
  ∃ x, pass.copy session_id = some x ∧ x.loaded.status ≠ .FAILED ∧ x.current.status = .FAILED

variable {pass : Pass} {session_id : SessionId} {session : AgentSession}

/-- An undeleted, unexpired session is failed exactly when it is active and its
candidates give a reason to. -/
theorem Pass.fails_iff (hget : pass.sessions.get? session_id = some session)
    (hundeleted : session.deleted_at = none) (hunexpired : pass.now < session.expires_at) :
    pass.fails session_id ↔
      active session.status = true ∧ ¬ spared (pass.candidates session_id) session := by
  have hexpired : ¬ session.expires_at ≤ pass.now := Nat.not_le.mpr hunexpired
  have hcopy : pass.copy session_id = some ⟨session,
      (reconcile_session pass.now (pass.candidates session_id) session).2⟩ := by
    rw [Pass.copy, hget, Option.map_some]
  have hfails : pass.fails session_id ↔ session.status ≠ .FAILED ∧
      (reconcile_session pass.now (pass.candidates session_id) session).2.status = .FAILED := by
    simp [Pass.fails, hcopy]
  rw [hfails]
  by_cases hactive : active session.status = true
  swap
  · rw [reconcile_inactive hexpired (by simpa using hactive)]
    simp [hactive]
  have hstatus : session.status ≠ .FAILED := by
    intro hfailed
    simp [hfailed, active] at hactive
  cases hselect : _select_runtime session.runtime_id (pass.candidates session_id) with
  | none =>
    have hspared : spared (pass.candidates session_id) session ↔ session.status = .CREATING := by
      simp [spared, hselect]
    rw [hspared, select_eq_none.mp hselect, reconcile_without_runtime hundeleted hexpired hactive]
    by_cases hcreating : session.status = .CREATING
    · simp [hcreating]
    · simp [hcreating, hstatus, hactive, runtime_reconciler.set_status]
  | some selected =>
    have hspared : spared (pass.candidates session_id) session ↔
        selected.status = "running" ∨ session.status = .STOPPING := by
      simp [spared, hselect]
    rw [hspared, reconcile_selected hundeleted hexpired hactive hselect, bind_selected_status]
    by_cases hrunning : selected.status = "running"
    · by_cases hcreating : session.status = .CREATING <;> simp [hrunning, hcreating, hstatus]
    · by_cases hstopping : session.status = .STOPPING <;>
        simp [hrunning, hstopping, hstatus, hactive]

/-- A listing that shows the bound runtime running gives no reason to fail its session,
whatever else it shows. -/
theorem spared_of_listed {candidates : List RuntimeInfo} {bound : RuntimeInfo}
    (hmem : bound ∈ candidates) (hrunning : bound.status = "running")
    (hnonempty : bound.runtime_id ≠ "")
    (hone : ∀ a ∈ candidates, a.runtime_id = bound.runtime_id → a = bound)
    (hbound : session.runtime_id = some bound.runtime_id) : spared candidates session := by
  have hselect := select_bound hmem hnonempty hone
  rw [← hbound] at hselect
  simp [spared, hselect, hrunning]

end runtime_reconciler

namespace World

/-- The listing a pass goes to the sessions with. -/
def listing : Task → Option (List RuntimeInfo)
  | .reconcile (.select runtimes) => some runtimes
  | _ => none

/-- The pass a task is about to commit. -/
def committing_pass : Task → Option Pass
  | .reconcile (.commit pass) => some pass
  | _ => none

/-- The task that holds a listing is a pass about to read the sessions. -/
theorem listing_eq {task : Task} {runtimes : List RuntimeInfo} (h : listing task = some runtimes) :
    task = .reconcile (.select runtimes) := by
  unfold listing at h
  split at h <;> cases h
  rfl

/-- The task that commits a pass is that pass at its commit. -/
theorem committing_pass_eq {task : Task} {pass : Pass} (h : committing_pass task = some pass) :
    task = .reconcile (.commit pass) := by
  unfold committing_pass at h
  split at h <;> cases h
  rfl

/-- The call is past its read of the sessions and has not committed. -/
def passing (task : Task) (pass : Pass) : Prop :=
  (∃ pending, task = .reconcile (.delete pending pass)) ∨ task = .reconcile (.commit pass)

variable {w w' : World} {l : Label} {p : Pid} {task task' next : Task} {pass pass' : Pass}

/-- Between two deletions the pass stays the one that was read. -/
theorem passing_next_deletion {pending : List RuntimeInfo}
    (h : passing (.reconcile (next_deletion pending pass)) pass') : pass' = pass := by
  unfold passing next_deletion at h
  split at h <;> simpa [eq_comm] using h

/-- A call is past its read of the sessions only if it was so before the step or the
read has just returned, and then the pass is what it read. -/
theorem passing_of_resume {db : Database} {action : Action} (hresume : task.resume db l = some action)
    (hgoes : action.goes = some next) (h : passing next pass') :
    passing task pass' ∨ l.input = .returned ∧ ∃ runtimes,
      task = .reconcile (.select runtimes) ∧ pass' = ⟨runtimes, db.sessions, l.now⟩ := by
  have hservice := Task.service_of_resume hresume hgoes
  have hnext : next.service = some .reconcile := by
    rcases h with ⟨_, rfl⟩ | rfl <;> rfl
  rw [hnext] at hservice
  cases task with
  | reconcile call =>
    cases Reconcile.resumes hresume with
    | select hinput =>
      cases hgoes
      exact .inr ⟨hinput, _, rfl, passing_next_deletion h⟩
    | delete =>
      cases hgoes
      obtain rfl := passing_next_deletion h
      exact .inl (.inl ⟨_, rfl⟩)
    | commit => cases hgoes
    | unlisted | listed | failed =>
      cases hgoes
      simp [passing] at h
  | killed => cases hresume
  | create_session | create_run | execute | stop_session | delete_session => cases hservice

/-- The call has not read the sessions yet. -/
def unread (task : Task) : Prop :=
  task = .reconcile .list ∨ ∃ runtimes, task = .reconcile (.select runtimes)

/-- A pass that goes on to its deletions has read the sessions, and reads them no second
time. -/
theorem not_unread_next_deletion {pending : List RuntimeInfo} :
    ¬ unread (.reconcile (next_deletion pending pass)) := by
  unfold unread next_deletion
  split <;> simp

/-- A call never goes back to before its read, so a pass reads the sessions once. -/
theorem unread_of_resume {db : Database} {action : Action} (hresume : task.resume db l = some action)
    (hgoes : action.goes = some next) (h : unread next) : unread task := by
  have hservice := Task.service_of_resume hresume hgoes
  have hnext : next.service = some .reconcile := by
    rcases h with rfl | ⟨_, rfl⟩ <;> rfl
  rw [hnext] at hservice
  cases task with
  | reconcile call =>
    cases Reconcile.resumes hresume with
    | select => exact .inr ⟨_, rfl⟩
    | listed => exact .inl rfl
    | delete =>
      cases hgoes
      exact absurd h not_unread_next_deletion
    | commit => cases hgoes
    | unlisted | failed =>
      cases hgoes
      simp [unread] at h
  | killed => cases hresume
  | create_session | create_run | execute | stop_session | delete_session => cases hservice

/-- The task of `p` is past its read, and works on this pass if on any. -/
def has_read (w : World) (p : Pid) (pass : Pass) : Prop :=
  ∃ task, w.tasks.get? p = some task ∧ ¬ unread task ∧
    ∀ pass', passing task pass' → pass' = pass

/-- What a pass works with is what it has read: no later step changes its copy of the
sessions. -/
theorem has_read_step (hstep : w.step l = some w') (h : w.has_read p pass) : w'.has_read p pass := by
  obtain ⟨task, htask, hread, hpass⟩ := h
  by_cases hp : p = l.pid
  swap
  · exact ⟨task, (step_tasks_of_ne hstep hp).trans htask, hread, hpass⟩
  subst hp
  obtain ⟨task', htask'⟩ := step_task_exists hstep
  refine ⟨task', htask', ?_⟩
  cases step_next hstep htask' with
  | called hfresh => simp [hfresh] at htask
  | killed => simp [unread, passing]
  | drained hold =>
    obtain rfl := Option.some.inj (htask.symm.trans hold)
    exact ⟨hread, hpass⟩
  | quiet hold hresume hgoes =>
    obtain rfl := Option.some.inj (htask.symm.trans hold)
    refine ⟨fun hunread => hread (unread_of_resume hresume hgoes hunread), fun pass' h => ?_⟩
    rcases passing_of_resume hresume hgoes h with hbefore | ⟨-, runtimes, rfl, -⟩
    · exact hpass pass' hbefore
    · exact absurd (.inr ⟨runtimes, rfl⟩) hread
  | refused _ hcommit => cases hcommit <;> simp [unread, passing]
  | committed _ hcommit =>
    cases hcommit with
    | stopping => constructor <;> simp [unread, passing]
    | _ => simp [unread, passing]

/-- A pass that reads the sessions works with what it finds there at that moment, and
with the listing it brought. -/
theorem has_read_of_select {runtimes : List RuntimeInfo}
    (htask : w.tasks.get? l.pid = some (.reconcile (.select runtimes)))
    (hstep : w.step l = some w') : w'.has_read l.pid ⟨runtimes, w.db.sessions, l.now⟩ := by
  obtain ⟨task', htask'⟩ := step_task_exists hstep
  refine ⟨task', htask', ?_⟩
  cases step_next hstep htask' with
  | called hfresh => simp [hfresh] at htask
  | killed => simp [unread, passing]
  | drained hold => cases htask.symm.trans hold
  | quiet hold hresume hgoes =>
    obtain rfl := Option.some.inj (htask.symm.trans hold)
    cases Reconcile.resumes hresume with
    | select =>
      cases hgoes
      exact ⟨not_unread_next_deletion, fun pass' => passing_next_deletion⟩
    | failed =>
      cases hgoes
      simp [unread, passing]
  | refused hold hcommit | committed hold hcommit =>
    obtain rfl := Option.some.inj (htask.symm.trans hold)
    cases hcommit

/-- The commit of a pass that does not fail the session leaves it FAILED only if
it was. -/
theorem commit_spares {session_id : SessionId} {row : AgentSession}
    (htask : w.tasks.get? l.pid = some (.reconcile (.commit pass))) (hspared : ¬ pass.fails session_id)
    (hstep : w.step l = some w') (hget : w'.db.sessions.get? session_id = some row)
    (hfailed : row.status = .FAILED) :
    ∃ before, w.db.sessions.get? session_id = some before ∧ before.status = .FAILED := by
  cases stepped hstep with
  | called => exact ⟨row, hget, hfailed⟩
  | killed | refused => exact ⟨row, by simpa using hget, hfailed⟩
  | drained _ _ _ hdrained => exact ⟨row, hdrained.sessions ▸ hget, hfailed⟩
  | quiet _ _ hgoes hperform =>
    exact ⟨row, (perform_quiet_tables hgoes hperform).1 ▸ hget, hfailed⟩
  | committed htask' hcommit =>
    obtain rfl := Option.some.inj (htask.symm.trans htask')
    cases hcommit
    rw [commit_db, Database.apply_sessions_get? rfl, Option.map_eq_some_iff] at hget
    obtain ⟨before, hbefore, rfl⟩ := hget
    refine ⟨before, hbefore, ?_⟩
    have hupdate : pass.transaction.update_session session_id =
      (pass.copy session_id).bind Loaded.update := rfl
    rw [hupdate] at hfailed
    cases hcopy : pass.copy session_id with
    | none => simpa [hcopy] using hfailed
    | some x =>
      rw [hcopy, Option.bind_some, Loaded.update_getD, AgentSession.write_status] at hfailed
      unfold column at hfailed
      split at hfailed
      · exact hfailed
      · rename_i hchanged
        exact absurd ⟨x, hcopy, fun hloaded => hchanged (hfailed.trans hloaded.symm), hfailed⟩ hspared

end World

namespace System

/-- When a pass reads the sessions, its listing gives no reason to fail an
active, undeleted and unexpired one whose runtime is running. -/
def shown_running (s : System) (event : Event) : Prop :=
  match event with
  | .program l =>
    match s.world.tasks.get? l.pid, l.input with
    | some (.reconcile (.select runtimes)), .returned =>
      s.world.db.sessions.Forall fun session_id session =>
        session.deleted_at = none → l.now < session.expires_at →
        active session.status = true →
        (∃ runtime_id ∈ session.runtime_id, s.engine.running runtime_id = true) →
        spared (runtimes.filter fun runtime => runtime.session_id = session_id) session
    | _, _ => True
  | _ => True

instance (s : System) (event : Event) : Decidable (s.shown_running event) := by
  unfold shown_running
  cases event with
  | program l =>
    obtain ⟨p, input, now, uuid⟩ := l
    dsimp only
    split <;> infer_instance
  | docker | open_desktop | desktop => infer_instance

variable {s₀ s₁ s₂ : System} {l : Label} {runtime_id : RuntimeId} {session_id : SessionId}
  {session : AgentSession} {pass : Pass} {runtimes : List RuntimeInfo}

/-- The pass a task is about to commit is the one it has read, however many steps of
others came in between. -/
theorem read_of_commit {guard : System → Event → Prop}
    (htask : s₀.world.tasks.get? l.pid = some (.reconcile (.select runtimes)))
    (hread : s₀.step (.program l) = some s₁) (hlater : Run step guard s₁ s₂)
    (hcommit : s₂.world.tasks.get? l.pid = some (.reconcile (.commit pass))) :
    pass = ⟨runtimes, s₀.world.db.sessions, l.now⟩ := by
  have hkept : s₂.world.has_read l.pid ⟨runtimes, s₀.world.db.sessions, l.now⟩ := by
    refine hlater.invariant (I := fun s =>
      s.world.has_read l.pid ⟨runtimes, s₀.world.db.sessions, l.now⟩) ?_ ?_
    · intro s event s' h _ hstep
      cases stepped hstep with
      | program _ hworld => exact World.has_read_step hworld h
      | docker | open_desktop | desktop => exact h
    · cases stepped hread with
      | program _ hworld => exact World.has_read_of_select htask hworld
  obtain ⟨task, htask', -, hpass⟩ := hkept
  obtain rfl := Option.some.inj (hcommit.symm.trans htask')
  exact hpass pass (.inr rfl)

/-- A pass that reads the sessions with a listing that gives no reason to fail
one whose runtime is running does not fail an undeleted, unexpired session whose
runtime runs from the read of the pass to its commit. -/
theorem running_session_spared
    (htask : s₀.world.tasks.get? l.pid = some (.reconcile (.select runtimes)))
    (hinput : l.input = .returned) (hguard : s₀.shown_running (.program l))
    (hread : s₀.step (.program l) = some s₁)
    (hlater : Run step (fun s _ => s.engine.running runtime_id = true) s₁ s₂)
    (hcommit : s₂.world.tasks.get? l.pid = some (.reconcile (.commit pass)))
    (hget : s₀.world.db.sessions.get? session_id = some session)
    (hundeleted : session.deleted_at = none) (hunexpired : l.now < session.expires_at)
    (hbound : session.runtime_id = some runtime_id)
    (hrunning : s₀.engine.running runtime_id = true) :
    ¬ pass.fails session_id ∧
      ∀ l' s₃ row, l'.pid = l.pid → s₂.step (.program l') = some s₃ →
        s₃.world.db.sessions.get? session_id = some row → row.status = .FAILED →
        ∃ before, s₂.world.db.sessions.get? session_id = some before ∧ before.status = .FAILED := by
  have hspared : ¬ pass.fails session_id := by
    obtain rfl := read_of_commit htask hread hlater hcommit
    rw [Pass.fails_iff hget hundeleted hunexpired]
    rintro ⟨hactive, hspared⟩
    simp only [shown_running, htask, hinput] at hguard
    have hruns : ∃ runtime_id ∈ session.runtime_id, s₀.engine.running runtime_id = true :=
      ⟨runtime_id, hbound, hrunning⟩
    exact hspared (hguard session_id session hget hundeleted hunexpired hactive hruns)
  refine ⟨hspared, fun l' s₃ row hpid hstep hget' hfailed => ?_⟩
  rw [← hpid] at hcommit
  cases stepped hstep with
  | program _ hworld => exact World.commit_spares hcommit hspared hworld hget' hfailed

/-- A pass that lists the container of a session leaves the session READY. -/
theorem running_session_spared_listed : ∃ (s₂ s₃ : System) (pass : Pass) (row : AgentSession),
    s₂.world.tasks.get? 2 = some (.reconcile (.commit pass)) ∧ ¬ pass.fails 10 ∧
    s₂.step (.program { pid := 2, input := .returned }) = some s₃ ∧
    s₃.world.db.sessions.get? 10 = some row ∧ row.status ≠ .FAILED := by
  obtain ⟨s₀, -, ⟨session, hget, hundeleted, hexpires, hbound⟩, ⟨task, htask, hlisting⟩, hrunning,
      hguard, s₁, hread, ⟨before, hbefore, hready⟩, ⟨commit, hcommit, hpass⟩, s₃, hstep, hsome⟩ : ∃ s,
      Run step (fun _ _ => True) empty s ∧
      (∃ session ∈ s.world.db.sessions.get? 10, session.deleted_at = none ∧
        0 < session.expires_at ∧ session.runtime_id = some "c") ∧
      (∃ task ∈ s.world.tasks.get? 2, World.listing task = some [⟨"c", 10, "running", 1000⟩]) ∧
      s.engine.running "c" = true ∧ s.shown_running (.program { pid := 2, input := .returned }) ∧
      ∃ s₁ ∈ s.step (.program { pid := 2, input := .returned }),
        (∃ row ∈ s₁.world.db.sessions.get? 10, row.status = .READY) ∧
        (∃ task ∈ s₁.world.tasks.get? 2, (World.committing_pass task).isSome) ∧
        ∃ s₃ ∈ s₁.step (.program { pid := 2, input := .returned }),
          (s₃.world.db.sessions.get? 10).isSome :=
    Run.exists_of_exec (fun _ _ => trivial) (requests_container 1 10 ++ boots 1 10 "c" ++
      (through 2 [.call .reconcile, .listed (some [⟨"c", 10, "running", 1000⟩])]).map .program) _
      (by decide +kernel)
  obtain rfl := World.listing_eq hlisting
  obtain ⟨pass, hpass⟩ := Option.isSome_iff_exists.mp hpass
  obtain rfl := World.committing_pass_eq hpass
  obtain ⟨row, hget₃⟩ := Option.isSome_iff_exists.mp hsome
  obtain ⟨hspared, hcommits⟩ := running_session_spared htask rfl hguard hread .refl hcommit hget
    hundeleted hexpires hbound hrunning
  refine ⟨s₁, s₃, pass, row, hcommit, hspared, hstep, hget₃, fun hfailed => ?_⟩
  obtain ⟨row₁, hget₁, hstatus⟩ := hcommits _ s₃ row rfl hstep hget₃ hfailed
  obtain rfl := Option.some.inj (hbefore.symm.trans hget₁)
  simp [hready] at hstatus

/-- The container of the session starts after the listing and before the read of
the sessions: the pass fails the READY session, whose container never stops. -/
theorem running_session_failed : ∃ (s₀ s₁ s₂ : System) (session row : AgentSession),
    Run step (fun _ _ => True) empty s₀ ∧
    s₀.world.tasks.get? 2 = some (.reconcile (.select [])) ∧
    s₀.world.db.sessions.get? 10 = some session ∧ session.status = .READY ∧
    session.deleted_at = none ∧ 0 < session.expires_at ∧ session.runtime_id = some "c" ∧
    s₀.engine.running "c" = true ∧
    s₀.step (.program { pid := 2, input := .returned, now := 0 }) = some s₁ ∧
    s₁.engine.running "c" = true ∧
    s₁.step (.program { pid := 2, input := .returned }) = some s₂ ∧
    s₂.engine.running "c" = true ∧
    s₂.world.db.sessions.get? 10 = some row ∧ row.status = .FAILED := by
  obtain ⟨s₀, hrun, ⟨session, hget, hsession⟩, ⟨task, htask, hlisting⟩, hrunning₀, s₁, hread,
      hrunning₁, s₂, hstep, hrunning₂, row, hrow, hfailed⟩ : ∃ s,
      Run step (fun _ _ => True) empty s ∧
      (∃ session ∈ s.world.db.sessions.get? 10, session.status = .READY ∧
        session.deleted_at = none ∧ 0 < session.expires_at ∧ session.runtime_id = some "c") ∧
      (∃ task ∈ s.world.tasks.get? 2, World.listing task = some []) ∧
      s.engine.running "c" = true ∧
      ∃ s₁ ∈ s.step (.program { pid := 2, input := .returned }), s₁.engine.running "c" = true ∧
        ∃ s₂ ∈ s₁.step (.program { pid := 2, input := .returned }), s₂.engine.running "c" = true ∧
          ∃ row ∈ s₂.world.db.sessions.get? 10, row.status = .FAILED :=
    Run.exists_of_exec (fun _ _ => trivial) (requests_container 1 10 ++
      (through 2 [.call .reconcile, .listed (some [])]).map .program ++ boots 1 10 "c") _
      (by decide +kernel)
  obtain rfl := World.listing_eq hlisting
  exact ⟨s₀, s₁, s₂, session, row, hrun, htask, hget, hsession.1, hsession.2.1, hsession.2.2.1,
    hsession.2.2.2, hrunning₀, hread, hrunning₁, hstep, hrunning₂, hrow, hfailed⟩

end System

end session_manager
