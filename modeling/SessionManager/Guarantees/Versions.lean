import SessionManager.Guarantees.Guards
import SessionManager.World.Copies
import SessionManager.World.Schedule

open transition unit_of_work

namespace session_manager

open sessions run_executor runtime_reconciler schedule

/-- The task is about to commit run.started. -/
def Task.commits_start : Task → Bool
  | execute (.append _ _ (.started ..) (.commit _)) => true
  | _ => false

section Commit

variable {l : Label} {task next conflict : Task} {tx : Transaction} {session_id : SessionId}

private theorem bind_selected_version (selected : RuntimeInfo) (session : AgentSession) :
    bind_selected selected session = session ∨
      session.version < (bind_selected selected session).version := by
  unfold bind_selected runtime_reconciler.set_status
  dsimp only
  split <;> split <;> split <;> first | exact .inl rfl | exact .inr (by simp; try omega)

/-- A pass counts the version up whenever it changes a session, and leaves it alone
otherwise. -/
theorem reconcile_session_version (now : Time) (candidates : List RuntimeInfo)
    (session : AgentSession) :
    (reconcile_session now candidates session).2 = session ∨
      session.version < (reconcile_session now candidates session).2.version := by
  unfold reconcile_session
  split
  · exact .inl rfl
  · split
    · dsimp only
      split
      · exact .inr (Nat.lt_succ_self _)
      · exact .inl rfl
    · split
      · exact .inl rfl
      · split
        · dsimp only
          split
          · exact .inr (Nat.lt_succ_self _)
          · exact .inl rfl
        · exact bind_selected_version ..

private theorem site_session_version {site : Site} {x : Loaded AgentSession}
    (hcopy : site.session = some x) (hstarted : ∀ session now, site ≠ .started session now) :
    x.loaded.version < x.current.version := by
  cases site with
  | started session now => exact absurd rfl (hstarted session now)
  | emitted | completed => cases hcopy
  | message =>
    cases hcopy
    exact Nat.lt_succ_self _
  | failed session =>
    obtain ⟨session, -, rfl⟩ := Option.map_eq_some_iff.mp hcopy
    exact Nat.lt_succ_self _

private theorem of_ite {c : Prop} [Decidable c] {x y : Loaded AgentSession}
    (h : (if c then some x else none) = some y) (hlt : x.loaded.version < x.current.version) :
    y.loaded.version < y.current.version := by
  split at h
  · exact Option.some.inj h ▸ hlt
  · cases h

/-- Every commit but that of run.started counts the version of its copy up, or writes
nothing of the session. -/
theorem Commit.copy_version (h : Commit l task tx next conflict) {x : Loaded AgentSession}
    (hcopy : task.session_copy session_id = some x) (hstart : task.commits_start = false) :
    x.current = x.loaded ∨ x.loaded.version < x.current.version := by
  cases h with
  | insert_session => cases hcopy
  | append run_id run site =>
    simp only [Task.session_copy, Option.ite_none_right_eq_some] at hcopy
    refine .inr (site_session_version hcopy.2 ?_)
    rintro session now rfl
    cases hstart
  | reconcile pass =>
    obtain ⟨session, -, rfl⟩ := Option.map_eq_some_iff.mp hcopy
    exact reconcile_session_version ..
  | create_failed | create_ready | create_run | stopping | stop_failed | stopped | deleted =>
    exact .inr (of_ite hcopy (Nat.lt_succ_self _))

end Commit

namespace World

/-- A commit that changes the row of the session at all was computed from the
version the row has, and is not that of run.started. -/
def fresh (session_id : SessionId) (w : World) (l : Label) : Prop :=
  ∀ task ∈ w.committing l, ∀ row ∈ w.db.sessions.get? session_id,
    ∀ x ∈ task.session_copy session_id, x.write row ≠ row →
      x.loaded.version = row.version ∧ task.commits_start = false

instance (session_id : SessionId) (w : World) (l : Label) : Decidable (w.fresh session_id l) :=
  inferInstanceAs (Decidable (∀ task ∈ w.committing l, ∀ row ∈ w.db.sessions.get? session_id,
    ∀ x ∈ task.session_copy session_id, _ → _))

variable {w w₀ w' : World} {l : Label} {session_id : SessionId} {row₀ row row' : AgentSession}

private theorem write_version {x : Loaded AgentSession} (hloaded : x.loaded.version = row.version)
    (hcount : x.current = x.loaded ∨ x.loaded.version < x.current.version) :
    x.write row = row ∨ row.version < (x.write row).version := by
  rcases hcount with hclean | hcount
  · exact .inl (Loaded.write_of_clean (by simp [Loaded.dirty, hclean]) row)
  · refine .inr ?_
    have hwrite : (x.write row).version = column x.loaded.version x.current.version row.version := rfl
    rw [hwrite, column_of_ne _ (Nat.ne_of_gt hcount), ← hloaded]
    exact hcount

/-- A step leaves the row of the session alone or counts its version up, when no commit
goes by an old version. -/
theorem step_version (hguard : w.fresh session_id l) (hstep : w.step l = some w')
    (hget : w.db.sessions.get? session_id = some row) :
    ∃ row', w'.db.sessions.get? session_id = some row' ∧
      (row' = row ∨ row.version < row'.version) := by
  cases stepped hstep with
  | called => exact ⟨row, hget, .inl rfl⟩
  | killed | refused => exact ⟨row, by simpa using hget, .inl rfl⟩
  | drained _ _ _ hdrained => exact ⟨row, hdrained.sessions.symm ▸ hget, .inl rfl⟩
  | quiet _ _ hgoes hperform =>
    exact ⟨row, (perform_quiet_tables hgoes hperform).1.symm ▸ hget, .inl rfl⟩
  | @committed task _ _ tx htask hcommit hinput _ _ =>
    refine ⟨_, by rw [commit_db, Database.apply_session_of_some hget], ?_⟩
    rw [hcommit.update_session_eq]
    cases hcopy : task.session_copy session_id with
    | none => exact .inl rfl
    | some x =>
      rw [Option.bind_some, Loaded.update_getD]
      by_cases hsame : x.write row = row
      · exact .inl hsame
      · obtain ⟨hloaded, hstart⟩ :=
          hguard task (mem_committing ⟨htask, hinput⟩) row hget x hcopy hsame
        exact write_version hloaded (hcommit.copy_version hcopy hstart)

/-- From one state to a later one the row stays as it is or gets a higher
version. -/
theorem later_version (hrun : Run World.step (fresh session_id) w₀ w)
    (hget₀ : w₀.db.sessions.get? session_id = some row₀)
    (hget : w.db.sessions.get? session_id = some row) :
    row = row₀ ∨ row₀.version < row.version := by
  obtain ⟨row₁, hget₁, hlater⟩ : ∃ row, w.db.sessions.get? session_id = some row ∧
      (row = row₀ ∨ row₀.version < row.version) := by
    refine hrun.invariant (I := fun w => ∃ row, w.db.sessions.get? session_id = some row ∧
      (row = row₀ ∨ row₀.version < row.version)) ?_ ⟨row₀, hget₀, .inl rfl⟩
    rintro w l w' ⟨row, hget, hlater⟩ hguard hstep
    obtain ⟨row', hget', hnext⟩ := step_version hguard hstep hget
    refine ⟨row', hget', ?_⟩
    rcases hnext with rfl | hnext
    · exact hlater
    · rcases hlater with rfl | hlater
      · exact .inr hnext
      · exact .inr (Nat.lt_trans hlater hnext)
  obtain rfl : row₁ = row := Option.some.inj (hget₁.symm.trans hget)
  exact hlater

/-- As long as every commit that changes the row of the session was computed from
its current version, and none is that of run.started, a commit that changes
status, runtime or deletion mark stores a version above all versions committed
before, and equal versions mean equal rows. -/
theorem versions_increase (hrun : Run World.step (fresh session_id) w₀ w) (hguard : w.fresh session_id l)
    (hstep : w.step l = some w') (hget₀ : w₀.db.sessions.get? session_id = some row₀)
    (hget : w.db.sessions.get? session_id = some row)
    (hget' : w'.db.sessions.get? session_id = some row') :
    (row'.status ≠ row.status ∨ row'.runtime_id ≠ row.runtime_id ∨
        row'.deleted_at ≠ row.deleted_at → row₀.version < row'.version) ∧
      (row'.version = row₀.version → row'.status = row₀.status ∧
        row'.runtime_id = row₀.runtime_id ∧ row'.deleted_at = row₀.deleted_at) := by
  constructor
  · intro hchanged
    have hlater := later_version hrun hget₀ hget
    have hnext := later_version (.single hguard hstep) hget hget'
    rcases hnext with rfl | hnext
    · simp at hchanged
    · rcases hlater with rfl | hlater
      · exact hnext
      · exact Nat.lt_trans hlater hnext
  · intro hversion
    rcases later_version (.tail l hrun hguard hstep) hget₀ hget' with rfl | hlater
    · exact ⟨rfl, rfl, rfl⟩
    · exact absurd hversion (Nat.ne_of_gt hlater)

/-- The versions of a session that is created and stopped one call after the
other. -/
theorem versions_increase_stopped : ∃ (w₀ w' : World) (row₀ row' : AgentSession),
    w₀.db.sessions.get? 10 = some row₀ ∧ row₀.status = .READY ∧
    w'.db.sessions.get? 10 = some row' ∧ row'.status = .STOPPED ∧ row₀.version < row'.version := by
  obtain ⟨w₀, -, ⟨row₀, hget₀, hready⟩, hlater⟩ : ∃ w, Run World.step (fresh 10) empty w ∧
      (∃ row ∈ w.db.sessions.get? 10, row.status = .READY) ∧
      (execIf (fresh 10) World.step (stops 2 10 ++ through 2 [.runtime true, .returned]) w).any
        (fun w => w.fresh 10 { pid := 2, input := .returned } ∧
          (∃ row ∈ w.db.sessions.get? 10, row.status = .STOPPING) ∧
          ∃ w' ∈ w.step { pid := 2, input := .returned },
            ∃ row ∈ w'.db.sessions.get? 10, row.status = .STOPPED) = true :=
    Run.exists_of_execIf (creates 1 10 "c" ++ becomes_ready 1) _ (by decide +kernel)
  obtain ⟨w, hexec, hw⟩ := Option.any_eq_true _ _ |>.mp hlater
  obtain ⟨hguard, ⟨row, hget, hstopping⟩, w', hstep, row', hget', hstopped⟩ := of_decide_eq_true hw
  refine ⟨w₀, w', row₀, row', hget₀, hready, hget', hstopped, ?_⟩
  refine (versions_increase (.of_execIf hexec) hguard hstep hget₀ hget hget').1 (.inl ?_)
  rw [hstopping, hstopped]
  decide

/-- `stop_session` reads the READY session, `create_run` commits it RUNNING, and
`stop_session` commits it STOPPING under the same version. -/
theorem version_repeated : ∃ (w w' : World) (row row' : AgentSession),
    Run World.step (fun _ _ => True) empty w ∧ w.step { pid := 2, input := .returned } = some w' ∧
    w.db.sessions.get? 10 = some row ∧ row.status = .RUNNING ∧
    w'.db.sessions.get? 10 = some row' ∧ row'.status = .STOPPING ∧
    row'.version = row.version := by
  obtain ⟨w, hrun, ⟨row, hget, hstatus⟩, w', hstep, row', hget', hstatus', hversion⟩ : ∃ w,
      Run World.step (fun _ _ => True) empty w ∧
      (∃ row ∈ w.db.sessions.get? 10, row.status = .RUNNING ∧ row.version = 3) ∧
      ∃ w' ∈ w.step { pid := 2, input := .returned },
        ∃ row ∈ w'.db.sessions.get? 10, row.status = .STOPPING ∧ row.version = 3 :=
    Run.exists_of_exec (fun _ _ => trivial) (creates 1 10 "c" ++ becomes_ready 1 ++
      through 2 [.call (.stop_session 10), .returned] ++ submits 3 10 20 30) _ (by decide +kernel)
  exact ⟨w, w', row, row', hrun, hstep, hget, hstatus.1, hget', hstatus', hversion.trans hstatus.2.symm⟩

end World

end session_manager
