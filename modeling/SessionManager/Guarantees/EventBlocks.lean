import SessionManager.Guarantees.Guards
import SessionManager.Lifecycle.Blocks
import SessionManager.World.Schedule
import SessionManager.World.Writes

open transition

namespace session_manager

open sessions run_executor lifecycle schedule

namespace Database

/-- The event log of a session. -/
def session_events (db : Database) (session_id : SessionId) : List SessionEvent :=
  db.events.filter fun event => event.session_id = session_id

/-- The runs of a session in the order of their creation. -/
def session_runs (db : Database) (session_id : SessionId) : List RunId :=
  (db.runs.rows.filter fun r => r.2.session_id = session_id).map Prod.fst

/-- Ordered by id, the event log of the session is a sequence of blocks, one for
each run, in the order of the runs. Each block starts with its only run.started,
and a run.completed or run.failed is the only one and the last event of it. -/
structure EventBlocks (db : Database) (session_id : SessionId) : Prop where
  distinct : ((db.session_events session_id).map SessionEvent.id).Nodup
  known : ∀ e ∈ db.session_events session_id, ∃ r ∈ db.session_runs session_id, e.run_id = some r
  apart : (db.session_runs session_id).Pairwise fun r r' => ∀ e ∈ db.session_events session_id,
    ∀ e' ∈ db.session_events session_id, e.run_id = some r → e'.run_id = some r' → e.id < e'.id
  opened : ∀ e ∈ db.session_events session_id, ∃ e₀ ∈ db.session_events session_id,
    e₀.run_id = e.run_id ∧ e₀.event_type = .RUN_STARTED ∧
    ∀ e' ∈ db.session_events session_id, e'.run_id = e.run_id →
      e' = e₀ ∨ e₀.id < e'.id ∧ e'.event_type ≠ .RUN_STARTED
  closed : ∀ e ∈ db.session_events session_id, e.event_type.terminal = true →
    ∀ e' ∈ db.session_events session_id, e'.run_id = e.run_id →
      e' = e ∨ e'.id < e.id ∧ e'.event_type.terminal = false

end Database

/-- Only RUN_STARTED opens a block. -/
theorem EventType.mark_eq_opening_iff {t : EventType} : t.mark = .opening ↔ t = .RUN_STARTED := by
  cases t <;> simp [mark]

/-- The terminal events, and only these, close a block. -/
theorem EventType.mark_eq_closing_iff {t : EventType} : t.mark = .closing ↔ t.terminal = true := by
  cases t <;> simp [mark, terminal]

namespace World

/-- No run of the session is opened while the end of another one is unreported,
and no agent of it emits once its run has raised, in an undisturbed step. -/
def reporting (session_id : SessionId) (w : World) (l : Label) : Prop :=
  w.undisturbed session_id l ∧ w.late session_id l = false ∧
  ∀ task ∈ w.committing l, task.opens session_id = true →
    w.tasks.Forall fun _ other => other.unreported session_id = false

instance (session_id : SessionId) (w : World) (l : Label) : Decidable (w.reporting session_id l) :=
  inferInstanceAs (Decidable (_ ∧ _ ∧ _))

variable {w w' : World} {l : Label} {session_id : SessionId}

/-- Every event belongs to a run. -/
def attributed (w : World) : Prop := ∀ event ∈ w.db.events, event.run_id ≠ none

private theorem attributed_step (hstep : w.step l = some w') (h : w.attributed) : w'.attributed := by
  intro event hevent
  cases stepped hstep with
  | called | killed | refused => exact h event (by simpa using hevent)
  | drained _ _ _ hdrained =>
    obtain hsame | ⟨last, hlast, -, p, drain, -, hrun, hsome⟩ := hdrained.events
    · exact h event (hsame ▸ hevent)
    · rw [hlast, List.mem_append, List.mem_singleton] at hevent
      rcases hevent with hold | rfl
      · exact h event hold
      · exact hrun ▸ Option.isSome_iff_ne_none.mp hsome
  | quiet _ _ hgoes hperform => exact h event ((perform_quiet_events hgoes hperform).1 ▸ hevent)
  | committed _ hcommit =>
    simp only [commit_db, Database.apply, List.mem_append, Option.mem_toList] at hevent
    rcases hevent with hold | hnew
    · exact h event hold
    · cases hcommit <;> cases hnew
      simp [Site.event]

/-- What the log of the session keeps in a run of the system. -/
private structure Logged (session_id : SessionId) (w : World) : Prop where
  consistent : w.Consistent
  exclusive : Exclusive (w.lifecycle session_id)
  attributed : w.attributed
  blocks : Blocks (w.lifecycle session_id) (w.log session_id)

private theorem Logged.empty (session_id : SessionId) : Logged session_id World.empty where
  consistent := .empty
  exclusive := .initial
  attributed _ hevent := by cases hevent
  blocks := .initial

private theorem Logged.step (h : Logged session_id w) (hguard : w.reporting session_id l)
    (hstep : w.step l = some w') : Logged session_id w' := by
  obtain ⟨kind, hmove, hdoes⟩ := h.consistent.step_moves hstep session_id
  obtain ⟨hrelapse, hmark⟩ := hguard.1.kind hdoes
  have hexclusive := h.exclusive.move hmove hrelapse hmark
  have hwrites := step_writes (fun task hcommits => hguard.2.2 task (mem_committing hcommits))
    hguard.2.1 hstep
  constructor
  case consistent => exact h.consistent.step hstep
  case exclusive => exact hexclusive
  case attributed => exact attributed_step hstep h.attributed
  case blocks =>
    exact h.blocks.move h.exclusive hexclusive (w.log_fits session_id) hmove hrelapse hwrites

section Events

private theorem entries_ids {events : List SessionEvent} (h : ∀ e ∈ events, e.run_id ≠ none) :
    (events.filterMap SessionEvent.entry).map Entry.id = events.map SessionEvent.id := by
  induction events with
  | nil => rfl
  | cons e events ih =>
    obtain ⟨r, hr⟩ := Option.ne_none_iff_exists'.mp (h e List.mem_cons_self)
    have hrest := ih fun e he => h e (List.mem_cons_of_mem _ he)
    simp [SessionEvent.entry, hr, hrest]

private theorem mem_entries {e : SessionEvent} {r : RunId}
    (he : e ∈ w.db.session_events session_id) (hr : e.run_id = some r) :
    ⟨e.id, r, e.event_type.mark⟩ ∈ (w.log session_id).entries :=
  List.mem_filterMap.mpr ⟨e, he, by simp [SessionEvent.entry, hr]⟩

private theorem event_of_entry {entry : Entry RunId} (h : entry ∈ (w.log session_id).entries) :
    ∃ e ∈ w.db.session_events session_id,
      e.run_id = some entry.run ∧ e.id = entry.id ∧ e.event_type.mark = entry.mark := by
  obtain ⟨e, he, hentry⟩ := List.mem_filterMap.mp h
  obtain ⟨r, hr, rfl⟩ := Option.map_eq_some_iff.mp hentry
  exact ⟨e, he, hr, rfl, rfl⟩

namespace Logged

variable (h : Logged session_id w)
include h

private theorem distinct : ((w.db.session_events session_id).map SessionEvent.id).Nodup := by
  have hattributed : ∀ e ∈ w.db.session_events session_id, e.run_id ≠ none :=
    fun e he => h.attributed e (List.mem_of_mem_filter he)
  exact entries_ids hattributed ▸ h.blocks.distinct

private theorem ids_inj {e e' : SessionEvent} (he : e ∈ w.db.session_events session_id)
    (he' : e' ∈ w.db.session_events session_id) (hid : e.id = e'.id) : e = e' :=
  List.inj_on_of_nodup_map h.distinct he he' hid

private theorem run_of_event {e : SessionEvent} (he : e ∈ w.db.session_events session_id) :
    ∃ r, e.run_id = some r :=
  Option.ne_none_iff_exists'.mp (h.attributed e (List.mem_of_mem_filter he))

private theorem known {e : SessionEvent} (he : e ∈ w.db.session_events session_id) :
    ∃ r ∈ w.db.session_runs session_id, e.run_id = some r := by
  obtain ⟨r, hr⟩ := h.run_of_event he
  obtain ⟨st, hst, -⟩ := h.blocks.begun _ (mem_entries he hr)
  obtain ⟨row, hget, hsession, -⟩ := lifecycle_runs_eq_some.mp hst
  refine ⟨r, List.mem_map.mpr ⟨(r, row), List.mem_filter.mpr ⟨?_, by simpa using hsession⟩, rfl⟩, hr⟩
  exact w.db.runs.get?_eq_some_iff_mem.mp hget

private theorem apart : (w.db.session_runs session_id).Pairwise fun r r' =>
    ∀ e ∈ w.db.session_events session_id, ∀ e' ∈ w.db.session_events session_id,
      e.run_id = some r → e'.run_id = some r' → e.id < e'.id := by
  refine h.blocks.order.imp fun hbefore e he e' he' hr hr' => ?_
  exact hbefore.lt _ _ (.inl ⟨_, mem_entries he hr, rfl, rfl⟩) (.inl ⟨_, mem_entries he' hr', rfl, rfl⟩)

private theorem opened {e : SessionEvent} (he : e ∈ w.db.session_events session_id) :
    ∃ e₀ ∈ w.db.session_events session_id, e₀.run_id = e.run_id ∧ e₀.event_type = .RUN_STARTED ∧
      ∀ e' ∈ w.db.session_events session_id, e'.run_id = e.run_id →
        e' = e₀ ∨ e₀.id < e'.id ∧ e'.event_type ≠ .RUN_STARTED := by
  obtain ⟨r, hr⟩ := h.run_of_event he
  obtain ⟨entry, hentry, hrun, hopening⟩ := h.blocks.opened _ (mem_entries he hr)
  obtain ⟨e₀, he₀, hr₀, -, hmark⟩ := event_of_entry hentry
  have hstarted := hmark.trans hopening
  have hr₀' : e₀.run_id = some r := hr₀.trans (congrArg some hrun)
  refine ⟨e₀, he₀, hr₀'.trans hr.symm, EventType.mark_eq_opening_iff.mp hstarted, ?_⟩
  intro e' he' hr'
  rw [hr] at hr'
  have hle := h.blocks.first _ (mem_entries he₀ hr₀') hstarted _ (mem_entries he' hr') rfl
  by_cases hid : e'.id = e₀.id
  · exact .inl (h.ids_inj he' he₀ hid)
  · refine .inr ⟨Nat.lt_of_le_of_ne hle (Ne.symm hid), fun htype => hid ?_⟩
    have hopening' := EventType.mark_eq_opening_iff.mpr htype
    exact Nat.le_antisymm (h.blocks.first _ (mem_entries he' hr') hopening' _ (mem_entries he₀ hr₀') rfl) hle

private theorem closed {e e' : SessionEvent} (he : e ∈ w.db.session_events session_id)
    (hterminal : e.event_type.terminal = true) (he' : e' ∈ w.db.session_events session_id)
    (hrun : e'.run_id = e.run_id) :
    e' = e ∨ e'.id < e.id ∧ e'.event_type.terminal = false := by
  obtain ⟨r, hr⟩ := h.run_of_event he
  have hr' := hrun.trans hr
  have hclosing := EventType.mark_eq_closing_iff.mpr hterminal
  have hle := h.blocks.last _ (mem_entries he hr) hclosing _ (mem_entries he' hr') rfl
  by_cases hid : e'.id = e.id
  · exact .inl (h.ids_inj he' he hid)
  · refine .inr ⟨Nat.lt_of_le_of_ne hle hid, Bool.eq_false_iff.mpr fun hterminal' => hid ?_⟩
    have hclosing' := EventType.mark_eq_closing_iff.mpr hterminal'
    exact Nat.le_antisymm hle
      (h.blocks.last _ (mem_entries he' hr') hclosing' _ (mem_entries he hr) rfl)

end Logged

end Events

/-- The event log of a session is a sequence of blocks, as long as the executor
of a run takes the id of run.completed before the next run of the session takes
its first one, no agent emits once its run has raised, and the steps are undisturbed. -/
theorem event_blocks (hrun : Run World.step (reporting session_id) empty w) :
    w.db.EventBlocks session_id := by
  have h : Logged session_id w :=
    hrun.invariant (fun _ _ _ h hguard hstep => h.step hguard hstep) (.empty session_id)
  constructor
  case distinct => exact h.distinct
  case known => exact fun _ => h.known
  case apart => exact h.apart
  case opened => exact fun _ => h.opened
  case closed => exact fun _ he hterminal _ => h.closed he hterminal

/-- Two runs in a row, each with its run.started, answer and run.completed. -/
theorem event_blocks_two_runs : ∃ w : World,
    (w.db.session_events 10).map SessionEvent.run_id =
      [some 20, some 20, some 20, some 21, some 21, some 21] ∧ w.db.EventBlocks 10 := by
  obtain ⟨w, hrun, hevents⟩ : ∃ w, Run World.step (reporting 10) empty w ∧
      (w.db.session_events 10).map SessionEvent.run_id =
        [some 20, some 20, some 20, some 21, some 21, some 21] :=
    Run.exists_of_execIf (creates 1 10 "c" ++ becomes_ready 1 ++ submits 3 10 20 30 ++
      locks 4 20 ++ starts 4 ++ agent_returns 4 ++ completes 4 40 ++ reports 4 ++
      submits 5 10 21 31 ++ locks 6 21 ++ starts 6 ++ agent_returns 6 ++ completes 6 41 ++ reports 6) _
      (by decide +kernel)
  exact ⟨w, hevents, event_blocks hrun⟩

/-- The commit of the answer of run 20 makes the session READY. Run 21 is
submitted and started before the executor of run 20 appends its run.completed. -/
theorem event_blocks_interleaved : ∃ w : World,
    Run World.step (fun _ _ => True) empty w ∧ ¬ w.db.EventBlocks 10 := by
  obtain ⟨w, hrun, hruns, hids⟩ : ∃ w, Run World.step (fun _ _ => True) empty w ∧
      w.db.session_runs 10 = [20, 21] ∧
      ∃ e ∈ w.db.session_events 10, ∃ e' ∈ w.db.session_events 10,
        e.run_id = some 20 ∧ e'.run_id = some 21 ∧ e'.id < e.id :=
    Run.exists_of_exec (fun _ _ => trivial) (creates 1 10 "c" ++ becomes_ready 1 ++
      submits 3 10 20 30 ++ locks 4 20 ++ starts 4 ++ agent_returns 4 ++ completes 4 40 ++
      submits 5 10 21 31 ++ locks 6 21 ++ starts 6 ++ reports 4) _ (by decide +kernel)
  refine ⟨w, hrun, fun hblocks => ?_⟩
  obtain ⟨e, he, e', he', hr, hr', hlt⟩ := hids
  have hapart := hblocks.apart
  rw [hruns, List.pairwise_pair] at hapart
  exact Nat.lt_asymm hlt (hapart e he e' he' hr hr')

end World

end session_manager
