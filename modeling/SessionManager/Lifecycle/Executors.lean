import SessionManager.Lifecycle.Apart

open unit_of_work

namespace session_manager.lifecycle

/-- The statuses a run can have while an executor is in the phase. -/
def Phase.fits : Phase → RunStatus → Bool
  | .starting, .PENDING => true
  | .running, .RUNNING | .running, .CANCELLED => true
  | .deciding .RUNNING, .RUNNING | .deciding .RUNNING, .CANCELLED => true
  | .tail, .COMPLETED => true
  | _, _ => false

variable {ρ π : Type}

/-- Every run has at most one executor, and a status that fits its phase. -/
structure Executors (s : State ρ π) : Prop where
  fits : ∀ p r ph, s.views p = .exec r ph → ∃ st, s.runs r = some st ∧ ph.fits st = true
  alone : ∀ p q r ph ph', s.views p = .exec r ph → s.views q = .exec r ph' → p = q

private theorem Phase.eq_starting_of_fits {ph : Phase} (h : ph.fits .PENDING = true) : ph = .starting := by
  cases ph with
  | starting => rfl
  | running => simp [fits] at h
  | deciding loaded => cases loaded <;> simp [fits] at h
  | tail => simp [fits] at h

/-- A last check that found the run not CANCELLED found it RUNNING. Since then it can
only have been cancelled. -/
theorem Phase.deciding_of_fits {loaded st : RunStatus} (h : (Phase.deciding loaded).fits st = true) :
    loaded = .RUNNING ∧ (st = .RUNNING ∨ st = .CANCELLED) := by
  cases loaded <;> cases st <;> simp [fits] at h ⊢

/-- A fitting phase survives the cancellation of its run, unless it starts. -/
private theorem Phase.fits_cancelled {ph : Phase} {st : RunStatus} (h : ph.fits st = true)
    (hactive : st.active = true) (hstarting : ph ≠ .starting) : ph.fits .CANCELLED = true := by
  cases ph with
  | starting => exact absurd rfl hstarting
  | running => rfl
  | deciding loaded => cases loaded <;> cases st <;> simp_all [fits]
  | tail => cases st <;> simp_all [fits, RunStatus.active]

/-- Nobody is at work before the first step. -/
theorem Executors.initial : Executors (.initial : State ρ π) where
  fits _ _ _ hview := by cases hview
  alone _ _ _ _ _ hview := by cases hview

namespace Executors

variable {s : State ρ π} (h : Executors s)
include h

/-- The run of an executor that is past the start has begun: it is no longer PENDING,
and so nobody else takes it up. -/
theorem begun {p : π} {r : ρ} {ph : Phase} (hview : s.views p = .exec r ph) (hph : ph ≠ .starting) :
    s.begun r := by
  obtain ⟨st, hst, hfits⟩ := h.fits p r ph hview
  refine ⟨st, hst, ?_⟩
  rintro rfl
  exact hph (Phase.eq_starting_of_fits hfits)

/-- The weaker invariant, which also survives a relapse: executors are apart even when
one of them goes back to a run it has committed COMPLETED. -/
theorem apart : Apart s := ⟨fun _ _ _ => h.begun, h.alone⟩

private theorem shift_fits {v : View ρ} {r : ρ} {ph : Phase} {p : π} (hshift : Shift s p v)
    (hexec : v = .exec r ph) : ∃ st, s.runs r = some st ∧ ph.fits st = true := by
  cases hshift with
  | stay => exact h.fits p r ph hexec
  | leave | load_creating | load_stopped => cases hexec
  | lock hview hrun hfree =>
    cases hexec
    exact ⟨_, hrun, rfl⟩
  | @read _ st hview hrun hst =>
    cases hexec
    obtain ⟨st', hrun', hfits⟩ := h.fits p _ _ hview
    rw [hrun, Option.some.injEq] at hrun'
    subst hrun'
    cases st <;> simp_all [Phase.fits]
  | @retry _ st hview =>
    cases hexec
    obtain ⟨st', hrun, hfits⟩ := h.fits p _ _ hview
    obtain ⟨-, rfl | rfl⟩ := Phase.deciding_of_fits hfits <;> exact ⟨_, hrun, rfl⟩

end Executors

section Move

variable [DecidableEq ρ] [DecidableEq π] {s s' : State ρ π} {p : π} {kind : Kind ρ}

namespace Executors

variable (h : Executors s)
include h

private theorem own_fits (hmove : Move p s kind s') (hkind : kind ≠ .relapse) {r : ρ} {ph : Phase}
    (hexec : s'.views p = .exec r ph) : ∃ st, s'.runs r = some st ∧ ph.fits st = true := by
  cases hmove with
  | shift hshift =>
    rw [State.see_views_self] at hexec
    exact h.shift_fits hshift hexec
  | relapse => exact absurd rfl hkind
  | start hview hrun =>
    simp only [State.see_views_self, View.exec.injEq] at hexec
    obtain ⟨rfl, rfl⟩ := hexec
    exact ⟨.RUNNING, by simp, rfl⟩
  | finish hview hrun hfinal =>
    rcases hfinal with ⟨rfl, rfl⟩ | ⟨-, rfl⟩ <;> simp at hexec
    obtain ⟨rfl, rfl⟩ := hexec
    obtain ⟨st, -, hfits⟩ := h.fits p _ _ hview
    obtain ⟨rfl, -⟩ := Phase.deciding_of_fits hfits
    exact ⟨.COMPLETED, by simp [column], rfl⟩
  | insert | mark | set | expire | close | submit => simp at hexec

private theorem other_fits (hmove : Move p s kind s') {q : π} {r : ρ} {ph : Phase} (hne : q ≠ p)
    (hexec : s.views q = .exec r ph) : ∃ st, s'.runs r = some st ∧ ph.fits st = true := by
  obtain ⟨st, hst, hfits⟩ := h.fits q r ph hexec
  cases hmove.run_change r with
  | same hrun => exact ⟨st, hrun.trans hst, hfits⟩
  | submitted hsubmits => simp [hsubmits.fresh] at hst
  | cancelled _ _ hactive hfree hrun =>
    obtain ⟨st', hst', hactive⟩ := hactive
    rw [hst, Option.some.injEq] at hst'
    subst hst'
    exact ⟨_, hrun, Phase.fits_cancelled hfits hactive fun hph => hfree q (hph ▸ hexec)⟩
  | started hview => exact absurd (h.alone q p r _ _ hexec hview) hne
  | finished hview => exact absurd (h.alone q p r _ _ hexec hview) hne

/-- Every step but a relapse keeps the executors apart: one for each run, in a phase
that fits the status of the run. -/
theorem move (hmove : Move p s kind s') (hkind : kind ≠ .relapse) : Executors s' := by
  refine ⟨fun q r ph hexec => ?_, (h.apart.move hmove).alone⟩
  by_cases hq : q = p
  · subst hq
    exact h.own_fits hmove hkind hexec
  · exact h.other_fits hmove hq (hmove.views_of_ne hq ▸ hexec)

end Executors

end Move

end session_manager.lifecycle
