import SessionManager.Lifecycle.Exclusion

open unit_of_work

namespace session_manager.lifecycle

variable {ρ π : Type}

/-- No run is cancelled between the last check of its executor and the commit
that ends it. -/
structure Firm (s : State ρ π) : Prop extends Executors s where
  deciding : ∀ p r loaded, s.views p = .exec r (.deciding loaded) → s.runs r = some .RUNNING

/-- No executor has decided anything before the first step, and no run has ended. -/
theorem Firm.initial : Firm (.initial : State ρ π) where
  toExecutors := .initial
  deciding _ _ _ hview := by cases hview

variable [DecidableEq ρ] [DecidableEq π] {s s' : State ρ π} {p : π} {kind : Kind ρ}

/-- The final statuses of a run. -/
def terminal : RunStatus → Bool
  | .COMPLETED | .FAILED | .CANCELLED => true
  | .PENDING | .RUNNING => false

namespace Firm

variable (h : Firm s)
include h

/-- No step changes a final status: an executor that is past its last check still finds
its run as it was. -/
theorem terminal_move (hmove : Move p s kind s') {r : ρ} {st : RunStatus}
    (hrun : s.runs r = some st) (hterminal : terminal st = true) : s'.runs r = some st := by
  cases hmove.run_change r with
  | same hsame => exact hsame.trans hrun
  | submitted hsubmits => simp [hsubmits.fresh] at hrun
  | cancelled _ _ hactive =>
    obtain ⟨st', hst', hactive⟩ := hactive
    rw [hrun, Option.some.injEq] at hst'
    subst hst'
    cases st <;> simp_all [terminal, RunStatus.active]
  | started _ hold =>
    rw [hrun, Option.some.injEq] at hold
    simp [hold, terminal] at hterminal
  | finished hview =>
    have hold := h.deciding p r _ hview
    rw [hrun, Option.some.injEq] at hold
    simp [hold, terminal] at hterminal

private theorem not_cancelled_move (hmove : Move p s kind s')
    (hclose : ∀ ids, kind = .close ids →
      ∀ r ∈ ids, ∀ q loaded, s.views q ≠ .exec r (.deciding loaded))
    {q : π} {r : ρ} {loaded : RunStatus} (hview : s'.views q = .exec r (.deciding loaded)) :
    s'.runs r ≠ some .CANCELLED := by
  intro hcancelled
  cases hmove.run_change r with
  | same hsame =>
    rw [hsame] at hcancelled
    rcases hmove.deciding_cases hview with hold | ⟨-, hrun, hst⟩
    · simp [h.deciding q r _ hold] at hcancelled
    · exact hst (Option.some.inj (hrun.symm.trans hcancelled))
  | submitted hsubmits => simp [hsubmits.run] at hcancelled
  | started _ _ hrun => simp [hrun] at hcancelled
  | finished hold _ hrun hfinal =>
    obtain ⟨st, -, hfits⟩ := h.fits p r _ hold
    obtain ⟨rfl, -⟩ := Phase.deciding_of_fits hfits
    rcases hfinal with rfl | rfl <;> simp [hrun, column] at hcancelled
  | @cancelled ids hkind hmem =>
    subst hkind
    by_cases hq : q = p
    · subst hq
      cases hmove
      simp at hview
    · exact hclose ids rfl r hmem q loaded (hmove.views_of_ne hq ▸ hview)

/-- The executors stay sure of their last check as long as nobody cancels the run of one
that is past it. -/
theorem move (hmove : Move p s kind s') (hrelapse : kind ≠ .relapse)
    (hclose : ∀ ids, kind = .close ids →
      ∀ r ∈ ids, ∀ q loaded, s.views q ≠ .exec r (.deciding loaded)) : Firm s' where
  toExecutors := h.toExecutors.move hmove hrelapse
  deciding q r loaded hview := by
    obtain ⟨st, hrun, hfits⟩ := (h.toExecutors.move hmove hrelapse).fits q r _ hview
    obtain ⟨rfl, rfl | rfl⟩ := Phase.deciding_of_fits hfits
    · exact hrun
    · exact absurd hrun (h.not_cancelled_move hmove hclose hview)

end Firm

end session_manager.lifecycle
