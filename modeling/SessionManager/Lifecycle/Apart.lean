import SessionManager.Lifecycle.Change

namespace session_manager.lifecycle

variable {ρ π : Type}

/-- Every run has at most one executor, and has begun once its executor is past
the start. Unlike `Executors` this survives a relapse. -/
structure Apart (s : State ρ π) : Prop where
  begun : ∀ p r ph, s.views p = .exec r ph → ph ≠ .starting → s.begun r
  alone : ∀ p q r ph ph', s.views p = .exec r ph → s.views q = .exec r ph' → p = q

namespace Apart

/-- There is nothing to keep apart before the first step, as nobody is executing a run. -/
theorem initial : Apart (.initial : State ρ π) where
  begun _ _ _ hview := by cases hview
  alone _ _ _ _ _ hview := by cases hview

variable {s : State ρ π} (h : Apart s)
include h

/-- Nobody else works on a run that is free to be started, in whichever phase: an
executor past the start has made its run RUNNING. -/
theorem idle_of_pending {r : ρ} (hrun : s.runs r = some .PENDING)
    (hfree : ∀ q, s.views q ≠ .exec r .starting) (q : π) (ph : Phase) :
    s.views q ≠ .exec r ph := by
  intro hview
  by_cases hph : ph = .starting
  · exact hfree q (hph ▸ hview)
  · obtain ⟨st, hst, hne⟩ := h.begun q r ph hview hph
    rw [hrun, Option.some.injEq] at hst
    exact hne hst.symm

variable [DecidableEq ρ] [DecidableEq π] {s' : State ρ π} {p : π} {kind : Kind ρ}

private theorem move_alone (hmove : Move p s kind s') {q q' : π} {r : ρ} {ph ph' : Phase}
    (hq : s'.views q = .exec r ph) (hq' : s'.views q' = .exec r ph') : q = q' := by
  rcases hmove.exec_cases hq with ⟨ph₀, hold⟩ | ⟨rfl, -, hrun, hfree⟩ <;>
    rcases hmove.exec_cases hq' with ⟨ph₀', hold'⟩ | ⟨rfl, -, hrun', hfree'⟩
  · exact h.alone q q' r ph₀ ph₀' hold hold'
  · exact absurd hold (h.idle_of_pending hrun' hfree' q ph₀)
  · exact absurd hold' (h.idle_of_pending hrun hfree q' ph₀')
  · rfl

/-- The view of an executor past its start comes from one past its start, or
from the commit of the start. -/
private theorem move_begun (hmove : Move p s kind s') {q : π} {r : ρ} {ph : Phase}
    (hview : s'.views q = .exec r ph) (hph : ph ≠ .starting) : s'.begun r := by
  by_cases hq : q = p
  · subst hq
    cases hmove with
    | shift hshift =>
      rw [State.see_views_self] at hview
      cases hshift with
      | stay => exact h.begun q r ph hview hph
      | lock =>
        cases hview
        exact absurd rfl hph
      | read hold | retry hold =>
        cases hview
        exact h.begun q _ _ hold (by simp)
      | leave | load_creating | load_stopped => cases hview
    | relapse hold =>
      rw [State.see_views_self] at hview
      cases hview
      exact h.begun q _ _ hold (by simp)
    | start =>
      simp only [State.see_views_self, View.exec.injEq] at hview
      obtain ⟨rfl, -⟩ := hview
      exact ⟨.RUNNING, by simp, by simp⟩
    | finish hold hrun hfinal hsession =>
      rcases hfinal with ⟨rfl, rfl⟩ | ⟨-, rfl⟩ <;> simp at hview
      obtain ⟨rfl, rfl⟩ := hview
      have hmove := Move.finish hold hrun (.inl ⟨rfl, rfl⟩) hsession
      exact hmove.begun (h.begun q _ _ hold (by simp))
    | insert | mark | set | expire | close | submit => simp at hview
  · rw [hmove.views_of_ne hq] at hview
    exact hmove.begun (h.begun q r ph hview hph)

/-- Every step keeps the executors of a run apart, also a relapse, so this holds of all
runs of the system without a condition. -/
theorem move (hmove : Move p s kind s') : Apart s' :=
  ⟨fun _ _ _ => h.move_begun hmove, fun _ _ _ _ _ => h.move_alone hmove⟩

end Apart

end session_manager.lifecycle
