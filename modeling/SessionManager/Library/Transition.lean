import Mathlib.Data.Option.Basic
import Mathlib.Logic.Basic

namespace transition

variable {σ ι : Type*}

/-- `Run step guard s t` says that finitely many labelled steps lead from `s`
to `t`, each taken in a state where `guard` allows its label. An unrestricted
run uses a guard that always holds. -/
inductive Run (step : σ → ι → Option σ) (guard : σ → ι → Prop) (s : σ) : σ → Prop
  | refl : Run step guard s s
  | tail {t u : σ} (l : ι) (hrun : Run step guard s t) (hguard : guard t l)
      (hstep : step t l = some u) : Run step guard s u

namespace Run

variable {step : σ → ι → Option σ} {guard guard' : σ → ι → Prop} {s t u : σ}

/-- One allowed step is a run; longer ones are put together with `trans`. -/
theorem single {l : ι} (hguard : guard s l) (hstep : step s l = some t) : Run step guard s t :=
  .tail l .refl hguard hstep

/-- Runs may be joined where the one ends and the other starts. -/
theorem trans (hst : Run step guard s t) (htu : Run step guard t u) : Run step guard s u := by
  induction htu with
  | refl => exact hst
  | tail l _ hguard hstep ih => exact .tail l ih hguard hstep

/-- A run under a guard is one under any weaker guard, so what holds of the runs of the
weaker one holds of it. -/
theorem mono (hle : ∀ s l, guard s l → guard' s l) (hrun : Run step guard s t) :
    Run step guard' s t := by
  induction hrun with
  | refl => exact .refl
  | tail l _ hguard hstep ih => exact .tail l ih (hle _ _ hguard) hstep

/-- A property kept by every allowed step holds at the end of every run that
starts in it. -/
theorem invariant {I : σ → Prop}
    (hkeep : ∀ s l t, I s → guard s l → step s l = some t → I t)
    (hs : I s) (hrun : Run step guard s t) : I t := by
  induction hrun with
  | refl => exact hs
  | tail l _ hguard hstep ih => exact hkeep _ l _ ih hguard hstep

/-- An invariant of the run may be used as part of the guard of its steps. This is how
one invariant rests on another. -/
theorem strengthen {I : σ → Prop}
    (hkeep : ∀ s l t, I s → guard s l → step s l = some t → I t)
    (hs : I s) (hrun : Run step guard s t) :
    Run step (fun s l => I s ∧ guard s l) s t := by
  induction hrun with
  | refl => exact .refl
  | tail l hrun hguard hstep ih => exact .tail l ih ⟨invariant hkeep hs hrun, hguard⟩ hstep

end Run

/-- Takes the labelled steps in order; `none` as soon as one is not enabled. -/
def exec (step : σ → ι → Option σ) : List ι → σ → Option σ
  | [], s => some s
  | l :: ls, s => (step s l).bind (exec step ls)

/-- `exec` that also stops at the first label the guard forbids. -/
def execIf (guard : σ → ι → Prop) [∀ s l, Decidable (guard s l)] (step : σ → ι → Option σ) :
    List ι → σ → Option σ
  | [], s => some s
  | l :: ls, s => if guard s l then (step s l).bind (execIf guard step ls) else none

/-- The guard allows every one of the labelled steps. -/
def Along (guard : σ → ι → Prop) (step : σ → ι → Option σ) : List ι → σ → Prop
  | [], _ => True
  | l :: ls, s => guard s l ∧ ∀ t ∈ step s l, Along guard step ls t

instance Along.decide (guard : σ → ι → Prop) [∀ s l, Decidable (guard s l)] (step : σ → ι → Option σ) :
    ∀ ls s, Decidable (Along guard step ls s)
  | [], _ => inferInstanceAs (Decidable True)
  | l :: ls, s =>
    have := fun t => Along.decide guard step ls t
    inferInstanceAs (Decidable (guard s l ∧ ∀ t ∈ step s l, Along guard step ls t))

variable {step : σ → ι → Option σ} {guard : σ → ι → Prop} {s t : σ} {ls : List ι}

/-- Labels are carried out one after the other. -/
theorem exec_append (ls ls' : List ι) (s : σ) :
    exec step (ls ++ ls') s = (exec step ls s).bind (exec step ls') := by
  induction ls generalizing s with
  | nil => rfl
  | cons l ls ih => simp only [List.cons_append, exec, Option.bind_assoc, ih]

/-- Steps that can be followed one by one can be followed in a row: the forward
simulation of a list of labels. -/
theorem exec_forward {τ : Type*} {step' : τ → ι → Option τ} {R : τ → σ → Prop} {P : ι → Prop}
    (hfollow : ∀ t s l s', R t s → P l → step s l = some s' → ∃ t', step' t l = some t' ∧ R t' s')
    (hls : ∀ l ∈ ls, P l) {x : τ} (hx : R x s) (hexec : exec step ls s = some t) :
    ∃ x', exec step' ls x = some x' ∧ R x' t := by
  induction ls generalizing s x with
  | nil =>
    cases hexec
    exact ⟨x, rfl, hx⟩
  | cons l ls ih =>
    obtain ⟨next, hstep, hrest⟩ := Option.bind_eq_some_iff.mp hexec
    obtain ⟨x', hstep', hx'⟩ := hfollow x s l next hx (hls l List.mem_cons_self) hstep
    obtain ⟨x'', hexec', hx''⟩ := ih (fun l hl => hls l (List.mem_cons_of_mem _ hl)) hx' hrest
    exact ⟨x'', by simp [exec, hstep', hexec'], hx''⟩

/-- What every allowed step keeps holds at the end of the steps. -/
private theorem Along.invariant {I : σ → Prop} (hkeep : ∀ s l t, I s → guard s l → step s l = some t → I t)
    (hs : I s) (hguard : Along guard step ls s) (hexec : exec step ls s = some t) : I t := by
  induction ls generalizing s with
  | nil =>
    cases hexec
    exact hs
  | cons l ls ih =>
    obtain ⟨next, hstep, hrest⟩ := Option.bind_eq_some_iff.mp hexec
    exact ih (hkeep s l next hs hguard.1 hstep) (hguard.2 next hstep) hrest

/-- A step that is not `fine` leads for good from `I` to `J`, so the end says whether
there was one. -/
theorem Along.settles {fine : σ → ι → Prop} {I J : σ → Prop}
    (hfine : ∀ s l t, I s → guard s l → fine s l → step s l = some t → I t)
    (hslip : ∀ s l t, I s → guard s l → ¬ fine s l → step s l = some t → J t)
    (hkeep : ∀ s l t, J s → guard s l → step s l = some t → J t)
    (hs : I s) (hguard : Along guard step ls s) (hexec : exec step ls s = some t) :
    Along fine step ls s ∧ I t ∨ ¬ Along fine step ls s ∧ J t := by
  induction ls generalizing s with
  | nil =>
    cases hexec
    exact .inl ⟨trivial, hs⟩
  | cons l ls ih =>
    obtain ⟨next, hstep, hrest⟩ := Option.bind_eq_some_iff.mp hexec
    have hguard' : Along guard step ls next := hguard.2 next hstep
    by_cases hl : fine s l
    · rcases ih (hfine s l next hs hguard.1 hl hstep) hguard' hrest with ⟨halong, ht⟩ | ⟨halong, ht⟩
      · refine .inl ⟨⟨hl, fun next' hstep' => ?_⟩, ht⟩
        obtain rfl : next = next' := Option.some.inj (hstep.symm.trans hstep')
        exact halong
      · exact .inr ⟨fun h => halong (h.2 next hstep), ht⟩
    · exact .inr ⟨fun h => hl h.1, invariant hkeep (hslip s l next hs hguard.1 hl hstep) hguard' hrest⟩

/-- Labels that can be carried out under the guard make a run. Executions on concrete
labels become runs by this. -/
theorem Run.of_execIf [∀ s l, Decidable (guard s l)] (hexec : execIf guard step ls s = some t) :
    Run step guard s t := by
  induction ls generalizing s with
  | nil =>
    cases hexec
    exact .refl
  | cons l ls ih =>
    simp only [execIf] at hexec
    split at hexec
    · rename_i hl
      obtain ⟨next, hstep, hrest⟩ := Option.bind_eq_some_iff.mp hexec
      exact (Run.single hl hstep).trans (ih hrest)
    · cases hexec

/-- Where the guard allows everything, labels that can be carried out make a run. -/
theorem Run.of_exec (hguard : ∀ s l, guard s l) (hexec : exec step ls s = some t) :
    Run step guard s t := by
  induction ls generalizing s with
  | nil =>
    cases hexec
    exact .refl
  | cons l ls ih =>
    obtain ⟨next, hstep, hrest⟩ := Option.bind_eq_some_iff.mp hexec
    exact (Run.single (hguard s l) hstep).trans (ih hrest)

/-- A test of the state a list of allowed labels leads to, which `decide` can evaluate. -/
theorem Run.exists_of_execIf [∀ s l, Decidable (guard s l)] (ls : List ι) (P : σ → Prop)
    [DecidablePred P] (htest : (execIf guard step ls s).any (fun t => decide (P t)) = true) :
    ∃ t, Run step guard s t ∧ P t := by
  cases hexec : execIf guard step ls s with
  | none => simp [hexec] at htest
  | some t => exact ⟨t, .of_execIf hexec, by simpa [hexec] using htest⟩

/-- The same test where the guard allows everything, so only the steps themselves are
evaluated. -/
theorem Run.exists_of_exec (hguard : ∀ s l, guard s l) (ls : List ι) (P : σ → Prop)
    [DecidablePred P] (htest : (exec step ls s).any (fun t => decide (P t)) = true) :
    ∃ t, Run step guard s t ∧ P t := by
  cases hexec : exec step ls s with
  | none => simp [hexec] at htest
  | some t => exact ⟨t, .of_exec hguard hexec, by simpa [hexec] using htest⟩

end transition
