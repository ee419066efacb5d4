import Mathlib.Logic.Basic

namespace effect

variable {σ ε α β γ : Type}

/-- From `s` the computation returns with `Q` or raises with `E`. -/
def Ensures (x : EStateM ε σ α) (s : σ) (Q : α → σ → Prop) (E : ε → σ → Prop) : Prop :=
  match x.run s with
  | .ok a s' => Q a s'
  | .error e s' => E e s'

namespace Ensures

instance decide (x : EStateM ε σ α) (s : σ) (Q : α → σ → Prop) (E : ε → σ → Prop) [∀ a s, Decidable (Q a s)]
    [∀ e s, Decidable (E e s)] : Decidable (Ensures x s Q E) :=
  match h : x.run s with
  | .ok a s' => decidable_of_iff (Q a s') (by rw [Ensures, h])
  | .error e s' => decidable_of_iff (E e s') (by rw [Ensures, h])

variable {x : EStateM ε σ α} {y : EStateM ε σ β} {f : α → EStateM ε σ β} {s s' : σ} {a : α} {e : ε}
  {Q Q' : α → σ → Prop} {R : β → σ → Prop} {E E' : ε → σ → Prop}

/-- Of a run that returns, the post-condition says what holds of its result and last
state. -/
theorem iff_of_ok (h : x.run s = .ok a s') : Ensures x s Q E ↔ Q a s' := by
  rw [Ensures, h]

/-- Of a run that raises, the triple says what holds of the error and of the state at
the raise. -/
theorem iff_of_error (h : x.run s = .error e s') : Ensures x s Q E ↔ E e s' := by
  rw [Ensures, h]

/-- The rule of consequence, for both ends: what is ensured may be weakened. -/
theorem mono (hx : Ensures x s Q E) (hQ : ∀ a s', Q a s' → Q' a s') (hE : ∀ e s', E e s' → E' e s') :
    Ensures x s Q' E' := by
  cases hrun : x.run s with
  | ok =>
    rw [iff_of_ok hrun] at hx ⊢
    exact hQ _ _ hx
  | error =>
    rw [iff_of_error hrun] at hx ⊢
    exact hE _ _ hx

/-- Two things that are ensured are ensured together, at a return and at a raise. -/
theorem and (hx : Ensures x s Q E) (hx' : Ensures x s Q' E') :
    Ensures x s (fun a s' => Q a s' ∧ Q' a s') (fun e s' => E e s' ∧ E' e s') := by
  cases hrun : x.run s with
  | ok =>
    rw [iff_of_ok hrun] at hx hx' ⊢
    exact ⟨hx, hx'⟩
  | error =>
    rw [iff_of_error hrun] at hx hx' ⊢
    exact ⟨hx, hx'⟩

/-- Where every end comes down to `p`, so do the post-conditions. A run has one end, so
the two directions meet there. -/
theorem iff_of_ends {p : Prop} (h : Ensures x s (fun a s' => Q a s' ↔ p) (fun e s' => E e s' ↔ p)) :
    Ensures x s Q E ↔ p := by
  cases hrun : x.run s with
  | ok =>
    rw [iff_of_ok hrun] at h ⊢
    exact h
  | error =>
    rw [iff_of_error hrun] at h ⊢
    exact h

/-- To return changes nothing. -/
theorem ret (h : Q a s) : Ensures (pure a) s Q E := h

/-- To raise changes nothing. -/
theorem raise (h : E e s) : Ensures (throw e) s Q E := h

/-- The rule for a change of the state. -/
theorem modify {g : σ → σ} {Q : PUnit → σ → Prop} (h : Q ⟨⟩ (g s)) :
    Ensures (modify g : EStateM ε σ PUnit) s Q E := h

/-- The rule for a sequence: what follows starts where the first part ends, and an error
of the first part is one of the whole. -/
theorem bind (hx : Ensures x s (fun a s' => Ensures (f a) s' R E) E) : Ensures (x >>= f) s R E := by
  cases hrun : x.run s with
  | ok a s' =>
    have hbind : (x >>= f).run s = (f a).run s' := by
      simp only [EStateM.run, Bind.bind, EStateM.bind] at hrun ⊢
      rw [hrun]
    rw [iff_of_ok hrun] at hx
    rwa [Ensures, hbind]
  | error e s' =>
    have hbind : (x >>= f).run s = .error e s' := by
      simp only [EStateM.run, Bind.bind, EStateM.bind] at hrun ⊢
      rw [hrun]
    rw [iff_of_error hrun] at hx
    rwa [iff_of_error hbind]

/-- What follows a read sees the state it reads. -/
theorem get {f : σ → EStateM ε σ β} (h : Ensures (f s) s R E) : Ensures (MonadState.get >>= f) s R E :=
  bind h

/-- The code after `finally` runs in either case, and its own raise wins over what was
to be returned or raised. -/
theorem cleanup (hx : Ensures x s (fun a s' => Ensures y s' (fun _ => Q a) E)
      (fun e s' => Ensures y s' (fun _ => E e) E)) :
    Ensures (tryFinally x y) s Q E := by
  have hrun : (tryFinally x y).run s =
      match x.run s with
      | .ok a s' => match y.run s' with
        | .ok _ s'' => .ok a s''
        | .error e s'' => .error e s''
      | .error e s' => match y.run s' with
        | .ok _ s'' => .error e s''
        | .error e' s'' => .error e' s'' := by
    simp only [EStateM.run, tryFinally, MonadFinally.tryFinally', Functor.map, EStateM.map]
    cases x s with
    | ok a s' =>
      dsimp only
      cases y s' <;> rfl
    | error e s' =>
      dsimp only
      cases y s' <;> rfl
  unfold Ensures at hx ⊢
  rw [hrun]
  cases hrun : x.run s with
  | ok a s' =>
    rw [hrun] at hx
    dsimp only at hx ⊢
    cases hrun' : y.run s' <;> simpa only [hrun'] using hx
  | error e s' =>
    rw [hrun] at hx
    dsimp only at hx ⊢
    cases hrun' : y.run s' <;> simpa only [hrun'] using hx

/-- What a handler does with a raise happens in the state of the raise: nothing is
rolled back. -/
theorem handle {g : ε → EStateM ε σ α} (hx : Ensures x s Q (fun e s' => Ensures (g e) s' Q E)) :
    Ensures (tryCatch x g) s Q E := by
  have hrun : (tryCatch x g).run s =
      match x.run s with
      | .ok a s' => .ok a s'
      | .error e s' => (g e).run s' := by
    simp only [EStateM.run, tryCatch, tryCatchThe, MonadExceptOf.tryCatch]
    delta EStateM.tryCatch
    dsimp only
    cases x s <;> rfl
  unfold Ensures at hx ⊢
  rw [hrun]
  cases hrun : x.run s <;> simpa only [hrun] using hx

/-- The rule for a loop, with an invariant `I` over the elements that are done. A raise
leaves the loop at once. -/
theorem foldlM {g : α → γ → EStateM ε σ α} {l : List γ} {I : List γ → α → σ → Prop}
    (hstep : ∀ done c rest, l = done ++ c :: rest → ∀ a s, I done a s →
      Ensures (g a c) s (I (done ++ [c])) E)
    (h : I [] a s) : Ensures (l.foldlM g a) s (I l) E := by
  suffices hgeneral : ∀ rest done a s, l = done ++ rest → I done a s →
      Ensures (rest.foldlM g a) s (I l) E from hgeneral l [] a s rfl h
  intro rest
  induction rest with
  | nil =>
    intro done a s hl h
    rw [List.append_nil] at hl
    exact hl ▸ ret h
  | cons c rest ih =>
    intro done a s hl h
    rw [List.foldlM_cons]
    apply bind
    apply (hstep done c rest hl a s h).mono _ fun _ _ h => h
    intro a' s' h'
    exact ih (done ++ [c]) a' s' (by simp [hl]) h'

end Ensures

/-- However the computation ends, it ends in `I` when it starts there. -/
def Keeps (I : σ → Prop) (x : EStateM ε σ α) : Prop := ∀ s, I s → Ensures x s (fun _ => I) (fun _ => I)

namespace Keeps

variable {I : σ → Prop} {x : EStateM ε σ α} {f : α → EStateM ε σ β} {s : σ}

/-- To return keeps everything. -/
theorem ret (a : α) : Keeps I (pure a : EStateM ε σ α) := fun _ h => h

/-- So does to raise. -/
theorem raise (e : ε) : Keeps I (throw e : EStateM ε σ α) := fun _ h => h

/-- A change of the state keeps what it keeps of every state. -/
theorem modify {g : σ → σ} (hg : ∀ s, I s → I (g s)) : Keeps I (modify g : EStateM ε σ PUnit) := hg

/-- A sequence keeps what both of its parts keep, whatever the first one returns. -/
theorem bind (hx : Keeps I x) (hf : ∀ a, Keeps I (f a)) : Keeps I (x >>= f) := by
  intro s h
  apply Ensures.bind
  exact (hx s h).mono (fun a s' h' => hf a s' h') fun _ _ h' => h'

/-- Reading the state keeps it. -/
theorem get {f : σ → EStateM ε σ β} (hf : ∀ s, Keeps I (f s)) : Keeps I (MonadState.get >>= f) :=
  fun s h => Ensures.get (hf s s h)

/-- A loop keeps what its body keeps for each of the elements. -/
theorem foldlM {g : α → γ → EStateM ε σ α} {l : List γ} (hg : ∀ a, ∀ c ∈ l, Keeps I (g a c)) (a : α) :
    Keeps I (l.foldlM g a) := by
  induction l generalizing a with
  | nil => exact ret a
  | cons c l ih =>
    rw [List.foldlM_cons]
    exact bind (hg a c List.mem_cons_self) (ih fun a c hc => hg a c (List.mem_cons_of_mem _ hc))

end Keeps

end effect
