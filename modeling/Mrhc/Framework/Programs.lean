import Mathlib.Order.Defs.Unbundled
import Mathlib.Tactic.Basic

/-!
# Programs with state and failure

Rules for running `EStateM` programs step by step, and for the pattern in which a caller returns
`false` as soon as a callee does. A program moves along a relation when every run of it does,
whether or not it returns.
-/

namespace Mrhc

section

variable {ε σ α β : Type} {s s' : σ}

@[simp] theorem map_run (f : α → β) (x : EStateM ε σ α) :
    (f <$> x).run s =
      match x.run s with
      | .ok a t => .ok (f a) t
      | .error e t => .error e t := by
  change (x >>= fun a => pure (f a)).run s = _
  rw [EStateM.run_bind]
  cases x.run s with
  | ok a t => rfl
  | error e t => rfl

theorem bind_ok {x : EStateM ε σ α} {a : α} (h : x.run s = .ok a s') (f : α → EStateM ε σ β) :
    (x >>= f).run s = (f a).run s' := by
  rw [EStateM.run_bind, h]

theorem bind_error {x : EStateM ε σ α} {e : ε} (h : x.run s = .error e s')
    (f : α → EStateM ε σ β) : (x >>= f).run s = .error e s' := by
  rw [EStateM.run_bind, h]

theorem of_bind_ok {x : EStateM ε σ α} {f : α → EStateM ε σ β} {b : β}
    (h : (x >>= f).run s = .ok b s') :
    ∃ a t, x.run s = .ok a t ∧ (f a).run t = .ok b s' := by
  rw [EStateM.run_bind] at h
  cases hx : x.run s with
  | ok a t => rw [hx] at h; exact ⟨a, t, rfl, h⟩
  | error e t => rw [hx] at h; simp at h

/-- Call `x` and go on with `rest` only if it returned `true`. -/
def require (x rest : EStateM ε σ Bool) : EStateM ε σ Bool := do
  if !(← x) then return false
  rest

theorem require_true {x rest : EStateM ε σ Bool} (h : x.run s = .ok true s') :
    (require x rest).run s = rest.run s' := by
  rw [require, bind_ok h]
  rfl

theorem require_false {x rest : EStateM ε σ Bool} (h : x.run s = .ok false s') :
    (require x rest).run s = .ok false s' := by
  rw [require, bind_ok h]
  rfl

theorem require_error {x rest : EStateM ε σ Bool} {e : ε} (h : x.run s = .error e s') :
    (require x rest).run s = .error e s' := by
  rw [require, bind_error h]

theorem require_pure (x : EStateM ε σ Bool) : require x (pure true) = x := by
  have h : (fun b : Bool => if (!b) = true then (pure false : EStateM ε σ Bool) else pure true) =
      pure := by
    funext b
    cases b <;> rfl
  rw [require, h, bind_pure]

/-- The rest of a checked sequence has been reached when the whole returns `true`. -/
theorem of_require_true {x rest : EStateM ε σ Bool} (h : (require x rest).run s = .ok true s') :
    ∃ t, x.run s = .ok true t ∧ rest.run t = .ok true s' := by
  obtain ⟨b, t, hx, hrest⟩ := of_bind_ok h
  cases b with
  | true => exact ⟨t, hx, hrest⟩
  | false => simp at hrest

/-- A checked sequence returns `true` exactly when both of its parts do. -/
theorem require_true_iff {x rest : EStateM ε σ Bool} :
    (∃ t, (require x rest).run s = .ok true t) ↔
      ∃ u, x.run s = .ok true u ∧ ∃ t, rest.run u = .ok true t := by
  constructor
  · intro h
    obtain ⟨t, ht⟩ := h
    obtain ⟨u, hu, hrest⟩ := of_require_true ht
    exact ⟨u, hu, t, hrest⟩
  · intro h
    obtain ⟨u, hu, t, ht⟩ := h
    exact ⟨t, (require_true hu).trans ht⟩

end

section

variable {ε σ α β : Type} {R : σ → σ → Prop}

/-- The state in which a run ends. -/
def finalState : EStateM.Result ε σ α → σ
  | .ok _ s => s
  | .error _ s => s

@[simp] theorem finalState_ok (a : α) (s : σ) :
    finalState (.ok a s : EStateM.Result ε σ α) = s := rfl

@[simp] theorem finalState_error (e : ε) (s : σ) :
    finalState (.error e s : EStateM.Result ε σ α) = s := rfl

/-- A run has returned `true`. -/
def returnsTrue : EStateM.Result ε σ Bool → Bool
  | .ok b _ => b
  | .error _ _ => false

theorem returnsTrue_iff {r : EStateM.Result ε σ Bool} :
    returnsTrue r = true ↔ ∃ s, r = .ok true s := by
  cases r <;> simp [returnsTrue]

/-- Every run of `x` ends in a state related to the one in which it started. -/
def Moves (R : σ → σ → Prop) (x : EStateM ε σ α) : Prop := ∀ s, R s (finalState (x.run s))

theorem Moves.pure [Std.Refl R] (a : α) : Moves R (Pure.pure a : EStateM ε σ α) := refl_of R

theorem Moves.bind [IsTrans σ R] {x : EStateM ε σ α} {f : α → EStateM ε σ β} (hx : Moves R x)
    (hf : ∀ a, Moves R (f a)) : Moves R (x >>= f) := by
  intro s
  have hfirst := hx s
  cases h : x.run s with
  | ok a t =>
    rw [h] at hfirst
    rw [bind_ok h]
    exact trans_of R hfirst (hf a t)
  | error e t =>
    rw [h] at hfirst
    rw [bind_error h]
    exact hfirst

theorem Moves.ite {p : Prop} [Decidable p] {x y : EStateM ε σ α} (hx : Moves R x)
    (hy : Moves R y) : Moves R (if p then x else y) := by
  by_cases hp : p
  · rw [if_pos hp]
    exact hx
  · rw [if_neg hp]
    exact hy

theorem Moves.require [IsPreorder σ R] {x y : EStateM ε σ Bool} (hx : Moves R x)
    (hy : Moves R y) : Moves R (Mrhc.require x y) :=
  Moves.bind hx fun _ => Moves.ite (Moves.pure false) hy

/-- A relation that holds of all moves holds of the states before and after a returned call. -/
theorem Moves.of_ok {x : EStateM ε σ α} (hx : Moves R x) {s t : σ} {a : α}
    (h : x.run s = .ok a t) : R s t := by
  have hmove := hx s
  rwa [h] at hmove

end

section

variable {ε σ : Type} {P Q R F : σ → Prop}

/-- From a state with `P` the checked call `x` returns `true` in a state with `Q`, or ends in
another way in a state with `F`. -/
structure Stage (x : EStateM ε σ Bool) (P Q F : σ → Prop) : Prop where
  passes : ∀ s t, P s → x.run s = .ok true t → Q t
  fails : ∀ s, P s → (∀ t, x.run s ≠ .ok true t) → F (finalState (x.run s))

theorem Stage.congr {x y : EStateM ε σ Bool} (h : Stage y P Q F)
    (heq : ∀ s, P s → x.run s = y.run s) : Stage x P Q F where
  passes := fun s t hs hrun => h.passes s t hs ((heq s hs).symm.trans hrun)
  fails := by
    intro s hs hnot
    rw [heq s hs] at hnot ⊢
    exact h.fails s hs hnot

/-- A checked sequence stops at its first failure. -/
theorem Stage.require {x y : EStateM ε σ Bool} (hx : Stage x P Q F) (hy : Stage y Q R F) :
    Stage (Mrhc.require x y) P R F where
  passes := by
    intro s t hs hrun
    obtain ⟨u, hu, ht⟩ := of_require_true hrun
    exact hy.passes u t (hx.passes s u hs hu) ht
  fails := by
    intro s hs hnot
    rcases hrun : x.run s with ⟨_ | _, u⟩ | ⟨e, u⟩
    · have hfail := hx.fails s hs (by simp [hrun])
      rw [hrun] at hfail
      rw [require_false hrun]
      exact hfail
    · have hrest : (Mrhc.require x y).run s = y.run u := require_true hrun
      rw [hrest] at hnot ⊢
      exact hy.fails u (hx.passes s u hs hrun) hnot
    · have hfail := hx.fails s hs (by simp [hrun])
      rw [hrun] at hfail
      rw [require_error hrun]
      exact hfail

theorem Stage.pure (h : ∀ s, P s → Q s) : Stage (Pure.pure true : EStateM ε σ Bool) P Q F where
  passes := by
    intro s t hs hrun
    cases hrun
    exact h s hs
  fails := fun s _ hnot => absurd rfl (hnot s)

end

section

variable {ε σ τ α β : Type} {view : σ → τ}

/-- Whenever `x` returns, it has left this view of the state unchanged. -/
def Keeps (view : σ → τ) (x : EStateM ε σ α) : Prop :=
  ∀ s a t, x.run s = .ok a t → view t = view s

theorem Keeps.pure (a : α) : Keeps view (Pure.pure a : EStateM ε σ α) := by
  intro s b t h
  cases h
  rfl

theorem Keeps.bind {x : EStateM ε σ α} {f : α → EStateM ε σ β} (hx : Keeps view x)
    (hf : ∀ a, Keeps view (f a)) : Keeps view (x >>= f) := by
  intro s b t h
  obtain ⟨a, u, hu, ht⟩ := of_bind_ok h
  exact (hf a u b t ht).trans (hx s a u hu)

theorem Keeps.ite {p : Prop} [Decidable p] {x y : EStateM ε σ α} (hx : Keeps view x)
    (hy : Keeps view y) : Keeps view (if p then x else y) := by
  by_cases hp : p
  · rw [if_pos hp]
    exact hx
  · rw [if_neg hp]
    exact hy

theorem Keeps.require {x y : EStateM ε σ Bool} (hx : Keeps view x) (hy : Keeps view y) :
    Keeps view (Mrhc.require x y) :=
  Keeps.bind hx fun _ => Keeps.ite (Keeps.pure false) hy

end

section

variable {ε σ α β : Type}

/-- Nested loops are one loop over the pairs in the order in which they visit them. -/
theorem foldlM_flatMap {m : Type → Type} [Monad m] [LawfulMonad m] (f : σ → β → m σ)
    (g : α → List β) (l : List α) (s : σ) :
    (l.flatMap g).foldlM f s = l.foldlM (fun s a => (g a).foldlM f s) s := by
  induction l generalizing s with
  | nil => rfl
  | cons a l ih => simp only [List.flatMap_cons, List.foldlM_append, List.foldlM_cons, ih]

theorem foldlM_ok {f : σ → β → Except ε σ} {step : σ → β → σ} {l : List β}
    (h : ∀ b ∈ l, ∀ s, f s b = .ok (step s b)) (s : σ) :
    l.foldlM f s = .ok (l.foldl step s) := by
  induction l generalizing s with
  | nil => rfl
  | cons b l ih =>
    rw [List.foldlM_cons, h b (by simp)]
    exact ih (fun b' hb' => h b' (by simp [hb'])) (step s b)

theorem foldlM_error {f : σ → β → Except ε σ} {l : List β} {b : β} (hb : b ∈ l)
    (h : ∀ s, ∃ e, f s b = .error e) (s : σ) : ∃ e, l.foldlM f s = .error e := by
  induction l generalizing s with
  | nil => simp at hb
  | cons a l ih =>
    rw [List.foldlM_cons]
    cases ha : f s a with
    | error e => exact ⟨e, rfl⟩
    | ok s' =>
      rcases List.mem_cons.mp hb with rfl | hmem
      · obtain ⟨e, he⟩ := h s
        rw [he] at ha
        exact absurd ha (by simp)
      · exact ih hmem s'

end

end Mrhc
