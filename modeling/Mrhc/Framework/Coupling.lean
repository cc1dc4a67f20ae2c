import Mathlib.Logic.Basic
import Mrhc.Framework.Programs
import Mrhc.Framework.Runs

/-!
# Two runs side by side

Programs that are run from related states may end alike: both with a value or both with the same
failure, in related states. Machines whose steps are alike have the same outputs over whole runs.
-/

namespace Mrhc

section

variable {ε σ α β γ δ : Type}

/-- The results end alike, with values related by `V` and states related by `R`. -/
inductive Coupled (R : σ → σ → Prop) (V : α → β → Prop) :
    EStateM.Result ε σ α → EStateM.Result ε σ β → Prop where
  | ok {a : α} {b : β} {s t : σ} (hvalue : V a b) (hstate : R s t) :
    Coupled R V (.ok a s) (.ok b t)
  | error {e : ε} {s t : σ} (hstate : R s t) : Coupled R V (.error e s) (.error e t)

/-- From related states the programs end alike. -/
def Couples (R : σ → σ → Prop) (V : α → β → Prop) (x : EStateM ε σ α) (y : EStateM ε σ β) : Prop :=
  ∀ s t, R s t → Coupled R V (x.run s) (y.run t)

/-- From related states the program ends with the same value or failure. -/
abbrev Respects (R : σ → σ → Prop) (x : EStateM ε σ α) : Prop := Couples R Eq x x

variable {R : σ → σ → Prop}

theorem Coupled.mono {R' : σ → σ → Prop} {V : α → β → Prop} {r : EStateM.Result ε σ α}
    {r' : EStateM.Result ε σ β} (h : Coupled R V r r') (hstate : ∀ s t, R s t → R' s t) :
    Coupled R' V r r' := by
  cases h with
  | ok hvalue h => exact .ok hvalue (hstate _ _ h)
  | error h => exact .error (hstate _ _ h)

theorem Couples.pure {V : α → β → Prop} {a : α} {b : β} (h : V a b) :
    Couples R V (Pure.pure a : EStateM ε σ α) (Pure.pure b : EStateM ε σ β) :=
  fun _ _ hst => .ok h hst

theorem Couples.bind {V : α → β → Prop} {W : γ → δ → Prop} {x : EStateM ε σ α} {y : EStateM ε σ β}
    {f : α → EStateM ε σ γ} {g : β → EStateM ε σ δ} (hx : Couples R V x y)
    (hf : ∀ a b, V a b → Couples R W (f a) (g b)) : Couples R W (x >>= f) (y >>= g) := by
  intro s t hst
  have hresult := hx s t hst
  rw [EStateM.run_bind, EStateM.run_bind]
  generalize x.run s = r at hresult
  generalize y.run t = r' at hresult
  cases hresult with
  | ok hvalue hstate => exact hf _ _ hvalue _ _ hstate
  | error hstate => exact .error hstate

theorem Respects.pure (a : α) : Respects R (Pure.pure a : EStateM ε σ α) := Couples.pure rfl

theorem Respects.bind {x : EStateM ε σ α} {f : α → EStateM ε σ β} (hx : Respects R x)
    (hf : ∀ a, Respects R (f a)) : Respects R (x >>= f) :=
  Couples.bind hx fun a _ hab => hab ▸ hf a

theorem Respects.ite {p : Prop} [Decidable p] {x y : EStateM ε σ α} (hx : Respects R x)
    (hy : Respects R y) : Respects R (if p then x else y) := by
  split
  · exact hx
  · exact hy

theorem Respects.require {x y : EStateM ε σ Bool} (hx : Respects R x) (hy : Respects R y) :
    Respects R (Mrhc.require x y) :=
  Respects.bind hx fun _ => Respects.ite (Respects.pure false) hy

end

/-- A machine that simulates another one on these inputs has its outputs, over whole runs. -/
theorem runFrom_simulates {σ τ ι ω ω' : Type} {step : σ → ι → ω × Option σ}
    {step' : τ → ι → ω' × Option τ} {R : σ → τ → Prop} {g : ω → ω'} {is : List ι}
    (hstep : ∀ i ∈ is, ∀ s t, R s t →
      g (step s i).1 = (step' t i).1 ∧ Option.Rel R (step s i).2 (step' t i).2) {s : σ} {t : τ}
    (h : R s t) :
    (runFrom step s is).map (fun e => g e.output) = (runFrom step' t is).map Entry.output := by
  induction is generalizing s t with
  | nil => rfl
  | cons i is ih =>
    obtain ⟨houtput, hafter⟩ := hstep i List.mem_cons_self s t h
    rw [runFrom, runFrom, List.map_cons, List.map_cons]
    refine congrArg₂ List.cons houtput ?_
    generalize (step s i).2 = after at hafter
    generalize (step' t i).2 = after' at hafter
    cases hafter with
    | some hstate => exact ih (fun j hj => hstep j (List.mem_cons_of_mem i hj)) hstate
    | none => rfl

/-- Machines that make like steps from related states have the same outputs over whole runs. -/
theorem runFrom_coupled {σ ι ω : Type} {step : σ → ι → ω × Option σ} {R : σ → σ → Prop}
    (hstep : ∀ s t i, R s t →
      (step s i).1 = (step t i).1 ∧ Option.Rel R (step s i).2 (step t i).2) {s t : σ} (h : R s t)
    (is : List ι) :
    (runFrom step s is).map Entry.output = (runFrom step t is).map Entry.output :=
  runFrom_simulates (g := id) (fun i _ s t => hstep s t i) h

end Mrhc
