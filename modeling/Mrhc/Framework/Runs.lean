import Mathlib.Tactic.Basic

/-!
# Runs of a machine that may stop

A machine answers inputs one after another, and may stop for good while it handles one. A run is
the list of its entries, and an invariant may speak about the entries of the past.
-/

namespace Mrhc

/-- One input of a run: the state that it found, the output and the next state, `none` when the
machine stopped. -/
structure Entry (σ ι ω : Type) where
  before : σ
  input : ι
  output : ω
  after : Option σ

section

variable {σ ι ω : Type} (step : σ → ι → ω × Option σ)

def entryOf (s : σ) (i : ι) : Entry σ ι ω := ⟨s, i, (step s i).1, (step s i).2⟩

/-- The run from a state over a list of inputs. -/
def runFrom : σ → List ι → List (Entry σ ι ω)
  | _, [] => []
  | s, i :: is =>
    entryOf step s i ::
      match (step s i).2 with
      | some s' => runFrom s' is
      | none => []

variable {step}

theorem mem_runFrom {s : σ} {is : List ι} {e : Entry σ ι ω} (h : e ∈ runFrom step s is) :
    e = entryOf step e.before e.input := by
  induction is generalizing s with
  | nil => simp [runFrom] at h
  | cons i is ih =>
    rw [runFrom, List.mem_cons] at h
    cases h with
    | inl h => rw [h]; rfl
    | inr h =>
      cases hs : (step s i).2 with
      | none => simp [hs] at h
      | some s' =>
        rw [hs] at h
        exact ih h

theorem input_mem_of_mem_runFrom {s : σ} {is : List ι} {e : Entry σ ι ω}
    (h : e ∈ runFrom step s is) : e.input ∈ is := by
  induction is generalizing s with
  | nil => cases h
  | cons i is ih =>
    rw [runFrom] at h
    cases List.mem_cons.mp h with
    | inl hfirst =>
      rw [hfirst]
      exact List.mem_cons_self
    | inr hlater =>
      cases hafter : (step s i).2 with
      | none =>
        rw [hafter] at hlater
        cases hlater
      | some s' =>
        rw [hafter] at hlater
        exact List.mem_cons_of_mem i (ih hlater)

/-- What follows an entry is the run from the state that it left. -/
theorem runFrom_rest {s s' : σ} {is : List ι} {past rest : List (Entry σ ι ω)}
    {e : Entry σ ι ω} (h : runFrom step s is = past ++ e :: rest) (hs' : e.after = some s') :
    ∃ is', rest = runFrom step s' is' := by
  induction past generalizing s is with
  | nil =>
    cases is with
    | nil => simp [runFrom] at h
    | cons i is =>
      rw [runFrom, List.nil_append, List.cons.injEq] at h
      obtain ⟨rfl, rfl⟩ := h
      have hstep : (step s i).2 = some s' := hs'
      rw [hstep]
      exact ⟨is, rfl⟩
  | cons e' past ih =>
    cases is with
    | nil => simp [runFrom] at h
    | cons i is =>
      rw [runFrom, List.cons_append, List.cons.injEq] at h
      cases hstep : (step s i).2 with
      | none => simp [hstep] at h
      | some t =>
        rw [hstep] at h
        exact ih h.2

/-- An invariant over the past entries and the state holds at every entry when each entry of the
run preserves it. -/
theorem runFrom_history (Inv : List (Entry σ ι ω) → σ → Prop) {s : σ} {is : List ι}
    (hinit : Inv [] s)
    (hstep : ∀ past, ∀ e ∈ runFrom step s is, Inv past e.before →
      ∀ s', e.after = some s' → Inv (past ++ [e]) s')
    {past rest : List (Entry σ ι ω)} {e : Entry σ ι ω}
    (h : runFrom step s is = past ++ e :: rest) : Inv past e.before := by
  induction is generalizing s past Inv with
  | nil => simp [runFrom] at h
  | cons i is ih =>
    cases past with
    | nil =>
      rw [runFrom, List.nil_append, List.cons.injEq] at h
      rw [← h.1]
      exact hinit
    | cons e' past =>
      have hfirst : entryOf step s i ∈ runFrom step s (i :: is) := by simp [runFrom]
      rw [runFrom, List.cons_append, List.cons.injEq] at h
      obtain ⟨rfl, htail⟩ := h
      cases hs : (step s i).2 with
      | none => simp [hs] at htail
      | some s' =>
        rw [hs] at htail
        apply ih (fun past t => Inv (entryOf step s i :: past) t) _ _ htail
        · exact hstep [] _ hfirst hinit s' hs
        · intro past' e'' he'' hinv t ht
          have hmem : e'' ∈ runFrom step s (i :: is) := by
            rw [runFrom, hs]
            exact List.mem_cons_of_mem _ he''
          exact hstep _ e'' hmem hinv t ht

/-- An invariant of the state holds at every entry when each entry of the run preserves it. -/
theorem runFrom_invariant (Inv : σ → Prop) {s : σ} {is : List ι} (hinit : Inv s)
    (hstep : ∀ e ∈ runFrom step s is, Inv e.before → ∀ s', e.after = some s' → Inv s')
    {e : Entry σ ι ω} (he : e ∈ runFrom step s is) : Inv e.before := by
  obtain ⟨past, rest, hsplit⟩ := List.append_of_mem he
  exact runFrom_history (fun _ => Inv) hinit (fun _ => hstep) hsplit

/-- An entry with its states and its output seen through projections. -/
def Entry.map {τ ω' : Type} (f : σ → τ) (g : ω → ω') (e : Entry σ ι ω) : Entry τ ι ω' :=
  ⟨f e.before, e.input, g e.output, e.after.map f⟩

/-- A machine that does on the projected states what another one does is seen to run like it. -/
theorem runFrom_map {τ ω' : Type} {step' : τ → ι → ω' × Option τ} {f : σ → τ} {g : ω → ω'}
    {Inv : σ → Prop}
    (hstep : ∀ s i, Inv s → step' (f s) i = (g (step s i).1, (step s i).2.map f))
    (hinv : ∀ s i, Inv s → ∀ s', (step s i).2 = some s' → Inv s') {s : σ} (hs : Inv s)
    (is : List ι) : (runFrom step s is).map (Entry.map f g) = runFrom step' (f s) is := by
  induction is generalizing s with
  | nil => rfl
  | cons i is ih =>
    rw [runFrom, runFrom, List.map_cons, entryOf, entryOf, hstep s i hs]
    cases hnext : (step s i).2 with
    | none => simp [Entry.map]
    | some s' => simp [Entry.map, ih (hinv s i hs s' hnext)]

/-- The state at the end of a run, `none` when the machine has stopped. -/
def stateAfter (step : σ → ι → ω × Option σ) : σ → List ι → Option σ
  | s, [] => some s
  | s, i :: is => (step s i).2.bind fun s' => stateAfter step s' is

theorem runFrom_cons {s s' : σ} {i : ι} {o : ω} (h : step s i = (o, some s')) (is : List ι) :
    runFrom step s (i :: is) = ⟨s, i, o, some s'⟩ :: runFrom step s' is := by
  rw [runFrom, entryOf, h]

theorem runFrom_last {s : σ} {i : ι} {o : ω} (h : step s i = (o, none)) (is : List ι) :
    runFrom step s (i :: is) = [⟨s, i, o, none⟩] := by
  rw [runFrom, entryOf, h]

theorem stateAfter_cons {s s' : σ} {i : ι} {o : ω} (h : step s i = (o, some s')) (is : List ι) :
    stateAfter step s (i :: is) = stateAfter step s' is := by
  rw [stateAfter, h]
  rfl

theorem stateAfter_append {s s' : σ} {is : List ι} (h : stateAfter step s is = some s')
    (is' : List ι) : stateAfter step s (is ++ is') = stateAfter step s' is' := by
  induction is generalizing s with
  | nil =>
    obtain rfl := Option.some.inj h
    rfl
  | cons i is ih =>
    rw [stateAfter] at h
    obtain ⟨s'', hnext, hrest⟩ := Option.bind_eq_some_iff.mp h
    rw [List.cons_append, stateAfter, hnext]
    exact ih hrest

theorem runFrom_append {s s' : σ} {is : List ι} (h : stateAfter step s is = some s')
    (is' : List ι) : runFrom step s (is ++ is') = runFrom step s is ++ runFrom step s' is' := by
  induction is generalizing s with
  | nil =>
    obtain rfl := Option.some.inj h
    rfl
  | cons i is ih =>
    rw [stateAfter] at h
    obtain ⟨s'', hnext, hrest⟩ := Option.bind_eq_some_iff.mp h
    rw [List.cons_append, runFrom, runFrom, hnext, List.cons_append]
    exact congrArg (_ :: ·) (ih hrest)

end

theorem eq_pair_of_map {α β : Type} {f : α → β} {l : List α} {b₁ b₂ : β}
    (h : l.map f = [b₁, b₂]) : ∃ a₁ a₂, l = [a₁, a₂] ∧ f a₁ = b₁ ∧ f a₂ = b₂ := by
  obtain ⟨a₁, l₁, rfl, h₁, h⟩ := List.map_eq_cons_iff.mp h
  obtain ⟨a₂, l₂, rfl, h₂, h⟩ := List.map_eq_cons_iff.mp h
  rw [List.map_eq_nil_iff.mp h]
  exact ⟨a₁, a₂, rfl, h₁, h₂⟩

theorem eq_triple_of_map {α β : Type} {f : α → β} {l : List α} {b₁ b₂ b₃ : β}
    (h : l.map f = [b₁, b₂, b₃]) :
    ∃ a₁ a₂ a₃, l = [a₁, a₂, a₃] ∧ f a₁ = b₁ ∧ f a₂ = b₂ ∧ f a₃ = b₃ := by
  obtain ⟨a₁, l₁, rfl, h₁, h⟩ := List.map_eq_cons_iff.mp h
  obtain ⟨a₂, a₃, rfl, h₂, h₃⟩ := eq_pair_of_map h
  exact ⟨a₁, a₂, a₃, rfl, h₁, h₂, h₃⟩

end Mrhc
