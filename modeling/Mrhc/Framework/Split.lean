import Mathlib.Data.List.Basic

/-!
# Splitting at separators

A list split at the elements that satisfy a predicate: how its first piece is found, what is in
the pieces and how many they are, and what brings the list back.
-/

namespace Mrhc

variable {α : Type}

theorem splitOnP_of_any {p : α → Bool} {xs : List α} (h : xs.any p = false) :
    xs.splitOnP p = [xs] :=
  List.splitOnP_eq_singleton fun x hx => by simpa using List.any_eq_false.mp h x hx

/-- What has no separator is appended to the last piece. -/
theorem splitOnP_append_piece (p : α → Bool) (xs : List α) :
    ∃ pieces last, ∀ ys, ys.any p = false →
      (xs ++ ys).splitOnP p = pieces ++ [last ++ ys] := by
  induction xs with
  | nil => exact ⟨[], [], fun ys h => splitOnP_of_any h⟩
  | cons x xs ih =>
    obtain ⟨pieces, last, happend⟩ := ih
    by_cases hx : p x = true
    · refine ⟨[] :: pieces, last, fun ys h => ?_⟩
      rw [List.cons_append, List.splitOnP_cons_eq_if_modifyHead, if_pos hx, happend ys h]
      rfl
    · cases pieces with
      | nil =>
        refine ⟨[], x :: last, fun ys h => ?_⟩
        rw [List.cons_append, List.splitOnP_cons_eq_if_modifyHead, if_neg hx, happend ys h]
        rfl
      | cons piece pieces =>
        refine ⟨(x :: piece) :: pieces, last, fun ys h => ?_⟩
        rw [List.cons_append, List.splitOnP_cons_eq_if_modifyHead, if_neg hx, happend ys h]
        rfl

/-- The first piece is what stands before the first separator. -/
theorem splitOnP_head (p : α → Bool) (xs : List α) :
    (xs.splitOnP p).head? = some (xs.takeWhile fun x => !p x) := by
  induction xs with
  | nil => rfl
  | cons x xs ih =>
    rw [List.splitOnP_cons_eq_if_modifyHead]
    by_cases hx : p x = true
    · rw [if_pos hx, List.takeWhile_cons_of_neg (by simp [hx])]
      rfl
    · rw [if_neg hx, List.takeWhile_cons_of_pos (by simp [hx])]
      cases h : xs.splitOnP p with
      | nil => exact absurd h (List.splitOnP_ne_nil p xs)
      | cons piece pieces =>
        rw [h] at ih
        simpa using ih

/-- What stands before the first separator is split off from what stands after it. -/
theorem splitOnP_of_findIdx? {p : α → Bool} {xs : List α} {i : Nat}
    (h : xs.findIdx? p = some i) :
    xs.splitOnP p = xs.take i :: (xs.drop (i + 1)).splitOnP p := by
  obtain ⟨hi, hsep, hbefore⟩ := List.findIdx?_eq_some_iff_getElem.mp h
  have hpiece : ∀ x ∈ xs.take i, p x = false := by
    intro x hx
    obtain ⟨j, hj, rfl⟩ := List.mem_iff_getElem.mp hx
    rw [List.getElem_take]
    simpa using hbefore j (by rw [List.length_take] at hj; omega)
  have hxs : xs = xs.take i ++ xs[i] :: xs.drop (i + 1) := by
    rw [List.getElem_cons_drop, List.take_append_drop]
  calc xs.splitOnP p = (xs.take i ++ xs[i] :: xs.drop (i + 1)).splitOnP p := by rw [← hxs]
    _ = _ := List.splitOnP_append_cons_of_forall_mem hpiece _ hsep _

theorem countP_of_findIdx? {p : α → Bool} {xs : List α} {i : Nat}
    (h : xs.findIdx? p = some i) : xs.countP p = (xs.drop (i + 1)).countP p + 1 := by
  obtain ⟨hi, hsep, hbefore⟩ := List.findIdx?_eq_some_iff_getElem.mp h
  have hpiece : (xs.take i).countP p = 0 := by
    rw [List.countP_eq_zero]
    intro x hx
    obtain ⟨j, hj, rfl⟩ := List.mem_iff_getElem.mp hx
    rw [List.getElem_take]
    exact hbefore j (by rw [List.length_take] at hj; omega)
  calc xs.countP p = (xs.take i ++ xs[i] :: xs.drop (i + 1)).countP p := by
        rw [List.getElem_cons_drop, List.take_append_drop]
    _ = _ := by rw [List.countP_append, List.countP_cons_of_pos hsep, hpiece, Nat.zero_add]

theorem length_splitOnP (p : α → Bool) (xs : List α) :
    (xs.splitOnP p).length = xs.countP p + 1 := by
  induction xs with
  | nil => rfl
  | cons x xs ih =>
    rw [List.splitOnP_cons_eq_if_modifyHead]
    by_cases hx : p x = true
    · rw [if_pos hx, List.length_cons, ih, List.countP_cons_of_pos hx]
    · rw [if_neg hx, List.length_modifyHead, ih, List.countP_cons_of_neg hx]

/-- Pieces with a separator after each but the last. -/
def interleave : List (List α) → List α → List α
  | piece :: pieces, sep :: seps => piece ++ sep :: interleave pieces seps
  | pieces, _ => pieces.flatten

theorem interleave_modifyHead_cons (x : α) {pieces : List (List α)} (hne : pieces ≠ [])
    (seps : List α) :
    interleave (pieces.modifyHead (x :: ·)) seps = x :: interleave pieces seps := by
  cases pieces with
  | nil => exact absurd rfl hne
  | cons piece pieces => cases seps <;> rfl

/-- The separators between the pieces bring the list back. -/
theorem interleave_splitOnP (p : α → Bool) (xs : List α) :
    interleave (xs.splitOnP p) (xs.filter p) = xs := by
  induction xs with
  | nil => rfl
  | cons x xs ih =>
    rw [List.splitOnP_cons_eq_if_modifyHead]
    by_cases hx : p x = true
    · rw [if_pos hx, List.filter_cons_of_pos hx, interleave, ih]
      rfl
    · rw [if_neg hx, List.filter_cons_of_neg hx,
        interleave_modifyHead_cons x (List.splitOnP_ne_nil p xs), ih]

/-- A piece is made of elements of the list that are no separators. -/
theorem of_mem_splitOnP {p : α → Bool} {xs piece : List α} (h : piece ∈ xs.splitOnP p) :
    ∀ x ∈ piece, x ∈ xs ∧ p x = false := by
  induction xs generalizing piece with
  | nil =>
    rw [List.splitOnP_nil, List.mem_singleton] at h
    simp [h]
  | cons x xs ih =>
    have htail : ∀ {piece}, piece ∈ xs.splitOnP p → ∀ y ∈ piece, y ∈ x :: xs ∧ p y = false :=
      fun hpiece y hy => ⟨List.mem_cons_of_mem x (ih hpiece y hy).1, (ih hpiece y hy).2⟩
    rw [List.splitOnP_cons_eq_if_modifyHead] at h
    by_cases hx : p x = true
    · rw [if_pos hx, List.mem_cons] at h
      rcases h with rfl | h
      · simp
      · exact htail h
    · rw [if_neg hx] at h
      cases hsplit : xs.splitOnP p with
      | nil => exact absurd hsplit (List.splitOnP_ne_nil p xs)
      | cons first pieces =>
        rw [hsplit] at h htail
        rw [List.modifyHead_cons, List.mem_cons] at h
        rcases h with rfl | h
        · rw [List.forall_mem_cons]
          exact ⟨⟨List.mem_cons_self, by simpa using hx⟩, htail List.mem_cons_self⟩
        · exact htail (List.mem_cons_of_mem first h)

theorem notMem_intercalate {x : α} {sep : List α} (hsep : x ∉ sep) {parts : List (List α)}
    (h : ∀ part ∈ parts, x ∉ part) : x ∉ sep.intercalate parts := by
  rw [List.intercalate]
  induction parts with
  | nil => simp
  | cons part parts ih =>
    have hpart := h part List.mem_cons_self
    have hparts := ih fun other hother => h other (List.mem_cons_of_mem part hother)
    cases parts with
    | nil => simpa using hpart
    | cons other parts =>
      rw [List.intersperse_cons_cons, List.flatten_cons, List.flatten_cons, List.mem_append,
        List.mem_append, not_or, not_or]
      exact ⟨hpart, hsep, hparts⟩

end Mrhc
