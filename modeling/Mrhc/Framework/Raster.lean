import Mathlib.Data.List.Induction
import Mathlib.Data.List.Nodup
import Mathlib.Data.Nat.Basic
import Mathlib.Tactic.Ring

/-!
# Raster order and overwriting

Positions of a grid listed row by row, and folds in which a later write hides an earlier one.
What such a fold leaves at a key is decided by the last write that covers the key.
-/

namespace Mrhc

section Last

variable {α β : Type}

theorem getElem?_eq_getD {l : List α} {i : Nat} (h : i < l.length) (d : α) :
    l[i]? = some (l.getD i d) := by
  simp [h]

/-- The last element of a list that satisfies `p`. -/
def lastWith (p : α → Bool) (l : List α) : Option α := l.reverse.find? p

theorem lastWith_append (p : α → Bool) (l m : List α) :
    lastWith p (l ++ m) = (lastWith p m).or (lastWith p l) := by
  rw [lastWith, List.reverse_append, List.find?_append]
  rfl

theorem lastWith_concat (p : α → Bool) (l : List α) (a : α) :
    lastWith p (l ++ [a]) = if p a then some a else lastWith p l := by
  rw [lastWith_append]
  by_cases h : p a <;> simp [lastWith, h]

theorem lastWith_eq_none {p : α → Bool} {l : List α} :
    lastWith p l = none ↔ ∀ a ∈ l, p a = false := by
  simp [lastWith]

theorem of_lastWith {p : α → Bool} {l : List α} {a : α} (h : lastWith p l = some a) :
    a ∈ l ∧ p a = true :=
  ⟨List.mem_reverse.mp (List.mem_of_find?_eq_some h), List.find?_some h⟩

theorem lastWith_map {p : β → Bool} {f : α → β} (l : List α) :
    lastWith p (l.map f) = (lastWith (p ∘ f) l).map f := by
  rw [lastWith, ← List.map_reverse, List.find?_map]
  rfl

theorem lastWith_cons (p : α → Bool) (a : α) (l : List α) :
    lastWith p (a :: l) = (lastWith p l).or (if p a then some a else none) := by
  rw [← List.singleton_append, lastWith_append]
  by_cases h : p a <;> simp [lastWith, h]

/-- The last element is found at an index after which nothing satisfies `p`. -/
theorem lastWith_of_getElem? {p : α → Bool} {l : List α} {i : Nat} {a : α} (hi : l[i]? = some a)
    (ha : p a = true) (hlast : ∀ j b, i < j → l[j]? = some b → p b = false) :
    lastWith p l = some a := by
  obtain ⟨hlt, hget⟩ := List.getElem?_eq_some_iff.mp hi
  have hsplit : l = l.take i ++ ([a] ++ l.drop (i + 1)) := by
    rw [List.singleton_append, ← hget, List.getElem_cons_drop, List.take_append_drop]
  have hnone : lastWith p (l.drop (i + 1)) = none := by
    refine lastWith_eq_none.mpr fun b hb => ?_
    obtain ⟨j, hj⟩ := List.getElem?_of_mem hb
    rw [List.getElem?_drop] at hj
    exact hlast (i + 1 + j) b (by omega) hj
  rw [hsplit, lastWith_append, lastWith_append, hnone]
  simp [lastWith, ha]

theorem exists_last_index [DecidableEq α] {l : List α} {a : α} (h : a ∈ l) :
    ∃ i : Nat, l[i]? = some a ∧ ∀ j : Nat, i < j → l[j]? ≠ some a := by
  induction l using List.reverseRecOn with
  | nil => simp at h
  | append_singleton l b ih =>
    by_cases hb : b = a
    · refine ⟨l.length, by simp [hb], fun j hj => ?_⟩
      rw [List.getElem?_eq_none (by simp; omega)]
      simp
    · obtain ⟨i, hi, hlast⟩ := ih (by simpa [Ne.symm hb] using h)
      obtain ⟨hlt, _⟩ := List.getElem?_eq_some_iff.mp hi
      refine ⟨i, by rw [List.getElem?_append_left hlt, hi], fun j hj => ?_⟩
      rcases Nat.lt_trichotomy j l.length with hjl | hjl | hjl
      · rw [List.getElem?_append_left hjl]
        exact hlast j hj
      · simp [hjl, hb]
      · rw [List.getElem?_eq_none (by simp; omega)]
        simp

/-- In a list of blocks the last element is that of the last block that has one. -/
theorem lastWith_flatMap {p : β → Bool} {q : α → Bool} {f : α → List β} {g : α → β} {l : List α}
    (h : ∀ a ∈ l, lastWith p (f a) = if q a then some (g a) else none) :
    lastWith p (l.flatMap f) = (lastWith q l).map g := by
  induction l using List.reverseRecOn with
  | nil => rfl
  | append_singleton l a ih =>
    have hl := ih fun b hb => h b (by simp [hb])
    rw [List.flatMap_append, List.flatMap_singleton, lastWith_append, lastWith_concat,
      h a (by simp), hl]
    by_cases hq : q a <;> simp [hq]

/-- What a fold of overwriting steps leaves at a key is the value of the last step that covers
the key. The steps need to overwrite only in the states that keep `inv`. -/
theorem foldl_overwrite {σ κ ν : Type} (inv : σ → Prop) {write : σ → β → σ} (get : σ → κ → ν)
    (covers : κ → β → Bool) (value : β → ν) (hinv : ∀ s b, inv s → inv (write s b))
    (hwrite : ∀ s b k, inv s → get (write s b) k = if covers k b then value b else get s k)
    (l : List β) {s : σ} (hs : inv s) (k : κ) :
    inv (l.foldl write s) ∧
      get (l.foldl write s) k = ((lastWith (covers k) l).map value).getD (get s k) := by
  induction l using List.reverseRecOn with
  | nil => exact ⟨hs, rfl⟩
  | append_singleton l b ih =>
    rw [List.foldl_append, List.foldl_cons, List.foldl_nil, hwrite _ b k ih.1, ih.2,
      lastWith_concat]
    refine ⟨hinv _ b ih.1, ?_⟩
    by_cases hb : covers k b <;> simp [hb]

end Last

/-- The positions `(x, y)` of a grid, row by row. -/
def raster (w h : Nat) : List (Nat × Nat) :=
  (List.range h).flatMap fun y => (List.range w).map fun x => (x, y)

theorem raster_eq_map (w h : Nat) :
    raster w h = (List.range (w * h)).map fun i => (i % w, i / w) := by
  induction h with
  | zero => rfl
  | succ h ih =>
    have hrow : (List.range w).map (fun x => (x, h)) =
        ((List.range w).map (w * h + ·)).map fun i => (i % w, i / w) := by
      rw [List.map_map]
      refine List.map_congr_left fun x hx => ?_
      have hlt := List.mem_range.mp hx
      have hpos : 0 < w := by omega
      simp [Nat.mul_add_div hpos, Nat.mod_eq_of_lt hlt, Nat.div_eq_of_lt hlt]
    have hstep : raster w (h + 1) = raster w h ++ (List.range w).map fun x => (x, h) := by
      simp [raster, List.range_succ]
    rw [hstep, ih, hrow, Nat.mul_succ, List.range_add, List.map_append]

@[simp] theorem raster_length (w h : Nat) : (raster w h).length = w * h := by
  simp [raster_eq_map]

theorem raster_nodup (w h : Nat) : (raster w h).Nodup := by
  rw [raster_eq_map]
  refine List.nodup_range.map_on fun i _ j _ hij => ?_
  obtain ⟨hmod, hdiv⟩ := Prod.mk.inj hij
  rw [← Nat.div_add_mod i w, ← Nat.div_add_mod j w, hmod, hdiv]

theorem raster_index_lt {w h x y : Nat} (hx : x < w) (hy : y < h) : w * y + x < w * h := by
  calc w * y + x < w * y + w := by omega
    _ = w * (y + 1) := by ring
    _ ≤ w * h := Nat.mul_le_mul_left w hy

theorem raster_getElem? {w h x y : Nat} (hx : x < w) (hy : y < h) :
    (raster w h)[w * y + x]? = some (x, y) := by
  have hlt := raster_index_lt hx hy
  have hpos : 0 < w := by omega
  simp [raster_eq_map, hlt, Nat.mul_add_div hpos, Nat.mod_eq_of_lt hx, Nat.div_eq_of_lt hx]

theorem mem_raster {w h : Nat} {p : Nat × Nat} : p ∈ raster w h ↔ p.1 < w ∧ p.2 < h := by
  obtain ⟨x, y⟩ := p
  simp [raster, and_comm]

theorem raster_index {w h i : Nat} (hi : i < w * h) :
    ∃ x y, x < w ∧ y < h ∧ i = w * y + x ∧ (raster w h)[i]? = some (x, y) := by
  have hpos : 0 < w := Nat.pos_of_ne_zero fun h0 => by simp [h0] at hi
  refine ⟨i % w, i / w, Nat.mod_lt i hpos, Nat.div_lt_of_lt_mul hi, (Nat.div_add_mod i w).symm, ?_⟩
  simp [raster_eq_map, hi]

end Mrhc
