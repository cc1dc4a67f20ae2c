import Mathlib.Tactic.Basic

/-!
# Objects on a heap

The objects that a program has created, in the order of their creation. A pointer is the number of
objects that had been created before, so that no pointer is given twice, and a deleted object
leaves a hole.
-/

namespace Mrhc

structure Heap (α : Type) where
  cells : List (Option α)

namespace Heap

variable {α : Type}

def empty : Heap α := ⟨[]⟩

/-- The object at a pointer, if it has been created and not deleted. -/
def get (h : Heap α) (p : Nat) : Option α := h.cells[p]?.join

/-- The pointer to the object that is created next. -/
def next (h : Heap α) : Nat := h.cells.length

def create (h : Heap α) (a : α) : Heap α := ⟨h.cells ++ [some a]⟩

def put (h : Heap α) (p : Nat) (a : α) : Heap α := ⟨h.cells.set p (some a)⟩

def delete (h : Heap α) (p : Nat) : Heap α := ⟨h.cells.set p none⟩

@[simp] theorem get_empty (p : Nat) : (empty : Heap α).get p = none := rfl

@[simp] theorem next_empty : (empty : Heap α).next = 0 := rfl

@[simp] theorem next_create (h : Heap α) (a : α) : (h.create a).next = h.next + 1 := by
  simp [next, create]

@[simp] theorem next_put (h : Heap α) (p : Nat) (a : α) : (h.put p a).next = h.next := by
  simp [next, put]

@[simp] theorem next_delete (h : Heap α) (p : Nat) : (h.delete p).next = h.next := by
  simp [next, delete]

theorem get_of_next_le {h : Heap α} {p : Nat} (hp : h.next ≤ p) : h.get p = none := by
  rw [get, List.getElem?_eq_none hp]
  rfl

theorem lt_next_of_get {h : Heap α} {p : Nat} {a : α} (hp : h.get p = some a) : p < h.next := by
  cases Nat.lt_or_ge p h.next with
  | inl hlt => exact hlt
  | inr hle =>
    rw [get_of_next_le hle] at hp
    cases hp

theorem get_create (h : Heap α) (a : α) (p : Nat) :
    (h.create a).get p = if p = h.next then some a else h.get p := by
  by_cases hp : p = h.next
  · subst hp
    simp [get, create, next]
  · rw [if_neg hp, get, create, get]
    by_cases hlt : p < h.next
    · rw [List.getElem?_append_left hlt]
    · have hle : h.next + 1 ≤ p := by omega
      rw [List.getElem?_eq_none (by simpa [next] using hle), List.getElem?_eq_none (by
        simp only [next] at hle; omega)]

theorem get_put {h : Heap α} {p : Nat} {a : α} (hp : h.get p = some a) (b : α) (q : Nat) :
    (h.put p b).get q = if q = p then some b else h.get q := by
  have hlt : p < h.cells.length := lt_next_of_get hp
  by_cases hq : q = p
  · subst hq
    simp [get, put, hlt]
  · simp [get, put, List.getElem?_set_ne (Ne.symm hq), hq]

theorem get_delete (h : Heap α) (p q : Nat) :
    (h.delete p).get q = if q = p then none else h.get q := by
  by_cases hq : q = p
  · subst hq
    by_cases hlt : q < h.cells.length
    · simp [get, delete, hlt]
    · simp [get, delete, Nat.le_of_not_lt hlt]
  · simp [get, delete, List.getElem?_set_ne (Ne.symm hq), hq]

theorem put_put (h : Heap α) (p : Nat) (a b : α) : (h.put p a).put p b = h.put p b := by
  simp [put]

theorem put_get {h : Heap α} {p : Nat} {a : α} (hp : h.get p = some a) : h.put p a = h := by
  have hcell : h.cells[p]? = some (some a) := Option.join_eq_some_iff.mp hp
  obtain ⟨hlt, hget⟩ := List.getElem?_eq_some_iff.mp hcell
  rw [put, ← hget, List.set_getElem_self]

theorem create_put (h : Heap α) (a b : α) : (h.create a).put h.next b = h.create b := by
  simp [create, put, next]

end Heap

end Mrhc
