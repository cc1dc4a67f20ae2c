import Mathlib.Logic.Function.Basic

/-!
# Descriptors

The table of a process: the numbers below a limit, of which some refer to an open object. A new
object gets the lowest free number, and closing a number frees it.
-/

namespace Mrhc

/-- The objects that are open, by their numbers. -/
structure Descriptors (α : Type) where
  file : Nat → Option α

namespace Descriptors

variable {α : Type} {t : Descriptors α} {limit fd : Nat}

/-- The number that the next object gets, if there is a free one below the limit. -/
def lowest (t : Descriptors α) (limit : Nat) : Option Nat :=
  (List.range limit).find? fun fd => (t.file fd).isNone

def insert (t : Descriptors α) (fd : Nat) (a : α) : Descriptors α :=
  ⟨Function.update t.file fd (some a)⟩

/-- `close`. Closing a number that is not open does nothing but fail. -/
def close (t : Descriptors α) (fd : Int) : Descriptors α :=
  if fd < 0 then t else ⟨Function.update t.file fd.toNat none⟩

theorem free_of_lowest (h : t.lowest limit = some fd) : t.file fd = none := by
  have hfree : (t.file fd).isNone = true := @List.find?_some Nat (fun fd => (t.file fd).isNone) _ _ h
  exact Option.isNone_iff_eq_none.mp hfree

theorem close_insert (hfree : t.file fd = none) (a : α) : (t.insert fd a).close fd = t := by
  have hnot : ¬(fd : Int) < 0 := by omega
  rw [close, if_neg hnot, Int.toNat_natCast, insert, Function.update_idem, ← hfree,
    Function.update_eq_self]

theorem close_negative {fd : Int} (h : fd < 0) : t.close fd = t := if_pos h

end Descriptors

end Mrhc
