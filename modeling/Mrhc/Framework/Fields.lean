import Mathlib.Data.Nat.Bitwise
import Mathlib.Data.List.Pairwise

/-!
# Fields of a word

Values that are packed into fields of one word, and read back from it. What is packed into fields
that do not overlap is what is read.
-/

namespace Mrhc

/-- A field of a word: its lowest bit and the number of its bits. -/
structure Field where
  shift : Nat
  width : Nat
deriving DecidableEq, Repr

namespace Field

/-- The fields do not overlap. -/
def Apart (f g : Field) : Prop := f.shift + f.width ≤ g.shift ∨ g.shift + g.width ≤ f.shift

instance (f g : Field) : Decidable (f.Apart g) := inferInstanceAs (Decidable (_ ∨ _))

def read (f : Field) (word : Nat) : Nat := word >>> f.shift &&& (2 ^ f.width - 1)

/-- The word with these values in these fields. -/
def pack : List (Field × Nat) → Nat
  | [] => 0
  | (f, value) :: rest => value <<< f.shift ||| pack rest

theorem read_zero (f : Field) : f.read 0 = 0 := by
  rw [read, Nat.zero_shiftRight, Nat.zero_and]

theorem read_or (f : Field) (m n : Nat) : f.read (m ||| n) = f.read m ||| f.read n := by
  rw [read, Nat.shiftRight_or_distrib, Nat.and_or_distrib_right]
  rfl

theorem read_shifted {f : Field} {value : Nat} (h : value < 2 ^ f.width) :
    f.read (value <<< f.shift) = value := by
  rw [read, Nat.shiftLeft_shiftRight, Nat.and_two_pow_sub_one_eq_mod, Nat.mod_eq_of_lt h]

theorem read_apart {f g : Field} (hapart : f.Apart g) {value : Nat} (h : value < 2 ^ g.width) :
    f.read (value <<< g.shift) = 0 := by
  apply Nat.eq_of_testBit_eq
  intro i
  rw [read, Nat.and_two_pow_sub_one_eq_mod, Nat.testBit_mod_two_pow, Nat.testBit_shiftRight,
    Nat.testBit_shiftLeft, Nat.zero_testBit]
  by_cases hi : i < f.width
  · cases hapart with
    | inl hbelow => simp [show ¬g.shift ≤ f.shift + i by omega]
    | inr habove =>
      have hhigh : value < 2 ^ (f.shift + i - g.shift) :=
        Nat.lt_of_lt_of_le h (Nat.pow_le_pow_right (by decide) (by omega))
      rw [Nat.testBit_lt_two_pow hhigh, Bool.and_false, Bool.and_false]
  · simp [hi]

private theorem read_pack_apart {f : Field} {values : List (Field × Nat)}
    (hapart : ∀ p ∈ values, f.Apart p.1) (hfits : ∀ p ∈ values, p.2 < 2 ^ p.1.width) :
    f.read (pack values) = 0 := by
  induction values with
  | nil => exact f.read_zero
  | cons p values ih =>
    rw [List.forall_mem_cons] at hapart hfits
    rw [pack, read_or, read_apart hapart.1 hfits.1, ih hapart.2 hfits.2, Nat.or_zero]

/-- Every field reads the value that was packed into it. -/
theorem read_pack {values : List (Field × Nat)}
    (hapart : values.Pairwise fun p q => p.1.Apart q.1)
    (hfits : ∀ p ∈ values, p.2 < 2 ^ p.1.width) {f : Field} {value : Nat}
    (hmem : (f, value) ∈ values) : f.read (pack values) = value := by
  induction values with
  | nil => cases hmem
  | cons p values ih =>
    rw [List.pairwise_cons] at hapart
    rw [List.forall_mem_cons] at hfits
    rw [pack, read_or]
    cases List.mem_cons.mp hmem with
    | inl hfirst =>
      subst hfirst
      rw [read_shifted hfits.1, read_pack_apart hapart.1 hfits.2, Nat.or_zero]
    | inr hlater =>
      have hsymm : f.Apart p.1 := (hapart.1 _ hlater).symm
      rw [read_apart hsymm hfits.1, ih hapart.2 hfits.2 hlater, Nat.zero_or]

/-- Fields below a bit pack into a word below it. -/
theorem pack_lt {values : List (Field × Nat)} {n : Nat}
    (hinside : ∀ p ∈ values, p.1.shift + p.1.width ≤ n)
    (hfits : ∀ p ∈ values, p.2 < 2 ^ p.1.width) : pack values < 2 ^ n := by
  induction values with
  | nil => exact Nat.two_pow_pos n
  | cons p values ih =>
    rw [List.forall_mem_cons] at hinside hfits
    have hvalue : p.2 <<< p.1.shift < 2 ^ n := by
      rw [Nat.shiftLeft_eq]
      calc p.2 * 2 ^ p.1.shift < 2 ^ p.1.width * 2 ^ p.1.shift :=
            Nat.mul_lt_mul_of_pos_right hfits.1 (Nat.two_pow_pos _)
        _ = 2 ^ (p.1.shift + p.1.width) := by rw [← Nat.pow_add, Nat.add_comm]
        _ ≤ 2 ^ n := Nat.pow_le_pow_right (by decide) hinside.1
    exact Nat.or_lt_two_pow hvalue (ih hinside.2 hfits.2)

end Field

end Mrhc
