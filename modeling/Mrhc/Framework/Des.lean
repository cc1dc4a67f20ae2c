import Mathlib.Data.List.GetD
import Mathlib.Data.List.Rotate
import Mathlib.Data.Nat.Bitwise
import Mrhc.Framework.Feistel

/-!
# The Data Encryption Standard

The cipher on lists of bits, as the standard prints it: the tables name places counted from one,
the first bit of a block is its most significant, and the halves of the key rotate from round to
round.
-/

namespace Mrhc

namespace Des

abbrev Bits := List Bool

/-- The bits at the places of a table, which are counted from one. -/
def permute (table : List Nat) (bits : Bits) : Bits := table.map fun n => bits.getD (n - 1) false

@[simp] theorem permute_length (table : List Nat) (bits : Bits) :
    (permute table bits).length = table.length := by
  rw [permute, List.length_map]

theorem permute_getD {table : List Nat} (bits : Bits) {i : Nat} (h : i < table.length) :
    (permute table bits).getD i false = bits.getD (table.getD i 0 - 1) false := by
  simp [permute, List.getD_eq_getElem?_getD, h]

/-- Two tables after one another are the table of the places that the second takes of the first. -/
theorem permute_permute {table table' : List Nat} (h : ∀ n ∈ table, n - 1 < table'.length)
    (bits : Bits) :
    permute table (permute table' bits) =
      permute (table.map fun n => table'.getD (n - 1) 0) bits := by
  rw [permute, permute.eq_def (table.map _), List.map_map]
  apply List.map_congr_left
  intro n hn
  exact permute_getD bits (h n hn)

theorem permute_range (n : Nat) {bits : Bits} (h : bits.length = n) :
    permute ((List.range n).map (· + 1)) bits = bits := by
  apply List.ext_getElem
  · simp [h]
  · intro i hi hi'
    simp [permute, hi']

def initialPermutation : List Nat :=
  [
    58, 50, 42, 34, 26, 18, 10, 2, 60, 52, 44, 36, 28, 20, 12, 4,
    62, 54, 46, 38, 30, 22, 14, 6, 64, 56, 48, 40, 32, 24, 16, 8,
    57, 49, 41, 33, 25, 17, 9, 1, 59, 51, 43, 35, 27, 19, 11, 3,
    61, 53, 45, 37, 29, 21, 13, 5, 63, 55, 47, 39, 31, 23, 15, 7]

def finalPermutation : List Nat :=
  [
    40, 8, 48, 16, 56, 24, 64, 32, 39, 7, 47, 15, 55, 23, 63, 31,
    38, 6, 46, 14, 54, 22, 62, 30, 37, 5, 45, 13, 53, 21, 61, 29,
    36, 4, 44, 12, 52, 20, 60, 28, 35, 3, 43, 11, 51, 19, 59, 27,
    34, 2, 42, 10, 50, 18, 58, 26, 33, 1, 41, 9, 49, 17, 57, 25]

/-- The last permutation undoes the first one. -/
theorem final_initial {block : Bits} (h : block.length = 64) :
    permute finalPermutation (permute initialPermutation block) = block := by
  have hplaces : finalPermutation.map (fun n => initialPermutation.getD (n - 1) 0) =
      (List.range 64).map (· + 1) := by decide
  rw [permute_permute (by decide), hplaces, permute_range 64 h]

def expansion : List Nat :=
  [
    32, 1, 2, 3, 4, 5, 4, 5, 6, 7, 8, 9, 8, 9, 10, 11, 12, 13, 12, 13, 14, 15, 16, 17,
    16, 17, 18, 19, 20, 21, 20, 21, 22, 23, 24, 25, 24, 25, 26, 27, 28, 29, 28, 29, 30, 31, 32, 1]

def permutation : List Nat :=
  [
    16, 7, 20, 21, 29, 12, 28, 17, 1, 15, 23, 26, 5, 18, 31, 10,
    2, 8, 24, 14, 32, 27, 3, 9, 19, 13, 30, 6, 22, 11, 4, 25]

def permutedChoice1 : List Nat :=
  [
    57, 49, 41, 33, 25, 17, 9, 1, 58, 50, 42, 34, 26, 18,
    10, 2, 59, 51, 43, 35, 27, 19, 11, 3, 60, 52, 44, 36,
    63, 55, 47, 39, 31, 23, 15, 7, 62, 54, 46, 38, 30, 22,
    14, 6, 61, 53, 45, 37, 29, 21, 13, 5, 28, 20, 12, 4]

def permutedChoice2 : List Nat :=
  [
    14, 17, 11, 24, 1, 5, 3, 28, 15, 6, 21, 10, 23, 19, 12, 4, 26, 8, 16, 7, 27, 20, 13, 2,
    41, 52, 31, 37, 47, 55, 30, 40, 51, 45, 33, 48, 44, 49, 39, 56, 34, 53, 46, 42, 50, 36, 29, 32]

/-- How far the halves of the key rotate before each round. -/
def rotations : List Nat := [1, 1, 2, 2, 2, 2, 2, 2, 1, 2, 2, 2, 2, 2, 2, 1]

/-- The substitution boxes, each with its four rows of sixteen one after another. -/
def boxes : List (List Nat) :=
  [
    [
      14, 4, 13, 1, 2, 15, 11, 8, 3, 10, 6, 12, 5, 9, 0, 7,
      0, 15, 7, 4, 14, 2, 13, 1, 10, 6, 12, 11, 9, 5, 3, 8,
      4, 1, 14, 8, 13, 6, 2, 11, 15, 12, 9, 7, 3, 10, 5, 0,
      15, 12, 8, 2, 4, 9, 1, 7, 5, 11, 3, 14, 10, 0, 6, 13],
    [
      15, 1, 8, 14, 6, 11, 3, 4, 9, 7, 2, 13, 12, 0, 5, 10,
      3, 13, 4, 7, 15, 2, 8, 14, 12, 0, 1, 10, 6, 9, 11, 5,
      0, 14, 7, 11, 10, 4, 13, 1, 5, 8, 12, 6, 9, 3, 2, 15,
      13, 8, 10, 1, 3, 15, 4, 2, 11, 6, 7, 12, 0, 5, 14, 9],
    [
      10, 0, 9, 14, 6, 3, 15, 5, 1, 13, 12, 7, 11, 4, 2, 8,
      13, 7, 0, 9, 3, 4, 6, 10, 2, 8, 5, 14, 12, 11, 15, 1,
      13, 6, 4, 9, 8, 15, 3, 0, 11, 1, 2, 12, 5, 10, 14, 7,
      1, 10, 13, 0, 6, 9, 8, 7, 4, 15, 14, 3, 11, 5, 2, 12],
    [
      7, 13, 14, 3, 0, 6, 9, 10, 1, 2, 8, 5, 11, 12, 4, 15,
      13, 8, 11, 5, 6, 15, 0, 3, 4, 7, 2, 12, 1, 10, 14, 9,
      10, 6, 9, 0, 12, 11, 7, 13, 15, 1, 3, 14, 5, 2, 8, 4,
      3, 15, 0, 6, 10, 1, 13, 8, 9, 4, 5, 11, 12, 7, 2, 14],
    [
      2, 12, 4, 1, 7, 10, 11, 6, 8, 5, 3, 15, 13, 0, 14, 9,
      14, 11, 2, 12, 4, 7, 13, 1, 5, 0, 15, 10, 3, 9, 8, 6,
      4, 2, 1, 11, 10, 13, 7, 8, 15, 9, 12, 5, 6, 3, 0, 14,
      11, 8, 12, 7, 1, 14, 2, 13, 6, 15, 0, 9, 10, 4, 5, 3],
    [
      12, 1, 10, 15, 9, 2, 6, 8, 0, 13, 3, 4, 14, 7, 5, 11,
      10, 15, 4, 2, 7, 12, 9, 5, 6, 1, 13, 14, 0, 11, 3, 8,
      9, 14, 15, 5, 2, 8, 12, 3, 7, 0, 4, 10, 1, 13, 11, 6,
      4, 3, 2, 12, 9, 5, 15, 10, 11, 14, 1, 7, 6, 0, 8, 13],
    [
      4, 11, 2, 14, 15, 0, 8, 13, 3, 12, 9, 7, 5, 10, 6, 1,
      13, 0, 11, 7, 4, 9, 1, 10, 14, 3, 5, 12, 2, 15, 8, 6,
      1, 4, 11, 13, 12, 3, 7, 14, 10, 15, 6, 8, 0, 5, 9, 2,
      6, 11, 13, 8, 1, 4, 10, 7, 9, 5, 0, 15, 14, 2, 3, 12],
    [
      13, 2, 8, 4, 6, 15, 11, 1, 10, 9, 3, 14, 5, 0, 12, 7,
      1, 15, 13, 8, 10, 3, 7, 4, 12, 5, 6, 11, 0, 14, 9, 2,
      7, 11, 4, 1, 9, 12, 14, 2, 0, 6, 10, 13, 15, 3, 5, 8,
      2, 1, 14, 7, 4, 10, 8, 13, 15, 12, 9, 0, 3, 5, 6, 11]]

def xor (a b : Bits) : Bits := List.zipWith Bool.xor a b

theorem xor_length {a b : Bits} (h : a.length = b.length) : (xor a b).length = b.length := by
  rw [xor, List.length_zipWith, h, Nat.min_self]

theorem xor_getD {a b : Bits} (h : a.length = b.length) (i : Nat) :
    (xor a b).getD i false = (a.getD i false ^^ b.getD i false) := by
  rw [xor, List.getD_eq_getElem?_getD, List.getD_eq_getElem?_getD, List.getD_eq_getElem?_getD,
    List.getElem?_zipWith]
  by_cases hi : i < a.length
  · have hib : i < b.length := by rwa [← h]
    rw [List.getElem?_eq_getElem hi, List.getElem?_eq_getElem hib]
    rfl
  · have hib : ¬i < b.length := by rwa [← h]
    rw [List.getElem?_eq_none (by omega), List.getElem?_eq_none (by omega)]
    rfl

/-- The number that bits stand for, the first of them most significant. -/
def value (bits : Bits) : Nat := bits.foldl (fun v b => 2 * v + b.toNat) 0

theorem value_testBit (bits : Bits) (i : Nat) :
    (value bits).testBit i =
      (decide (i < bits.length) && bits.getD (bits.length - 1 - i) false) := by
  induction bits using List.reverseRecOn generalizing i with
  | nil => simp [value]
  | append_singleton bits b ih =>
    have hvalue : value (bits ++ [b]) = Nat.bit b (value bits) := by
      rw [value, List.foldl_append, Nat.bit_val]
      rfl
    cases i with
    | zero => simp [hvalue, List.getD_eq_getElem?_getD]
    | succ i =>
      have hlast : ∀ k < bits.length, (bits ++ [b]).getD k false = bits.getD k false :=
        fun k hk => List.getD_append _ _ _ _ hk
      rw [hvalue, Nat.testBit_bit_succ, ih, List.length_append, List.length_singleton,
        show bits.length + 1 - 1 - (i + 1) = bits.length - 1 - i by omega]
      by_cases hi : i < bits.length
      · rw [hlast _ (by omega)]
        simp [hi]
      · simp [hi]

/-- The entry of a box that a number of six bits selects: the outer bits are the row and the inner
ones the column. -/
def select (box : List Nat) (x : Nat) : Nat := box.getD (16 * (2 * (x / 32) + x % 2) + x / 2 % 16) 0

/-- A number of four bits. -/
def four (n : Nat) : Bits := [n.testBit 3, n.testBit 2, n.testBit 1, n.testBit 0]

/-- Each group of six bits selects four bits in the box of its place. -/
def substitute (bits : Bits) : Bits :=
  (List.range 8).flatMap fun j =>
    four (select (boxes.getD j []) (value ((bits.drop (6 * j)).take 6)))

theorem getElem?_groups {α β : Type} {g : α → List β} {n : Nat} (hg : ∀ a, (g a).length = n)
    (l : List α) (i : Nat) {m : Nat} (hm : m < n) :
    (l.flatMap g)[n * i + m]? = l[i]?.bind fun a => (g a)[m]? := by
  induction l generalizing i with
  | nil => rfl
  | cons a l ih =>
    rw [List.flatMap_cons]
    cases i with
    | zero =>
      rw [Nat.mul_zero, Nat.zero_add, List.getElem?_append_left (by rw [hg]; exact hm)]
      rfl
    | succ i =>
      rw [List.getElem?_append_right (by rw [hg, Nat.mul_succ]; omega), hg, Nat.mul_succ,
        show n * i + n + m - n = n * i + m by omega, ih, List.getElem?_cons_succ]

theorem substitute_getD (bits : Bits) {j b : Nat} (hj : j < 8) (hb : b < 4) :
    (substitute bits).getD (4 * j + b) false =
      (four (select (boxes.getD j []) (value ((bits.drop (6 * j)).take 6)))).getD b false := by
  rw [substitute, List.getD_eq_getElem?_getD, getElem?_groups (n := 4) (fun _ => rfl) _ _ hb,
    List.getElem?_range hj, Option.bind_some]
  rfl

/-- The cipher function. -/
def f (half key : Bits) : Bits :=
  permute permutation (substitute (xor (permute expansion half) key))

/-- The halves of the key at a round, which is counted from zero. -/
def keyHalves (key : Bits) (round : Nat) : Bits × Bits :=
  (rotations.take (round + 1)).foldl (fun halves n => (halves.1.rotate n, halves.2.rotate n))
    ((permute permutedChoice1 key).splitAt 28)

def roundKey (key : Bits) (round : Nat) : Bits :=
  permute permutedChoice2 ((keyHalves key round).1 ++ (keyHalves key round).2)

def roundKeys (key : Bits) : List Bits := (List.range 16).map (roundKey key)

/-- A block under these round keys. The halves are exchanged before the last permutation. -/
def cipher (keys : List Bits) (block : Bits) : Bits :=
  let halves := Feistel.network xor f keys ((permute initialPermutation block).splitAt 32)
  permute finalPermutation (halves.2 ++ halves.1)

def encrypt (key block : Bits) : Bits := cipher (roundKeys key) block

def decrypt (key block : Bits) : Bits := cipher (roundKeys key).reverse block

/-- The bits of a number, `n` of them. -/
def bitsOf (n x : Nat) : Bits := (List.range n).map fun i => x.testBit (n - 1 - i)

example : encrypt (bitsOf 64 0x133457799bbcdff1) (bitsOf 64 0x0123456789abcdef) =
    bitsOf 64 0x85e813540f0ab405 := by
  decide +kernel

end Des

end Mrhc
