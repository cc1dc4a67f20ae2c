import Mrhc.Client.D3desComplement
import Mrhc.Framework.Des

/-!
# The key schedule and the standard

The words of the key register hold the round keys of the Data Encryption Standard: each holds the
six bits that a table takes, in a byte of their own. What differs is the key, whose bytes are read
from their least significant bit on.
-/

namespace Mrhc

namespace D3des

/-- The bits of a block, each byte's most significant bit first. -/
def blockBits (block : Bytes) : Des.Bits := block.flatMap fun b => Des.bitsOf 8 b.toNat

/-- The bits of the eight bytes of a key, each byte's least significant bit first. -/
def keyBits (key : Bytes) : Des.Bits := (key.take 8).flatMap fun b => (Des.bitsOf 8 b.toNat).reverse

/-! The bits of bytes. -/

private theorem flatMap_getD {g : UInt8 → Des.Bits} (hg : ∀ b, (g b).length = 8)
    (hzero : g 0 = List.replicate 8 false) (bs : Bytes) (i : Nat) {m : Nat} (hm : m < 8) :
    (bs.flatMap g).getD (8 * i + m) false = (g (bs.getD i 0)).getD m false := by
  rw [List.getD_eq_getElem?_getD, Des.getElem?_groups hg bs i hm]
  by_cases hi : i < bs.length
  · simp [List.getD_eq_getElem?_getD, hi]
  · have hbyte : bs.getD i 0 = 0 := List.getD_eq_default _ _ (by omega)
    rw [hbyte, hzero, List.getElem?_eq_none (by omega), List.getD_eq_getElem?_getD,
      List.getElem?_getD_replicate_default_eq]
    rfl

private theorem bitsOf_getD (b : UInt8) {m : Nat} (hm : m < 8) :
    (Des.bitsOf 8 b.toNat).getD m false = b.toBitVec.getLsbD (7 - m) := by
  simp [Des.bitsOf, List.getD_eq_getElem?_getD, hm, BitVec.getLsbD]

private theorem bitsOf_reverse_getD (b : UInt8) {m : Nat} (hm : m < 8) :
    (Des.bitsOf 8 b.toNat).reverse.getD m false = b.toBitVec.getLsbD m := by
  have hlength : (Des.bitsOf 8 b.toNat).length = 8 := rfl
  rw [List.getD_eq_getElem?_getD, List.getElem?_reverse (by rw [hlength]; exact hm), hlength,
    ← List.getD_eq_getElem?_getD, bitsOf_getD b (by omega)]
  congr 1
  omega

theorem blockBits_getD (block : Bytes) (i : Nat) {m : Nat} (hm : m < 8) :
    (blockBits block).getD (8 * i + m) false = (block.getD i 0).toBitVec.getLsbD (7 - m) := by
  rw [blockBits, flatMap_getD (fun _ => rfl) rfl _ _ hm, bitsOf_getD _ hm]

theorem keyBits_getD (key : Bytes) {i m : Nat} (hi : i < 8) (hm : m < 8) :
    (keyBits key).getD (8 * i + m) false = (key.getD i 0).toBitVec.getLsbD m := by
  rw [keyBits, flatMap_getD (fun _ => rfl) rfl _ _ hm, bitsOf_reverse_getD _ hm,
    List.getD_eq_getElem?_getD, List.getElem?_take_of_lt hi, List.getD_eq_getElem?_getD]

/-! The key register. -/

theorem pc1m_standard (key : Bytes) :
    pc1m key = Des.permute Des.permutedChoice1 (keyBits key) := by
  have hplaces : Des.permutedChoice1 = pc1.map (· + 1) := by decide
  rw [pc1m, Des.permute, hplaces, List.map_map]
  apply List.map_congr_left
  intro l hl
  obtain ⟨hbyte, hbit, hmask⟩ := pc1_places l hl
  have hsplit : l = 8 * (l >>> 3) + (l &&& 7) := by
    rw [Nat.shiftRight_eq_div_pow, Nat.and_two_pow_sub_one_eq_mod _ 3]
    omega
  rw [and_bit _ _ (by omega) hmask, ← keyBits_getD key hbyte (by omega), ← hsplit]
  rfl

private theorem foldl_rotate (ns : List Nat) (halves : Des.Bits × Des.Bits) :
    ns.foldl (fun halves n => (halves.1.rotate n, halves.2.rotate n)) halves =
      (halves.1.rotate ns.sum, halves.2.rotate ns.sum) := by
  induction ns generalizing halves with
  | nil => rw [List.foldl_nil, List.sum_nil, List.rotate_zero, List.rotate_zero]
  | cons n ns ih => rw [List.foldl_cons, ih, List.rotate_rotate, List.rotate_rotate, List.sum_cons]

private theorem totrot_sum : ∀ i < 16, (Des.rotations.take (i + 1)).sum = totrot.getD i 0 := by
  decide

private theorem pcrIndex_rotate {i : Nat} (hi : i < 16) (j : Nat) (hj : j < 56) :
    pcrIndex i j = if j < 28 then (j + totrot.getD i 0) % 28
      else 28 + (j - 28 + totrot.getD i 0) % 28 := by
  have hrotation : ∀ i < 16, totrot.getD i 0 ≤ 28 := by decide
  have hle := hrotation i hi
  simp only [pcrIndex]
  split
  · split <;> omega
  · split <;> omega

private theorem pcr_rotate {bits : List Bool} (h : bits.length = 56) {i : Nat} (hi : i < 16) :
    pcr bits i =
      (bits.take 28).rotate (totrot.getD i 0) ++ (bits.drop 28).rotate (totrot.getD i 0) := by
  apply List.ext_getElem
  · simp [pcr, h]
  · intro j hj hj'
    have hlt : j < 56 := by simpa [pcr] using hj
    rw [← List.getD_eq_getElem _ false hj, pcr_getD bits i hlt, pcrIndex_rotate hi j hlt,
      List.getElem_append]
    simp only [List.length_rotate, List.length_take, List.length_drop, List.getElem_rotate,
      List.getElem_take, List.getElem_drop, h]
    by_cases hhalf : j < 28
    · rw [if_pos hhalf, dif_pos (by omega)]
      exact List.getD_eq_getElem _ _ (by omega)
    · rw [if_neg hhalf, dif_neg (by omega)]
      exact List.getD_eq_getElem _ _ (by omega)

private theorem keyHalves_append (key : Bytes) {i : Nat} (hi : i < 16) :
    (Des.keyHalves (keyBits key) i).1 ++ (Des.keyHalves (keyBits key) i).2 =
      pcr (pc1m key) i := by
  rw [Des.keyHalves, foldl_rotate, totrot_sum i hi, ← pc1m_standard, List.splitAt_eq]
  exact (pcr_rotate rfl hi).symm

theorem roundKey_getD (key : Bytes) {i q : Nat} (hi : i < 16) (hq : q < 48) :
    (Des.roundKey (keyBits key) i).getD q false =
      (pcr (pc1m key) i).getD (pc2.getD q 0) false := by
  have hplaces : Des.permutedChoice2 = pc2.map (· + 1) := by decide
  have hlength : q < pc2.length := hq
  rw [Des.roundKey, keyHalves_append key hi, Des.permute, hplaces, List.map_map]
  simp [List.getD_eq_getElem?_getD, hlength]

/-- The six bits of a round key for the table `j` are in the word of its parity, in the byte of its
half. -/
def keyPlace (j : Nat) : Nat := 24 - 8 * (j / 2)

/-- The words of the register hold a round key of the standard. -/
structure HoldsKey (words : RoundKey) (key : Des.Bits) : Prop where
  length : key.length = 48
  bit : ∀ j < 8, ∀ b < 6,
    (if j % 2 = 0 then words.1 else words.2).toBitVec.getLsbD (keyPlace j + 5 - b) =
      key.getD (6 * j + b) false

theorem roundKey_standard (key : Bytes) {i : Nat} (hi : i < 16) :
    HoldsKey (roundKey key i) (Des.roundKey (keyBits key) i) where
  length := rfl
  bit := by
    intro j hj b hb
    have hfirst : ∀ p < 24, (kn (pcr (pc1m key) i) 0).toBitVec.getLsbD p =
        (Des.roundKey (keyBits key) i).getD (23 - p) false := by
      intro p hp
      rw [kn_bit, roundKey_getD key hi (by omega)]
      simp [hp]
    have hsecond : ∀ p < 24, (kn (pcr (pc1m key) i) 24).toBitVec.getLsbD p =
        (Des.roundKey (keyBits key) i).getD (47 - p) false := by
      intro p hp
      rw [kn_bit, roundKey_getD key hi (by omega), show 23 - p + 24 = 47 - p by omega]
      simp [hp]
    obtain rfl | rfl | rfl | rfl | rfl | rfl | rfl | rfl :
        j = 0 ∨ j = 1 ∨ j = 2 ∨ j = 3 ∨ j = 4 ∨ j = 5 ∨ j = 6 ∨ j = 7 := by omega
    all_goals
      simp only [keyPlace, roundKey]
      grind [cookey_first, cookey_second]

/-- The keys of the rounds in the order in which a mode uses them. -/
def Mode.standardKeys (key : Des.Bits) : Mode → List Des.Bits
  | .en0 => Des.roundKeys key
  | .de1 => (Des.roundKeys key).reverse

theorem roundKeys_standard (key : Bytes) (edf : Mode) :
    List.Forall₂ HoldsKey (roundKeys key edf) (edf.standardKeys (keyBits key)) := by
  have hkeys : List.Forall₂ HoldsKey ((List.range 16).map (roundKey key))
      (Des.roundKeys (keyBits key)) := by
    rw [Des.roundKeys, List.forall₂_map_left_iff, List.forall₂_map_right_iff, List.forall₂_same]
    intro i hi
    exact roundKey_standard key (List.mem_range.mp hi)
  cases edf with
  | en0 => exact hkeys
  | de1 =>
    rw [show Mode.de1 = Mode.en0.opposite from rfl, roundKeys_opposite]
    exact List.rel_reverse hkeys

end D3des

end Mrhc
