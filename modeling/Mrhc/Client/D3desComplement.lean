import Mrhc.Client.D3desKeys

/-!
# DES and complements

The cipher text of the complement of a block under the complement of a key is the complement of
the cipher text. The tables take no part in it: a round sees only the sums of bits of a half and
of a round key, and both change together.
-/

namespace Mrhc

namespace D3des

/-- The bytes with every bit inverted. -/
def complement (bs : Bytes) : Bytes := bs.map fun b => ~~~b

/-- A word with its low 32 bits inverted. -/
def invert (x : UInt64) : UInt64 := x ^^^ 0xffffffff

/-- A word with the bits inverted that a register word holds of a round key. -/
def invertKey (x : UInt64) : UInt64 := x ^^^ 0x3f3f3f3f

private theorem invert_bit (x : UInt64) (p : Nat) :
    (invert x).toBitVec.getLsbD p = (x.toBitVec.getLsbD p ^^ decide (p < 32)) := by
  rw [invert, UInt64.toBitVec_xor, BitVec.getLsbD_xor]
  exact congrArg _ (low_bit p)

private theorem invertKey_mask : ∀ p < 64, (0x3f3f3f3f#64).getLsbD p =
    decide (p < 6 ∨ (8 ≤ p ∧ p < 14) ∨ (16 ≤ p ∧ p < 22) ∨ (24 ≤ p ∧ p < 30)) := by
  decide

private theorem invertKey_bit (x : UInt64) {p : Nat} (hp : p < 64) :
    (invertKey x).toBitVec.getLsbD p = (x.toBitVec.getLsbD p ^^
      decide (p < 6 ∨ (8 ≤ p ∧ p < 14) ∨ (16 ≤ p ∧ p < 22) ∨ (24 ≤ p ∧ p < 30))) := by
  rw [invertKey, UInt64.toBitVec_xor, BitVec.getLsbD_xor]
  exact congrArg _ (invertKey_mask p hp)

/-! The key register. -/

private theorem getD_complement {bs : Bytes} {i : Nat} (hi : i < bs.length) :
    (complement bs).getD i 0 = ~~~bs.getD i 0 := by
  simp [complement, List.getD_eq_getElem?_getD, hi]

private theorem pc1m_complement {key : Bytes} (h : 8 ≤ key.length) :
    pc1m (complement key) = (pc1m key).map (!·) := by
  rw [pc1m, pc1m, List.map_map]
  apply List.map_congr_left
  intro l hl
  obtain ⟨hbyte, hbit, hmask⟩ := pc1_places l hl
  rw [Function.comp_apply, getD_complement (by omega), and_bit _ _ (by omega) hmask,
    and_bit _ _ (by omega) hmask, UInt8.toBitVec_not, BitVec.getLsbD_not]
  simp [show l &&& 7 < 8 by omega]

private theorem pcrIndex_lt {i j : Nat} (hi : i < 16) (hj : j < 56) : pcrIndex i j < 56 := by
  have hrotation : ∀ i < 16, totrot.getD i 0 ≤ 28 := by decide
  have hle := hrotation i hi
  simp only [pcrIndex]
  split
  · split <;> omega
  · split <;> omega

private theorem pcr_complement {key : Bytes} (h : 8 ≤ key.length) {i k : Nat} (hi : i < 16)
    (hk : k < 48) :
    (pcr (pc1m (complement key)) i).getD (pc2.getD k 0) false =
      !(pcr (pc1m key) i).getD (pc2.getD k 0) false := by
  have hlt : pcrIndex i (pc2.getD k 0) < (pc1m key).length := pcrIndex_lt hi (pc2_lt k hk)
  rw [pcr_getD _ _ (pc2_lt k hk), pcr_getD _ _ (pc2_lt k hk), pc1m_complement h]
  generalize pcrIndex i (pc2.getD k 0) = place at hlt
  simp [List.getD_eq_getElem?_getD, hlt]

private theorem kn_complement {key : Bytes} (h : 8 ≤ key.length) {i offset p : Nat} (hi : i < 16)
    (hoffset : offset = 0 ∨ offset = 24) (hp : p < 24) :
    (kn (pcr (pc1m (complement key)) i) offset).toBitVec.getLsbD p =
      !(kn (pcr (pc1m key) i) offset).toBitVec.getLsbD p := by
  rw [kn_bit, kn_bit, pcr_complement h hi (by omega)]
  simp [hp]

theorem roundKey_complement {key : Bytes} (h : 8 ≤ key.length) {i : Nat} (hi : i < 16) :
    roundKey (complement key) i = (roundKey key i).map invertKey invertKey := by
  have h0 : ∀ p < 24, _ := fun p => kn_complement (p := p) h hi (Or.inl rfl)
  have h1 : ∀ p < 24, _ := fun p => kn_complement (p := p) h hi (Or.inr rfl)
  apply Prod.ext
  · apply UInt64.toBitVec_inj.1
    apply BitVec.eq_of_getLsbD_eq
    intro p hp
    simp only [roundKey, Prod.map]
    rw [invertKey_bit _ hp, cookey_first _ _ hp, cookey_first _ _ hp]
    grind
  · apply UInt64.toBitVec_inj.1
    apply BitVec.eq_of_getLsbD_eq
    intro p hp
    simp only [roundKey, Prod.map]
    rw [invertKey_bit _ hp, cookey_second _ _ hp, cookey_second _ _ hp]
    grind

private theorem roundKeys_complement {key : Bytes} (h : 8 ≤ key.length) (edf : Mode) :
    roundKeys (complement key) edf = (roundKeys key edf).map (Prod.map invertKey invertKey) := by
  cases edf with
  | en0 =>
    rw [roundKeys, roundKeys, List.map_map]
    apply List.map_congr_left
    intro i hi
    exact roundKey_complement h (List.mem_range.mp hi)
  | de1 =>
    rw [roundKeys, roundKeys, List.map_map]
    apply List.map_congr_left
    intro i hi
    exact roundKey_complement h (by omega)

/-! The rounds. -/

private theorem index_invert {work work' : UInt64} {shift : UInt64}
    (hshift : shift = 0 ∨ shift = 8 ∨ shift = 16 ∨ shift = 24)
    (h : ∀ p < 30, work'.toBitVec.getLsbD p = (work.toBitVec.getLsbD p ^^ true)) (key : UInt64) :
    ((work' ^^^ invertKey key) >>> shift) &&& 0x3f = ((work ^^^ key) >>> shift) &&& 0x3f := by
  apply UInt64.toBitVec_inj.1
  apply BitVec.eq_of_getLsbD_eq
  intro p hp
  obtain rfl | rfl | rfl | rfl := hshift
  all_goals
    simp
    grind [invertKey_bit, mask_first]

theorem roundF_invert {half : UInt64} (hhalf : low half = half) (key : RoundKey) :
    roundF (invert half) (key.map invertKey invertKey) = roundF half key := by
  have hhigh : ∀ p, 32 ≤ p → half.toBitVec.getLsbD p = false := by
    intro p hp
    rw [← hhalf, low, UInt64.toBitVec_and, BitVec.getLsbD_and]
    have hmask : (4294967295#64).getLsbD p = false := by
      rw [low_bit]
      simpa using hp
    simp [hmask]
  have hrotated : ∀ p < 30, (invert half <<< 28 ||| invert half >>> 4).toBitVec.getLsbD p =
      ((half <<< 28 ||| half >>> 4).toBitVec.getLsbD p ^^ true) := by
    intro p hp
    simp
    grind [invert_bit]
  have hplain : ∀ p < 30, (invert half).toBitVec.getLsbD p = (half.toBitVec.getLsbD p ^^ true) := by
    intro p hp
    rw [invert_bit]
    simp [show p < 32 by omega]
  have h0 := fun shift hshift => @index_invert _ _ shift hshift hrotated key.1
  have h1 := fun shift hshift => @index_invert _ _ shift hshift hplain key.2
  simp only [roundF, fval, Prod.map]
  rw [h0 0 (by simp), h0 8 (by simp), h0 16 (by simp), h0 24 (by simp), h1 0 (by simp),
    h1 8 (by simp), h1 16 (by simp), h1 24 (by simp)]

private theorem invert_xor (x y : UInt64) : invert x ^^^ y = invert (x ^^^ y) := by
  rw [invert, invert, UInt64.xor_assoc, UInt64.xor_assoc, UInt64.xor_comm y]

private theorem rounds_complement {key : Bytes} (h : 8 ≤ key.length) (edf : Mode) {block : Block}
    (hblock : lowBlock block = block) :
    rounds (deskey (complement key) edf) (block.map invert invert) =
      (rounds (deskey key edf) block).map invert invert := by
  let R := fun a a' : UInt64 => low a = a ∧ a' = invert a
  let keys := roundKeys key edf
  let keys' := keys.map (Prod.map invertKey invertKey)
  let block' := block.map invert invert
  have hround : ∀ {a b a' b' k k'}, R a a' → R b b' → k.map invertKey invertKey = k' →
      R (a ^^^ roundF b k) (a' ^^^ roundF b' k') := by
    rintro a b _ _ k _ ⟨ha, rfl⟩ ⟨hb, rfl⟩ rfl
    constructor
    · rw [low_xor, ha, roundF, low_fval]
    · rw [roundF_invert hb, invert_xor]
  have hkeys : List.Forall₂ (fun k k' => k.map invertKey invertKey = k') keys keys' :=
    List.forall₂_map_right_iff.mpr (List.forall₂_same.mpr fun _ _ => rfl)
  have hhalves : R (network keys block).1 (network keys' block').1 ∧
      R (network keys block).2 (network keys' block').2 := by
    obtain ⟨hl, hr⟩ := (lowBlock_iff block).1 hblock
    exact Feistel.network_related hround hkeys ⟨⟨hl, rfl⟩, ⟨hr, rfl⟩⟩
  rw [rounds_deskey, rounds_deskey, roundKeys_complement h]
  exact Prod.ext hhalves.1.2 hhalves.2.2

/-! The permutations. -/

private theorem exchange_invert {shift mask : UInt64}
    (h : ((0xffffffff >>> shift) ^^^ 0xffffffff) &&& mask = 0) (a b : UInt64) :
    exchange shift mask (invert a) (invert b) = (exchange shift mask a b).map invert invert := by
  have hsum : ((invert a >>> shift) ^^^ invert b) =
      ((a >>> shift) ^^^ b) ^^^ ((0xffffffff >>> shift) ^^^ 0xffffffff) := by
    rw [invert, invert, UInt64.shiftRight_xor]
    ac_rfl
  have hwork : ((invert a >>> shift) ^^^ invert b) &&& mask = ((a >>> shift) ^^^ b) &&& mask := by
    rw [hsum, xor_and, h, UInt64.xor_zero]
  simp only [exchange, hwork, invert_xor, Prod.map]

private theorem rotateLeft_invert (x : UInt64) : rotateLeft (invert x) = invert (rotateLeft x) := by
  apply UInt64.toBitVec_inj.1
  apply BitVec.eq_of_getLsbD_eq
  intro p hp
  rw [invert_bit]
  simp [rotateLeft, low_bit]
  grind [invert_bit]

private theorem initial_invert (block : Block) :
    initial (block.map invert invert) = (initial block).map invert invert := by
  have hexchanges : initialExchanges (block.map invert invert) =
      (initialExchanges block).map invert invert := by
    simp only [initialExchanges, Prod.map_fst, Prod.map_snd]
    rw [exchange_invert (by decide)]
    simp only [Prod.map_fst, Prod.map_snd]
    rw [exchange_invert (by decide)]
    simp only [Prod.map_fst, Prod.map_snd]
    rw [exchange_invert (by decide)]
    simp only [Prod.map_fst, Prod.map_snd]
    rw [exchange_invert (by decide)]
  rw [initial_eq, initial_eq, hexchanges]
  simp only [Prod.map_fst, Prod.map_snd, rotateLeft_invert]
  rw [exchange_invert (by decide)]
  simp only [Prod.map, rotateLeft_invert]

private theorem low_invert (x : UInt64) : low (invert x) = invert (low x) := by
  rw [invert, low_xor]
  rfl

private theorem lowBlock_invert {block : Block} (h : lowBlock block = block) :
    lowBlock (block.map invert invert) = block.map invert invert := by
  obtain ⟨hl, hr⟩ := (lowBlock_iff block).1 h
  rw [lowBlock_iff, Prod.map_fst, Prod.map_snd, low_invert, low_invert, hl, hr]
  exact ⟨rfl, rfl⟩

private theorem final_invert {block : Block} (h : lowBlock block = block) :
    lowBlock (final (block.map invert invert)) = (lowBlock (final block)).map invert invert := by
  have hlow := lowBlock_invert (lowBlock_lowBlock (final block))
  apply initial_injective (lowBlock_lowBlock _) hlow
  rw [initial_final (lowBlock_invert h), initial_invert, initial_final h]
  rfl

/-! The bytes. -/

theorem halfWord_bit (b0 b1 b2 b3 : UInt8) {p : Nat} (hp : p < 64) :
    (halfWord b0 b1 b2 b3).toBitVec.getLsbD p =
      if p < 8 then b3.toBitVec.getLsbD p
      else if p < 16 then b2.toBitVec.getLsbD (p - 8)
      else if p < 24 then b1.toBitVec.getLsbD (p - 16)
      else if p < 32 then b0.toBitVec.getLsbD (p - 24)
      else false := by
  simp [halfWord]
  grind

private theorem halfWord_complement (b0 b1 b2 b3 : UInt8) :
    halfWord (~~~b0) (~~~b1) (~~~b2) (~~~b3) = invert (halfWord b0 b1 b2 b3) := by
  apply UInt64.toBitVec_inj.1
  apply BitVec.eq_of_getLsbD_eq
  intro p hp
  rw [invert_bit, halfWord_bit _ _ _ _ hp, halfWord_bit _ _ _ _ hp]
  simp only [UInt8.toBitVec_not, BitVec.getLsbD_not]
  grind

private theorem scrunch_complement {block : Bytes} (h : block.length = 8) :
    scrunch (complement block) = (scrunch block).map invert invert := by
  have hbyte : ∀ i < 8, (complement block).getD i 0 = ~~~block.getD i 0 :=
    fun i hi => getD_complement (by omega)
  have hscrunch : ∀ outof, scrunch outof =
      (halfWord (outof.getD 0 0) (outof.getD 1 0) (outof.getD 2 0) (outof.getD 3 0),
        halfWord (outof.getD 4 0) (outof.getD 5 0) (outof.getD 6 0) (outof.getD 7 0)) :=
    fun _ => rfl
  rw [hscrunch, hscrunch, Prod.map, hbyte 0 (by decide), hbyte 1 (by decide), hbyte 2 (by decide),
    hbyte 3 (by decide), hbyte 4 (by decide), hbyte 5 (by decide), hbyte 6 (by decide),
    hbyte 7 (by decide), halfWord_complement, halfWord_complement]

private theorem unscrun_invert (block : Block) :
    unscrun (block.map invert invert) = complement (unscrun block) := by
  have hlength : (complement (unscrun block)).length = 8 := rfl
  have hscrunch : scrunch (complement (unscrun block)) = lowBlock (block.map invert invert) := by
    rw [scrunch_complement rfl, scrunch_unscrun]
    exact Prod.ext (low_invert _).symm (low_invert _).symm
  rw [← unscrun_lowBlock, ← hscrunch, unscrun_scrunch hlength]

/-- **Complements.** Inverting all bits of the key and of the block inverts all bits of what `des`
writes, in both modes. -/
theorem des_complement (key : Bytes) (edf : Mode) (block : Bytes) (hkey : 8 ≤ key.length)
    (hblock : block.length = 8) :
    des (deskey (complement key) edf) (complement block) =
      complement (des (deskey key edf) block) := by
  have hinitial := lowBlock_initial (lowBlock_scrunch block)
  have hrounds := lowBlock_rounds (deskey key edf) _ hinitial
  rw [des, des, desfunc, desfunc, scrunch_complement hblock, initial_invert,
    rounds_complement hkey edf hinitial, ← unscrun_lowBlock, final_invert hrounds, unscrun_invert,
    unscrun_lowBlock]

theorem des_complement_block :
    des (deskey (complement (ascii "password")) .en0) (complement (ascii "12345678")) =
      complement (des (deskey (ascii "password") .en0) (ascii "12345678")) :=
  des_complement (ascii "password") .en0 (ascii "12345678") (by decide) rfl

end D3des

end Mrhc
