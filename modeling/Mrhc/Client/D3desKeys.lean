import Mrhc.Client.D3desInverse

/-!
# The key bits of DES

Which bits of a key the key register depends on. The tables of `deskey` select the low seven bits
of each of the first eight bytes, and every selected bit can be read back from the register.
-/

namespace Mrhc

namespace D3des

/-! The words of a round. -/

private theorem fold_bit {c : Nat → Bool} {m : Nat → UInt64} (l : List Nat) (word : UInt64)
    (p : Nat) :
    (l.foldl (fun word j => if c j then word ||| m j else word) word).toBitVec.getLsbD p =
      (word.toBitVec.getLsbD p || l.any fun j => c j && (m j).toBitVec.getLsbD p) := by
  induction l generalizing word with
  | nil => simp
  | cons j l ih =>
    rw [List.foldl_cons, ih, List.any_cons]
    cases c j <;> simp [Bool.or_assoc]

private theorem bigbyte_eq : ∀ j < 24, (bigbyte.getD j 0).toBitVec = BitVec.twoPow 64 (23 - j) := by
  decide

/-- The bits of a raw key word are the selected ones, the first of them highest. -/
theorem kn_bit (bits : List Bool) (offset p : Nat) :
    (kn bits offset).toBitVec.getLsbD p =
      (decide (p < 24) && bits.getD (pc2.getD (23 - p + offset) 0) false) := by
  have hbit : ∀ j < 24, (bigbyte.getD j 0).toBitVec.getLsbD p = decide (23 - j = p) := by
    intro j hj
    have hlt : 23 - j < 64 := by omega
    rw [bigbyte_eq j hj, BitVec.getLsbD_twoPow]
    simp [hlt]
  have hzero : (0 : UInt64).toBitVec.getLsbD p = false := BitVec.getLsbD_zero
  rw [kn, fold_bit, hzero, Bool.false_or, Bool.eq_iff_iff, List.any_eq_true]
  simp only [List.mem_range, Bool.and_eq_true, decide_eq_true_eq]
  constructor
  · intro h
    obtain ⟨j, hj, hselected, hp⟩ := h
    rw [hbit j hj, decide_eq_true_eq] at hp
    obtain rfl : j = 23 - p := by omega
    exact ⟨by omega, hselected⟩
  · intro h
    refine ⟨23 - p, by omega, h.2, ?_⟩
    rw [hbit (23 - p) (by omega), decide_eq_true_eq]
    omega

/-! The words of the register. -/

private theorem mask_fourth : ∀ p < 64, (0x00fc0000#64).getLsbD p = decide (18 ≤ p ∧ p < 24) := by
  decide

private theorem mask_third : ∀ p < 64, (0x0003f000#64).getLsbD p = decide (12 ≤ p ∧ p < 18) := by
  decide

private theorem mask_second : ∀ p < 64, (0x00000fc0#64).getLsbD p = decide (6 ≤ p ∧ p < 12) := by
  decide

theorem mask_first : ∀ p < 64, (0x0000003f#64).getLsbD p = decide (p < 6) := by
  decide

/-- The first word holds the highest six bits and the third six of each raw word. -/
theorem cookey_first (raw0 raw1 : UInt64) {p : Nat} (hp : p < 64) :
    ((cookey raw0 raw1).getD 0 0).toBitVec.getLsbD p =
      if p < 6 then raw1.toBitVec.getLsbD (p + 6)
      else if 8 ≤ p ∧ p < 14 then raw1.toBitVec.getLsbD (p + 10)
      else if 16 ≤ p ∧ p < 22 then raw0.toBitVec.getLsbD (p - 10)
      else if 24 ≤ p ∧ p < 30 then raw0.toBitVec.getLsbD (p - 6)
      else false := by
  simp [cookey]
  grind [mask_fourth, mask_second]

/-- The second word holds the second six bits and the lowest of each raw word. -/
theorem cookey_second (raw0 raw1 : UInt64) {p : Nat} (hp : p < 64) :
    ((cookey raw0 raw1).getD 1 0).toBitVec.getLsbD p =
      if p < 6 then raw1.toBitVec.getLsbD p
      else if 8 ≤ p ∧ p < 14 then raw1.toBitVec.getLsbD (p + 4)
      else if 16 ≤ p ∧ p < 22 then raw0.toBitVec.getLsbD (p - 16)
      else if 24 ≤ p ∧ p < 30 then raw0.toBitVec.getLsbD (p - 12)
      else false := by
  simp [cookey]
  grind [mask_third, mask_first]

theorem cookey_low {raw0 raw1 raw0' raw1' : UInt64} (h : cookey raw0 raw1 = cookey raw0' raw1')
    {p : Nat} (hp : p < 24) :
    raw0.toBitVec.getLsbD p = raw0'.toBitVec.getLsbD p ∧
      raw1.toBitVec.getLsbD p = raw1'.toBitVec.getLsbD p := by
  have hfirst : ∀ q < 64, ((cookey raw0 raw1).getD 0 0).toBitVec.getLsbD q =
      ((cookey raw0' raw1').getD 0 0).toBitVec.getLsbD q := fun q _ => by rw [h]
  have hsecond : ∀ q < 64, ((cookey raw0 raw1).getD 1 0).toBitVec.getLsbD q =
      ((cookey raw0' raw1').getD 1 0).toBitVec.getLsbD q := fun q _ => by rw [h]
  obtain hp6 | hp12 | hp18 | hp24 :
      p < 6 ∨ (6 ≤ p ∧ p < 12) ∨ (12 ≤ p ∧ p < 18) ∨ (18 ≤ p ∧ p < 24) := by omega
  · have h0 := hsecond (p + 16) (by omega)
    have h1 := hsecond p (by omega)
    rw [cookey_second _ _ (by omega), cookey_second _ _ (by omega)] at h0 h1
    grind
  · have h0 := hfirst (p + 10) (by omega)
    have h1 := hfirst (p - 6) (by omega)
    rw [cookey_first _ _ (by omega), cookey_first _ _ (by omega)] at h0 h1
    grind
  · have h0 := hsecond (p + 12) (by omega)
    have h1 := hsecond (p - 4) (by omega)
    rw [cookey_second _ _ (by omega), cookey_second _ _ (by omega)] at h0 h1
    grind
  · have h0 := hfirst (p + 6) (by omega)
    have h1 := hfirst (p - 10) (by omega)
    rw [cookey_first _ _ (by omega), cookey_first _ _ (by omega)] at h0 h1
    grind

/-! The selected bits. -/

/-- The place of the bit that round `i` moves to the place `j`. -/
def pcrIndex (i j : Nat) : Nat :=
  let l := j + totrot.getD i 0
  if j < 28 then (if l < 28 then l else l - 28) else (if l < 56 then l else l - 28)

theorem pcr_getD (bits : List Bool) (i : Nat) {j : Nat} (hj : j < 56) :
    (pcr bits i).getD j false = bits.getD (pcrIndex i j) false := by
  rw [pcr, List.getD_eq_getElem?_getD, List.getElem?_map, List.getElem?_range hj, pcrIndex]
  simp only [Option.map_some, Option.getD_some]
  split
  · split <;> rfl
  · split <;> rfl

private theorem exists_round : ∀ j < 56, ∃ i < 2, ∃ k < 48, pcrIndex i (pc2.getD k 0) = j := by
  decide +kernel

theorem pc2_lt : ∀ k < 48, pc2.getD k 0 < 56 := by decide

private theorem selected_of_roundKey {key key' : Bytes} {i : Nat}
    (h : roundKey key i = roundKey key' i) {k : Nat} (hk : k < 48) :
    (pcr (pc1m key) i).getD (pc2.getD k 0) false =
      (pcr (pc1m key') i).getD (pc2.getD k 0) false := by
  obtain ⟨hfirst, hsecond⟩ := Prod.ext_iff.1 h
  have hwords : cookey (kn (pcr (pc1m key) i) 0) (kn (pcr (pc1m key) i) 24) =
      cookey (kn (pcr (pc1m key') i) 0) (kn (pcr (pc1m key') i) 24) :=
    congrArg₂ (fun word word' => [word, word']) hfirst hsecond
  by_cases hlow : k < 24
  · have hbit := (cookey_low (p := 23 - k) hwords (by omega)).1
    rw [kn_bit, kn_bit, Nat.sub_sub_self (by omega), Nat.add_zero] at hbit
    simpa [show 23 - k < 24 by omega] using hbit
  · have hbit := (cookey_low (p := 47 - k) hwords (by omega)).2
    rw [kn_bit, kn_bit, show 23 - (47 - k) + 24 = k by omega] at hbit
    simpa [show 47 - k < 24 by omega] using hbit

private theorem pc1m_of_roundKeys {key key' : Bytes}
    (h : ∀ i < 16, roundKey key i = roundKey key' i) {j : Nat} (hj : j < 56) :
    (pc1m key).getD j false = (pc1m key').getD j false := by
  obtain ⟨i, hi, k, hk, rfl⟩ := exists_round j hj
  rw [← pcr_getD _ _ (pc2_lt k hk), ← pcr_getD _ _ (pc2_lt k hk)]
  exact selected_of_roundKey (h i (by omega)) hk

private theorem keyWords_injective {keys keys' : List RoundKey}
    (h : keyWords keys = keyWords keys') : keys = keys' := by
  induction keys generalizing keys' with
  | nil =>
    cases keys' with
    | nil => rfl
    | cons key' keys' => cases h
  | cons key keys ih =>
    cases keys' with
    | nil => cases h
    | cons key' keys' =>
      simp only [keyWords, List.flatMap_cons, List.cons_append, List.nil_append,
        List.cons.injEq] at h
      rw [ih h.2.2, Prod.ext h.1 h.2.1]

private theorem roundKey_of_deskey {key key' : Bytes} {edf : Mode}
    (h : deskey key edf = deskey key' edf) {i : Nat} (hi : i < 16) :
    roundKey key i = roundKey key' i := by
  rw [deskey_eq, deskey_eq] at h
  have hkeys := keyWords_injective h
  cases edf with
  | en0 =>
    rw [roundKeys, roundKeys] at hkeys
    exact List.map_inj_left.mp hkeys i (List.mem_range.mpr hi)
  | de1 =>
    rw [roundKeys, roundKeys] at hkeys
    have hopposite := List.map_inj_left.mp hkeys (15 - i) (List.mem_range.mpr (by omega))
    rwa [show 15 - (15 - i) = i by omega] at hopposite

/-! The bits of the key. -/

theorem and_bit (x b : UInt8) {m : Nat} (hm : m < 8) (hb : b.toBitVec = BitVec.twoPow 8 m) :
    (x &&& b != 0) = x.toBitVec.getLsbD m := by
  have hand : (x &&& b).toBitVec = if x.toBitVec.getLsbD m then BitVec.twoPow 8 m else 0#8 := by
    rw [UInt8.toBitVec_and, hb, BitVec.and_twoPow]
  rw [Bool.eq_iff_iff, bne_iff_ne, ne_eq, ← UInt8.toBitVec_inj, hand]
  cases hbit : x.toBitVec.getLsbD m with
  | false => simp
  | true =>
    have hne : BitVec.twoPow 8 m ≠ 0#8 := by
      intro hzero
      have hmbit := congrArg (fun v => v.getLsbD m) hzero
      simp [hm] at hmbit
    simpa using hne

/-- The places that the first table selects: all but the highest bit of each byte. -/
theorem pc1_places : ∀ l ∈ pc1, l >>> 3 < 8 ∧ l &&& 7 < 7 ∧
    (bytebit.getD (l &&& 7) 0).toBitVec = BitVec.twoPow 8 (l &&& 7) := by
  decide

private theorem exists_place : ∀ i < 8, ∀ m < 7, ∃ j < 56, pc1[j]? = some (8 * i + m) := by
  decide

private theorem pc1m_bit {key : Bytes} {j l : Nat} (hj : pc1[j]? = some l) :
    (pc1m key).getD j false = (key.getD (l >>> 3) 0).toBitVec.getLsbD (l &&& 7) := by
  obtain ⟨-, hbit, hbyte⟩ := pc1_places l (List.mem_of_getElem? hj)
  rw [pc1m, List.getD_eq_getElem?_getD, List.getElem?_map, hj]
  exact and_bit _ _ (by omega) hbyte

private theorem low_seven (x y : UInt8) :
    x &&& 0x7f = y &&& 0x7f ↔ ∀ m < 7, x.toBitVec.getLsbD m = y.toBitVec.getLsbD m := by
  have hmask : ∀ m < 8, (0x7f#8).getLsbD m = decide (m < 7) := by decide
  rw [← UInt8.toBitVec_inj]
  constructor
  · intro h m hm
    have hbit := congrArg (fun v => v.getLsbD m) h
    simpa [hmask m (by omega), hm] using hbit
  · intro h
    apply BitVec.eq_of_getLsbD_eq
    intro m hm
    by_cases hlow : m < 7
    · simp [h m hlow]
    · simp [hmask m hm, hlow]

/-- Only the low seven bits of a byte are selected. -/
theorem deskey_of_low_seven {key key' : Bytes} (edf : Mode)
    (h : ∀ i < 8, key.getD i 0 &&& 0x7f = key'.getD i 0 &&& 0x7f) :
    deskey key edf = deskey key' edf := by
  have hbits : pc1m key = pc1m key' := by
    apply List.map_congr_left
    intro l hl
    obtain ⟨hbyte, hbit, hmask⟩ := pc1_places l hl
    rw [and_bit _ _ (by omega) hmask, and_bit _ _ (by omega) hmask]
    exact (low_seven _ _).mp (h (l >>> 3) hbyte) (l &&& 7) hbit
  simp only [deskey, hbits]

/-- **The key register holds the low seven bits of each of the first eight bytes** of a key, all
of them and nothing else. -/
theorem deskey_eq_iff (key key' : Bytes) (edf : Mode) :
    deskey key edf = deskey key' edf ↔
      ∀ i < 8, key.getD i 0 &&& 0x7f = key'.getD i 0 &&& 0x7f := by
  constructor
  · intro h i hi
    rw [low_seven]
    intro m hm
    obtain ⟨j, hj, hplace⟩ := exists_place i hi m hm
    have hbit := pc1m_of_roundKeys (fun i => roundKey_of_deskey h) hj
    rw [pc1m_bit hplace, pc1m_bit hplace, Nat.shiftRight_eq_div_pow,
      Nat.and_two_pow_sub_one_eq_mod _ 3] at hbit
    rwa [show (8 * i + m) / 2 ^ 3 = i by omega, show (8 * i + m) % 2 ^ 3 = m by omega] at hbit
  · exact deskey_of_low_seven edf

end D3des

end Mrhc
