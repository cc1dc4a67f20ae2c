import Mrhc.Client.D3desSchedule

/-!
# DES and the standard

`des` under a register that `deskey` filled is the cipher of the Data Encryption Standard. The
halves of a block are kept rotated by one place during the rounds, and each table of `desfunc` is
a substitution box whose output is already permuted.
-/

namespace Mrhc

namespace D3des

/-- The cipher of the standard in a mode of `deskey`. -/
def Mode.standard : Mode → Des.Bits → Des.Bits → Des.Bits
  | .en0 => Des.encrypt
  | .de1 => Des.decrypt

/-! The rounds. -/

/-- A half of a block as the rounds keep it, rotated by one place, and its bits. -/
structure HoldsHalf (half : UInt64) (bits : Des.Bits) : Prop where
  length : bits.length = 32
  low : low half = half
  bit : ∀ i < 32, half.toBitVec.getLsbD ((32 - i) % 32) = bits.getD i false

/-- The table that the box `j` has become. -/
def spBox (j : Nat) : List UInt64 := [sp1, sp2, sp3, sp4, sp5, sp6, sp7, sp8].getD j []

/-- The box and the place in its output of bit `i` of the cipher function. -/
def permuted (i : Nat) : Nat := Des.permutation.getD i 0 - 1

private theorem spBox_bit : ∀ j < 8, ∀ x < 64, ∀ i < 32,
    ((spBox j).getD x 0).toBitVec.getLsbD ((32 - i) % 32) =
      (decide (permuted i / 4 = j) &&
        (Des.four (Des.select (Des.boxes.getD j []) x)).getD (permuted i % 4) false) := by
  decide +kernel

private theorem index_value {work : UInt64} {place : Nat}
    (hplace : place = 0 ∨ place = 8 ∨ place = 16 ∨ place = 24) {bits : Des.Bits}
    (hlength : bits.length = 6)
    (h : ∀ b < 6, work.toBitVec.getLsbD (place + 5 - b) = bits.getD b false) :
    ((work >>> UInt64.ofNat place) &&& 0x3f).toNat = Des.value bits := by
  apply Nat.eq_of_testBit_eq
  intro p
  have hbit : (((work >>> UInt64.ofNat place) &&& 0x3f).toNat).testBit p =
      (decide (p < 6) && work.toBitVec.getLsbD (place + p)) := by
    change ((work >>> UInt64.ofNat place) &&& 0x3f).toBitVec.getLsbD p = _
    by_cases hp : p < 64
    · obtain rfl | rfl | rfl | rfl := hplace
      all_goals
        simp
        grind [mask_first]
    · rw [BitVec.getLsbD_of_ge _ _ (by omega)]
      simp [show ¬p < 6 by omega]
  rw [hbit, Des.value_testBit, hlength]
  by_cases hp : p < 6
  · rw [← h (6 - 1 - p) (by omega), show place + 5 - (6 - 1 - p) = place + p by omega]
  · simp [hp]

/-- The six bits of the round function's sum for the table `j`. -/
def group (half key : Des.Bits) (j : Nat) : Des.Bits :=
  ((Des.xor (Des.permute Des.expansion half) key).drop (6 * j)).take 6

private theorem expansion_place : ∀ j < 8, ∀ b < 6,
    Des.expansion.getD (6 * j + b) 0 - 1 = (4 * j + b + 31) % 32 := by
  decide

private theorem group_getD {half key : Des.Bits} (hkey : key.length = 48) {j b : Nat} (hj : j < 8)
    (hb : b < 6) :
    (group half key j).getD b false =
      (half.getD ((4 * j + b + 31) % 32) false ^^ key.getD (6 * j + b) false) := by
  have hlength : (Des.permute Des.expansion half).length = key.length := by
    rw [Des.permute_length, hkey]
    rfl
  rw [group, List.getD_eq_getElem?_getD, List.getElem?_take_of_lt hb, List.getElem?_drop,
    ← List.getD_eq_getElem?_getD, Des.xor_getD hlength,
    Des.permute_getD _ (by change _ < 48; omega), expansion_place j hj b hb]

private theorem group_length {half key : Des.Bits} (hkey : key.length = 48) {j : Nat} (hj : j < 8) :
    (group half key j).length = 6 := by
  have hlength : (Des.permute Des.expansion half).length = key.length := by
    rw [Des.permute_length, hkey]
    rfl
  rw [group, List.length_take, List.length_drop, Des.xor_length hlength, hkey]
  omega

/-- The word whose bits select in the table `j`: the rotated half or the half itself. -/
def keyedWork (half : UInt64) (key : RoundKey) (j : Nat) : UInt64 :=
  if j % 2 = 0 then (half <<< 28 ||| half >>> 4) ^^^ key.1 else half ^^^ key.2

private theorem rotated_bit {half : UInt64} (h : low half = half) {p : Nat} (hp : p < 32) :
    (half <<< 28 ||| half >>> 4).toBitVec.getLsbD p = half.toBitVec.getLsbD ((p + 4) % 32) := by
  have hhigh : ∀ q, 32 ≤ q → half.toBitVec.getLsbD q = false := by
    intro q hq
    rw [← h, low, UInt64.toBitVec_and, BitVec.getLsbD_and]
    have hmask : (4294967295#64).getLsbD q = false := by
      rw [low_bit]
      simpa using hq
    simp [hmask]
  simp
  grind

private theorem keyedWork_bit {half : UInt64} {bits : Des.Bits} {words : RoundKey} {key : Des.Bits}
    (hhalf : HoldsHalf half bits) (hkey : HoldsKey words key) {j b : Nat} (hj : j < 8)
    (hb : b < 6) :
    (keyedWork half words j).toBitVec.getLsbD (keyPlace j + 5 - b) =
      (group bits key j).getD b false := by
  have hbits : ∀ p < 32, half.toBitVec.getLsbD p = bits.getD ((32 - p) % 32) false := by
    intro p hp
    rw [← hhalf.bit _ (by omega), show (32 - (32 - p) % 32) % 32 = p by omega]
  rw [group_getD hkey.length hj hb, ← hkey.bit j hj b hb, keyedWork]
  by_cases heven : j % 2 = 0
  · rw [if_pos heven, if_pos heven, UInt64.toBitVec_xor, BitVec.getLsbD_xor,
      rotated_bit hhalf.low (by rw [keyPlace]; omega), hbits _ (by omega)]
    congr 2
    rw [keyPlace]
    omega
  · rw [if_neg heven, if_neg heven, UInt64.toBitVec_xor, BitVec.getLsbD_xor,
      hbits _ (by rw [keyPlace]; omega)]
    congr 2
    rw [keyPlace]
    omega

/-- The word that the round function takes from the table `j`. -/
def spWord (half : UInt64) (key : RoundKey) (j : Nat) : UInt64 :=
  (spBox j).getD ((keyedWork half key j >>> UInt64.ofNat (keyPlace j)) &&& 0x3f).toNat 0

private theorem roundF_eq (half : UInt64) (key : RoundKey) :
    roundF half key = spWord half key 6 ||| spWord half key 4 ||| spWord half key 2 |||
      spWord half key 0 ||| spWord half key 7 ||| spWord half key 5 ||| spWord half key 3 |||
      spWord half key 1 := rfl

private theorem permuted_lt : ∀ i < 32, permuted i < 32 := by decide

private theorem spWord_bit {half : UInt64} {bits : Des.Bits} {words : RoundKey} {key : Des.Bits}
    (hhalf : HoldsHalf half bits) (hkey : HoldsKey words key) {j i : Nat} (hj : j < 8)
    (hi : i < 32) :
    (spWord half words j).toBitVec.getLsbD ((32 - i) % 32) =
      (decide (permuted i / 4 = j) && (Des.f bits key).getD i false) := by
  have hplace : keyPlace j = 0 ∨ keyPlace j = 8 ∨ keyPlace j = 16 ∨ keyPlace j = 24 := by
    rw [keyPlace]
    omega
  have hvalue := index_value hplace (@group_length bits key hkey.length j hj)
    fun b hb => keyedWork_bit hhalf hkey hj hb
  have hlt : Des.value (group bits key j) < 64 := by
    rw [← hvalue, UInt64.toNat_and]
    exact Nat.lt_of_le_of_lt Nat.and_le_right (by decide)
  have hf : (Des.f bits key).getD i false =
      (Des.four (Des.select (Des.boxes.getD (permuted i / 4) [])
        (Des.value (group bits key (permuted i / 4))))).getD (permuted i % 4) false := by
    have hpermuted := permuted_lt i hi
    rw [Des.f, Des.permute_getD _ hi, ← permuted, group,
      ← Des.substitute_getD _ (by omega) (by omega), Nat.div_add_mod]
  rw [spWord, hvalue, spBox_bit j hj _ hlt i hi, hf]
  by_cases hbox : permuted i / 4 = j
  · rw [hbox]
  · simp [hbox]

theorem roundF_standard {half : UInt64} {bits : Des.Bits} {words : RoundKey} {key : Des.Bits}
    (hhalf : HoldsHalf half bits) (hkey : HoldsKey words key) :
    HoldsHalf (roundF half words) (Des.f bits key) where
  length := Des.permute_length _ _
  low := low_fval half words.1 words.2
  bit := by
    intro i hi
    have hword : ∀ j < 8, _ := fun j hj => spWord_bit (j := j) hhalf hkey hj hi
    have hpermuted := permuted_lt i hi
    rw [roundF_eq]
    simp only [UInt64.toBitVec_or, BitVec.getLsbD_or]
    rw [hword 0 (by decide), hword 1 (by decide), hword 2 (by decide), hword 3 (by decide),
      hword 4 (by decide), hword 5 (by decide), hword 6 (by decide), hword 7 (by decide)]
    grind

theorem xor_standard {half half' : UInt64} {bits bits' : Des.Bits} (h : HoldsHalf half bits)
    (h' : HoldsHalf half' bits') : HoldsHalf (half ^^^ half') (Des.xor bits bits') where
  length := by rw [Des.xor_length (by rw [h.length, h'.length]), h'.length]
  low := by rw [low_xor, h.low, h'.low]
  bit := by
    intro i hi
    rw [UInt64.toBitVec_xor, BitVec.getLsbD_xor, h.bit i hi, h'.bit i hi,
      Des.xor_getD (by rw [h.length, h'.length])]

theorem network_standard {words : List RoundKey} {keys : List Des.Bits}
    (hkeys : List.Forall₂ HoldsKey words keys) {block : Block} {halves : Des.Bits × Des.Bits}
    (h : HoldsHalf block.1 halves.1 ∧ HoldsHalf block.2 halves.2) :
    HoldsHalf (network words block).1 (Feistel.network Des.xor Des.f keys halves).1 ∧
      HoldsHalf (network words block).2 (Feistel.network Des.xor Des.f keys halves).2 := by
  have hround : ∀ {a b a' b' k k'}, HoldsHalf a a' → HoldsHalf b b' → HoldsKey k k' →
      HoldsHalf (a ^^^ roundF b k) (Des.xor a' (Des.f b' k')) :=
    fun ha hb hk => xor_standard ha (roundF_standard hb hk)
  exact Feistel.network_related hround hkeys h

/-! The permutations. Each step before the rounds moves bits of the two words. -/

/-- The bit of a block at a place, the places of its second word after those of the first. -/
def bitAt (block : Block) (n : Nat) : Bool :=
  if n < 32 then block.1.toBitVec.getLsbD n else block.2.toBitVec.getLsbD (n - 32)

/-- The place from which an exchange takes the bit of a place. -/
def exchangePlace (shift mask : UInt64) (n : Nat) : Nat :=
  if n < 32 then
    (if shift.toNat ≤ n ∧ mask.toBitVec.getLsbD (n - shift.toNat) then 32 + (n - shift.toNat)
      else n)
  else (if mask.toBitVec.getLsbD (n - 32) then n - 32 + shift.toNat else n)

private theorem exchange_fst_bit {shift mask : UInt64}
    (hshift : shift = 0 ∨ shift = 2 ∨ shift = 4 ∨ shift = 8 ∨ shift = 16) (a b : UInt64) {p : Nat}
    (hp : p < 64) :
    (exchange shift mask a b).1.toBitVec.getLsbD p =
      if shift.toNat ≤ p ∧ mask.toBitVec.getLsbD (p - shift.toNat) then
        b.toBitVec.getLsbD (p - shift.toNat)
      else a.toBitVec.getLsbD p := by
  obtain rfl | rfl | rfl | rfl | rfl := hshift
  all_goals
    simp [exchange]
    grind

private theorem exchange_snd_bit {shift mask : UInt64}
    (hshift : shift = 0 ∨ shift = 2 ∨ shift = 4 ∨ shift = 8 ∨ shift = 16) (a b : UInt64) (p : Nat) :
    (exchange shift mask a b).2.toBitVec.getLsbD p =
      if mask.toBitVec.getLsbD p then a.toBitVec.getLsbD (p + shift.toNat)
      else b.toBitVec.getLsbD p := by
  obtain rfl | rfl | rfl | rfl | rfl := hshift
  all_goals
    simp [exchange]
    grind

/-- A step takes each bit of its result from a place of its argument. -/
structure Rearranges (step : Block → Block) (place : Nat → Nat) : Prop where
  lt : ∀ n < 64, place n < 64
  bit : ∀ block, ∀ n < 64, bitAt (step block) n = bitAt block (place n)

theorem Rearranges.then {step step' : Block → Block} {place place' : Nat → Nat}
    (h : Rearranges step place) (h' : Rearranges step' place') :
    Rearranges (step' ∘ step) (place ∘ place') where
  lt := fun n hn => h.lt _ (h'.lt n hn)
  bit := by
    intro block n hn
    rw [Function.comp_apply, h'.bit _ n hn, h.bit block _ (h'.lt n hn), Function.comp_apply]

/-- An exchange of the words of a block. -/
def exchangeStep (shift mask : UInt64) (block : Block) : Block :=
  exchange shift mask block.1 block.2

private theorem exchange_rearranges {shift mask : UInt64}
    (hshift : shift = 0 ∨ shift = 2 ∨ shift = 4 ∨ shift = 8 ∨ shift = 16)
    (hfits : ∀ p < 32, mask.toBitVec.getLsbD p → p + shift.toNat < 32) :
    Rearranges (exchangeStep shift mask) (exchangePlace shift mask) where
  lt := by
    intro n hn
    rw [exchangePlace]
    split
    · split <;> omega
    · split
      · have hlt := hfits (n - 32) (by omega) (by assumption)
        omega
      · exact hn
  bit := by
    intro block n hn
    have hfst := @exchange_fst_bit shift mask hshift block.1 block.2 n hn
    have hsnd := @exchange_snd_bit shift mask hshift block.1 block.2 (n - 32)
    clear hshift
    simp only [bitAt, exchangePlace, exchangeStep]
    rw [hfst, hsnd]
    grind

/-- The place from which the halves take a bit when they change places. -/
def swapPlace (n : Nat) : Nat := (n + 32) % 64

private theorem swap_rearranges : Rearranges Prod.swap swapPlace where
  lt := fun n _ => Nat.mod_lt _ (by decide)
  bit := by
    intro block n hn
    simp only [bitAt, swapPlace, Prod.fst_swap, Prod.snd_swap]
    grind

/-- The rotation of the first word. -/
def turn (block : Block) : Block := (rotateLeft block.1, block.2)

/-- The place from which the rotation takes a bit. -/
def turnPlace (n : Nat) : Nat := if n < 32 then (n + 31) % 32 else n

private theorem rotateLeft_bit (x : UInt64) {p : Nat} (hp : p < 32) :
    (rotateLeft x).toBitVec.getLsbD p = x.toBitVec.getLsbD ((p + 31) % 32) := by
  simp [rotateLeft, low_bit]
  grind

private theorem turn_rearranges : Rearranges turn turnPlace where
  lt := by
    intro n hn
    rw [turnPlace]
    split <;> omega
  bit := by
    intro block n hn
    simp only [bitAt, turnPlace, turn]
    by_cases hword : n < 32
    · rw [if_pos hword, rotateLeft_bit _ hword]
      grind
    · grind

/-- The place from which the permutation before the rounds takes a bit. -/
def initialPlace : Nat → Nat :=
  exchangePlace 4 0x0f0f0f0f ∘ exchangePlace 16 0x0000ffff ∘ swapPlace ∘
    exchangePlace 2 0x33333333 ∘ exchangePlace 8 0x00ff00ff ∘ turnPlace ∘ swapPlace ∘
    exchangePlace 0 0xaaaaaaaa ∘ turnPlace

private theorem initial_rearranges : Rearranges initial initialPlace := by
  have h4 : Rearranges (exchangeStep 4 0x0f0f0f0f) _ := exchange_rearranges (by simp) (by decide)
  have h16 : Rearranges (exchangeStep 16 0x0000ffff) _ := exchange_rearranges (by simp) (by decide)
  have h2 : Rearranges (exchangeStep 2 0x33333333) _ := exchange_rearranges (by simp) (by decide)
  have h8 : Rearranges (exchangeStep 8 0x00ff00ff) _ := exchange_rearranges (by simp) (by decide)
  have h0 : Rearranges (exchangeStep 0 0xaaaaaaaa) _ := exchange_rearranges (by simp) (by decide)
  exact h4.then (h16.then (swap_rearranges.then (h2.then (h8.then (turn_rearranges.then
    (swap_rearranges.then (h0.then turn_rearranges)))))))

/-- The place among the bits of a block from which its words take a bit. -/
def blockPlace (n : Nat) : Nat := if n < 32 then 31 - n else 95 - n

private theorem scrunch_bitAt (block : Bytes) {n : Nat} (hn : n < 64) :
    bitAt (scrunch block) n = (blockBits block).getD (blockPlace n) false := by
  have hword : ∀ i, ∀ p < 32, (halfWord (block.getD i 0) (block.getD (i + 1) 0)
      (block.getD (i + 2) 0) (block.getD (i + 3) 0)).toBitVec.getLsbD p =
      (blockBits block).getD (8 * i + 31 - p) false := by
    intro i p hp
    rw [halfWord_bit _ _ _ _ (by omega),
      show 8 * i + 31 - p = 8 * (i + (3 - p / 8)) + (7 - p % 8) by omega,
      blockBits_getD _ _ (by omega), show 7 - (7 - p % 8) = p % 8 by omega]
    grind
  rw [bitAt, blockPlace]
  split
  · exact hword 0 n (by omega)
  · rw [show 95 - n = 8 * 4 + 31 - (n - 32) by omega]
    exact hword 4 (n - 32) (by omega)

private theorem initialPlace_eq : ∀ i < 32,
    blockPlace (initialPlace ((32 - i) % 32)) = Des.initialPermutation.getD i 0 - 1 ∧
      blockPlace (initialPlace (32 + (32 - i) % 32)) =
        Des.initialPermutation.getD (32 + i) 0 - 1 := by
  decide +kernel

/-- The halves with which the standard enters its rounds. -/
def standardHalves (bits : Des.Bits) : Des.Bits × Des.Bits :=
  (Des.permute Des.initialPermutation bits).splitAt 32

theorem initial_standard (block : Bytes) :
    HoldsHalf (initial (scrunch block)).1 (standardHalves (blockBits block)).1 ∧
      HoldsHalf (initial (scrunch block)).2 (standardHalves (blockBits block)).2 := by
  obtain ⟨hl, hr⟩ := (lowBlock_iff _).1 (lowBlock_initial (lowBlock_scrunch block))
  have hbit : ∀ n < 64, bitAt (initial (scrunch block)) n =
      (blockBits block).getD (blockPlace (initialPlace n)) false := by
    intro n hn
    rw [initial_rearranges.bit _ n hn, scrunch_bitAt block (initial_rearranges.lt n hn)]
  rw [standardHalves, List.splitAt_eq]
  constructor
  · refine ⟨rfl, hl, ?_⟩
    intro i hi
    have hplace := hbit ((32 - i) % 32) (by omega)
    rw [bitAt, if_pos (by omega), (initialPlace_eq i hi).1] at hplace
    rw [hplace, ← Des.permute_getD _ (by change i < 64; omega)]
    simp only [List.getD_eq_getElem?_getD, List.getElem?_take_of_lt hi]
  · refine ⟨rfl, hr, ?_⟩
    intro i hi
    have hplace := hbit (32 + (32 - i) % 32) (by omega)
    rw [bitAt, if_neg (by omega), (initialPlace_eq i hi).2, Nat.add_sub_cancel_left] at hplace
    rw [hplace, ← Des.permute_getD _ (by change 32 + i < 64; omega)]
    simp only [List.getD_eq_getElem?_getD, List.getElem?_drop]

private theorem HoldsHalf.unique {half : UInt64} {bits bits' : Des.Bits} (h : HoldsHalf half bits)
    (h' : HoldsHalf half bits') : bits = bits' := by
  apply List.ext_getElem (by rw [h.length, h'.length])
  intro i hi hi'
  have hlt : i < 32 := by rwa [h.length] at hi
  rw [← List.getD_eq_getElem bits false hi, ← List.getD_eq_getElem bits' false hi',
    ← h.bit i hlt, ← h'.bit i hlt]

theorem blockBits_length {block : Bytes} (h : block.length = 8) :
    (blockBits block).length = 64 := by
  simp [blockBits, List.length_flatMap, Des.bitsOf, h]

/-- The permutation after the rounds writes out what the standard makes of the halves. -/
theorem final_standard {block : Block} {halves : Des.Bits × Des.Bits}
    (h : HoldsHalf block.1 halves.1 ∧ HoldsHalf block.2 halves.2) :
    blockBits (unscrun (final block)) =
      Des.permute Des.finalPermutation (halves.2 ++ halves.1) := by
  have hblock : lowBlock block = block := (lowBlock_iff block).2 ⟨h.1.low, h.2.low⟩
  have hinitial := initial_standard (unscrun (final block))
  rw [scrunch_unscrun, initial_final hblock] at hinitial
  have hhalves : halves.2 ++ halves.1 =
      Des.permute Des.initialPermutation (blockBits (unscrun (final block))) := by
    rw [h.2.unique hinitial.1, h.1.unique hinitial.2, standardHalves, List.splitAt_eq]
    exact List.take_append_drop 32 _
  rw [hhalves, Des.final_initial (blockBits_length rfl)]

theorem des_deskey (key : Bytes) (edf : Mode) (block : Bytes) :
    blockBits (des (deskey key edf) block) =
      Des.cipher (edf.standardKeys (keyBits key)) (blockBits block) := by
  have hrounds := network_standard (roundKeys_standard key edf) (initial_standard block)
  rw [des, desfunc, rounds_deskey, final_standard hrounds]
  rfl

/-- **Conformance.** `des` under the register that `deskey` fills is the cipher of the Data
Encryption Standard, in both modes, under the key with the bits of each byte in the opposite
order. -/
theorem des_standard (key : Bytes) (edf : Mode) (block : Bytes) :
    blockBits (des (deskey key edf) block) = edf.standard (keyBits key) (blockBits block) := by
  rw [des_deskey]
  cases edf with
  | en0 => rfl
  | de1 => rfl

end D3des

end Mrhc
