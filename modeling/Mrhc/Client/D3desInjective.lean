import Mathlib.Data.Nat.Bitwise
import Mrhc.Client.D3des

/-!
# DES under a fixed key is injective

The exchanges of `desfunc` undo themselves, its rounds are those of a Feistel network, and its
rotations are rotations of the low 32 bits. What the words hold above these bits never comes out.
-/

namespace Mrhc

namespace D3des

/-- The low 32 bits of a word. -/
def low (x : UInt64) : UInt64 := x &&& 0xffffffff

def lowBlock (block : Block) : Block := (low block.1, low block.2)

theorem low_bit (i : Nat) : (4294967295#64).getLsbD i = decide (i < 32) := by
  have h := Nat.testBit_two_pow_sub_one 32 i
  rw [BitVec.getLsbD_ofNat]
  by_cases hi : i < 32
  · have hlt : i < 64 := by omega
    simpa [hi, hlt] using h
  · simpa [hi] using fun _ => h

theorem xor_and (x y mask : UInt64) :
    (x ^^^ y) &&& mask = (x &&& mask) ^^^ (y &&& mask) := by
  apply UInt64.toBitVec_inj.1
  apply BitVec.eq_of_getLsbD_eq
  intro i hi
  simp [Bool.and_xor_distrib_right]

theorem low_xor (x y : UInt64) : low (x ^^^ y) = low x ^^^ low y := xor_and x y _

/-! Exchanges. -/

/-- The masks whose bits stay inside the low 32 bits when they are shifted left. -/
structure Fits (shift mask : UInt64) : Prop where
  undone : (mask <<< shift) >>> shift = mask
  low_mask : low mask = mask
  low_shifted : low (mask <<< shift) = mask <<< shift

private theorem shift_masked {shift mask : UInt64} (h : (mask <<< shift) >>> shift = mask)
    (x : UInt64) : ((x &&& mask) <<< shift) >>> shift = x &&& mask := by
  rw [UInt64.shiftLeft_and, UInt64.shiftRight_and, h]
  apply UInt64.toBitVec_inj.1
  apply BitVec.eq_of_getLsbD_eq
  intro i hi
  have hbit := congrArg (fun z : UInt64 => z.toBitVec.getLsbD i) h
  simp only [UInt64.toBitVec_shiftRight, UInt64.toBitVec_shiftLeft] at hbit
  cases hm : mask.toBitVec.getLsbD i <;> simp_all

theorem exchange_exchange {shift mask : UInt64} (h : Fits shift mask) (a b : UInt64) :
    exchange shift mask (exchange shift mask a b).1 (exchange shift mask a b).2 = (a, b) := by
  let work := ((a >>> shift) ^^^ b) &&& mask
  have hwork : (((a ^^^ (work <<< shift)) >>> shift) ^^^ (b ^^^ work)) &&& mask = work := by
    have hundo : (work <<< shift) >>> shift = work := shift_masked h.undone _
    rw [UInt64.shiftRight_xor, hundo]
    apply UInt64.toBitVec_inj.1
    apply BitVec.eq_of_getLsbD_eq
    intro i hi
    simp only [work, UInt64.toBitVec_and, UInt64.toBitVec_xor, BitVec.getLsbD_and,
      BitVec.getLsbD_xor]
    cases (a >>> shift).toBitVec.getLsbD i <;> cases b.toBitVec.getLsbD i <;>
      cases mask.toBitVec.getLsbD i <;> rfl
  simp only [exchange]
  change (_ ^^^ (((((a ^^^ (work <<< shift)) >>> shift) ^^^ (b ^^^ work)) &&& mask) <<< shift),
    (b ^^^ work) ^^^ ((((a ^^^ (work <<< shift)) >>> shift) ^^^ (b ^^^ work)) &&& mask)) = _
  rw [hwork, UInt64.xor_assoc, UInt64.xor_assoc, UInt64.xor_self, UInt64.xor_self,
    UInt64.xor_zero, UInt64.xor_zero]

private theorem exchange_injective {shift mask a b a' b' : UInt64} (h : Fits shift mask)
    (heq : exchange shift mask a b = exchange shift mask a' b') : a = a' ∧ b = b' := by
  have hab := exchange_exchange h a b
  rw [heq, exchange_exchange h a' b'] at hab
  exact ⟨(Prod.mk.inj hab).1.symm, (Prod.mk.inj hab).2.symm⟩

private theorem low_work {shift mask : UInt64} (h : Fits shift mask) (a b : UInt64) :
    low ((((a >>> shift) ^^^ b) &&& mask) <<< shift) =
      (((a >>> shift) ^^^ b) &&& mask) <<< shift := by
  rw [UInt64.shiftLeft_and, low, UInt64.and_assoc]
  exact congrArg _ h.low_shifted

theorem low_exchange {shift mask : UInt64} (h : Fits shift mask) (a b : UInt64) :
    lowBlock (exchange shift mask a b) = exchange shift mask (low a) (low b) := by
  have hright : (0xffffffff >>> shift) &&& mask = mask := by
    have hshifted := congrArg (· >>> shift) h.low_shifted
    simp only [low, UInt64.shiftRight_and, h.undone] at hshifted
    rw [UInt64.and_comm, hshifted]
  have hmask : 0xffffffff &&& mask = mask := by
    rw [UInt64.and_comm]
    exact h.low_mask
  have hwork : ((low a >>> shift) ^^^ low b) &&& mask = ((a >>> shift) ^^^ b) &&& mask := by
    rw [low, low, UInt64.shiftRight_and, xor_and, xor_and, UInt64.and_assoc, UInt64.and_assoc,
      hright, hmask]
  have hlowWork : low (((a >>> shift) ^^^ b) &&& mask) = ((a >>> shift) ^^^ b) &&& mask := by
    rw [low, UInt64.and_assoc]
    exact congrArg _ h.low_mask
  simp only [exchange, lowBlock, low_xor, hwork, hlowWork, low_work h]

/-! Rotations of the low bits. -/

def rotateLeft (x : UInt64) : UInt64 := (x <<< 1 ||| ((x >>> 31) &&& 1)) &&& 0xffffffff

def rotateRight (x : UInt64) : UInt64 := x <<< 31 ||| x >>> 1

private theorem rotateRight_rotateLeft (x : UInt64) : low (rotateRight (rotateLeft x)) = low x := by
  apply UInt64.toBitVec_inj.1
  apply BitVec.eq_of_getLsbD_eq
  intro i hi
  obtain h | rfl | h := Nat.lt_trichotomy i 31
  · simp [low, rotateRight, rotateLeft, low_bit]
    grind
  · simp [low, rotateRight, rotateLeft]
  · simp [low, rotateRight, rotateLeft, low_bit]
    grind

theorem rotateLeft_rotateRight {x : UInt64} (hx : low x = x) :
    rotateLeft (low (rotateRight x)) = x := by
  apply UInt64.toBitVec_inj.1
  apply BitVec.eq_of_getLsbD_eq
  intro i hi
  rw [← hx]
  obtain rfl | h := Nat.eq_zero_or_pos i
  · simp [low, rotateRight, rotateLeft]
  · simp [low, rotateRight, rotateLeft, low_bit]
    grind

@[simp] private theorem low_rotateLeft (x : UInt64) : low (rotateLeft x) = rotateLeft x := by
  rw [rotateLeft, low, UInt64.and_assoc]
  rfl

/-! Rounds. -/

private theorem low_or (x y : UInt64) : low (x ||| y) = low x ||| low y := by
  apply UInt64.toBitVec_inj.1
  apply BitVec.eq_of_getLsbD_eq
  intro i hi
  simp [low, Bool.and_or_distrib_right]

/-- A table all of whose words fit 32 bits. -/
def lowTable (sp : List UInt64) : Bool := sp.all fun x => low x == x

private theorem low_getD {sp : List UInt64} (hsp : lowTable sp = true) (i : Nat) :
    low (sp.getD i 0) = sp.getD i 0 := by
  rw [List.getD_eq_getElem?_getD]
  cases h : sp[i]? with
  | none => rfl
  | some x =>
    have hx := List.all_eq_true.mp hsp x (List.mem_of_getElem? h)
    exact eq_of_beq hx

theorem low_fval (half key0 key1 : UInt64) :
    low (fval half key0 key1) = fval half key0 key1 := by
  have h1 : lowTable sp1 = true := by decide +kernel
  have h2 : lowTable sp2 = true := by decide +kernel
  have h3 : lowTable sp3 = true := by decide +kernel
  have h4 : lowTable sp4 = true := by decide +kernel
  have h5 : lowTable sp5 = true := by decide +kernel
  have h6 : lowTable sp6 = true := by decide +kernel
  have h7 : lowTable sp7 = true := by decide +kernel
  have h8 : lowTable sp8 = true := by decide +kernel
  simp only [fval, low_or]
  rw [low_getD h7, low_getD h5, low_getD h3, low_getD h1, low_getD h8, low_getD h6, low_getD h4,
    low_getD h2]

theorem lowBlock_rounds (keys : List UInt64) (block : Block) (h : lowBlock block = block) :
    lowBlock (rounds keys block) = rounds keys block := by
  fun_induction rounds keys block with
  | case1 key0 key1 key2 key3 keys leftt right leftt' right' ih =>
    apply ih
    obtain ⟨hl, hr⟩ := Prod.mk.inj h
    simp only at hl hr
    simp only [lowBlock, leftt', right', low_xor, low_fval, hl, hr]
  | case2 => exact h

private theorem rounds_injective (keys : List UInt64) (block block' : Block)
    (h : rounds keys block = rounds keys block') : block = block' := by
  fun_induction rounds keys block generalizing block' with
  | case1 key0 key1 key2 key3 keys leftt right leftt' right' ih =>
    obtain ⟨left₂, right₂⟩ := block'
    have heq := ih (left₂ ^^^ fval right₂ key0 key1,
      right₂ ^^^ fval (left₂ ^^^ fval right₂ key0 key1) key2 key3) h
    obtain ⟨hleft, hright⟩ := Prod.mk.inj heq
    simp only [right', hleft, UInt64.xor_left_inj] at hright
    simp only [leftt', hright, UInt64.xor_left_inj] at hleft
    rw [hleft, hright]
  | case2 keys block hkeys =>
    have hkeys' := fun key0 key1 key2 key3 rest leftt right heq (_ : block' = (leftt, right)) =>
      hkeys key0 key1 key2 key3 rest block.1 block.2 heq rfl
    rw [h, rounds.eq_2 keys block' hkeys']

/-! The permutations. -/

theorem low_exchange_fst {shift mask : UInt64} (h : Fits shift mask) {a : UInt64}
    (ha : low a = a) (b : UInt64) :
    low (exchange shift mask a b).1 = (exchange shift mask a b).1 := by
  simp only [exchange, low_xor, ha, low_work h]

private theorem lowBlock_exchange {shift mask a b : UInt64} (h : Fits shift mask)
    (ha : low a = a) (hb : low b = b) :
    lowBlock (exchange shift mask a b) = exchange shift mask a b := by
  rw [low_exchange h, ha, hb]

private theorem exchange_low_injective {shift mask a b a' b' : UInt64} (h : Fits shift mask)
    (heq : lowBlock (exchange shift mask a b) = lowBlock (exchange shift mask a' b')) :
    low a = low a' ∧ low b = low b' := by
  rw [low_exchange h, low_exchange h] at heq
  exact exchange_injective h heq

private theorem rotateLeft_injective {x y : UInt64} (hx : low x = x) (hy : low y = y)
    (h : rotateLeft x = rotateLeft y) : x = y := by
  have hxy := congrArg (fun z => low (rotateRight z)) h
  simp only [rotateRight_rotateLeft, hx, hy] at hxy
  exact hxy

private theorem rotateRight_low_injective {x y : UInt64} (hx : low x = x) (hy : low y = y)
    (h : low (rotateRight x) = low (rotateRight y)) : x = y := by
  rw [← rotateLeft_rotateRight hx, h, rotateLeft_rotateRight hy]

theorem fits4 : Fits 4 0x0f0f0f0f := ⟨by decide, by decide, by decide⟩

theorem fits16 : Fits 16 0x0000ffff := ⟨by decide, by decide, by decide⟩

theorem fits2 : Fits 2 0x33333333 := ⟨by decide, by decide, by decide⟩

theorem fits8 : Fits 8 0x00ff00ff := ⟨by decide, by decide, by decide⟩

theorem fits0 : Fits 0 0xaaaaaaaa := ⟨by decide, by decide, by decide⟩

/-- The permutation before the rounds up to its first rotation. -/
def initialExchanges (block : Block) : Block :=
  let c := exchange 4 0x0f0f0f0f block.1 block.2
  let c := exchange 16 0x0000ffff c.1 c.2
  let c := exchange 2 0x33333333 c.2 c.1
  exchange 8 0x00ff00ff c.1 c.2

theorem initial_eq (block : Block) :
    initial block =
      let c := initialExchanges block
      let c := exchange 0 0xaaaaaaaa c.2 (rotateLeft c.1)
      (rotateLeft c.1, c.2) := rfl

theorem final_eq (block : Block) :
    final block =
      let c := exchange 0 0xaaaaaaaa block.1 (rotateRight block.2)
      let c := exchange 8 0x00ff00ff (rotateRight c.1) c.2
      let c := exchange 2 0x33333333 c.1 c.2
      let c := exchange 16 0x0000ffff c.2 c.1
      exchange 4 0x0f0f0f0f c.1 c.2 := rfl

theorem lowBlock_iff (block : Block) :
    lowBlock block = block ↔ low block.1 = block.1 ∧ low block.2 = block.2 := by
  rw [lowBlock, Prod.ext_iff]

theorem lowBlock_initialExchanges {block : Block} (h : lowBlock block = block) :
    lowBlock (initialExchanges block) = initialExchanges block := by
  obtain ⟨hl, hr⟩ := (lowBlock_iff block).1 h
  obtain ⟨hl, hr⟩ := (lowBlock_iff _).1 (lowBlock_exchange fits4 hl hr)
  obtain ⟨hl, hr⟩ := (lowBlock_iff _).1 (lowBlock_exchange fits16 hl hr)
  obtain ⟨hr, hl⟩ := (lowBlock_iff _).1 (lowBlock_exchange fits2 hr hl)
  exact lowBlock_exchange fits8 hr hl

theorem lowBlock_initial {block : Block} (h : lowBlock block = block) :
    lowBlock (initial block) = initial block := by
  obtain ⟨hr, hl⟩ := (lowBlock_iff _).1 (lowBlock_initialExchanges h)
  obtain ⟨-, hc⟩ := (lowBlock_iff _).1 (lowBlock_exchange fits0 hl (low_rotateLeft _))
  rw [initial_eq, lowBlock_iff]
  exact ⟨low_rotateLeft _, hc⟩

theorem initial_injective {block block' : Block} (h : lowBlock block = block)
    (h' : lowBlock block' = block') (heq : initial block = initial block') : block = block' := by
  obtain ⟨hr, hl⟩ := (lowBlock_iff _).1 (lowBlock_initialExchanges h)
  obtain ⟨hr', hl'⟩ := (lowBlock_iff _).1 (lowBlock_initialExchanges h')
  rw [initial_eq, initial_eq] at heq
  obtain ⟨hfst, hsnd⟩ := Prod.mk.inj heq
  have hrot :=
    rotateLeft_injective (low_exchange_fst fits0 hl _) (low_exchange_fst fits0 hl' _) hfst
  obtain ⟨heql, heqr⟩ := exchange_injective fits0 (Prod.ext hrot hsnd)
  have heqr := rotateLeft_injective hr hr' heqr
  obtain ⟨heqr, heql⟩ := exchange_injective fits8 (Prod.ext heqr heql)
  obtain ⟨heqr, heql⟩ := exchange_injective fits2 (Prod.ext heqr heql)
  obtain ⟨heql, heqr⟩ := exchange_injective fits16 (Prod.ext heql heqr)
  obtain ⟨heql, heqr⟩ := exchange_injective fits4 (Prod.ext heql heqr)
  exact Prod.ext heql heqr

private theorem final_injective {block block' : Block} (h : lowBlock block = block)
    (h' : lowBlock block' = block') (heq : lowBlock (final block) = lowBlock (final block')) :
    block = block' := by
  obtain ⟨hl, hr⟩ := (lowBlock_iff block).1 h
  obtain ⟨hl', hr'⟩ := (lowBlock_iff block').1 h'
  rw [final_eq, final_eq] at heq
  obtain ⟨heqr, heql⟩ := exchange_low_injective fits4 heq
  obtain ⟨heqr, heql⟩ := exchange_low_injective fits16 (Prod.ext heqr heql)
  obtain ⟨heql, heqr⟩ := exchange_low_injective fits2 (Prod.ext heql heqr)
  obtain ⟨heql, heqr⟩ := exchange_low_injective fits8 (Prod.ext heql heqr)
  have hrot := rotateRight_low_injective (low_exchange_fst fits0 hl _)
    (low_exchange_fst fits0 hl' _) heql
  have hblock : lowBlock (exchange 0 0xaaaaaaaa block.1 (rotateRight block.2)) =
      lowBlock (exchange 0 0xaaaaaaaa block'.1 (rotateRight block'.2)) :=
    Prod.ext (congrArg low hrot) heqr
  obtain ⟨heql, heqr⟩ := exchange_low_injective fits0 hblock
  rw [hl, hl'] at heql
  exact Prod.ext heql (rotateRight_low_injective hr hr' heqr)

/-! The bytes. -/

def halfWord (b0 b1 b2 b3 : UInt8) : UInt64 :=
  b0.toUInt64 <<< 24 ||| b1.toUInt64 <<< 16 ||| b2.toUInt64 <<< 8 ||| b3.toUInt64

private theorem low_halfWord (b0 b1 b2 b3 : UInt8) :
    low (halfWord b0 b1 b2 b3) = halfWord b0 b1 b2 b3 := by
  apply UInt64.toBitVec_inj.1
  apply BitVec.eq_of_getLsbD_eq
  intro i hi
  simp [low, halfWord, low_bit]
  grind

theorem halfWord_bytes (b0 b1 b2 b3 : UInt8) :
    (halfWord b0 b1 b2 b3 >>> 24).toUInt8 = b0 ∧ (halfWord b0 b1 b2 b3 >>> 16).toUInt8 = b1 ∧
      (halfWord b0 b1 b2 b3 >>> 8).toUInt8 = b2 ∧ (halfWord b0 b1 b2 b3).toUInt8 = b3 := by
  simp only [halfWord]
  refine ⟨?_, ?_, ?_, ?_⟩
  all_goals
    apply UInt8.toBitVec_inj.1
    apply BitVec.eq_of_getLsbD_eq
    intro i hi
    simp [UInt64.toBitVec_shiftLeft] <;> grind

private theorem halfWord_injective {b0 b1 b2 b3 c0 c1 c2 c3 : UInt8}
    (h : halfWord b0 b1 b2 b3 = halfWord c0 c1 c2 c3) :
    b0 = c0 ∧ b1 = c1 ∧ b2 = c2 ∧ b3 = c3 := by
  obtain ⟨hb0, hb1, hb2, hb3⟩ := halfWord_bytes b0 b1 b2 b3
  obtain ⟨hc0, hc1, hc2, hc3⟩ := halfWord_bytes c0 c1 c2 c3
  rw [h] at hb0 hb1 hb2 hb3
  exact ⟨hb0.symm.trans hc0, hb1.symm.trans hc1, hb2.symm.trans hc2, hb3.symm.trans hc3⟩

theorem low_eq_halfWord (x : UInt64) :
    low x = halfWord (x >>> 24).toUInt8 (x >>> 16).toUInt8 (x >>> 8).toUInt8 x.toUInt8 := by
  apply UInt64.toBitVec_inj.1
  apply BitVec.eq_of_getLsbD_eq
  intro i hi
  simp [low, halfWord, low_bit, -UInt64.toUInt64_toUInt8]
  grind

private theorem unscrun_low {block block' : Block} (h : unscrun block = unscrun block') :
    lowBlock block = lowBlock block' := by
  simp only [unscrun, List.cons.injEq] at h
  obtain ⟨h0, h1, h2, h3, h4, h5, h6, h7, -⟩ := h
  rw [lowBlock, lowBlock, low_eq_halfWord block.1, low_eq_halfWord block.2,
    low_eq_halfWord block'.1, low_eq_halfWord block'.2, h0, h1, h2, h3, h4, h5, h6, h7]

theorem lowBlock_scrunch (outof : Bytes) : lowBlock (scrunch outof) = scrunch outof :=
  Prod.ext (low_halfWord _ _ _ _) (low_halfWord _ _ _ _)

private theorem scrunch_injective {block block' : Bytes} (h : block.length = 8)
    (h' : block'.length = 8) (heq : scrunch block = scrunch block') : block = block' := by
  obtain ⟨hl, hr⟩ := Prod.mk.inj heq
  obtain ⟨h0, h1, h2, h3⟩ := halfWord_injective hl
  obtain ⟨h4, h5, h6, h7⟩ := halfWord_injective hr
  apply List.ext_getElem (h.trans h'.symm)
  intro i hi hi'
  rw [List.getElem_eq_getD 0, List.getElem_eq_getD (h := hi') 0]
  obtain rfl | rfl | rfl | rfl | rfl | rfl | rfl | rfl :
      i = 0 ∨ i = 1 ∨ i = 2 ∨ i = 3 ∨ i = 4 ∨ i = 5 ∨ i = 6 ∨ i = 7 := by omega
  all_goals assumption

/-- Under any key register, different blocks have different cipher texts. -/
theorem des_injective (keys : List UInt64) {block block' : Bytes} (h : block.length = 8)
    (h' : block'.length = 8) (heq : des keys block = des keys block') : block = block' := by
  have hinit := lowBlock_initial (lowBlock_scrunch block)
  have hinit' := lowBlock_initial (lowBlock_scrunch block')
  have hrounds := final_injective (lowBlock_rounds keys _ hinit) (lowBlock_rounds keys _ hinit')
    (unscrun_low heq)
  have hblock := initial_injective (lowBlock_scrunch block) (lowBlock_scrunch block')
    (rounds_injective keys _ _ hrounds)
  exact scrunch_injective h h' hblock

end D3des

end Mrhc
