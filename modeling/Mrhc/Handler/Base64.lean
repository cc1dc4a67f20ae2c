import Mathlib.Tactic.IntervalCases
import Mrhc.Client.Platform

/-!
# Base64

The encoding of bytes as text, and that the decoding gives them back. Three bytes are a group of
four values of six bits each. An incomplete group is filled up with padding.
-/

namespace Mrhc

/-- The character of a 6-bit value. -/
def base64char (v : UInt8) : UInt8 :=
  if v < 26 then v + 0x41
  else if v < 52 then v - 26 + 0x61
  else if v < 62 then v - 52 + 0x30
  else if v = 62 then 0x2b
  else 0x2f

/-- The 6-bit values of three bytes. -/
def sextetGroup (a b c : UInt8) : List UInt8 :=
  [a >>> 2, (a &&& 3) <<< 4 ||| b >>> 4, (b &&& 15) <<< 2 ||| c >>> 6, c &&& 63]

def sextets : Bytes → List UInt8
  | a :: b :: c :: rest => sextetGroup a b c ++ sextets rest
  | [a, b] => (sextetGroup a b 0).take 3
  | [a] => (sextetGroup a 0 0).take 2
  | [] => []

def base64encode (message : Bytes) : Bytes :=
  (sextets message).map base64char ++ List.replicate ((3 - message.length % 3) % 3) 0x3d

private theorem eq_of_bits {a b : UInt8}
    (h : ∀ i < 8, a.toBitVec.getLsbD i = b.toBitVec.getLsbD i) : a = b := by
  apply UInt8.eq_of_toBitVec_eq
  exact BitVec.eq_of_getLsbD_eq h

private theorem sextetGroup_masked (a b c : UInt8) :
    (sextetGroup a b c).map (fun v => v &&& 63) = sextetGroup a b c := by
  simp only [sextetGroup, List.map_cons, List.map_nil, List.cons.injEq, and_true]
  refine ⟨?_, ?_, ?_, ?_⟩
  all_goals
    apply eq_of_bits
    intro i hi
    interval_cases i <;> simp

private theorem sextetGroup_lt (a b c : UInt8) : ∀ v ∈ sextetGroup a b c, v < 64 := by
  rw [← sextetGroup_masked a b c]
  intro v hv
  obtain ⟨w, -, rfl⟩ := List.mem_map.mp hv
  rw [UInt8.lt_iff_toNat_lt, UInt8.toNat_and]
  exact Nat.lt_of_le_of_lt Nat.and_le_right (by decide)

private theorem sextets_lt (message : Bytes) : ∀ v ∈ sextets message, v < 64 := by
  induction message using sextets.induct with
  | case1 a b c rest ih =>
    intro v hv
    cases List.mem_append.mp hv with
    | inl hgroup => exact sextetGroup_lt a b c v hgroup
    | inr hrest => exact ih v hrest
  | case2 a b => exact fun v hv => sextetGroup_lt a b 0 v (List.mem_of_mem_take hv)
  | case3 a => exact fun v hv => sextetGroup_lt a 0 0 v (List.mem_of_mem_take hv)
  | case4 => simp [sextets]

/-! The bytes of a group. -/

private theorem first_byte (a b : UInt8) :
    (a >>> 2) <<< 2 ||| ((a &&& 3) <<< 4 ||| b >>> 4) >>> 4 = a := by
  apply eq_of_bits
  intro i hi
  interval_cases i <;> simp

private theorem second_byte (a b c : UInt8) :
    ((a &&& 3) <<< 4 ||| b >>> 4) <<< 4 ||| ((b &&& 15) <<< 2 ||| c >>> 6) >>> 2 = b := by
  apply eq_of_bits
  intro i hi
  interval_cases i <;> simp

private theorem third_byte (b c : UInt8) :
    ((b &&& 15) <<< 2 ||| c >>> 6) <<< 6 ||| (c &&& 63) = c := by
  apply eq_of_bits
  intro i hi
  interval_cases i <;> simp

theorem base64bytes_sextets (message : Bytes) : base64bytes (sextets message) = message := by
  induction message using sextets.induct with
  | case1 a b c rest ih =>
    simp only [sextets, sextetGroup, List.cons_append, List.nil_append, base64bytes, first_byte,
      second_byte, third_byte, ih]
  | case2 a b =>
    simp only [sextets, sextetGroup, List.take_succ_cons, List.take_zero, base64bytes, first_byte,
      second_byte]
  | case3 a =>
    simp only [sextets, sextetGroup, List.take_succ_cons, List.take_zero, base64bytes, first_byte]
  | case4 => rfl

/-! The characters. -/

private theorem base64char_cases {P : UInt8 → Prop}
    (h : ∀ n ∈ List.range 64, P (UInt8.ofNat n)) {v : UInt8} (hv : v < 64) : P v := by
  have hvalue := h v.toNat (List.mem_range.mpr (UInt8.lt_iff_toNat_lt.mp hv))
  rwa [UInt8.ofNat_toNat] at hvalue

private theorem base64value_char {v : UInt8} (h : v < 64) :
    base64value (base64char v) = some v :=
  base64char_cases (P := fun v => base64value (base64char v) = some v) (by decide) h

/-- Every character of an encoded message is printable and no space. -/
theorem base64encode_plain (message : Bytes) : ∀ b ∈ base64encode message, 0x20 < b := by
  intro b hb
  cases List.mem_append.mp hb with
  | inl hchar =>
    obtain ⟨v, hv, rfl⟩ := List.mem_map.mp hchar
    exact base64char_cases (P := fun v => 0x20 < base64char v) (by decide)
      (sextets_lt message v hv)
  | inr hpadding =>
    rw [List.eq_of_mem_replicate hpadding]
    decide

/-- Decoding inverts encoding. -/
theorem base64decode_encode (message : Bytes) : base64decode (base64encode message) = message := by
  let values := sextets message
  have hvalue : ∀ v ∈ values, base64value (base64char v) = some v :=
    fun v hv => base64value_char (sextets_lt message v hv)
  have hchars : ∀ b ∈ values.map base64char, (base64value b).isSome = true := by
    intro b hb
    obtain ⟨v, hv, rfl⟩ := List.mem_map.mp hb
    rw [hvalue v hv]
    rfl
  have hpadding : ∀ n, (List.replicate n (0x3d : UInt8)).takeWhile
      (fun b => (base64value b).isSome) = [] := by
    intro n
    cases n <;> rfl
  have htake : (base64encode message).takeWhile (fun b => (base64value b).isSome) =
      values.map base64char := by
    rw [base64encode, List.takeWhile_append_of_pos hchars, hpadding, List.append_nil]
  have hvalues : (values.map base64char).filterMap base64value = values := by
    rw [List.filterMap_map]
    exact (List.filterMap_congr hvalue).trans List.filterMap_some
  rw [base64decode, htake, hvalues, base64bytes_sextets]

end Mrhc
