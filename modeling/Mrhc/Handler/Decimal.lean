import Mrhc.Handler.Numerals

/-!
# Decimal numerals

The numerals of natural numbers and integers, and what `stoi` reads back from them.
-/

namespace Mrhc

def decimal (n : Nat) : Bytes := ascii (toString n)

/-- The numeral of an integer. -/
def decimalInt (n : Int) : Bytes :=
  if n < 0 then ascii "-" ++ decimal n.natAbs else decimal n.natAbs

private theorem isDigit_byte {c : Char} (h : c.isDigit = true) :
    isdigit (UInt8.ofNat c.toNat) = true ∧ (UInt8.ofNat c.toNat).toNat = c.toNat := by
  simp only [Char.isDigit, Bool.and_eq_true, decide_eq_true_eq, UInt32.le_iff_toNat_le] at h
  have hlow : 48 ≤ c.toNat := h.1
  have hhigh : c.toNat ≤ 57 := h.2
  have hbyte : (UInt8.ofNat c.toNat).toNat = c.toNat := by
    rw [UInt8.toNat_ofNat', Nat.mod_eq_of_lt (by omega)]
  refine ⟨?_, hbyte⟩
  simp only [isdigit, Bool.and_eq_true, decide_eq_true_eq, UInt8.le_iff_toNat_le, hbyte]
  exact ⟨hlow, hhigh⟩

theorem decimal_eq (n : Nat) :
    decimal n = (Nat.toDigits 10 n).map fun c => UInt8.ofNat c.toNat := by
  rw [decimal, ascii]
  simp

theorem isdigit_of_mem_decimal {n : Nat} {d : UInt8} (h : d ∈ decimal n) : isdigit d = true := by
  rw [decimal_eq, List.mem_map] at h
  obtain ⟨c, hc, rfl⟩ := h
  exact (isDigit_byte (Nat.isDigit_of_mem_toDigits (by decide) (by decide) hc)).1

theorem decimal_ne_nil (n : Nat) : decimal n ≠ [] := by
  rw [decimal_eq]
  simp [Nat.toDigits_ne_nil]

private theorem digitsValue_chars (cs : List Char) (h : ∀ c ∈ cs, c.isDigit = true) (n : Nat) :
    digitsValue (cs.map fun c => UInt8.ofNat c.toNat) n = Nat.ofDigitChars 10 cs n := by
  induction cs generalizing n with
  | nil => rfl
  | cons c cs ih =>
    have hbyte := (isDigit_byte (h c (by simp))).2
    have hrest := ih (fun c hc => h c (by simp [hc])) (10 * n + (c.toNat - 48))
    rw [Nat.ofDigitChars_cons, List.map_cons]
    refine Eq.trans ?_ hrest
    simp only [digitsValue, List.foldl_cons, hbyte]
    rfl

theorem digitsValue_decimal (n : Nat) : digitsValue (decimal n) 0 = n := by
  have hdigits : ∀ c ∈ Nat.toDigits 10 n, c.isDigit = true :=
    fun c => Nat.isDigit_of_mem_toDigits (by decide) (by decide)
  have hvalue := digitsValue_chars (Nat.toDigits 10 n) hdigits 0
  rw [Nat.ofDigitChars_ten_toDigits] at hvalue
  rw [decimal_eq]
  exact hvalue

/-- A text that is a numeral. -/
def IntText.ofDigits (sign digits : Bytes) (hsign : sign ∈ [[], ascii "+", ascii "-"])
    (hne : digits ≠ []) (hdigits : ∀ b ∈ digits, isdigit b = true) : IntText :=
  ⟨[], sign, digits, [], by simp, hsign, hne, hdigits, by simp⟩

theorem zero_notMem_digits {digits : Bytes} (h : ∀ b ∈ digits, isdigit b = true) : 0 ∉ digits :=
  fun hzero => (digit_plain (h 0 hzero)).1 rfl

theorem stoi_digits {digits : Bytes} (hne : digits ≠ []) (h : ∀ b ∈ digits, isdigit b = true)
    (hrange : InInt (digitsValue digits 0)) : stoi digits = .ok (digitsValue digits 0) := by
  let t := IntText.ofDigits [] digits (by decide) hne h
  have htext : cString digits = t.text := by
    rw [cString_eq_self (zero_notMem_digits h), IntText.text]
    exact (List.append_nil digits).symm
  have hread := stoi_text t htext
  exact hread.trans (if_pos hrange)

theorem stoi_decimal {n : Nat} (h : n < 2147483648) : stoi (decimal n) = .ok n := by
  have hread := stoi_digits (decimal_ne_nil n) (fun d => isdigit_of_mem_decimal)
  rw [digitsValue_decimal] at hread
  exact hread ⟨by omega, by omega⟩

theorem stoi_decimalInt {n : Int} (h : InInt n) : stoi (decimalInt n) = .ok n := by
  have hdigits : ∀ b ∈ decimal n.natAbs, isdigit b = true := fun d => isdigit_of_mem_decimal
  unfold decimalInt
  split
  · next hneg =>
    let t := IntText.ofDigits (ascii "-") (decimal n.natAbs) (by decide) (decimal_ne_nil _) hdigits
    have hzero : 0 ∉ ascii "-" ++ decimal n.natAbs := by
      rw [List.mem_append, not_or]
      exact ⟨by decide, zero_notMem_digits hdigits⟩
    have htext : cString (ascii "-" ++ decimal n.natAbs) = t.text := by
      rw [cString_eq_self hzero, IntText.text]
      exact congrArg (ascii "-" ++ ·) (List.append_nil _).symm
    have hvalue : t.value = n := by
      change (if ascii "-" = ascii "-" then -digitsValue (decimal n.natAbs) 0 else _) = n
      rw [if_pos rfl, digitsValue_decimal]
      omega
    exact stoi_ok_iff.mpr ⟨⟨t, htext, hvalue⟩, h⟩
  · next hnonneg =>
    have hread := stoi_decimal (n := n.natAbs) (by have := h.2; omega)
    rw [hread, Int.natAbs_of_nonneg (Int.not_lt.mp hnonneg)]

end Mrhc
