import Mathlib.Data.List.TakeWhile
import Mrhc.Handler.Request

/-!
# Integers at the start of a text

The texts from which `stoi` reads an integer: white space, a sign, digits and whatever follows
them. Any other text is an invalid argument.
-/

namespace Mrhc

/-- The number with these digits after some other ones. -/
def digitsValue (digits : Bytes) (n : Int) : Int :=
  digits.foldl (fun n d => 10 * n + (d.toNat - 0x30 : Nat)) n

theorem digitsValue_nonneg (digits : Bytes) {n : Int} (h : 0 ≤ n) : 0 ≤ digitsValue digits n := by
  induction digits generalizing n with
  | nil => exact h
  | cons d ds ih => exact ih (show 0 ≤ 10 * n + (d.toNat - 0x30 : Nat) by omega)

/-- A text that begins with an integer. -/
structure IntText where
  space : Bytes
  sign : Bytes
  digits : Bytes
  rest : Bytes
  space_isspace : ∀ b ∈ space, isspace b = true
  sign_mem : sign ∈ [[], ascii "+", ascii "-"]
  digits_ne_nil : digits ≠ []
  digits_isdigit : ∀ b ∈ digits, isdigit b = true
  rest_head : ∀ b ∈ rest.head?, isdigit b = false

def IntText.text (t : IntText) : Bytes := t.space ++ (t.sign ++ (t.digits ++ t.rest))

/-- The integer that is written there. -/
def IntText.value (t : IntText) : Int :=
  if t.sign = ascii "-" then -digitsValue t.digits 0 else digitsValue t.digits 0

/-- The range of `int`. -/
def InInt (n : Int) : Prop := -2147483648 ≤ n ∧ n ≤ 2147483647

instance (n : Int) : Decidable (InInt n) := inferInstanceAs (Decidable (_ ∧ _))

theorem digit_plain {d : UInt8} (h : isdigit d = true) :
    d ≠ 0 ∧ isspace d = false ∧ d ≠ 0x2d ∧ d ≠ 0x2b := by
  simp only [isdigit, Bool.and_eq_true, decide_eq_true_eq, UInt8.le_iff_toNat_le] at h
  have hlow : 48 ≤ d.toNat := h.1
  refine ⟨?_, ?_, ?_, ?_⟩
  · rintro rfl
    exact absurd hlow (by decide)
  · simp only [isspace, Bool.or_eq_false_iff, Bool.and_eq_false_iff, decide_eq_false_iff_not,
      UInt8.le_iff_toNat_le, UInt8.reduceToNat, Nat.not_le]
    refine ⟨?_, Or.inr (by omega)⟩
    rintro rfl
    exact absurd hlow (by decide)
  · rintro rfl
    exact absurd hlow (by decide)
  · rintro rfl
    exact absurd hlow (by decide)

private theorem takeWhile_digits {digits rest : Bytes} (h : ∀ b ∈ digits, isdigit b = true)
    (hrest : ∀ b ∈ rest.head?, isdigit b = false) :
    (digits ++ rest).takeWhile isdigit = digits := by
  have hnone : rest.takeWhile isdigit = [] := by
    cases rest with
    | nil => rfl
    | cons b rest => exact List.takeWhile_cons_of_neg (by simp [hrest b rfl])
  rw [List.takeWhile_append_of_pos h, hnone, List.append_nil]

private theorem signOf_digits {digits : Bytes} (hne : digits ≠ [])
    (h : ∀ b ∈ digits, isdigit b = true) (rest : Bytes) :
    signOf (digits ++ rest) = (false, digits ++ rest) := by
  cases digits with
  | nil => exact absurd rfl hne
  | cons d ds =>
    obtain ⟨-, -, hminus, hplus⟩ := digit_plain (h d List.mem_cons_self)
    unfold signOf
    split
    · next heq => exact absurd (List.cons.inj heq).1 hminus
    · next heq => exact absurd (List.cons.inj heq).1 hplus
    · rfl

private theorem signOf_text (t : IntText) :
    signOf (t.sign ++ (t.digits ++ t.rest)) =
      (decide (t.sign = ascii "-"), t.digits ++ t.rest) := by
  have hmem := t.sign_mem
  simp only [List.mem_cons, List.not_mem_nil, or_false] at hmem
  rcases hmem with h | h | h
  · rw [h, List.nil_append, signOf_digits t.digits_ne_nil t.digits_isdigit]
    rfl
  · rw [h]
    rfl
  · rw [h]
    rfl

private theorem dropWhile_text (t : IntText) :
    t.text.dropWhile isspace = t.sign ++ (t.digits ++ t.rest) := by
  have hhead : (t.sign ++ (t.digits ++ t.rest)).dropWhile isspace =
      t.sign ++ (t.digits ++ t.rest) := by
    have hmem := t.sign_mem
    simp only [List.mem_cons, List.not_mem_nil, or_false] at hmem
    rcases hmem with h | h | h
    · rw [h, List.nil_append]
      cases hdigits : t.digits with
      | nil => exact absurd hdigits t.digits_ne_nil
      | cons d ds =>
        have hdigit := t.digits_isdigit d (by rw [hdigits]; exact List.mem_cons_self)
        exact List.dropWhile_cons_of_neg (by simp [(digit_plain hdigit).2.1])
    · rw [h]
      rfl
    · rw [h]
      rfl
  rw [IntText.text, List.dropWhile_append_of_pos t.space_isspace, hhead]

/-- The integer at the start of a text is read, unless it is out of range. -/
theorem stoi_text {text : Bytes} (t : IntText) (h : cString text = t.text) :
    stoi text = if InInt t.value then .ok t.value else .error .outOfRange := by
  have hvalue : (if decide (t.sign = ascii "-") = true then -digitsValue t.digits 0
      else digitsValue t.digits 0) = t.value := by
    simp only [decide_eq_true_eq, IntText.value]
  rw [digitsValue] at hvalue
  rw [stoi, h, dropWhile_text, signOf_text]
  dsimp only
  rw [takeWhile_digits t.digits_isdigit t.rest_head, if_neg t.digits_ne_nil, hvalue]
  by_cases hrange : InInt t.value
  · rw [if_pos hrange, if_neg]
    have := hrange.1
    have := hrange.2
    omega
  · rw [if_neg hrange, if_pos]
    unfold InInt at hrange
    omega

private theorem signOf_parts (s : Bytes) :
    ∃ sign ∈ [[], ascii "+", ascii "-"], s = sign ++ (signOf s).2 := by
  unfold signOf
  split
  · exact ⟨ascii "-", by decide, rfl⟩
  · exact ⟨ascii "+", by decide, rfl⟩
  · exact ⟨[], by decide, rfl⟩

/-- A text that does not begin with an integer is an invalid argument. -/
theorem stoi_noText {text : Bytes} (h : ¬∃ t : IntText, cString text = t.text) :
    stoi text = .error .invalidArgument := by
  let spaced := (cString text).dropWhile isspace
  let digits := (signOf spaced).2.takeWhile isdigit
  have hdigits : digits = [] := by
    by_contra hne
    obtain ⟨sign, hsign, hspaced⟩ := signOf_parts spaced
    refine h ⟨⟨(cString text).takeWhile isspace, sign, digits,
      (signOf spaced).2.dropWhile isdigit, fun b hb => List.mem_takeWhile_imp hb, hsign, hne,
      fun b hb => List.mem_takeWhile_imp hb, ?_⟩, ?_⟩
    · intro b hb
      have hhead := List.head?_dropWhile_not isdigit (signOf spaced).2
      rw [Option.mem_def.mp hb] at hhead
      simpa using hhead
    · rw [IntText.text, List.takeWhile_append_dropWhile, ← hspaced,
        List.takeWhile_append_dropWhile]
  rw [stoi]
  exact if_pos hdigits

theorem value_of_stoi {text : Bytes} {n : Int} (t : IntText) (ht : cString text = t.text)
    (h : stoi text = .ok n) : t.value = n ∧ InInt n := by
  rw [stoi_text t ht] at h
  by_cases hrange : InInt t.value
  · rw [if_pos hrange, Except.ok.injEq] at h
    exact ⟨h, h ▸ hrange⟩
  · rw [if_neg hrange] at h
    cases h

/-- What is read is what is written. -/
theorem stoi_ok_iff {text : Bytes} {n : Int} :
    stoi text = .ok n ↔ (∃ t : IntText, cString text = t.text ∧ t.value = n) ∧ InInt n := by
  constructor
  · intro h
    by_cases htext : ∃ t : IntText, cString text = t.text
    · obtain ⟨t, ht⟩ := htext
      obtain ⟨hvalue, hrange⟩ := value_of_stoi t ht h
      exact ⟨⟨t, ht, hvalue⟩, hrange⟩
    · rw [stoi_noText htext] at h
      cases h
  · rintro ⟨⟨t, ht, rfl⟩, hrange⟩
    rw [stoi_text t ht, if_pos hrange]

/-- Something is read from the texts that begin with an integer in the range of `int`. -/
theorem stoi_reads_iff {text : Bytes} :
    (∃ n, stoi text = .ok n) ↔ ∃ t : IntText, cString text = t.text ∧ InInt t.value := by
  constructor
  · rintro ⟨n, h⟩
    obtain ⟨⟨t, ht, rfl⟩, hrange⟩ := stoi_ok_iff.mp h
    exact ⟨t, ht, hrange⟩
  · rintro ⟨t, ht, hrange⟩
    exact ⟨t.value, stoi_ok_iff.mpr ⟨⟨t, ht, rfl⟩, hrange⟩⟩

theorem stoi_invalid_iff {text : Bytes} :
    stoi text = .error .invalidArgument ↔ ¬∃ t : IntText, cString text = t.text := by
  constructor
  · rintro h ⟨t, ht⟩
    rw [stoi_text t ht] at h
    by_cases hrange : InInt t.value
    · rw [if_pos hrange] at h
      cases h
    · rw [if_neg hrange] at h
      cases h
  · exact stoi_noText

end Mrhc
