import Mathlib.Data.List.Basic

/-!
# Self-delimiting codes

A code whose decoder takes one word off the front of any stream and leaves what follows it. A
stream of such words can be parsed in one way only.
-/

namespace Mrhc

/-- Words over `β` for the values in `α`. -/
structure Codec (α β : Type) where
  encode : α → List β
  decode : List β → Option (α × List β)
  encode_ne_nil : ∀ a, encode a ≠ []
  decode_encode : ∀ a rest, decode (encode a ++ rest) = some (a, rest)

namespace Codec

variable {α β : Type} (c : Codec α β)

/-- The stream of these values. -/
def encodeAll (as : List α) : List β := as.flatMap c.encode

/-- Two streams that begin with words and are equal have the same first value. -/
theorem encode_append_inj {a a' : α} {rest rest' : List β}
    (h : c.encode a ++ rest = c.encode a' ++ rest') : a = a' ∧ rest = rest' := by
  have hdecode := c.decode_encode a rest
  rw [h, c.decode_encode a' rest', Option.some.injEq, Prod.mk.injEq] at hdecode
  exact ⟨hdecode.1.symm, hdecode.2.symm⟩

theorem encode_injective {a a' : α} (h : c.encode a = c.encode a') : a = a' :=
  (c.encode_append_inj (congrArg (· ++ []) h)).1

theorem encodeAll_injective {as as' : List α} (h : c.encodeAll as = c.encodeAll as') :
    as = as' := by
  induction as generalizing as' with
  | nil =>
    cases as' with
    | nil => rfl
    | cons a' as' =>
      have hempty := List.append_eq_nil_iff.mp h.symm
      exact absurd hempty.1 (c.encode_ne_nil a')
  | cons a as ih =>
    cases as' with
    | nil =>
      have hempty := List.append_eq_nil_iff.mp h
      exact absurd hempty.1 (c.encode_ne_nil a)
    | cons a' as' =>
      obtain ⟨rfl, hrest⟩ := c.encode_append_inj h
      rw [ih hrest]

/-- A stream has no other parse. -/
theorem encodeAll_eq_iff {as as' : List α} : c.encodeAll as' = c.encodeAll as ↔ as' = as :=
  ⟨c.encodeAll_injective, congrArg c.encodeAll⟩

/-- The values of a stream of at most this many words, if it is one. -/
def decodeUpTo : Nat → List β → Option (List α)
  | _, [] => some []
  | 0, _ :: _ => none
  | n + 1, b :: bs => (c.decode (b :: bs)).bind fun p => (decodeUpTo n p.2).map (p.1 :: ·)

/-- The values of a stream, if it is one of words. -/
def decodeAll (bs : List β) : Option (List α) := c.decodeUpTo bs.length bs

theorem length_encodeAll (as : List α) : as.length ≤ (c.encodeAll as).length := by
  induction as with
  | nil => exact Nat.le_refl 0
  | cons a as ih =>
    have hword := List.length_pos_iff.mpr (c.encode_ne_nil a)
    have hall : (c.encodeAll (a :: as)).length = (c.encode a).length + (c.encodeAll as).length :=
      List.length_append
    rw [List.length_cons, hall]
    omega

private theorem decodeUpTo_encodeAll {n : Nat} (as : List α) (h : as.length ≤ n) :
    c.decodeUpTo n (c.encodeAll as) = some as := by
  induction as generalizing n with
  | nil =>
    cases n with
    | zero => rfl
    | succ n => rfl
  | cons a as ih =>
    cases n with
    | zero => cases h
    | succ n =>
      have hstream : c.encodeAll (a :: as) = c.encode a ++ c.encodeAll as := rfl
      have hdecode := c.decode_encode a (c.encodeAll as)
      rw [hstream]
      cases hword : c.encode a with
      | nil => exact absurd hword (c.encode_ne_nil a)
      | cons b bs =>
        rw [hword, List.cons_append] at hdecode
        rw [List.cons_append, decodeUpTo, hdecode, Option.bind_some,
          ih (Nat.le_of_succ_le_succ h)]
        rfl

/-- A stream is decoded to the values that it was made of. -/
theorem decodeAll_encodeAll (as : List α) : c.decodeAll (c.encodeAll as) = some as :=
  c.decodeUpTo_encodeAll as (c.length_encodeAll as)

end Codec

end Mrhc
