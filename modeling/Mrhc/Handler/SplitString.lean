import Mrhc.Framework.Split
import Mrhc.Handler.Request

/-!
# Pieces of a string

The loop of `split_string`. What it has pushed and the pieces of what it has left are the same
list at each turn, and the delimiters put back between the pieces give the string again.
-/

namespace Mrhc

/-- `s.find_first_of(delim)`, `none` for `npos`. -/
def findFirstOf (s delim : Bytes) : Option Nat := s.findIdx? (· ∈ delim)

/-- `s.substr(pos, len)` -/
def substr (s : Bytes) (pos len : Nat) : Except Stop Bytes :=
  if pos ≤ s.length then .ok ((s.drop pos).take len) else .error .outOfRange

/-- The loop of `split_string`, for at most this many turns, with what it has pushed to `v`. -/
def splitStringLoop (delim : Bytes) : Nat → Bytes → List Bytes → Except Stop (List Bytes)
  | 0, _, _ => .error .endless
  | fuel + 1, s, v =>
    match findFirstOf s delim with
    | none => .ok (v ++ [s])
    | some i => do
      let item ← substr s 0 i
      let s ← substr s (i + 1) s.length
      splitStringLoop delim fuel s (v ++ [item])

/-- The number of delimiters in a string. -/
def delimiters (s delim : Bytes) : Nat := s.countP (· ∈ delim)

/-- These are the pieces of a string, with its delimiters between them. -/
structure SplitsInto (s delim : Bytes) (pieces : List Bytes) : Prop where
  ne_nil : pieces ≠ []
  clean : ∀ piece ∈ pieces, ∀ c ∈ piece, c ∉ delim
  length : pieces.length = delimiters s delim + 1
  reinserted : interleave pieces (s.filter (· ∈ delim)) = s

/-- A non-empty list of strings without this character. -/
@[ext]
structure Pieces (c : UInt8) where
  list : List Bytes
  ne_nil : list ≠ []
  clean : ∀ piece ∈ list, c ∉ piece

def Pieces.join {c : UInt8} (pieces : Pieces c) : Bytes := [c].intercalate pieces.list

theorem splitString_one (s : Bytes) (c : UInt8) : splitString s [c] = s.splitOn c := by
  have hmem : (fun b : UInt8 => decide (b ∈ [c])) = (· == c) := by
    funext b
    rw [Bool.eq_iff_iff]
    simp
  rw [splitString, hmem, List.splitOn_eq_splitOnP]

theorem splitString_intercalate {pieces : List Bytes} {c : UInt8}
    (hclean : ∀ piece ∈ pieces, c ∉ piece) (hne : pieces ≠ []) :
    splitString ([c].intercalate pieces) [c] = pieces :=
  (splitString_one _ _).trans (List.splitOn_intercalate c hclean hne)

theorem splitString_clean {s delim piece : Bytes} (h : piece ∈ splitString s delim) :
    ∀ c ∈ piece, c ∉ delim := by
  intro c hc
  simpa using (of_mem_splitOnP h c hc).2

theorem splitString_splitsInto (s delim : Bytes) :
    SplitsInto s delim (splitString s delim) where
  ne_nil := List.splitOnP_ne_nil _ _
  clean _ hpiece := splitString_clean hpiece
  length := length_splitOnP _ _
  reinserted := interleave_splitOnP _ _

/-- `split_string` at a single character. -/
def Pieces.split (c : UInt8) (s : Bytes) : Pieces c where
  list := splitString s [c]
  ne_nil := (splitString_splitsInto s [c]).ne_nil
  clean _ hpiece hc := splitString_clean hpiece c hc (List.mem_singleton.mpr rfl)

theorem Pieces.join_split (c : UInt8) (s : Bytes) : (Pieces.split c s).join = s := by
  show [c].intercalate (splitString s [c]) = s
  rw [splitString_one, List.intercalate_splitOn]

theorem Pieces.split_join {c : UInt8} (pieces : Pieces c) :
    Pieces.split c pieces.join = pieces :=
  Pieces.ext (splitString_intercalate pieces.clean pieces.ne_nil)

section

variable {s delim : Bytes} {i : Nat}

private theorem substr_before (s : Bytes) (i : Nat) : substr s 0 i = .ok (s.take i) :=
  if_pos (Nat.zero_le _)

private theorem substr_after (hi : i < s.length) :
    substr s (i + 1) s.length = .ok (s.drop (i + 1)) := by
  rw [substr, if_pos (by omega), List.take_of_length_le (by rw [List.length_drop]; omega)]

private theorem splitString_none (h : findFirstOf s delim = none) : splitString s delim = [s] :=
  List.splitOnP_eq_singleton fun c hc => List.findIdx?_eq_none_iff.mp h c hc

private theorem splitStringLoop_turn (h : findFirstOf s delim = some i) (fuel : Nat)
    (v : List Bytes) :
    splitStringLoop delim (fuel + 1) s v =
      splitStringLoop delim fuel (s.drop (i + 1)) (v ++ [s.take i]) := by
  have hi : i < s.length := (List.findIdx?_eq_some_iff_getElem.mp h).1
  simp only [splitStringLoop, h, substr_before, substr_after hi, bind, Except.bind]

/-- By induction on the delimiters that are left: each turn leaves one less, and what is pushed
with the pieces of the rest stays the same. -/
theorem splitStringLoop_eq (delim : Bytes) (fuel : Nat) (s : Bytes) (v : List Bytes)
    (hfuel : delimiters s delim < fuel) :
    splitStringLoop delim fuel s v = .ok (v ++ splitString s delim) := by
  induction fuel generalizing s v with
  | zero => exact absurd hfuel (Nat.not_lt_zero _)
  | succ fuel ih =>
    cases h : findFirstOf s delim with
    | none =>
      rw [splitString_none h]
      simp only [splitStringLoop, h]
    | some i =>
      have hrest : delimiters s delim = delimiters (s.drop (i + 1)) delim + 1 :=
        countP_of_findIdx? h
      have hpieces : splitString s delim = s.take i :: splitString (s.drop (i + 1)) delim :=
        splitOnP_of_findIdx? h
      rw [splitStringLoop_turn h, ih _ _ (by omega), hpieces, List.append_assoc]
      rfl

end

/-- **`split_string` is the inverse of joining.** It ends with the pieces of its string, whatever
the delimiters, and at a single character it undoes joining and joining undoes it. -/
theorem splitString_inverse :
    (∀ s delim : Bytes,
      (∀ fuel, delimiters s delim < fuel →
        splitStringLoop delim fuel s [] = .ok (splitString s delim)) ∧
      SplitsInto s delim (splitString s delim)) ∧
    ∀ c : UInt8, (∀ s, (Pieces.split c s).join = s) ∧
      ∀ pieces : Pieces c, Pieces.split c pieces.join = pieces := by
  refine ⟨fun s delim => ⟨fun fuel hfuel => ?_, splitString_splitsInto s delim⟩, fun c => ?_⟩
  · rw [splitStringLoop_eq delim fuel s [] hfuel, List.nil_append]
  · exact ⟨Pieces.join_split c, Pieces.split_join⟩

example : splitString (ascii ":a::") (ascii ":") = [[], ascii "a", [], []] := by decide

end Mrhc
