import Mathlib.Algebra.Group.Nat.Defs
import Mathlib.Data.List.Basic
import Mathlib.Data.List.TakeWhile

/-!
# Bytes of a little-endian machine

Loads and stores of 16- and 32-bit words, the network byte order functions, zero-terminated
strings, and the words that a loop over a byte buffer reads four bytes at a time. A load past the
end of a byte list reads a zero, as from a zero-filled buffer into which the list was copied.
-/

namespace Mrhc

abbrev Bytes := List UInt8

def word16 (b₀ b₁ : UInt8) : UInt16 := UInt16.ofNat (b₀.toNat + 256 * b₁.toNat)

def word32 (b₀ b₁ b₂ b₃ : UInt8) : UInt32 :=
  UInt32.ofNat (b₀.toNat + 256 * b₁.toNat + 65536 * b₂.toNat + 16777216 * b₃.toNat)

def load16 (bs : Bytes) (i : Nat) : UInt16 := word16 (bs.getD i 0) (bs.getD (i + 1) 0)

def load32 (bs : Bytes) (i : Nat) : UInt32 :=
  word32 (bs.getD i 0) (bs.getD (i + 1) 0) (bs.getD (i + 2) 0) (bs.getD (i + 3) 0)

def store16 (x : UInt16) : Bytes := [x.toUInt8, UInt8.ofNat (x.toNat / 256)]

def store32 (x : UInt32) : Bytes :=
  [x.toUInt8, UInt8.ofNat (x.toNat / 256), UInt8.ofNat (x.toNat / 65536),
    UInt8.ofNat (x.toNat / 16777216)]

def ntohs (x : UInt16) : UInt16 := word16 (UInt8.ofNat (x.toNat / 256)) x.toUInt8

def ntohl (x : UInt32) : UInt32 :=
  word32 (UInt8.ofNat (x.toNat / 16777216)) (UInt8.ofNat (x.toNat / 65536))
    (UInt8.ofNat (x.toNat / 256)) x.toUInt8

def htons (x : UInt16) : UInt16 := ntohs x

def htonl (x : UInt32) : UInt32 := ntohl x

/-- The characters of a C string, up to its terminating zero. -/
def cString (bs : Bytes) : Bytes := bs.takeWhile (· ≠ 0)

theorem cString_eq_self {text : Bytes} (h : 0 ∉ text) : cString text = text := by
  rw [cString, List.takeWhile_eq_self_iff]
  intro b hb
  apply decide_eq_true
  rintro rfl
  exact h hb

theorem cString_append {text : Bytes} (h : 0 ∉ text) (bs : Bytes) :
    cString (text ++ bs) = text ++ cString bs := by
  apply List.takeWhile_append_of_pos
  intro b hb
  exact decide_eq_true fun hzero => h (hzero ▸ hb)

/-- The bytes of an ASCII literal. -/
def ascii (s : String) : Bytes := s.toList.map fun c => UInt8.ofNat c.toNat

/-- A literal is a list of characters, which evaluates faster than its encoding. -/
theorem ascii_ofList (cs : List Char) :
    ascii (String.ofList cs) = cs.map fun c => UInt8.ofNat c.toNat := by
  rw [ascii, String.toList_ofList]

/-- A zeroed array of `n` bytes after these have been copied to its start. -/
def zeroPad (n : Nat) (bs : Bytes) : Bytes := bs ++ List.replicate (n - bs.length) 0

@[simp] theorem store32_length (x : UInt32) : (store32 x).length = 4 := rfl

theorem word16_toNat (b₀ b₁ : UInt8) : (word16 b₀ b₁).toNat = b₀.toNat + 256 * b₁.toNat := by
  have h₀ := b₀.toNat_lt
  have h₁ := b₁.toNat_lt
  rw [word16, UInt16.toNat_ofNat', Nat.mod_eq_of_lt (by omega)]

theorem word32_toNat (b₀ b₁ b₂ b₃ : UInt8) : (word32 b₀ b₁ b₂ b₃).toNat =
    b₀.toNat + 256 * b₁.toNat + 65536 * b₂.toNat + 16777216 * b₃.toNat := by
  have h₀ := b₀.toNat_lt
  have h₁ := b₁.toNat_lt
  have h₂ := b₂.toNat_lt
  have h₃ := b₃.toNat_lt
  rw [word32, UInt32.toNat_ofNat', Nat.mod_eq_of_lt (by omega)]

@[simp] theorem word16_store16 (x : UInt16) :
    word16 x.toUInt8 (UInt8.ofNat (x.toNat / 256)) = x := by
  have h := x.toNat_lt
  apply UInt16.toNat_inj.mp
  rw [word16_toNat]
  simp only [UInt8.toNat_ofNat', UInt16.toNat_toUInt8]
  omega

@[simp] theorem word32_store32 (x : UInt32) :
    word32 x.toUInt8 (UInt8.ofNat (x.toNat / 256)) (UInt8.ofNat (x.toNat / 65536))
      (UInt8.ofNat (x.toNat / 16777216)) = x := by
  have h := x.toNat_lt
  apply UInt32.toNat_inj.mp
  rw [word32_toNat]
  simp only [UInt8.toNat_ofNat', UInt32.toNat_toUInt8]
  omega

theorem store16_word16 (b₀ b₁ : UInt8) : store16 (word16 b₀ b₁) = [b₀, b₁] := by
  have h₀ := b₀.toNat_lt
  have h₁ := b₁.toNat_lt
  simp only [store16, word16_toNat, List.cons.injEq, and_true]
  constructor <;> apply UInt8.toNat_inj.mp <;>
    simp only [UInt8.toNat_ofNat', UInt16.toNat_toUInt8, word16_toNat] <;> omega

theorem store32_word32 (b₀ b₁ b₂ b₃ : UInt8) :
    store32 (word32 b₀ b₁ b₂ b₃) = [b₀, b₁, b₂, b₃] := by
  have h₀ := b₀.toNat_lt
  have h₁ := b₁.toNat_lt
  have h₂ := b₂.toNat_lt
  have h₃ := b₃.toNat_lt
  simp only [store32, word32_toNat, List.cons.injEq, and_true]
  refine ⟨?_, ?_, ?_, ?_⟩ <;> apply UInt8.toNat_inj.mp <;>
    simp only [UInt8.toNat_ofNat', UInt32.toNat_toUInt8, word32_toNat] <;> omega

@[simp] theorem ntohs_word16 (b₀ b₁ : UInt8) : ntohs (word16 b₀ b₁) = word16 b₁ b₀ := by
  have h := store16_word16 b₀ b₁
  simp only [store16, List.cons.injEq, and_true] at h
  rw [ntohs, h.1, h.2]

@[simp] theorem ntohl_word32 (b₀ b₁ b₂ b₃ : UInt8) :
    ntohl (word32 b₀ b₁ b₂ b₃) = word32 b₃ b₂ b₁ b₀ := by
  have h := store32_word32 b₀ b₁ b₂ b₃
  simp only [store32, List.cons.injEq, and_true] at h
  rw [ntohl, h.1, h.2.1, h.2.2.1, h.2.2.2]

@[simp] theorem ntohs_htons (x : UInt16) : ntohs (htons x) = x := by
  conv_lhs => rw [htons, ← word16_store16 x, ntohs_word16, ntohs_word16]
  exact word16_store16 x

@[simp] theorem ntohl_htonl (x : UInt32) : ntohl (htonl x) = x := by
  conv_lhs => rw [htonl, ← word32_store32 x, ntohl_word32, ntohl_word32]
  exact word32_store32 x

theorem ntohl_eq_zero {x : UInt32} : ntohl x = 0 ↔ x = 0 := by
  constructor
  · intro h
    rw [← ntohl_htonl x, htonl, h]
    rfl
  · rintro rfl
    rfl

/-- The little-endian words of a buffer read four bytes at a time, the last one filled up with
zeros. -/
def words : Bytes → List UInt32
  | b₀ :: b₁ :: b₂ :: b₃ :: rest => word32 b₀ b₁ b₂ b₃ :: words rest
  | [b₀, b₁, b₂] => [word32 b₀ b₁ b₂ 0]
  | [b₀, b₁] => [word32 b₀ b₁ 0 0]
  | [b₀] => [word32 b₀ 0 0 0]
  | [] => []

theorem words_length (bs : Bytes) : (words bs).length = (bs.length + 3) / 4 := by
  induction bs using words.induct with
  | case1 b₀ b₁ b₂ b₃ rest ih =>
    simp only [words, List.length_cons, ih]
    omega
  | _ => simp [words]

theorem words_append {bs : Bytes} (h : 4 ∣ bs.length) (cs : Bytes) :
    words (bs ++ cs) = words bs ++ words cs := by
  induction bs using words.induct with
  | case1 b₀ b₁ b₂ b₃ rest ih =>
    have hr : 4 ∣ rest.length := by simp only [List.length_cons] at h; omega
    simp only [List.cons_append, words, ih hr]
  | case5 => rfl
  | _ => simp at h

/-- Pieces that all end on a word boundary have the words of their concatenation. -/
theorem words_flatten {chunks : List Bytes} (h : ∀ chunk ∈ chunks, 4 ∣ chunk.length) :
    (chunks.map words).flatten = words chunks.flatten := by
  induction chunks with
  | nil => rfl
  | cons chunk chunks ih =>
    simp only [List.map_cons, List.flatten_cons]
    rw [words_append (h chunk (by simp)), ih fun c hc => h c (by simp [hc])]

/-- Pieces have at least the words of their concatenation, and exactly as many only when all of
them end on a word boundary. -/
theorem words_flatten_length (chunks : List Bytes) :
    chunks.flatten.length ≤ 4 * (chunks.map words).flatten.length ∧
      (chunks.flatten.length = 4 * (chunks.map words).flatten.length ↔
        ∀ chunk ∈ chunks, 4 ∣ chunk.length) := by
  induction chunks with
  | nil => simp
  | cons chunk chunks ih =>
    obtain ⟨hle, hiff⟩ := ih
    simp only [List.map_cons, List.flatten_cons, List.length_append, words_length,
      List.mem_cons, forall_eq_or_imp]
    rw [← hiff]
    omega

/-- The bytes of a list of words. -/
def wordBytes (ws : List UInt32) : Bytes := ws.flatMap store32

@[simp] theorem wordBytes_length (ws : List UInt32) : (wordBytes ws).length = 4 * ws.length := by
  induction ws with
  | nil => rfl
  | cons w ws ih =>
    simp only [wordBytes, List.flatMap_cons, List.length_append, List.length_cons,
      store32_length] at ih ⊢
    omega

@[simp] theorem words_wordBytes (ws : List UInt32) : words (wordBytes ws) = ws := by
  induction ws with
  | nil => rfl
  | cons w ws ih =>
    change words (store32 w ++ wordBytes ws) = _
    simp only [store32, List.cons_append, List.nil_append, words, word32_store32, ih]

theorem wordBytes_words {bs : Bytes} (h : 4 ∣ bs.length) : wordBytes (words bs) = bs := by
  induction bs using words.induct with
  | case1 b₀ b₁ b₂ b₃ rest ih =>
    have hr : 4 ∣ rest.length := by simp only [List.length_cons] at h; omega
    have hrest := ih hr
    simp only [wordBytes] at hrest
    simp only [words, wordBytes, List.flatMap_cons, store32_word32, hrest, List.cons_append,
      List.nil_append]
  | case5 => rfl
  | _ => simp at h

end Mrhc
