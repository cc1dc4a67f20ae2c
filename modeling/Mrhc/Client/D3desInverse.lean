import Mathlib.Data.List.Induction
import Mrhc.Client.D3desInjective
import Mrhc.Framework.Feistel

/-!
# DES decryption

`deskey` in the mode `DE1` fills the key register with the keys of the rounds in the opposite
order, and `des` under them undoes what it does under the register of the mode `EN0`.
-/

namespace Mrhc

namespace D3des

/-! The rounds of `desfunc`. -/

/-- The two words of the key register under which a round runs. -/
abbrev RoundKey := UInt64 × UInt64

def roundF (half : UInt64) (key : RoundKey) : UInt64 := fval half key.1 key.2

/-- The rounds as a network in which the halves change places. -/
abbrev network (keys : List RoundKey) (block : Block) : Block :=
  Feistel.network (· ^^^ ·) roundF keys block

/-- The words of a list of round keys in the order in which `desfunc` consumes them. -/
def keyWords (keys : List RoundKey) : List UInt64 := keys.flatMap fun key => [key.1, key.2]

/-- The loop of `desfunc` runs two rounds in each pass, so it does not exchange the halves. -/
theorem rounds_keyWords (keys : List RoundKey) (h : keys.length % 2 = 0) (block : Block) :
    rounds (keyWords keys) block = network keys block := by
  induction keys using List.twoStepInduction generalizing block with
  | nil => rfl
  | singleton key => simp at h
  | cons_cons key key' keys ih _ =>
    have hlength : keys.length % 2 = 0 := by
      simp only [List.length_cons] at h
      omega
    exact ih hlength _

/-- The key of round `i`. -/
def roundKey (key : Bytes) (i : Nat) : RoundKey :=
  let words := cookey (kn (pcr (pc1m key) i) 0) (kn (pcr (pc1m key) i) 24)
  (words.getD 0 0, words.getD 1 0)

/-- The keys of the rounds in the order of the key register. -/
def roundKeys (key : Bytes) : Mode → List RoundKey
  | .en0 => (List.range 16).map (roundKey key)
  | .de1 => (List.range 16).map fun m => roundKey key (15 - m)

theorem deskey_eq (key : Bytes) (edf : Mode) : deskey key edf = keyWords (roundKeys key edf) := by
  cases edf with
  | en0 => rw [roundKeys, keyWords, List.flatMap_map]; rfl
  | de1 => rw [roundKeys, keyWords, List.flatMap_map]; rfl

theorem roundKeys_length (key : Bytes) (edf : Mode) : (roundKeys key edf).length = 16 := by
  cases edf with
  | en0 => rw [roundKeys, List.length_map, List.length_range]
  | de1 => rw [roundKeys, List.length_map, List.length_range]

def Mode.opposite : Mode → Mode
  | .en0 => .de1
  | .de1 => .en0

private theorem map_range_reverse {α : Type} (f : Nat → α) :
    ((List.range 16).map f).reverse = (List.range 16).map fun m => f (15 - m) := rfl

theorem roundKeys_opposite (key : Bytes) (edf : Mode) :
    roundKeys key edf.opposite = (roundKeys key edf).reverse := by
  cases edf with
  | en0 => exact (map_range_reverse (roundKey key)).symm
  | de1 =>
    have hreverse := congrArg List.reverse (map_range_reverse (roundKey key))
    rw [List.reverse_reverse] at hreverse
    exact hreverse

theorem rounds_deskey (key : Bytes) (edf : Mode) (block : Block) :
    rounds (deskey key edf) block = network (roundKeys key edf) block := by
  rw [deskey_eq]
  exact rounds_keyWords _ (by rw [roundKeys_length]) block

/-- The opposite mode undoes the rounds on the exchanged halves. -/
theorem rounds_opposite (key : Bytes) (edf : Mode) (block : Block) :
    rounds (deskey key edf.opposite) (rounds (deskey key edf) block).swap = block.swap := by
  have hmix : ∀ a c : UInt64, (a ^^^ c) ^^^ c = a := by
    intro a c
    rw [UInt64.xor_assoc, UInt64.xor_self, UInt64.xor_zero]
  rw [rounds_deskey, rounds_deskey, roundKeys_opposite]
  exact Feistel.network_reverse hmix (roundKeys key edf) block

/-! The permutations. -/

private theorem exchange_zero_swap (mask a b : UInt64) :
    exchange 0 mask b a = (exchange 0 mask a b).swap := by
  simp [exchange, UInt64.xor_comm]

private theorem exchange_low {shift mask : UInt64} (h : Fits shift mask) (a b : UInt64) :
    exchange shift mask (low (exchange shift mask a b).1) (low (exchange shift mask a b).2) =
      (low a, low b) := by
  have hlow := low_exchange h a b
  obtain ⟨hl, hr⟩ := Prod.ext_iff.1 hlow
  simp only [lowBlock] at hl hr
  rw [hl, hr]
  exact exchange_exchange h (low a) (low b)

/-- The permutation before the rounds undoes the one after them, which exchanges the halves. -/
theorem initial_final {block : Block} (h : lowBlock block = block) :
    initial (lowBlock (final block)) = block.swap := by
  obtain ⟨leftt, right⟩ := block
  obtain ⟨hl, hr⟩ := (lowBlock_iff _).1 h
  simp only at hl hr
  let c₀ := exchange 0 0xaaaaaaaa leftt (rotateRight right)
  let c₁ := exchange 8 0x00ff00ff (rotateRight c₀.1) c₀.2
  let c₂ := exchange 2 0x33333333 c₁.1 c₁.2
  let c₃ := exchange 16 0x0000ffff c₂.2 c₂.1
  have hexchanges : initialExchanges (lowBlock (final (leftt, right))) =
      (low (rotateRight c₀.1), low c₀.2) := by
    have h₃ : exchange 4 0x0f0f0f0f (low (final (leftt, right)).1) (low (final (leftt, right)).2) =
        (low c₃.1, low c₃.2) := exchange_low fits4 c₃.1 c₃.2
    have h₂ : exchange 16 0x0000ffff (low c₃.1) (low c₃.2) = (low c₂.2, low c₂.1) :=
      exchange_low fits16 c₂.2 c₂.1
    have h₁ : exchange 2 0x33333333 (low c₂.1) (low c₂.2) = (low c₁.1, low c₁.2) :=
      exchange_low fits2 c₁.1 c₁.2
    simp only [initialExchanges, lowBlock, h₃, h₂, h₁]
    exact exchange_low fits8 (rotateRight c₀.1) c₀.2
  have hfirst : rotateLeft (low (rotateRight c₀.1)) = c₀.1 :=
    rotateLeft_rotateRight (low_exchange_fst fits0 hl _)
  have hlast : exchange 0 0xaaaaaaaa (low c₀.2) c₀.1 = (low (rotateRight right), leftt) := by
    have hlow : low c₀.1 = c₀.1 := low_exchange_fst fits0 hl _
    have hundo := exchange_low fits0 leftt (rotateRight right)
    rw [exchange_zero_swap, ← hlow, hundo, hl]
    rfl
  rw [initial_eq]
  simp only [hexchanges, hfirst, hlast, rotateLeft_rotateRight hr, Prod.swap_prod_mk]

theorem lowBlock_lowBlock (block : Block) : lowBlock (lowBlock block) = lowBlock block := by
  have hlow : ∀ x : UInt64, low (low x) = low x := by
    intro x
    rw [low, low, UInt64.and_assoc, UInt64.and_self]
  rw [lowBlock, lowBlock, hlow, hlow]

/-- The permutation after the rounds undoes the one before them on the exchanged halves. -/
theorem final_initial {block : Block} (h : lowBlock block = block) :
    lowBlock (final (initial block).swap) = block := by
  have hinitial := lowBlock_initial h
  have hswap : lowBlock (initial block).swap = (initial block).swap := by
    rw [lowBlock_iff] at hinitial ⊢
    exact ⟨hinitial.2, hinitial.1⟩
  apply initial_injective (lowBlock_lowBlock _) h
  rw [initial_final hswap, Prod.swap_swap]

/-! The bytes. -/

theorem scrunch_unscrun (block : Block) : scrunch (unscrun block) = lowBlock block :=
  (Prod.ext (low_eq_halfWord block.1) (low_eq_halfWord block.2)).symm

theorem unscrun_scrunch {block : Bytes} (h : block.length = 8) :
    unscrun (scrunch block) = block := by
  obtain ⟨h0, h1, h2, h3⟩ :=
    halfWord_bytes (block.getD 0 0) (block.getD 1 0) (block.getD 2 0) (block.getD 3 0)
  obtain ⟨h4, h5, h6, h7⟩ :=
    halfWord_bytes (block.getD 4 0) (block.getD 5 0) (block.getD 6 0) (block.getD 7 0)
  have hscrunch : scrunch block =
      (halfWord (block.getD 0 0) (block.getD 1 0) (block.getD 2 0) (block.getD 3 0),
        halfWord (block.getD 4 0) (block.getD 5 0) (block.getD 6 0) (block.getD 7 0)) := rfl
  rw [hscrunch, unscrun, h0, h1, h2, h3, h4, h5, h6, h7]
  apply List.ext_getElem
  · exact h.symm
  · intro i hi hi'
    rw [List.getElem_eq_getD (h := hi') 0]
    obtain rfl | rfl | rfl | rfl | rfl | rfl | rfl | rfl :
        i = 0 ∨ i = 1 ∨ i = 2 ∨ i = 3 ∨ i = 4 ∨ i = 5 ∨ i = 6 ∨ i = 7 := by omega
    all_goals rfl

/-- What a block holds above its low bits never comes out. -/
theorem unscrun_lowBlock (block : Block) : unscrun (lowBlock block) = unscrun block := by
  rw [← scrunch_unscrun]
  exact unscrun_scrunch rfl

/-- **Decryption.** `des` under the register of the opposite mode undoes `des` on every block, for
both modes. -/
theorem des_opposite (key : Bytes) (edf : Mode) (block : Bytes) (h : block.length = 8) :
    des (deskey key edf.opposite) (des (deskey key edf) block) = block := by
  have hblock := lowBlock_initial (lowBlock_scrunch block)
  have hrounds := lowBlock_rounds (deskey key edf) _ hblock
  rw [des, des, desfunc, desfunc, scrunch_unscrun, initial_final hrounds, rounds_opposite,
    ← unscrun_lowBlock, final_initial (lowBlock_scrunch block), unscrun_scrunch h]

theorem des_opposite_block :
    des (deskey (ascii "password") .de1) (des (deskey (ascii "password") .en0) (ascii "12345678")) =
      ascii "12345678" :=
  des_opposite (ascii "password") .en0 (ascii "12345678") rfl

end D3des

end Mrhc
