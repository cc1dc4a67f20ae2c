import Mrhc.Client.ClientMessages
import Mrhc.Client.Screenshot
import Mrhc.Framework.Fields

/-!
# Colours

What a server makes of a colour in a pixel format, and that the client reads it back. The colours of
a screen are seen as they are when the server paints them in the format that the client reads.
-/

namespace Mrhc

namespace PixelFormat

/-- The colours of a pixel, each in a field of eight bits. -/
def values (f : PixelFormat) (c : Scalar) : List (Field × Nat) :=
  [(⟨f.redShift.toNat, 8⟩, c.red.toNat), (⟨f.greenShift.toNat, 8⟩, c.green.toNat),
    (⟨f.blueShift.toNat, 8⟩, c.blue.toNat)]

/-- The word of a pixel of this colour. -/
def word (f : PixelFormat) (c : Scalar) : UInt32 := UInt32.ofNat (Field.pack (f.values c))

/-- Words of 32 bits with the least byte first, in which each colour has a byte of its own. -/
def Bytewise (f : PixelFormat) : Prop :=
  f.bitsPerPixel = 32 ∧ f.bigEndianFlag = 0 ∧ f.trueColourFlag ≠ 0 ∧
    (f.redMax = 255 ∧ f.greenMax = 255 ∧ f.blueMax = 255) ∧
    (f.redShift.toNat ≤ 24 ∧ f.greenShift.toNat ≤ 24 ∧ f.blueShift.toNat ≤ 24) ∧
    (f.values ⟨0, 0, 0⟩).Pairwise fun p q => p.1.Apart q.1

instance (f : PixelFormat) : Decidable f.Bytewise := inferInstanceAs (Decidable (_ ∧ _))

/-- The format as it lies in the memory of the client. -/
def inMemory (f : PixelFormat) : PixelFormat :=
  { f with redMax := htons f.redMax, greenMax := htons f.greenMax, blueMax := htons f.blueMax }

theorem requestedFormat_bytewise : ClientMessage.requestedFormat.Bytewise := by decide

theorem requestedFormat_inMemory : ClientMessage.requestedFormat.inMemory = configuredFormat := by
  decide

private theorem values_fit (f : PixelFormat) (c : Scalar) :
    ∀ p ∈ f.values c, p.2 < 2 ^ p.1.width := by
  simp only [values, List.forall_mem_cons, List.not_mem_nil, false_implies, implies_true, and_true]
  exact ⟨c.red.toNat_lt, c.green.toNat_lt, c.blue.toNat_lt⟩

end PixelFormat

private theorem byte_read {shift : UInt8} (h : shift.toNat ≤ 24) (w : UInt32) :
    ((w >>> shift.toUInt32) &&& (ntohs (htons 255)).toUInt32).toUInt8.toNat =
      Field.read ⟨shift.toNat, 8⟩ w.toNat := by
  have hmask : (ntohs (htons 255)).toUInt32.toNat = 2 ^ 8 - 1 := by decide
  have hshift : shift.toUInt32.toNat % 32 = shift.toNat := by
    rw [UInt8.toNat_toUInt32]
    omega
  rw [UInt32.toNat_toUInt8, UInt32.toNat_and, hmask, UInt32.toNat_shiftRight, hshift, Field.read,
    Nat.and_two_pow_sub_one_eq_mod, Nat.mod_mod]

/-- The client reads the colour that a server has put into a pixel. -/
theorem pixelColour_word {f : PixelFormat} (h : f.Bytewise) (c : Scalar) :
    pixelColour f.inMemory (f.word c) = c := by
  obtain ⟨-, -, -, ⟨hredMax, hgreenMax, hblueMax⟩, ⟨hred, hgreen, hblue⟩, hapart⟩ := h
  have hapart' : (f.values c).Pairwise fun p q => p.1.Apart q.1 := by
    simpa [PixelFormat.values] using hapart
  have hinside : ∀ p ∈ f.values c, p.1.shift + p.1.width ≤ 32 := by
    simp only [PixelFormat.values, List.forall_mem_cons, List.not_mem_nil, false_implies,
      implies_true, and_true]
    omega
  have hword : (f.word c).toNat = Field.pack (f.values c) := by
    rw [PixelFormat.word, UInt32.toNat_ofNat',
      Nat.mod_eq_of_lt (Field.pack_lt hinside (f.values_fit c))]
  have hread : ∀ p ∈ f.values c, p.1.read (f.word c).toNat = p.2 := by
    intro p hp
    rw [hword]
    exact Field.read_pack hapart' (f.values_fit c) hp
  simp only [PixelFormat.values, List.forall_mem_cons, List.not_mem_nil, false_implies,
    implies_true, and_true] at hread
  simp only [pixelColour, PixelFormat.inMemory, hredMax, hgreenMax, hblueMax]
  have hr := UInt8.toNat_inj.mp ((byte_read hred _).trans hread.1)
  have hg := UInt8.toNat_inj.mp ((byte_read hgreen _).trans hread.2.1)
  have hb := UInt8.toNat_inj.mp ((byte_read hblue _).trans hread.2.2)
  rw [hr, hg, hb]

/-- The picture of a screen with this colour at each position. -/
def picture (w h : Nat) (colours : Nat → Nat → Scalar) : Mat where
  rows := h
  cols := w
  pixel := fun x y => if x < w ∧ y < h then colours x y else ⟨0, 0, 0⟩

/-- A screen that is painted in the requested format shows its picture. -/
theorem screenshot_word (w h : Nat) (colours : Nat → Nat → Scalar) :
    screenshot w h (fun x y => ClientMessage.requestedFormat.word (colours x y)) =
      picture w h colours := by
  have hcolour : ∀ c, wordColour (ClientMessage.requestedFormat.word c) = c := by
    intro c
    rw [← pixelColour_configured, ← PixelFormat.requestedFormat_inMemory]
    exact pixelColour_word PixelFormat.requestedFormat_bytewise c
  simp only [screenshot, hcolour]
  rfl

end Mrhc
