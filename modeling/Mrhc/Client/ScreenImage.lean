import Mrhc.Client.DrawnImage

/-!
# The image of a screen

With the pixel format that the client requests, a word of the buffer has its colours in its first
three bytes. `draw_image` shows them at the position of the word.
-/

namespace Mrhc

/-- The colour that a word in memory stands for: blue, green and red in its first three bytes. -/
def wordColour (w : UInt32) : Scalar :=
  ⟨(store32 w).getD 0 0, (store32 w).getD 1 0, (store32 w).getD 2 0⟩

private theorem byte_masked (w k : UInt32) (hk : k.toNat < 32) :
    ((w >>> k) &&& 0xff).toUInt8 = UInt8.ofNat (w.toNat / 2 ^ k.toNat) := by
  apply UInt8.toNat_inj.mp
  have hmask : (0xff : UInt32).toNat = 2 ^ 8 - 1 := rfl
  rw [UInt32.toNat_toUInt8, UInt32.toNat_and, hmask, Nat.and_two_pow_sub_one_eq_mod,
    UInt32.toNat_shiftRight, Nat.mod_eq_of_lt hk, Nat.shiftRight_eq_div_pow, UInt8.toNat_ofNat',
    Nat.mod_mod]

/-- The requested format takes the colours from the bytes of the word. -/
theorem pixelColour_configured (w : UInt32) : pixelColour configuredFormat w = wordColour w := by
  have hmask : (ntohs (htons 0xff)).toUInt32 = 0xff := by decide
  have hred := byte_masked w 16 (by decide)
  have hgreen := byte_masked w 8 (by decide)
  have hblue := byte_masked w 0 (by decide)
  have hfirst : UInt8.ofNat (w.toNat / 2 ^ (0 : UInt32).toNat) = w.toUInt8 := by
    apply UInt8.toNat_inj.mp
    rw [UInt8.toNat_ofNat', UInt32.toNat_toUInt8, UInt32.toNat_zero, Nat.pow_zero, Nat.div_one]
  rw [hfirst] at hblue
  change Scalar.mk ((w >>> 0) &&& (ntohs (htons 0xff)).toUInt32).toUInt8
    ((w >>> 8) &&& (ntohs (htons 0xff)).toUInt32).toUInt8
    ((w >>> 16) &&& (ntohs (htons 0xff)).toUInt32).toUInt8 = _
  rw [hmask, hred, hgreen, hblue]
  rfl

/-- `draw_image` returns `true`, with an image of the screen's size that shows at each position the
colour of the position's word in the buffer. -/
theorem drawImage_exact (lib : Platform) (hbox : lib.FillsBox) (s : Session)
    (hformat : s.client.pixelFormat = configuredFormat)
    (hsize : s.client.width.toNat * s.client.height.toNat < 2 ^ 31)
    (hbuf : s.client.width.toNat * s.client.height.toNat ≤ s.client.imageBuf.length) :
    ∃ t, (drawImage lib).run s = .ok true t ∧
      t.client.image.cols = s.client.width.toNat ∧ t.client.image.rows = s.client.height.toNat ∧
      ∀ x y, x < s.client.width.toNat → y < s.client.height.toNat →
        ∃ w, s.client.imageBuf[s.client.width.toNat * y + x]? = some w ∧
          t.client.image.pixel x y = wordColour w := by
  have hdrawable : s.client.Drawable := ⟨hbuf, Nat.le_of_lt hsize⟩
  have hpixels := drawPixels_ok (hdrawable.readable lib)
  have hrun := drawImage_run lib s
  rw [hpixels] at hrun
  obtain ⟨hrows, hcols⟩ := drawPixels_size hbox hpixels
  refine ⟨_, hrun, hcols, hrows, fun x y hx hy => ?_⟩
  have hindex := Nat.lt_of_lt_of_le (raster_index_lt hx hy) hbuf
  refine ⟨s.client.imageBuf[s.client.width.toNat * y + x], List.getElem?_eq_getElem hindex, ?_⟩
  have hpixel := drawPixels_pixel hbox hpixels hx hy
  rw [VncClient.pixelAt_buffered lib (p := (x, y)) hindex, hformat,
    pixelColour_configured] at hpixel
  exact hpixel

def fullScreen : Session where
  client := { (VncClient.new [] 5900 [] .blank).configured with
    width := 2, height := 2, imageBuf := [0x030201, 0x060504, 0x090807, 0x0c0b0a] }
  conn := Socket.delivering []

theorem drawImage_exact_square :
    ∃ t, (drawImage Platform.plain).run fullScreen = .ok true t ∧
      t.client.image.pixel 1 0 = ⟨4, 5, 6⟩ := by
  obtain ⟨t, ht, -, -, hpixel⟩ := drawImage_exact Platform.plain Platform.plain_fillsBox fullScreen
    rfl (by decide) (by decide)
  obtain ⟨w, hw, hcolour⟩ := hpixel 1 0 (by decide) (by decide)
  have hword : w = 0x060504 := (Option.some.inj hw).symm
  exact ⟨t, ht, hcolour.trans (by rw [hword]; decide)⟩

end Mrhc
