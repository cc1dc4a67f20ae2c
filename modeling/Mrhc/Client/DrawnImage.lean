import Mrhc.Client.Operation
import Mrhc.Framework.Programs
import Mrhc.Framework.Raster

/-!
# The drawn image

`draw_image` visits the screen in raster order and fills a box of two by two pixels at each
position. The box of a position is overwritten by those of its neighbours, except for its own
corner.
-/

namespace Mrhc

/-- The word that is drawn at a position. -/
def VncClient.pixelAt (lib : Platform) (c : VncClient) (p : Nat × Nat) : UInt32 :=
  (c.wordAt lib (c.width.toNat * p.2 + p.1)).getD 0

/-- One drawing step that finds its pixel. -/
def drawBox (lib : Platform) (c : VncClient) (image : Mat) (p : Nat × Nat) : Mat :=
  lib.rectangle image ⟨p.1, p.2⟩ ⟨p.1 + 1, p.2 + 1⟩ (pixelColour c.pixelFormat (c.pixelAt lib p))

/-- The black image of the screen's size. -/
def VncClient.blank (c : VncClient) : Mat := ⟨c.height.toNat, c.width.toNat, fun _ _ => ⟨0, 0, 0⟩⟩

/-- The screen can be drawn: the pixel indices are in the range of `int` and a read of each finds a
word, in the buffer or behind it. -/
def VncClient.Readable (lib : Platform) (c : VncClient) : Prop :=
  c.width.toNat * c.height.toNat ≤ 2 ^ 31 ∧
    ∀ i < c.width.toNat * c.height.toNat, (c.wordAt lib i).isSome

/-- The buffer holds the screen and the pixel indices are in the range of `int`. -/
def VncClient.Drawable (c : VncClient) : Prop :=
  c.width.toNat * c.height.toNat ≤ c.imageBuf.length ∧ c.width.toNat * c.height.toNat ≤ 2 ^ 31

theorem VncClient.wordAt_buffered (lib : Platform) {c : VncClient} {i : Nat}
    (h : i < c.imageBuf.length) : c.wordAt lib i = some c.imageBuf[i] := by
  rw [VncClient.wordAt, if_pos h, List.getElem?_eq_getElem h]

theorem VncClient.wordAt_behind (lib : Platform) {c : VncClient} {i : Nat}
    (h : c.imageBuf.length ≤ i) : c.wordAt lib i = lib.imageTail i :=
  if_neg (Nat.not_lt.mpr h)

theorem VncClient.pixelAt_buffered (lib : Platform) {c : VncClient} {p : Nat × Nat}
    (h : c.width.toNat * p.2 + p.1 < c.imageBuf.length) :
    c.pixelAt lib p = c.imageBuf[c.width.toNat * p.2 + p.1] := by
  rw [VncClient.pixelAt, VncClient.wordAt_buffered lib h, Option.getD_some]

theorem VncClient.Drawable.readable {c : VncClient} (h : c.Drawable) (lib : Platform) :
    c.Readable lib := by
  refine ⟨h.2, fun i hi => ?_⟩
  rw [VncClient.wordAt_buffered lib (Nat.lt_of_lt_of_le hi h.1), Option.isSome_some]

/-- Where the buffer ends, the memory behind it must go on. -/
theorem VncClient.readable_iff {lib : Platform} {c : VncClient} :
    c.Readable lib ↔ c.width.toNat * c.height.toNat ≤ 2 ^ 31 ∧
      ∀ i < c.width.toNat * c.height.toNat, c.imageBuf.length ≤ i → (lib.imageTail i).isSome := by
  refine and_congr_right fun _ => forall₂_congr fun i _ => ?_
  by_cases hbuf : i < c.imageBuf.length
  · rw [VncClient.wordAt_buffered lib hbuf, Option.isSome_some]
    simp [Nat.not_le.mpr hbuf]
  · have hbehind := Nat.le_of_not_lt hbuf
    rw [VncClient.wordAt_behind lib hbehind]
    simp [hbehind]

private theorem drawPixels_raster (lib : Platform) (c : VncClient) :
    drawPixels lib c = (raster c.width.toNat c.height.toNat).foldlM
      (fun image p => drawPixel lib c p.2 image p.1) c.blank := by
  rw [raster, foldlM_flatMap]
  simp only [List.foldlM_map]
  rfl

/-- A readable screen is drawn in raster order. -/
theorem drawPixels_ok {lib : Platform} {c : VncClient} (h : c.Readable lib) :
    drawPixels lib c =
      .ok ((raster c.width.toNat c.height.toNat).foldl (drawBox lib c) c.blank) := by
  rw [drawPixels_raster]
  refine foldlM_ok (fun p hp image => ?_) c.blank
  obtain ⟨i, hi⟩ := List.getElem?_of_mem hp
  obtain ⟨hlt, _⟩ := List.getElem?_eq_some_iff.mp hi
  rw [raster_length] at hlt
  obtain ⟨x, y, _, _, hxy, hget⟩ := raster_index hlt
  obtain rfl : p = (x, y) := Option.some.inj (hi.symm.trans hget)
  obtain ⟨pixel, hpixel⟩ := Option.isSome_iff_exists.mp (h.2 i hlt)
  have hint : ¬ 2 ^ 31 ≤ c.width.toNat * y + x := by have := h.1; omega
  rw [hxy] at hpixel
  simp only [drawPixel, if_neg hint, hpixel, drawBox, VncClient.pixelAt, Option.getD_some]

/-- Any other screen takes the drawing loop to a read that faults or out of `int`. -/
theorem drawPixels_error {lib : Platform} {c : VncClient} (h : ¬c.Readable lib) :
    ∃ reason, drawPixels lib c = .error reason := by
  rw [drawPixels_raster]
  -- a position that cannot be drawn
  obtain ⟨i, hi, hbad⟩ : ∃ i < c.width.toNat * c.height.toNat,
      2 ^ 31 ≤ i ∨ c.wordAt lib i = none := by
    by_contra hgood
    simp only [not_exists, not_and, not_or, Nat.not_le] at hgood
    refine h ⟨Nat.le_of_not_lt fun hbig => ?_, fun i hi => ?_⟩
    · exact Nat.lt_irrefl _ (hgood (2 ^ 31) hbig).1
    · exact Option.isSome_iff_ne_none.mpr (hgood i hi).2
  obtain ⟨x, y, _, _, rfl, hget⟩ := raster_index hi
  refine foldlM_error (List.mem_of_getElem? hget) (fun image => ?_) c.blank
  by_cases hint : 2 ^ 31 ≤ c.width.toNat * y + x
  · exact ⟨.signedOverflow, by rw [drawPixel, if_pos hint]⟩
  · have hnone := hbad.resolve_left hint
    exact ⟨.outOfBounds, by rw [drawPixel, if_neg hint, hnone]⟩

theorem readable_of_ok {lib : Platform} {c : VncClient} {image : Mat}
    (h : drawPixels lib c = .ok image) : c.Readable lib := by
  by_contra hnot
  obtain ⟨reason, herror⟩ := drawPixels_error hnot
  rw [h] at herror
  exact absurd herror (by simp)

/-- The box of a position covers the position and its right, lower and diagonal neighbours, as far
as they are on the screen. -/
private def boxCovers (w h : Nat) (k p : Nat × Nat) : Bool :=
  k.1 < w && k.2 < h && p.1 ≤ k.1 && k.1 ≤ p.1 + 1 && p.2 ≤ k.2 && k.2 ≤ p.2 + 1

private theorem lastWith_boxCovers {w h x y : Nat} (hx : x < w) (hy : y < h) :
    lastWith (boxCovers w h (x, y)) (raster w h) = some (x, y) := by
  refine lastWith_of_getElem? (raster_getElem? hx hy) (by simp [boxCovers, hx, hy])
    fun j p hj hp => ?_
  obtain ⟨hlt, _⟩ := List.getElem?_eq_some_iff.mp hp
  rw [raster_length] at hlt
  obtain ⟨x', y', hx', _, hxy, hget⟩ := raster_index hlt
  obtain rfl : p = (x', y') := Option.some.inj (hp.symm.trans hget)
  -- a later position is further down, or in the same row further to the right
  by_contra hcovers
  simp only [boxCovers, Bool.not_eq_false, Bool.and_eq_true, decide_eq_true_eq] at hcovers
  obtain rfl | hlow : y' = y ∨ y' < y := by omega
  · omega
  · have hrow : w * y' + w ≤ w * y := by
      calc w * y' + w = w * (y' + 1) := by ring
        _ ≤ w * y := Nat.mul_le_mul_left w hlow
    omega

private theorem drawBox_size {lib : Platform} (hbox : lib.FillsBox) (c : VncClient) (m : Mat)
    (p : Nat × Nat) (hm : m.rows = c.height.toNat ∧ m.cols = c.width.toNat) :
    (drawBox lib c m p).rows = c.height.toNat ∧ (drawBox lib c m p).cols = c.width.toNat := by
  rw [drawBox, hbox m _ _ _ (Nat.le_succ _) (Nat.le_succ _)]
  exact hm

private theorem drawBox_pixel {lib : Platform} (hbox : lib.FillsBox) (c : VncClient) (m : Mat)
    (p k : Nat × Nat) (hm : m.rows = c.height.toNat ∧ m.cols = c.width.toNat) :
    (drawBox lib c m p).pixel k.1 k.2 =
      if boxCovers c.width.toNat c.height.toNat k p then pixelColour c.pixelFormat (c.pixelAt lib p)
      else m.pixel k.1 k.2 := by
  rw [drawBox, hbox m _ _ _ (Nat.le_succ _) (Nat.le_succ _)]
  simp [fillBox, boxCovers, hm.1, hm.2, and_assoc]

private theorem drawPixels_overwrites {lib : Platform} (hbox : lib.FillsBox) {c : VncClient}
    {image : Mat} (hdraw : drawPixels lib c = .ok image) (k : Nat × Nat) :
    (image.rows = c.height.toNat ∧ image.cols = c.width.toNat) ∧
      image.pixel k.1 k.2 =
        ((lastWith (boxCovers c.width.toNat c.height.toNat k)
          (raster c.width.toNat c.height.toNat)).map
            fun p => pixelColour c.pixelFormat (c.pixelAt lib p)).getD (c.blank.pixel k.1 k.2) := by
  rw [drawPixels_ok (readable_of_ok hdraw), Except.ok.injEq] at hdraw
  rw [← hdraw]
  exact foldl_overwrite (fun m : Mat => m.rows = c.height.toNat ∧ m.cols = c.width.toNat)
    (fun m k => m.pixel k.1 k.2) (boxCovers c.width.toNat c.height.toNat)
    (fun p => pixelColour c.pixelFormat (c.pixelAt lib p))
    (drawBox_size hbox c) (drawBox_pixel hbox c)
    (raster c.width.toNat c.height.toNat) (s := c.blank) ⟨rfl, rfl⟩ k

theorem drawPixels_size {lib : Platform} (hbox : lib.FillsBox) {c : VncClient} {image : Mat}
    (hdraw : drawPixels lib c = .ok image) :
    image.rows = c.height.toNat ∧ image.cols = c.width.toNat :=
  (drawPixels_overwrites hbox hdraw (0, 0)).1

/-- The drawn image shows at each position the word that a read of its index finds. -/
theorem drawPixels_pixel {lib : Platform} (hbox : lib.FillsBox) {c : VncClient} {image : Mat}
    (hdraw : drawPixels lib c = .ok image) {x y : Nat}
    (hx : x < c.width.toNat) (hy : y < c.height.toNat) :
    image.pixel x y = pixelColour c.pixelFormat (c.pixelAt lib (x, y)) := by
  have hpixel := (drawPixels_overwrites hbox hdraw (x, y)).2
  rw [lastWith_boxCovers hx hy] at hpixel
  exact hpixel

theorem drawPixels_word {lib : Platform} (hbox : lib.FillsBox) {c : VncClient} {image : Mat}
    (hdraw : drawPixels lib c = .ok image) {x y : Nat} (hx : x < c.width.toNat)
    (hy : y < c.height.toNat) :
    ∃ word, c.wordAt lib (c.width.toNat * y + x) = some word ∧
      image.pixel x y = pixelColour c.pixelFormat word := by
  obtain ⟨word, hword⟩ := Option.isSome_iff_exists.mp
    ((readable_of_ok hdraw).2 _ (raster_index_lt hx hy))
  refine ⟨word, hword, ?_⟩
  rw [drawPixels_pixel hbox hdraw hx hy, VncClient.pixelAt, hword, Option.getD_some]

theorem drawPixels_outside {lib : Platform} (hbox : lib.FillsBox) {c : VncClient} {image : Mat}
    (hdraw : drawPixels lib c = .ok image) {x y : Nat}
    (hout : ¬(x < c.width.toNat ∧ y < c.height.toNat)) : image.pixel x y = ⟨0, 0, 0⟩ := by
  have hpixel := (drawPixels_overwrites hbox hdraw (x, y)).2
  rw [lastWith_eq_none.mpr] at hpixel
  · exact hpixel
  · intro p _
    by_contra hcovers
    simp only [boxCovers, Bool.not_eq_false, Bool.and_eq_true, decide_eq_true_eq] at hcovers
    omega

/-- The client after `draw_image` has drawn this image and `draw_pointer` the mark on it. -/
def VncClient.showing (c : VncClient) (lib : Platform) (operation : VncOperation) (image : Mat) :
    VncClient :=
  let image :=
    if operation.x = 0 ∧ operation.y = 0 then image
    else (List.range 5).foldl (drawMark lib operation.x operation.y) image
  { c with image := image, jpegBuf := lib.imencode image }

theorem drawImage_run (lib : Platform) (s : Session) :
    (drawImage lib).run s =
      match drawPixels lib s.client with
      | .error reason => .error reason s
      | .ok image =>
        .ok true (s.update fun c => { c with image := image, jpegBuf := lib.imencode image }) := by
  rw [drawImage, EStateM.run_bind, getClient_run]
  dsimp only
  cases drawPixels lib s.client <;> rfl

/-- The end of `capture`: the drawing of the screen and of the pointer. -/
theorem drawCapture_run (lib : Platform) (operation : VncOperation) (s : Session) :
    (require (drawImage lib) (do
      if operation.x = 0 ∧ operation.y = 0 then return true
      if !(← drawPointer lib operation.x operation.y) then return false
      return true)).run s =
      match drawPixels lib s.client with
      | .error reason => .error reason s
      | .ok image => .ok true (s.update (·.showing lib operation image)) := by
  have hdraw := drawImage_run lib s
  cases hpixels : drawPixels lib s.client with
  | error reason =>
    rw [hpixels] at hdraw
    exact require_error hdraw
  | ok image =>
    rw [hpixels] at hdraw
    rw [require_true hdraw]
    by_cases hpointer : operation.x = 0 ∧ operation.y = 0
    · simp [hpointer, VncClient.showing, Session.update]
    · have hshow : s.client.showing lib operation image =
          { s.client with
            image := (List.range 5).foldl (drawMark lib operation.x operation.y) image
            jpegBuf := lib.imencode
              ((List.range 5).foldl (drawMark lib operation.x operation.y) image) } := by
        simp only [VncClient.showing, hpointer, if_false]
      simp only [drawPointer, hpointer, if_false, Session.update, hshow]
      rfl

/-- The session in which `capture` waits for the answer to its request. -/
def Session.requested (s : Session) : Session :=
  (s.update fun c => { c with imageBuf := [], jpegBuf := [] }).on
    (s.conn.send (frameBufferUpdateRequest s.client.width s.client.height)).2

/-- `capture` without a key: it clears the buffers, requests the screen, receives one server
message and draws what the buffer holds then. -/
theorem capture_run (lib : Platform) (operation : VncOperation) (s : Session)
    (hkey : operation.key = [])
    (hsend : (s.conn.send (frameBufferUpdateRequest s.client.width s.client.height)).1 = true) :
    (capture lib operation).run s =
      match recvServerToClientMessage.run s.requested with
      | .error reason t => .error reason t
      | .ok false t => .ok false t
      | .ok true t =>
        match drawPixels lib t.client with
        | .error reason => .error reason t
        | .ok image => .ok true (t.update (·.showing lib operation image)) := by
  have hrequest : sendFrameBufferUpdateRequest.run
      (s.update fun c => { c with imageBuf := [], jpegBuf := [] }) = .ok true s.requested := by
    simp [sendFrameBufferUpdateRequest, hsend, Session.requested]
  have hclear : (capture lib operation).run s =
      (require sendFrameBufferUpdateRequest (require recvServerToClientMessage
        (require (drawImage lib) (do
          if operation.x = 0 ∧ operation.y = 0 then return true
          if !(← drawPointer lib operation.x operation.y) then return false
          return true)))).run (s.update fun c => { c with imageBuf := [], jpegBuf := [] }) := by
    simp only [capture, hkey]
    rfl
  rw [hclear, require_true hrequest]
  rcases hrecv : recvServerToClientMessage.run s.requested with ⟨_ | _, t⟩ | ⟨reason, t⟩
  · exact require_false hrecv
  · rw [require_true hrecv]
    exact drawCapture_run lib operation t
  · exact require_error hrecv

theorem capture_unsent (lib : Platform) (operation : VncOperation) (s : Session)
    (hkey : operation.key = [])
    (hsend : (s.conn.send (frameBufferUpdateRequest s.client.width s.client.height)).1 = false) :
    (capture lib operation).run s = .ok false s.requested := by
  have hrequest : sendFrameBufferUpdateRequest.run
      (s.update fun c => { c with imageBuf := [], jpegBuf := [] }) = .ok false s.requested := by
    simp [sendFrameBufferUpdateRequest, hsend, Session.requested]
  have hfailed : (require sendFrameBufferUpdateRequest (require recvServerToClientMessage
      (require (drawImage lib) (do
        if operation.x = 0 ∧ operation.y = 0 then return true
        if !(← drawPointer lib operation.x operation.y) then return false
        return true)))).run (s.update fun c => { c with imageBuf := [], jpegBuf := [] }) =
      .ok false s.requested := require_false hrequest
  rw [← hfailed]
  simp only [capture, hkey]
  rfl

end Mrhc
