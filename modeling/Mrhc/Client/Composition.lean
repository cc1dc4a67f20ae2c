import Mathlib.Algebra.Order.BigOperators.Group.List
import Mrhc.Client.Interleaving

/-!
# Composition of an update

What a screen should show after an update of several rectangles, and which updates the client
composes so. It appends the pixels of all rectangles to one buffer and draws the buffer row by
row, so the positions of the rectangles must come in that order.
-/

namespace Mrhc

/-- The screen positions of a rectangle's pixels, in the order of its payload. -/
def Rectangle.positions (r : Rectangle) : List (Nat × Nat) :=
  (raster r.width.toNat r.height.toNat).map fun p =>
    (r.xPosition.toNat + p.1, r.yPosition.toNat + p.2)

def Rectangle.covers (p : Nat × Nat) (r : Rectangle) : Bool :=
  r.xPosition.toNat ≤ p.1 && p.1 < r.xPosition.toNat + r.width.toNat &&
    r.yPosition.toNat ≤ p.2 && p.2 < r.yPosition.toNat + r.height.toNat

def Rectangle.Inside (r : Rectangle) (w h : Nat) : Prop :=
  r.xPosition.toNat + r.width.toNat ≤ w ∧ r.yPosition.toNat + r.height.toNat ≤ h

/-- The rectangles lie inside the screen and together cover it. -/
def CoversScreen (gs : List Rectangle) (w h : Nat) : Prop :=
  (∀ r ∈ gs, r.Inside w h) ∧ ∀ p ∈ raster w h, ∃ r ∈ gs, r.covers p = true

instance (r : Rectangle) (w h : Nat) : Decidable (r.Inside w h) :=
  inferInstanceAs (Decidable (_ ∧ _))

instance (gs : List Rectangle) (w h : Nat) : Decidable (CoversScreen gs w h) :=
  inferInstanceAs (Decidable (_ ∧ _))

/-- The screen positions of all pixels of an update, in wire order. -/
def wirePositions (gs : List Rectangle) : List (Nat × Nat) := gs.flatMap Rectangle.positions

/-- The headers of an update. -/
def FrameBufferUpdate.geometry (m : FrameBufferUpdate) : List Rectangle :=
  m.rectangles.map RawRectangle.toRectangle

/-- The pixel that a rectangle carries for a screen position. -/
def RawRectangle.pixelFor (r : RawRectangle) (p : Nat × Nat) : UInt32 :=
  r.pixels.getD (r.width.toNat * (p.2 - r.yPosition.toNat) + (p.1 - r.xPosition.toNat)) 0

/-- The pixel of the last rectangle in wire order that covers a position. -/
def composedPixel (rs : List RawRectangle) (p : Nat × Nat) : Option UInt32 :=
  (lastWith (fun r => r.toRectangle.covers p) rs).map (·.pixelFor p)

/-- `capture` returns `true` and the image shows the composed pixel at every position. -/
def Composes (lib : Platform) (operation : VncOperation) (s : Session) (m : FrameBufferUpdate)
    (rest : Bytes) : Prop :=
  ∃ t, (capture lib operation).run (s.rest (m.bytes ++ rest)) = .ok true t ∧
    ∀ p ∈ raster s.client.width.toNat s.client.height.toNat,
      ∃ pixel, composedPixel m.rectangles p = some pixel ∧
        t.client.image.pixel p.1 p.2 = pixelColour configuredFormat pixel

/-- The pixels of an update with their positions, in wire order. -/
private def wirePixels (rs : List RawRectangle) : List ((Nat × Nat) × UInt32) :=
  rs.flatMap fun r => r.toRectangle.positions.zip r.pixels

private theorem positions_length (r : RawRectangle) :
    r.toRectangle.positions.length = r.pixels.length := by
  simp [Rectangle.positions, RawRectangle.toRectangle, r.pixels_length]

private theorem mem_positions {r : Rectangle} {p : Nat × Nat} :
    p ∈ r.positions ↔ r.covers p = true := by
  obtain ⟨x, y⟩ := p
  simp only [Rectangle.positions, List.mem_map, mem_raster, Rectangle.covers,
    Bool.and_eq_true, decide_eq_true_eq, Prod.mk.injEq, Prod.exists]
  constructor
  · rintro ⟨a, b, ⟨ha, hb⟩, rfl, rfl⟩
    omega
  · intro h
    exact ⟨x - r.xPosition.toNat, y - r.yPosition.toNat, by omega, by omega, by omega⟩

theorem wirePositions_length (rs : List RawRectangle) :
    (wirePositions (rs.map RawRectangle.toRectangle)).length =
      (rs.flatMap RawRectangle.pixels).length := by
  rw [wirePositions, List.flatMap_map]
  simp [List.length_flatMap, positions_length]

theorem wirePositions_length_eq_area (gs : List Rectangle) :
    (wirePositions gs).length = (gs.map Rectangle.area).sum := by
  simp [wirePositions, List.length_flatMap, Rectangle.positions]
  rfl

theorem mem_wirePositions {gs : List Rectangle} {p : Nat × Nat} :
    p ∈ wirePositions gs ↔ ∃ r ∈ gs, r.covers p = true := by
  simp [wirePositions, mem_positions]

private theorem wirePixels_eq_zip (rs : List RawRectangle) :
    wirePixels rs = (wirePositions (rs.map RawRectangle.toRectangle)).zip
      (rs.flatMap RawRectangle.pixels) := by
  induction rs with
  | nil => rfl
  | cons r rs ih =>
    rw [wirePixels, List.flatMap_cons, ← wirePixels, ih, wirePositions, wirePositions,
      List.map_cons, List.flatMap_cons, List.flatMap_cons, List.zip_append (positions_length r)]

private theorem positions_getElem? {r : Rectangle} {p : Nat × Nat} (h : r.covers p = true) :
    r.positions[r.width.toNat * (p.2 - r.yPosition.toNat) + (p.1 - r.xPosition.toNat)]? =
      some p := by
  simp only [Rectangle.covers, Bool.and_eq_true, decide_eq_true_eq] at h
  rw [Rectangle.positions, List.getElem?_map, raster_getElem? (by omega) (by omega),
    Option.map_some]
  exact congrArg some (Prod.ext (by dsimp only; omega) (by dsimp only; omega))

private theorem positions_index {r : Rectangle} {p : Nat × Nat} {j : Nat}
    (h : r.positions[j]? = some p) :
    j = r.width.toNat * (p.2 - r.yPosition.toNat) + (p.1 - r.xPosition.toNat) := by
  obtain ⟨hlt, _⟩ := List.getElem?_eq_some_iff.mp h
  rw [Rectangle.positions, List.length_map, raster_length] at hlt
  obtain ⟨x, y, _, _, hj, hget⟩ := raster_index hlt
  rw [Rectangle.positions, List.getElem?_map, hget, Option.map_some, Option.some.injEq] at h
  subst h
  simpa using hj

private theorem lastWith_rectangle (r : RawRectangle) (p : Nat × Nat) :
    lastWith (fun entry => entry.1 = p) (r.toRectangle.positions.zip r.pixels) =
      if r.toRectangle.covers p then some (p, r.pixelFor p) else none := by
  by_cases hc : r.toRectangle.covers p = true
  · have hget := positions_getElem? hc
    obtain ⟨hlt, _⟩ := List.getElem?_eq_some_iff.mp hget
    rw [positions_length] at hlt
    rw [if_pos hc]
    refine lastWith_of_getElem? (List.getElem?_zip_eq_some.mpr ⟨hget, ?_⟩) (by simp) ?_
    · exact getElem?_eq_getD hlt 0
    · intro j entry hj hentry
      by_contra hp
      simp only [Bool.not_eq_false, decide_eq_true_eq] at hp
      have hposition := (List.getElem?_zip_eq_some.mp hentry).1
      rw [hp] at hposition
      have hindex := positions_index hposition
      omega
  · rw [if_neg hc]
    refine lastWith_eq_none.mpr fun entry hentry => ?_
    by_contra hp
    simp only [Bool.not_eq_false, decide_eq_true_eq] at hp
    have hmem := mem_positions.mp (List.of_mem_zip hentry).1
    exact hc (hp ▸ hmem)

/-- The composed pixel is the last one in wire order with its position. -/
theorem composedPixel_eq (rs : List RawRectangle) (p : Nat × Nat) :
    composedPixel rs p = (lastWith (fun entry => entry.1 = p) (wirePixels rs)).map Prod.snd := by
  rw [wirePixels, lastWith_flatMap fun r _ => lastWith_rectangle r p, composedPixel,
    Option.map_map]
  rfl

/-- The composed pixel at the last place of its position on the wire. -/
theorem composedPixel_at {m : FrameBufferUpdate} {p : Nat × Nat} {i : Nat}
    (hi : (wirePositions m.geometry)[i]? = some p)
    (hlast : ∀ j, i < j → (wirePositions m.geometry)[j]? ≠ some p) :
    composedPixel m.rectangles p =
      some ((m.rectangles.flatMap RawRectangle.pixels).getD i 0) := by
  obtain ⟨hlt, _⟩ := List.getElem?_eq_some_iff.mp hi
  rw [FrameBufferUpdate.geometry, wirePositions_length] at hlt
  have hlastWith : lastWith (fun entry => entry.1 = p) (wirePixels m.rectangles) =
      some (p, (m.rectangles.flatMap RawRectangle.pixels).getD i 0) := by
    rw [wirePixels_eq_zip]
    refine lastWith_of_getElem? (List.getElem?_zip_eq_some.mpr ⟨hi, getElem?_eq_getD hlt 0⟩)
      (by simp) fun j entry hj hentry => ?_
    by_contra hp
    simp only [Bool.not_eq_false, decide_eq_true_eq] at hp
    exact hlast j hj (hp ▸ (List.getElem?_zip_eq_some.mp hentry).1)
  rw [composedPixel_eq, hlastWith]
  rfl

private theorem exists_rectangles (gs : List Rectangle)
    (hraw : ∀ r ∈ gs, r.encodingType = rfbEncodingRaw) (pixels : List UInt32)
    (hlen : pixels.length = (gs.map Rectangle.area).sum) :
    ∃ rs : List RawRectangle, rs.map RawRectangle.toRectangle = gs ∧
      rs.flatMap RawRectangle.pixels = pixels := by
  induction gs generalizing pixels with
  | nil => exact ⟨[], rfl, (List.length_eq_zero_iff.mp (by simpa using hlen)).symm⟩
  | cons r gs ih =>
    rw [List.map_cons, List.sum_cons] at hlen
    obtain ⟨rs, hgeometry, hpixels⟩ := ih (fun r' hr' => hraw r' (by simp [hr']))
      (pixels.drop r.area) (by rw [List.length_drop]; omega)
    refine ⟨⟨r.xPosition, r.yPosition, r.width, r.height, pixels.take r.area,
      by rw [List.length_take, ← Rectangle.area]; omega⟩ :: rs, ?_, ?_⟩
    · rw [List.map_cons, hgeometry, RawRectangle.toRectangle, ← hraw r (by simp)]
    · rw [List.flatMap_cons, hpixels, List.take_append_drop]

private theorem exists_update {gs : List Rectangle} (hcount : gs.length < 2 ^ 16)
    (hraw : ∀ r ∈ gs, r.encodingType = rfbEncodingRaw) {pixels : List UInt32}
    (hlen : pixels.length = (gs.map Rectangle.area).sum) :
    ∃ m : FrameBufferUpdate, m.geometry = gs ∧ m.rectangles.flatMap RawRectangle.pixels = pixels := by
  obtain ⟨rs, hgeometry, hpixels⟩ := exists_rectangles gs hraw pixels hlen
  have hlength : rs.length < 2 ^ 16 := by
    rw [← hgeometry, List.length_map] at hcount
    exact hcount
  exact ⟨⟨0, rs, hlength⟩, hgeometry, hpixels⟩

private theorem capture_screen {lib : Platform} (hbox : lib.FillsBox) {operation : VncOperation}
    {s : Session} (hconf : s.client.pixelFormat = configuredFormat) (hs : s.Captures operation)
    (hpointer : operation.x = 0 ∧ operation.y = 0) {m : FrameBufferUpdate}
    (hm : (ServerMessage.frameBufferUpdate m).Receivable) (rest : Bytes)
    (hanswer : s.client.width.toNat * s.client.height.toNat ≤
      (m.rectangles.flatMap RawRectangle.pixels).length)
    (hscreen : s.client.width.toNat * s.client.height.toNat ≤ 2 ^ 31) :
    ∃ t, (capture lib operation).run (s.rest (m.bytes ++ rest)) = .ok true t ∧
      ∀ x y, x < s.client.width.toNat → y < s.client.height.toNat →
        t.client.image.pixel x y = pixelColour configuredFormat
          ((m.rectangles.flatMap RawRectangle.pixels).getD (s.client.width.toNat * y + x) 0) := by
  have hrun := capture_message lib hs (.frameBufferUpdate m) hm rest
  have hdrawable : ((s.requested.rest rest).push
      (ServerMessage.frameBufferUpdate m).pixels).client.Drawable := ⟨hanswer, hscreen⟩
  have hdraw := drawPixels_ok (hdrawable.readable lib)
  simp only [ServerMessage.printable, if_true] at hrun
  rw [hdraw] at hrun
  refine ⟨_, hrun, fun x y hx hy => ?_⟩
  have hpixel := drawPixels_pixel hbox hdraw hx hy
  have hindex := Nat.lt_of_lt_of_le (raster_index_lt hx hy) hanswer
  have hformat : ((s.requested.rest rest).push
      (ServerMessage.frameBufferUpdate m).pixels).client.pixelFormat = configuredFormat := hconf
  rw [hformat, VncClient.pixelAt_buffered lib (p := (x, y)) hindex] at hpixel
  simp only [VncClient.showing, hpointer, Session.update_client, and_self, if_true]
  rw [List.getD_eq_getElem?_getD, List.getElem?_eq_getElem hindex, Option.getD_some]
  exact hpixel

private theorem covers_enough {m : FrameBufferUpdate} {w h : Nat}
    (hcovers : CoversScreen m.geometry w h) :
    w * h ≤ (m.rectangles.flatMap RawRectangle.pixels).length := by
  have hsub : raster w h ⊆ wirePositions m.geometry :=
    fun p hp => mem_wirePositions.mpr (hcovers.2 p hp)
  have hle := (List.subperm_of_subset (raster_nodup w h) hsub).length_le
  rwa [raster_length, FrameBufferUpdate.geometry, wirePositions_length] at hle

private theorem composes_colour {lib : Platform} (hbox : lib.FillsBox) {operation : VncOperation}
    {s : Session} (hconf : s.client.pixelFormat = configuredFormat) (hs : s.Captures operation)
    (hpointer : operation.x = 0 ∧ operation.y = 0) {m : FrameBufferUpdate}
    (hm : (ServerMessage.frameBufferUpdate m).Receivable) {rest : Bytes}
    (hcovers : CoversScreen m.geometry s.client.width.toNat s.client.height.toNat)
    (h : Composes lib operation s m rest) {x y : Nat} (hx : x < s.client.width.toNat)
    (hy : y < s.client.height.toNat) :
    ∃ pixel, composedPixel m.rectangles (x, y) = some pixel ∧
      pixelColour configuredFormat
        ((m.rectangles.flatMap RawRectangle.pixels).getD (s.client.width.toNat * y + x) 0) =
        pixelColour configuredFormat pixel := by
  obtain ⟨t, hrun, himage⟩ := h
  obtain ⟨_, hscreen⟩ := of_capture_message (m := .frameBufferUpdate m) hs hm hrun
  obtain ⟨t', hrun', hshown⟩ :=
    capture_screen hbox hconf hs hpointer hm rest (covers_enough hcovers) hscreen
  obtain ⟨-, rfl⟩ := EStateM.Result.ok.inj (hrun.symm.trans hrun')
  obtain ⟨pixel, hcomposed, hcolour⟩ := himage (x, y) (mem_raster.mpr ⟨hx, hy⟩)
  exact ⟨pixel, hcomposed, (hshown x y hx hy).symm.trans hcolour⟩

/-- The last place on the wire of each screen position is its raster index. -/
private def EndsInRasterOrder (gs : List Rectangle) (w h : Nat) : Prop :=
  ∀ x y, x < w → y < h → (wirePositions gs)[w * y + x]? = some (x, y) ∧
    ∀ j, w * y + x < j → (wirePositions gs)[j]? ≠ some (x, y)

private theorem endsInRasterOrder_iff {gs : List Rectangle} {w h : Nat}
    (hcovers : CoversScreen gs w h) : EndsInRasterOrder gs w h ↔ wirePositions gs = raster w h := by
  constructor
  · intro hends
    refine List.ext_getElem? fun j => ?_
    by_cases hj : j < w * h
    · obtain ⟨x, y, hx, hy, rfl, hget⟩ := raster_index hj
      rw [hget, (hends x y hx hy).1]
    · -- nothing is left beyond the screen: its position would come too late
      have hnone : (raster w h)[j]? = none := List.getElem?_eq_none (by rw [raster_length]; omega)
      rw [hnone]
      refine List.getElem?_eq_none (Nat.le_of_not_lt fun hlt => ?_)
      have hget := List.getElem?_eq_getElem hlt
      obtain ⟨r, hr, hcover⟩ := mem_wirePositions.mp (List.mem_of_getElem? hget)
      have hinside := hcovers.1 r hr
      simp only [Rectangle.covers, Bool.and_eq_true, decide_eq_true_eq] at hcover
      have hx : ((wirePositions gs)[j]).1 < w := by have := hinside.1; omega
      have hy : ((wirePositions gs)[j]).2 < h := by have := hinside.2; omega
      have hindex := (List.getElem?_eq_some_iff.mp (raster_getElem? hx hy)).1
      rw [raster_length] at hindex
      exact (hends _ _ hx hy).2 j (by omega) hget
  · intro hwire x y hx hy
    rw [hwire]
    refine ⟨raster_getElem? hx hy, fun j hj hget => ?_⟩
    obtain ⟨hlt, _⟩ := List.getElem?_eq_some_iff.mp hget
    rw [raster_length] at hlt
    obtain ⟨x', y', _, _, rfl, hget'⟩ := raster_index hlt
    obtain ⟨rfl, rfl⟩ := Prod.mk.inj (Option.some.inj (hget.symm.trans hget'))
    omega

private theorem geometry_receivable {m : FrameBufferUpdate}
    (harea : (m.geometry.map Rectangle.area).sum < 2 ^ 27) :
    (ServerMessage.frameBufferUpdate m).Receivable := by
  intro r hr
  have hmem : r.toRectangle.area ∈ m.geometry.map Rectangle.area :=
    List.mem_map_of_mem (List.mem_map_of_mem hr)
  have hle := List.single_le_sum (fun a _ => Nat.zero_le a) _ hmem
  omega

/-- Updates of a geometry are composed by position, whatever their pixels, exactly when the
rectangles list the screen row by row without an overlap. -/
theorem capture_composes_iff (lib : Platform) (hbox : lib.FillsBox) (operation : VncOperation)
    (s : Session) (hconf : s.client.pixelFormat = configuredFormat) (hr : s.conn.recvs = [])
    (hkey : operation.key = []) (hpointer : operation.x = 0 ∧ operation.y = 0)
    (hsend : (s.conn.send (frameBufferUpdateRequest s.client.width s.client.height)).1 = true)
    (gs : List Rectangle) (hcount : gs.length < 2 ^ 16)
    (hraw : ∀ r ∈ gs, r.encodingType = rfbEncodingRaw)
    (hcovers : CoversScreen gs s.client.width.toNat s.client.height.toNat)
    (harea : (gs.map Rectangle.area).sum < 2 ^ 27) (rest : Bytes) :
    (∀ m : FrameBufferUpdate, m.geometry = gs → Composes lib operation s m rest) ↔
      wirePositions gs = raster s.client.width.toNat s.client.height.toNat := by
  have hs : s.Captures operation := ⟨VncClient.bits_of_configured hconf, hr, hkey, hsend⟩
  have htotal := wirePositions_length_eq_area gs
  rw [← endsInRasterOrder_iff hcovers]
  constructor
  · intro hall x y hx hy
    obtain ⟨i, hi, hlast⟩ := exists_last_index (mem_wirePositions.mpr
      (hcovers.2 (x, y) (mem_raster.mpr ⟨hx, hy⟩)))
    obtain ⟨hlt, _⟩ := List.getElem?_eq_some_iff.mp hi
    -- a payload that differs from zero only where the position comes last on the wire
    let pixels := (List.replicate (wirePositions gs).length (0 : UInt32)).set i 1
    obtain ⟨m, rfl, hpixels⟩ := exists_update hcount hraw
      (by simp [pixels, htotal] : pixels.length = (gs.map Rectangle.area).sum)
    obtain ⟨pixel, hcomposed, hcolour⟩ := composes_colour hbox hconf hs hpointer
      (geometry_receivable harea) hcovers (hall m rfl) hx hy
    have hone := composedPixel_at hi hlast
    rw [hpixels] at hone hcolour
    obtain rfl : pixels.getD i 0 = pixel := Option.some.inj (hone.symm.trans hcomposed)
    have hpixel_i : pixels.getD i 0 = 1 := by simp [pixels, List.getD_eq_getElem?_getD, hlt]
    by_cases hindex : s.client.width.toNat * y + x = i
    · rw [hindex]
      exact ⟨hi, hlast⟩
    · exfalso
      have hzero : pixels.getD (s.client.width.toNat * y + x) 0 = 0 := by
        rw [List.getD_eq_getElem?_getD, List.getElem?_set_ne (Ne.symm hindex),
          List.getElem?_replicate]
        split <;> rfl
      rw [hpixel_i, hzero] at hcolour
      exact absurd hcolour (by decide)
  · intro hends m hgeometry
    subst hgeometry
    have hwire := (endsInRasterOrder_iff hcovers).mp hends
    have hlen : (m.rectangles.flatMap RawRectangle.pixels).length =
        s.client.width.toNat * s.client.height.toNat := by
      rw [← wirePositions_length, ← FrameBufferUpdate.geometry, hwire, raster_length]
    have hscreen : s.client.width.toNat * s.client.height.toNat < 2 ^ 27 := by
      rw [← raster_length, ← hwire, htotal]
      exact harea
    obtain ⟨t, hrun, hshown⟩ := capture_screen hbox hconf hs hpointer (geometry_receivable harea)
      rest (by omega) (by omega)
    refine ⟨t, hrun, fun p hp => ?_⟩
    obtain ⟨hx, hy⟩ := mem_raster.mp hp
    obtain ⟨hi, hlast⟩ := hends p.1 p.2 hx hy
    exact ⟨_, composedPixel_at hi hlast, hshown p.1 p.2 hx hy⟩

theorem capture_composes_square :
    Composes Platform.plain ⟨0, 0, 0, []⟩ squareScreen squareUpdate [] :=
  (capture_composes_iff Platform.plain Platform.plain_fillsBox ⟨0, 0, 0, []⟩ squareScreen rfl rfl
    rfl (by decide) rfl squareUpdate.geometry (by decide) (by decide) (by decide) (by decide)
    []).mpr (by decide) squareUpdate rfl

private theorem leftColumn_length :
    [(1 : UInt32), 2].length = (1 : UInt16).toNat * (2 : UInt16).toNat := rfl

private theorem rightColumn_length :
    [(3 : UInt32), 4].length = (1 : UInt16).toNat * (2 : UInt16).toNat := rfl

def columnsUpdate : FrameBufferUpdate :=
  ⟨0, [⟨0, 0, 1, 2, [1, 2], leftColumn_length⟩, ⟨1, 0, 1, 2, [3, 4], rightColumn_length⟩],
    two_rectangles_lt⟩

/-- The lower left pixel is drawn with the upper right one's colour. -/
theorem capture_columns_not_composed :
    CoversScreen columnsUpdate.geometry 2 2 ∧
      ¬Composes Platform.plain ⟨0, 0, 0, []⟩ squareScreen columnsUpdate [] := by
  refine ⟨by decide, ?_⟩
  intro hcomposes
  have hs : squareScreen.Captures ⟨0, 0, 0, []⟩ := ⟨rfl, rfl, rfl, rfl⟩
  have hm : (ServerMessage.frameBufferUpdate columnsUpdate).Receivable :=
    geometry_receivable (by decide)
  obtain ⟨pixel, hcomposed, hcolour⟩ := composes_colour Platform.plain_fillsBox rfl hs (by decide)
    hm (by decide) hcomposes (x := 0) (y := 1) (by decide) (by decide)
  have htwo : pixel = 2 := Option.some.inj (hcomposed.symm.trans (by decide))
  rw [htwo] at hcolour
  exact absurd hcolour (by decide)

end Mrhc
