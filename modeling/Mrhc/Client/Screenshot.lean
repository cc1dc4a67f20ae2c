import Mathlib.Data.Nat.Dist
import Mrhc.Client.Composition
import Mrhc.Client.PointerMark
import Mrhc.Client.ScreenImage

/-!
# Screenshots

What a user should see of a remote screen: its pixels in their colours, and the mark of the pointer
as a cross on it. A capture that is answered with the words of the screen in raster order shows
exactly this.
-/

namespace Mrhc

/-- The picture of a screen with this word at each position. -/
def screenshot (w h : Nat) (screen : Nat → Nat → UInt32) : Mat where
  rows := h
  cols := w
  pixel := fun x y => if x < w ∧ y < h then wordColour (screen x y) else ⟨0, 0, 0⟩

/-- A box of two by two pixels covers this one, and its upper left corner is on a diagonal through
the pointer, at most four pixels away. -/
def OnCross (x y px py : Nat) : Prop :=
  ∃ cx ∈ [px, px - 1], ∃ cy ∈ [py, py - 1], cx.dist x = cy.dist y ∧ cx.dist x < 5

instance (x y px py : Nat) : Decidable (OnCross x y px py) :=
  inferInstanceAs (Decidable (∃ cx ∈ [px, px - 1], ∃ cy ∈ [py, py - 1], _))

/-- The picture with a black cross at a position. -/
def Mat.crossed (m : Mat) (x y : Nat) : Mat :=
  { m with
    pixel := fun px py =>
      if px < m.cols ∧ py < m.rows ∧ OnCross x y px py then ⟨0, 0, 0⟩ else m.pixel px py }

/-- The picture after an operation. The origin stands for no pointer. -/
def Mat.afterOperation (m : Mat) (operation : VncOperation) : Mat :=
  if operation.x = 0 ∧ operation.y = 0 then m
  else m.crossed operation.x.toNat operation.y.toNat

/-- The operation points to a place that the marks do not wrap around from, or to none. -/
def VncOperation.PointsInside (operation : VncOperation) (w h : Nat) : Prop :=
  (operation.x = 0 ∧ operation.y = 0) ∨ (operation.x.toNat < w ∧ operation.y.toNat < h)

instance (operation : VncOperation) (w h : Nat) : Decidable (operation.PointsInside w h) :=
  inferInstanceAs (Decidable (_ ∨ _))

private theorem mat_ext {m m' : Mat} (hrows : m.rows = m'.rows) (hcols : m.cols = m'.cols)
    (hpixel : ∀ x y, m.pixel x y = m'.pixel x y) : m = m' := by
  cases m
  cases m'
  obtain rfl : _ = _ := hrows
  obtain rfl : _ = _ := hcols
  exact congrArg (Mat.mk _ _) (funext fun x => funext fun y => hpixel x y)

private theorem corner_iff {v : UInt16} {bound n d : Nat} (hv : v.toNat < bound)
    (hbound : bound ≤ 65532) (hn : n < bound) (hd : d < 5) :
    (∃ e ∈ [-(d : Int), d], n = coordinate v e) ↔ n.dist v.toNat = d := by
  simp only [List.mem_cons, List.not_mem_nil, or_false, exists_eq_or_imp, exists_eq_left,
    coordinate, Nat.dist]
  constructor
  · intro h
    omega
  · intro h
    omega

section

variable {lib : Platform} {x y : UInt16} {m : Mat}

private theorem cornerCovers_iff (hx : x.toNat < m.cols) (hy : y.toNat < m.rows)
    (hcols : m.cols ≤ 65532) (hrows : m.rows ≤ 65532) (px py : Nat) :
    (∃ p ∈ markCorners x y, cornerCovers m.rows m.cols (px, py) p = true) ↔
      px < m.cols ∧ py < m.rows ∧ OnCross x.toNat y.toNat px py := by
  constructor
  · intro h
    obtain ⟨p, hp, hcovers⟩ := h
    obtain ⟨d, hd, e, he, f, hf, rfl⟩ := mem_markCorners.mp hp
    simp only [cornerCovers, Bool.and_eq_true, decide_eq_true_eq] at hcovers
    obtain ⟨⟨⟨⟨⟨hpx, hpy⟩, hleft⟩, hright⟩, hupper⟩, hlower⟩ := hcovers
    have hdx := (corner_iff hx hcols (Nat.lt_of_le_of_lt hleft hpx) hd).mp ⟨e, he, rfl⟩
    have hdy := (corner_iff hy hrows (Nat.lt_of_le_of_lt hupper hpy) hd).mp ⟨f, hf, rfl⟩
    refine ⟨hpx, hpy, coordinate x e, ?_, coordinate y f, ?_, hdx.trans hdy.symm, hdx ▸ hd⟩
    · simp only [List.mem_cons, List.not_mem_nil, or_false]
      omega
    · simp only [List.mem_cons, List.not_mem_nil, or_false]
      omega
  · intro h
    obtain ⟨hpx, hpy, cx, hcx, cy, hcy, hdist, hnear⟩ := h
    simp only [List.mem_cons, List.not_mem_nil, or_false] at hcx hcy
    obtain ⟨e, he, hxe⟩ := (corner_iff (n := cx) hx hcols (by omega) hnear).mpr rfl
    obtain ⟨f, hf, hyf⟩ := (corner_iff (n := cy) hy hrows (by omega) hnear).mpr hdist.symm
    refine ⟨⟨cx, cy⟩, mem_markCorners.mpr ⟨_, hnear, e, he, f, hf, by rw [hxe, hyf]⟩, ?_⟩
    simp only [cornerCovers, Bool.and_eq_true, decide_eq_true_eq]
    omega

theorem drawMarks_crossed (hbox : lib.FillsBox) (hx : x.toNat < m.cols) (hy : y.toNat < m.rows)
    (hcols : m.cols ≤ 65532) (hrows : m.rows ≤ 65532) :
    (List.range 5).foldl (drawMark lib x y) m = m.crossed x.toNat y.toNat := by
  obtain ⟨⟨hsameRows, hsameCols⟩, -⟩ := drawMarks_pixel hbox x y m (0, 0)
  refine mat_ext hsameRows hsameCols fun px py => ?_
  have hpixel := (drawMarks_pixel hbox x y m (px, py)).2
  have hcross := cornerCovers_iff hx hy hcols hrows px py
  refine hpixel.trans ?_
  simp only [Mat.crossed]
  cases hlast : lastWith (cornerCovers m.rows m.cols (px, py)) (markCorners x y) with
  | none =>
    have hnone := lastWith_eq_none.mp hlast
    rw [if_neg]
    · rfl
    · intro h
      obtain ⟨p, hp, hcovers⟩ := hcross.mpr h
      rw [hnone p hp] at hcovers
      cases hcovers
  | some p =>
    rw [if_pos (hcross.mp ⟨p, of_lastWith hlast⟩)]
    rfl

end

section

variable {lib : Platform} {c : VncClient}

theorem drawPixels_screenshot (hbox : lib.FillsBox) (hformat : c.pixelFormat = configuredFormat)
    (h : c.Drawable) {screen : Nat → Nat → UInt32}
    (hscreen : ∀ x y, x < c.width.toNat → y < c.height.toNat →
      c.imageBuf.getD (c.width.toNat * y + x) 0 = screen x y) :
    drawPixels lib c = .ok (screenshot c.width.toNat c.height.toNat screen) := by
  have hdraw := drawPixels_ok (h.readable lib)
  obtain ⟨hrows, hcols⟩ := drawPixels_size hbox hdraw
  rw [hdraw]
  refine congrArg Except.ok (mat_ext hrows hcols fun x y => ?_)
  simp only [screenshot]
  split
  · next hinside =>
    have hindex := Nat.lt_of_lt_of_le (raster_index_lt hinside.1 hinside.2) h.1
    have hword := hscreen x y hinside.1 hinside.2
    rw [List.getD_eq_getElem?_getD, List.getElem?_eq_getElem hindex, Option.getD_some] at hword
    rw [drawPixels_pixel hbox hdraw hinside.1 hinside.2, hformat, pixelColour_configured,
      VncClient.pixelAt_buffered lib (p := (x, y)) hindex, hword]
  · next hout => exact drawPixels_outside hbox hdraw hout

theorem showing_screenshot (hbox : lib.FillsBox) {operation : VncOperation} {w h : Nat}
    {screen : Nat → Nat → UInt32} (hpoints : operation.PointsInside w h) (hw : w ≤ 65532)
    (hh : h ≤ 65532) :
    c.showing lib operation (screenshot w h screen) =
      { c with
        image := (screenshot w h screen).afterOperation operation
        jpegBuf := lib.imencode ((screenshot w h screen).afterOperation operation) } := by
  by_cases horigin : operation.x = 0 ∧ operation.y = 0
  · simp only [VncClient.showing, Mat.afterOperation, if_pos horigin]
  · obtain ⟨hx, hy⟩ := hpoints.resolve_left horigin
    have hcross := @drawMarks_crossed lib operation.x operation.y (screenshot w h screen) hbox hx hy
      hw hh
    simp only [VncClient.showing, Mat.afterOperation, if_neg horigin, hcross]

end

/-- An update that shows a screen: its rectangles list the positions row by row and carry the word
of each. -/
structure FrameBufferUpdate.Shows (m : FrameBufferUpdate) (w h : Nat)
    (screen : Nat → Nat → UInt32) : Prop where
  area : ∀ r ∈ m.rectangles, r.toRectangle.area < 2 ^ 27
  order : wirePositions m.geometry = raster w h
  carries : ∀ p ∈ raster w h, composedPixel m.rectangles p = some (screen p.1 p.2)

private theorem raster_last {w h x y j : Nat} (hj : w * y + x < j) :
    (raster w h)[j]? ≠ some (x, y) := by
  intro hget
  obtain ⟨hlt, _⟩ := List.getElem?_eq_some_iff.mp hget
  rw [raster_length] at hlt
  obtain ⟨x', y', _, _, rfl, hget'⟩ := raster_index hlt
  obtain ⟨rfl, rfl⟩ := Prod.mk.inj (Option.some.inj (hget.symm.trans hget'))
  omega

section

variable {m : FrameBufferUpdate} {w h : Nat} {screen : Nat → Nat → UInt32}

theorem FrameBufferUpdate.Shows.length (hm : m.Shows w h screen) :
    (m.rectangles.flatMap RawRectangle.pixels).length = w * h := by
  rw [← raster_length, ← hm.order]
  exact (wirePositions_length m.rectangles).symm

/-- The words of the screen are received row by row. -/
theorem FrameBufferUpdate.Shows.word (hm : m.Shows w h screen) {x y : Nat} (hx : x < w)
    (hy : y < h) :
    (m.rectangles.flatMap RawRectangle.pixels).getD (w * y + x) 0 = screen x y := by
  have hplace : (wirePositions m.geometry)[w * y + x]? = some (x, y) := by
    rw [hm.order]
    exact raster_getElem? hx hy
  have hcomposed := composedPixel_at hplace fun j hj => by
    rw [hm.order]
    exact raster_last hj
  have hcarried := hm.carries (x, y) (mem_raster.mpr ⟨hx, hy⟩)
  exact Option.some.inj (hcomposed.symm.trans hcarried)

end

/-- A capture that is answered with a screen shows the screen after the operation. -/
theorem capture_screenshot {lib : Platform} (hbox : lib.FillsBox) {operation : VncOperation}
    {s : Session} (hformat : s.client.pixelFormat = configuredFormat) (hs : s.Captures operation)
    {w h : Nat} (hwidth : s.client.width.toNat = w) (hheight : s.client.height.toNat = h)
    (hpoints : operation.PointsInside w h) (hw : w ≤ 65532) (hh : h ≤ 65532)
    (hsize : w * h ≤ 2 ^ 31) {m : FrameBufferUpdate} {screen : Nat → Nat → UInt32}
    (hm : m.Shows w h screen) (rest : Bytes) :
    let image := (screenshot w h screen).afterOperation operation
    (capture lib operation).run (s.rest (m.bytes ++ rest)) =
      .ok true ((s.requested.rest rest).update fun c => { c with
        image := image
        imageBuf := m.rectangles.flatMap RawRectangle.pixels
        jpegBuf := lib.imencode image }) := by
  subst hwidth hheight
  have hrun := capture_message lib hs (.frameBufferUpdate m) hm.area rest
  let c := ((s.requested.rest rest).push (m.rectangles.flatMap RawRectangle.pixels)).client
  have hdrawable : c.Drawable := ⟨Nat.le_of_eq hm.length.symm, hsize⟩
  have hdraw : drawPixels lib c = _ :=
    drawPixels_screenshot (c := c) hbox hformat hdrawable fun x y hx hy => hm.word hx hy
  simp only [ServerMessage.printable, ServerMessage.pixels, if_true] at hrun
  rw [hdraw] at hrun
  refine hrun.trans (congrArg (EStateM.Result.ok true) ?_)
  exact congrArg (fun c => ({ client := c, conn := _ } : Session))
    (showing_screenshot hbox hpoints hw hh)

end Mrhc
