import Mrhc.Client.VncClient

/-!
# Drawing

The screen image of the received pixels and the mark at the pointer position.
-/

namespace Mrhc

/-- The colour of one pixel under a pixel format. -/
def pixelColour (f : PixelFormat) (pixel : UInt32) : Scalar where
  red := ((pixel >>> f.redShift.toUInt32) &&& (ntohs f.redMax).toUInt32).toUInt8
  green := ((pixel >>> f.greenShift.toUInt32) &&& (ntohs f.greenMax).toUInt32).toUInt8
  blue := ((pixel >>> f.blueShift.toUInt32) &&& (ntohs f.blueMax).toUInt32).toUInt8

/-- `image_buf[i]`, which is not checked against the number of elements. -/
def VncClient.wordAt (lib : Platform) (c : VncClient) (i : Nat) : Option UInt32 :=
  if i < c.imageBuf.length then c.imageBuf[i]? else lib.imageTail i

/-- The body of the loops in `draw_image`. The index `width * y + x` is computed in `int`. -/
def drawPixel (lib : Platform) (c : VncClient) (y : Nat) (image : Mat) (x : Nat) :
    Except Stop Mat :=
  if 2 ^ 31 ≤ c.width.toNat * y + x then .error .signedOverflow
  else match c.wordAt lib (c.width.toNat * y + x) with
    | none => .error .outOfBounds
    | some pixel =>
      .ok (lib.rectangle image ⟨x, y⟩ ⟨x + 1, y + 1⟩ (pixelColour c.pixelFormat pixel))

def drawPixels (lib : Platform) (c : VncClient) : Except Stop Mat :=
  (List.range c.height.toNat).foldlM
    (fun image y => (List.range c.width.toNat).foldlM (drawPixel lib c y) image)
    ⟨c.height.toNat, c.width.toNat, fun _ _ => ⟨0, 0, 0⟩⟩

def drawImage (lib : Platform) : ClientM Bool := do
  match drawPixels lib (← getClient) with
  | .error reason => stop reason
  | .ok image =>
    modifyClient fun c => { c with image := image, jpegBuf := lib.imencode image }
    return true

/-- The four corners of the mark at distance `d`. The coordinates are 16-bit. -/
def drawMark (lib : Platform) (x y : UInt16) (image : Mat) (d : Nat) : Mat :=
  let leftX := x - UInt16.ofNat d
  let rightX := x + UInt16.ofNat d
  let upperY := y - UInt16.ofNat d
  let lowerY := y + UInt16.ofNat d
  let square := fun (image : Mat) (px py : UInt16) =>
    lib.rectangle image ⟨px.toNat, py.toNat⟩ ⟨px.toNat + 1, py.toNat + 1⟩ ⟨0, 0, 0⟩
  square (square (square (square image leftX upperY) rightX upperY) leftX lowerY) rightX lowerY

def drawPointer (lib : Platform) (x y : UInt16) : ClientM Bool := do
  if x = 0 ∧ y = 0 then return true
  modifyClient fun c =>
    let image := (List.range 5).foldl (drawMark lib x y) c.image
    { c with image := image, jpegBuf := lib.imencode image }
  return true

end Mrhc
