import Mrhc.Client.Protocol

/-!
# Server messages on the wire

The server-to-client messages of the protocol and their serialisation, independent of how the
client receives them. Padding bytes are arbitrary.
-/

namespace Mrhc

/-- The header of a rectangle of pixel data in some encoding. -/
structure Rectangle where
  xPosition : UInt16
  yPosition : UInt16
  width : UInt16
  height : UInt16
  encodingType : UInt32
deriving DecidableEq, Repr

def Rectangle.area (r : Rectangle) : Nat := r.width.toNat * r.height.toNat

/-- The twelve bytes of the rectangle header. -/
def Rectangle.bytes (r : Rectangle) : Bytes :=
  store16 (htons r.xPosition) ++ store16 (htons r.yPosition) ++ store16 (htons r.width) ++
    store16 (htons r.height) ++ store32 (htonl r.encodingType)

/-- A rectangle in raw encoding with one 32-bit word for each of its pixels, row by row. -/
structure RawRectangle where
  xPosition : UInt16
  yPosition : UInt16
  width : UInt16
  height : UInt16
  pixels : List UInt32
  pixels_length : pixels.length = width.toNat * height.toNat

def RawRectangle.toRectangle (r : RawRectangle) : Rectangle :=
  ⟨r.xPosition, r.yPosition, r.width, r.height, rfbEncodingRaw⟩

def RawRectangle.bytes (r : RawRectangle) : Bytes := r.toRectangle.bytes ++ wordBytes r.pixels

structure Colour where
  red : UInt16
  green : UInt16
  blue : UInt16
deriving DecidableEq, Repr

def Colour.bytes (c : Colour) : Bytes :=
  store16 (htons c.red) ++ store16 (htons c.green) ++ store16 (htons c.blue)

structure FrameBufferUpdate where
  padding : UInt8
  rectangles : List RawRectangle
  count_lt : rectangles.length < 2 ^ 16

structure SetColourMapEntries where
  padding : UInt8
  firstColour : UInt16
  colours : List Colour
  count_lt : colours.length < 2 ^ 16

structure ServerCutText where
  padding : UInt8 × UInt8 × UInt8
  text : Bytes
  length_lt : text.length < 2 ^ 32

inductive ServerMessage where
  | frameBufferUpdate (m : FrameBufferUpdate)
  | setColourMapEntries (m : SetColourMapEntries)
  | bell
  | serverCutText (m : ServerCutText)

def FrameBufferUpdate.bytes (m : FrameBufferUpdate) : Bytes :=
  [rfbMessageTypeFrameBufferUpdate, m.padding] ++
    store16 (htons (UInt16.ofNat m.rectangles.length)) ++ m.rectangles.flatMap RawRectangle.bytes

def SetColourMapEntries.bytes (m : SetColourMapEntries) : Bytes :=
  [rfbMessageTypeSetColourMapEntries, m.padding] ++ store16 (htons m.firstColour) ++
    store16 (htons (UInt16.ofNat m.colours.length)) ++ m.colours.flatMap Colour.bytes

def ServerCutText.bytes (m : ServerCutText) : Bytes :=
  [rfbMessageTypeServerCutText, m.padding.1, m.padding.2.1, m.padding.2.2] ++
    store32 (htonl (UInt32.ofNat m.text.length)) ++ m.text

def ServerMessage.bytes : ServerMessage → Bytes
  | .frameBufferUpdate m => m.bytes
  | .setColourMapEntries m => m.bytes
  | .bell => [rfbMessageTypeBell]
  | .serverCutText m => m.bytes

/-- The pixels of a message's rectangles in wire order. -/
def ServerMessage.pixels : ServerMessage → List UInt32
  | .frameBufferUpdate m => m.rectangles.flatMap RawRectangle.pixels
  | _ => []

@[simp] theorem Rectangle.bytes_length (r : Rectangle) : r.bytes.length = sizeofPixelData := rfl

@[simp] theorem Colour.bytes_length (c : Colour) : c.bytes.length = sizeofColourData := rfl

theorem load16_store16 (pre post : Bytes) (x : UInt16) :
    load16 (pre ++ store16 x ++ post) pre.length = x := by
  simp [load16, store16, List.getD_eq_getElem?_getD]

theorem load32_store32 (pre post : Bytes) (x : UInt32) :
    load32 (pre ++ store32 x ++ post) pre.length = x := by
  simp [load32, store32, List.getD_eq_getElem?_getD]

theorem load_count (pre : Bytes) {n : Nat} (hn : n < 2 ^ 16) :
    (ntohs (load16 (pre ++ store16 (htons (UInt16.ofNat n))) pre.length)).toNat = n := by
  have hload := load16_store16 pre [] (htons (UInt16.ofNat n))
  rw [List.append_nil] at hload
  rw [hload, ntohs_htons, UInt16.toNat_ofNat', Nat.mod_eq_of_lt hn]

theorem Rectangle.load_width (r : Rectangle) : ntohs (load16 r.bytes 4) = r.width := by
  have h := load16_store16 (store16 (htons r.xPosition) ++ store16 (htons r.yPosition))
    (store16 (htons r.height) ++ store32 (htonl r.encodingType)) (htons r.width)
  rw [← List.append_assoc] at h
  exact (congrArg ntohs h).trans (ntohs_htons _)

theorem Rectangle.load_height (r : Rectangle) : ntohs (load16 r.bytes 6) = r.height := by
  have h := load16_store16 (store16 (htons r.xPosition) ++ store16 (htons r.yPosition) ++
    store16 (htons r.width)) (store32 (htonl r.encodingType)) (htons r.height)
  exact (congrArg ntohs h).trans (ntohs_htons _)

/-- The client reads the encoding without converting its byte order. -/
theorem Rectangle.load_encodingType (r : Rectangle) :
    load32 r.bytes 8 = htonl r.encodingType := by
  have h := load32_store32 (store16 (htons r.xPosition) ++ store16 (htons r.yPosition) ++
    store16 (htons r.width) ++ store16 (htons r.height)) [] (htonl r.encodingType)
  rwa [List.append_nil] at h

end Mrhc
