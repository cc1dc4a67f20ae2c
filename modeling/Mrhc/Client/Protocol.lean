import Mrhc.Framework.Bytes

/-!
# RFB constants and structures

The parts of `rfb_protocol.h` and of the buffer size in `mrhc_common.h` that the client uses.
Fields wider than a byte hold what the source stores in them, network byte order included.
-/

namespace Mrhc

def bufSize : Nat := 1024

def rfbBufSize : Nat := 256

/-- `RFB 003.003\n` -/
def rfbProtocolVersion33 : Bytes :=
  [0x52, 0x46, 0x42, 0x20, 0x30, 0x30, 0x33, 0x2e, 0x30, 0x30, 0x33, 0x0a]

/-- `RFB 003.007\n` -/
def rfbProtocolVersion37 : Bytes :=
  [0x52, 0x46, 0x42, 0x20, 0x30, 0x30, 0x33, 0x2e, 0x30, 0x30, 0x37, 0x0a]

/-- `RFB 003.008\n` -/
def rfbProtocolVersion38 : Bytes :=
  [0x52, 0x46, 0x42, 0x20, 0x30, 0x30, 0x33, 0x2e, 0x30, 0x30, 0x38, 0x0a]

def rfbSecurityTypeVncAuth : UInt8 := 0x02
def rfbVncAuthChallengeLength : Nat := 16
def rfbSecurityResultOk : UInt32 := 0x00
def rfbSharedFlagOn : UInt8 := 0x01
def rfbIncrementalOff : UInt8 := 0x00
def rfbEncodingRaw : UInt32 := 0x00
def rfbKeyUp : UInt8 := 0x00
def rfbKeyDown : UInt8 := 0x01
def rfbPointerDown : Nat := 0x01
def rfbMessageTypeSetPixelFormat : UInt8 := 0x00
def rfbMessageTypeSetEncodings : UInt8 := 0x02
def rfbMessageTypeFrameBufferUpdateRequest : UInt8 := 0x03
def rfbMessageTypeKeyEvent : UInt8 := 0x04
def rfbMessageTypePointerEvent : UInt8 := 0x05
def rfbMessageTypeFrameBufferUpdate : UInt8 := 0x00
def rfbMessageTypeSetColourMapEntries : UInt8 := 0x01
def rfbMessageTypeBell : UInt8 := 0x02
def rfbMessageTypeServerCutText : UInt8 := 0x03

def rfbKeyCodeBackspace : UInt32 := 0xff08
def rfbKeyCodePeriod : UInt32 := 0x002e
def rfbKeyCodeEnter : UInt32 := 0xff0d
def rfbKeyCodeSpace : UInt32 := 0xff80
def rfbKeyCodeSlash : UInt32 := 0x002f

/-- `pixel_format_t` without its padding. -/
structure PixelFormat where
  bitsPerPixel : UInt8
  depth : UInt8
  bigEndianFlag : UInt8
  trueColourFlag : UInt8
  redMax : UInt16
  greenMax : UInt16
  blueMax : UInt16
  redShift : UInt8
  greenShift : UInt8
  blueShift : UInt8
deriving DecidableEq, Repr

/-- The value-initialised `pixel_format_t`. -/
def PixelFormat.zero : PixelFormat := ⟨0, 0, 0, 0, 0, 0, 0, 0, 0, 0⟩

/-- The sixteen bytes of a `pixel_format_t` in memory. -/
def PixelFormat.bytes (f : PixelFormat) : Bytes :=
  [f.bitsPerPixel, f.depth, f.bigEndianFlag, f.trueColourFlag] ++ store16 f.redMax ++
    store16 f.greenMax ++ store16 f.blueMax ++ [f.redShift, f.greenShift, f.blueShift, 0, 0, 0]

/-- The format that `send_set_pixel_format` requests. -/
def configuredFormat : PixelFormat where
  bitsPerPixel := 0x20
  depth := 0x20
  bigEndianFlag := 0x00
  trueColourFlag := 0x01
  redMax := htons 0xff
  greenMax := htons 0xff
  blueMax := htons 0xff
  redShift := 0x10
  greenShift := 0x08
  blueShift := 0x00

/-! Sizes of the structures that are received, and the offsets of their fields. -/

def sizeofProtocolVersion : Nat := 12
def sizeofSupportedSecurityTypes : Nat := 1 + rfbBufSize
def sizeofSecurityResult : Nat := 4
def sizeofServerInit : Nat := 24 + rfbBufSize
def sizeofFrameBufferUpdate : Nat := 4
def sizeofSetColourMapEntries : Nat := 6
def sizeofServerCutText : Nat := 8
def sizeofPixelData : Nat := 12
def sizeofColourData : Nat := 6

end Mrhc
