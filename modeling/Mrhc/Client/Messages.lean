import Mrhc.Client.VncClient

/-!
# Server messages

The receive functions for the messages that a server sends during a session, down to the loop
that reads a rectangle's pixels.
-/

namespace Mrhc

/-- The loop over one received buffer. Each pixel is four bytes at `buf[i]`, whatever the step. -/
def pushPixels (buf : Bytes) (bytesPerPixel : Nat) : Nat → Nat → ClientM Unit
  | 0, _ => stop .endless
  | fuel + 1, i => do
    if i < buf.length then
      if bufSize < i + 4 then stop .outOfBounds
      let pixel := load32 buf i
      modifyClient fun c => { c with imageBuf := c.imageBuf ++ [pixel] }
      pushPixels buf bytesPerPixel fuel (i + bytesPerPixel)

/-- The payload loop of `recv_rectangle`. -/
def recvPixels (totalPixelBytes : UInt32) (bytesPerPixel : UInt8) : Nat → UInt32 → ClientM Bool
  | 0, _ => stop .endless
  | fuel + 1, totalRecv => do
    if totalRecv < totalPixelBytes then
      let buf ←
        if (totalPixelBytes - totalRecv).toNat < bufSize then
          recv (totalPixelBytes - totalRecv).toNat
        else recv bufSize
      match buf with
      | none => return false
      | some buf =>
        pushPixels buf bytesPerPixel.toNat (buf.length + 1) 0
        recvPixels totalPixelBytes bytesPerPixel fuel (totalRecv + UInt32.ofNat buf.length)
    else return true

/-- The number of iterations after which the payload loop has ended, if it ever ends. -/
def pixelFuel (totalPixelBytes : UInt32) : ClientM Nat := fun s =>
  .ok (s.conn.fuelFor totalPixelBytes.toNat) s

def recvRectangle : ClientM Bool := do
  match ← recv sizeofPixelData with
  | none => return false
  | some buf =>
    let width := ntohs (load16 buf 4)
    let height := ntohs (load16 buf 6)
    let encodingType := load32 buf 8
    if encodingType ≠ rfbEncodingRaw then return false
    let bitsPerPixel := (← getClient).pixelFormat.bitsPerPixel
    let bytesPerPixel := bitsPerPixel / 8
    -- `width * height` is computed in `int`
    if 2 ^ 31 ≤ width.toNat * height.toNat then stop .signedOverflow
    let totalPixelCount := UInt32.ofNat (width.toNat * height.toNat)
    let totalPixelBytes := totalPixelCount * bitsPerPixel.toUInt32 / 8
    recvPixels totalPixelBytes bytesPerPixel (← pixelFuel totalPixelBytes) 0

def recvRectangles : Nat → ClientM Bool
  | 0 => return true
  | numberOfRectangles + 1 => do
    if !(← recvRectangle) then return false
    recvRectangles numberOfRectangles

def recvFrameBufferUpdate : ClientM Bool := do
  -- the message type has already been received
  match ← recv (sizeofFrameBufferUpdate - 1) with
  | none => return false
  | some buf =>
    let numberOfRectangles := ntohs (load16 buf 1)
    if !(← recvRectangles numberOfRectangles.toNat) then return false
    return true

def recvColour : ClientM Bool := do
  match ← recv sizeofColourData with
  | none => return false
  | some _ => return true

def recvColours : Nat → ClientM Bool
  | 0 => return true
  | numberOfColours + 1 => do
    if !(← recvColour) then return false
    recvColours numberOfColours

def recvSetColourMapEntries : ClientM Bool := do
  match ← recv (sizeofSetColourMapEntries - 1) with
  | none => return false
  | some buf =>
    let numberOfColours := ntohs (load16 buf 3)
    if !(← recvColours numberOfColours.toNat) then return false
    return true

def recvBell : ClientM Bool := return true

def recvText (length : UInt32) : ClientM Bool := do
  match ← recv length.toNat with
  | none => return false
  | some buf =>
    -- `recv` has written past the buffer, or filled it without a terminating zero
    if bufSize < buf.length ∨ (buf.length = bufSize ∧ 0 ∉ buf) then stop .outOfBounds
    loggerDebug buf
    return true

def recvServerCutText : ClientM Bool := do
  match ← recv (sizeofServerCutText - 1) with
  | none => return false
  | some buf =>
    let length := ntohl (load32 buf 3)
    if !(← recvText length) then return false
    return true

def recvServerToClientMessage : ClientM Bool := do
  match ← recv 1 with
  | none => return false
  | some buf =>
    let messageType := buf.getD 0 0
    if messageType = rfbMessageTypeFrameBufferUpdate then recvFrameBufferUpdate
    else if messageType = rfbMessageTypeSetColourMapEntries then recvSetColourMapEntries
    else if messageType = rfbMessageTypeBell then recvBell
    else if messageType = rfbMessageTypeServerCutText then recvServerCutText
    else return false

end Mrhc
