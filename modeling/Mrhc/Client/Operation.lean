import Mrhc.Client.Drawing
import Mrhc.Client.Messages

/-!
# Operate and capture

The input events that an operation sends, and the capture of the screen after it.
-/

namespace Mrhc

def keyBackspace : Bytes := ascii "Backspace"
def keyPeriod : Bytes := ascii "."
def keyEnter : Bytes := ascii "Enter"
def keySpace : Bytes := ascii "Space"
def keySlash : Bytes := ascii "/"

def convertKeyToCode (lib : Platform) (key : Bytes) : UInt32 :=
  let keyCode := lib.xStringToKeysym (cString key)
  if keyCode ≠ 0 then keyCode
  else if key = keyBackspace then rfbKeyCodeBackspace
  else if key = keyPeriod then rfbKeyCodePeriod
  else if key = keyEnter then rfbKeyCodeEnter
  else if key = keySpace then rfbKeyCodeSpace
  else if key = keySlash then rfbKeyCodeSlash
  else 0

/-- The eight bytes of a `key_event_t`. -/
def keyEvent (downFlag : UInt8) (keyCode : UInt32) : Bytes :=
  [rfbMessageTypeKeyEvent, downFlag, 0, 0] ++ store32 (htonl keyCode)

def sendKeyEvent (lib : Platform) (key : Bytes) : ClientM Bool := do
  let keyCode := convertKeyToCode lib key
  if keyCode = 0 then return true
  if !(← send (keyEvent rfbKeyDown keyCode)) then return false
  if !(← send (keyEvent rfbKeyUp keyCode)) then return false
  return true

/-- The six bytes of a `pointer_event_t`. -/
def pointerEvent (buttonMask : UInt8) (x y : UInt16) : Bytes :=
  [rfbMessageTypePointerEvent, buttonMask] ++ store16 (htons x) ++ store16 (htons y)

def sendPointerEvent (x y : UInt16) (button : UInt8) : ClientM Bool := do
  -- the shift is done in `int`
  if 32 ≤ button.toNat then stop .badShift
  let buttonMask := UInt8.ofNat (rfbPointerDown <<< button.toNat)
  if !(← send (pointerEvent buttonMask x y)) then return false
  if !(← send (pointerEvent 0 x y)) then return false
  return true

/-- The ten bytes of a `frame_buffer_update_request_t` for the whole screen. -/
def frameBufferUpdateRequest (width height : UInt16) : Bytes :=
  [rfbMessageTypeFrameBufferUpdateRequest, rfbIncrementalOff] ++ store16 (htons 0) ++
    store16 (htons 0) ++ store16 (htons width) ++ store16 (htons height)

def sendFrameBufferUpdateRequest : ClientM Bool := do
  let c ← getClient
  if !(← send (frameBufferUpdateRequest c.width c.height)) then return false
  return true

def clearBuf : ClientM Unit := modifyClient fun c => { c with imageBuf := [], jpegBuf := [] }

def operate (lib : Platform) (operation : VncOperation) : ClientM Bool := do
  if operation.key ≠ [] then
    if !(← sendKeyEvent lib operation.key) then return false
    return true
  -- no pointer
  if operation.x = 0 ∧ operation.y = 0 then return true
  if !(← sendPointerEvent operation.x operation.y operation.button) then return false
  return true

def capture (lib : Platform) (operation : VncOperation) : ClientM Bool := do
  if operation.key ≠ [] then return true
  clearBuf
  if !(← sendFrameBufferUpdateRequest) then return false
  if !(← recvServerToClientMessage) then return false
  if !(← drawImage lib) then return false
  -- no pointer
  if operation.x = 0 ∧ operation.y = 0 then return true
  if !(← drawPointer lib operation.x operation.y) then return false
  return true

end Mrhc
