import Mrhc.Client.D3des
import Mrhc.Client.VncClient

/-!
# Session opening

The handshake and initialisation messages of `vnc_client`, then `initialize`, `authenticate` and
`configure`. A receive function copies what one `recv` returned into a zeroed structure, so the
loads from a short buffer read zeros.
-/

namespace Mrhc

def connectToServer : ClientM Bool := fun s => .ok s.conn.connects s

def recvProtocolVersion : ClientM Bool := do
  match ← recv sizeofProtocolVersion with
  | none => return false
  | some buf =>
    loggerDebug buf
    let protocolVersion := zeroPad sizeofProtocolVersion buf
    if protocolVersion = rfbProtocolVersion33 then
      modifyClient fun c => { c with version := cString buf }
    else if protocolVersion = rfbProtocolVersion37 then
      modifyClient fun c => { c with version := cString buf }
    else if protocolVersion = rfbProtocolVersion38 then
      modifyClient fun c => { c with version := cString buf }
    else
      return false
    return true

def sendProtocolVersion : ClientM Bool := do
  let c ← getClient
  if sizeofProtocolVersion < c.version.length then stop .outOfBounds
  let protocolVersion := zeroPad sizeofProtocolVersion c.version
  if !(← send protocolVersion) then return false
  -- a version of twelve bytes has no terminating zero, so the memory behind it is read as well
  loggerDebug (protocolVersion ++ c.versionTail)
  return true

def recvSupportedSecurityTypes : ClientM Bool := do
  match ← recv sizeofSupportedSecurityTypes with
  | none => return false
  | some buf =>
    let num := buf.getD 0 0
    modifyClient fun c => { c with
      securityTypes := c.securityTypes ++ (List.range num.toNat).map fun i => buf.getD (1 + i) 0 }
    return true

def sendSecurityType : ClientM Bool := do
  if !(← send [rfbSecurityTypeVncAuth]) then return false
  return true

def recvVncAuthChallenge : ClientM Bool := do
  match ← recv rfbVncAuthChallengeLength with
  | none => return false
  | some buf =>
    modifyClient fun c => { c with challenge := buf ++ c.challenge.drop buf.length }
    return true

/-- The memory that `password.c_str()` points to. -/
def VncClient.passwordMemory (c : VncClient) : Bytes := c.password ++ 0 :: c.passwordTail

/-- The two halves of the challenge, each encrypted under the first eight bytes of the key. -/
def encryptChallenge (key challenge : Bytes) : Bytes :=
  let knL := D3des.deskey key .en0
  D3des.des knL (challenge.take 8) ++ D3des.des knL ((challenge.drop 8).take 8)

def sendVncAuthResponse : ClientM Bool := do
  modifyClient fun c => { c with challenge := encryptChallenge c.passwordMemory c.challenge }
  if !(← send (← getClient).challenge) then return false
  return true

def recvSecurityResult : ClientM Bool := do
  match ← recv sizeofSecurityResult with
  | none => return false
  | some buf =>
    let status := ntohl (load32 buf 0)
    if status ≠ rfbSecurityResultOk then return false
    return true

def sendClientInit : ClientM Bool := do
  if !(← send [rfbSharedFlagOn]) then return false
  return true

def recvServerInit : ClientM Bool := do
  match ← recv sizeofServerInit with
  | none => return false
  | some buf =>
    modifyClient fun c => { c with
      width := ntohs (load16 buf 0)
      height := ntohs (load16 buf 2) }
    let nameLength := ntohl (load32 buf 20)
    -- the copy reads past `name_string` when the announced length exceeds it
    if rfbBufSize < nameLength.toNat then stop .outOfBounds
    modifyClient fun c => { c with name := cString ((buf.drop 24).take nameLength.toNat) }
    return true

def sendSetPixelFormat : ClientM Bool := do
  modifyClient fun c => { c with pixelFormat := configuredFormat }
  if !(← send ([rfbMessageTypeSetPixelFormat, 0, 0, 0] ++ configuredFormat.bytes)) then
    return false
  return true

def sendSetEncodings : ClientM Bool := do
  if !(← send ([rfbMessageTypeSetEncodings, 0] ++ store16 (htons 1) ++
      store32 (htonl rfbEncodingRaw))) then
    return false
  return true

def initializeClient : ClientM Bool := do
  if !(← connectToServer) then return false
  return true

def authenticate : ClientM Bool := do
  -- protocol version
  if !(← recvProtocolVersion) then return false
  if !(← sendProtocolVersion) then return false
  -- security type
  if !(← recvSupportedSecurityTypes) then return false
  if !(← sendSecurityType) then return false
  -- vnc auth
  if !(← recvVncAuthChallenge) then return false
  if !(← sendVncAuthResponse) then return false
  if !(← recvSecurityResult) then return false
  -- client/server init
  if !(← sendClientInit) then return false
  if !(← recvServerInit) then return false
  return true

def configure : ClientM Bool := do
  if !(← sendSetPixelFormat) then return false
  if !(← sendSetEncodings) then return false
  return true

end Mrhc
