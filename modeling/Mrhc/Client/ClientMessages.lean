import Mrhc.Client.Operation
import Mrhc.Client.Opening
import Mrhc.Framework.Codec

/-!
# Client messages on the wire

The client-to-server messages of the protocol and their big-endian serialisation. Every message
tells where it ends, so that a stream of them has one parse. What the client sends are such
messages.
-/

namespace Mrhc

def bigEndian16 (x : UInt16) : Bytes := [UInt8.ofNat (x.toNat / 256), x.toUInt8]

def bigEndian32 (x : UInt32) : Bytes :=
  [UInt8.ofNat (x.toNat / 16777216), UInt8.ofNat (x.toNat / 65536), UInt8.ofNat (x.toNat / 256),
    x.toUInt8]

/-- A message of a client. The fields of a pixel format are its values here, not what is in
memory. -/
inductive ClientMessage where
  | setPixelFormat (padding : UInt8 × UInt8 × UInt8) (format : PixelFormat)
      (formatPadding : UInt8 × UInt8 × UInt8)
  | setEncodings (padding : UInt8) (encodings : List UInt32) (count_lt : encodings.length < 2 ^ 16)
  | frameBufferUpdateRequest (incremental : UInt8) (x y width height : UInt16)
  | keyEvent (downFlag : UInt8) (padding : UInt8 × UInt8) (key : UInt32)
  | pointerEvent (buttonMask : UInt8) (x y : UInt16)

namespace ClientMessage

/-- 20, 4 + 4n, 10, 8 and 6 bytes. -/
def bytes : ClientMessage → Bytes
  | setPixelFormat padding f formatPadding =>
    [rfbMessageTypeSetPixelFormat, padding.1, padding.2.1, padding.2.2, f.bitsPerPixel, f.depth,
      f.bigEndianFlag, f.trueColourFlag] ++ bigEndian16 f.redMax ++ bigEndian16 f.greenMax ++
      bigEndian16 f.blueMax ++ [f.redShift, f.greenShift, f.blueShift, formatPadding.1,
        formatPadding.2.1, formatPadding.2.2]
  | setEncodings padding encodings _ =>
    [rfbMessageTypeSetEncodings, padding] ++ bigEndian16 (UInt16.ofNat encodings.length) ++
      encodings.flatMap bigEndian32
  | frameBufferUpdateRequest incremental x y width height =>
    [rfbMessageTypeFrameBufferUpdateRequest, incremental] ++ bigEndian16 x ++ bigEndian16 y ++
      bigEndian16 width ++ bigEndian16 height
  | keyEvent downFlag padding key =>
    [rfbMessageTypeKeyEvent, downFlag, padding.1, padding.2] ++ bigEndian32 key
  | pointerEvent buttonMask x y =>
    [rfbMessageTypePointerEvent, buttonMask] ++ bigEndian16 x ++ bigEndian16 y

/-- The parser of one message. -/
def parse : Bytes → Option (ClientMessage × Bytes)
  | 0 :: p₀ :: p₁ :: p₂ :: bits :: depth :: big :: colour :: r₀ :: r₁ :: g₀ :: g₁ :: b₀ :: b₁ ::
      red :: green :: blue :: q₀ :: q₁ :: q₂ :: rest =>
    some (setPixelFormat (p₀, p₁, p₂) ⟨bits, depth, big, colour, word16 r₁ r₀, word16 g₁ g₀,
      word16 b₁ b₀, red, green, blue⟩ (q₀, q₁, q₂), rest)
  | 2 :: padding :: n₀ :: n₁ :: rest =>
    let n := (word16 n₁ n₀).toNat
    let encodings := (words (rest.take (4 * n))).map ntohl
    if h : encodings.length < 2 ^ 16 then some (setEncodings padding encodings h, rest.drop (4 * n))
    else none
  | 3 :: incremental :: x₀ :: x₁ :: y₀ :: y₁ :: w₀ :: w₁ :: h₀ :: h₁ :: rest =>
    some (frameBufferUpdateRequest incremental (word16 x₁ x₀) (word16 y₁ y₀) (word16 w₁ w₀)
      (word16 h₁ h₀), rest)
  | 4 :: downFlag :: p₀ :: p₁ :: k₀ :: k₁ :: k₂ :: k₃ :: rest =>
    some (keyEvent downFlag (p₀, p₁) (word32 k₃ k₂ k₁ k₀), rest)
  | 5 :: buttonMask :: x₀ :: x₁ :: y₀ :: y₁ :: rest =>
    some (pointerEvent buttonMask (word16 x₁ x₀) (word16 y₁ y₀), rest)
  | _ => none

end ClientMessage

theorem store16_htons (x : UInt16) : store16 (htons x) = bigEndian16 x :=
  store16_word16 _ _

theorem store32_htonl (x : UInt32) : store32 (htonl x) = bigEndian32 x :=
  store32_word32 _ _ _ _

namespace ClientMessage

theorem bytes_ne_nil (m : ClientMessage) : m.bytes ≠ [] := by
  cases m <;> simp [bytes]

private theorem encodings_read (encodings : List UInt32) :
    (words (encodings.flatMap bigEndian32)).map ntohl = encodings := by
  have hbytes : encodings.flatMap bigEndian32 = wordBytes (encodings.map htonl) := by
    rw [wordBytes, List.flatMap_map]
    exact congrArg encodings.flatMap (funext fun e => (store32_htonl e).symm)
  rw [hbytes, words_wordBytes, List.map_map]
  exact List.map_id'' ntohl_htonl encodings

private theorem encodings_length (encodings : List UInt32) :
    (encodings.flatMap bigEndian32).length = 4 * encodings.length := by
  rw [List.length_flatMap]
  simp [bigEndian32, Nat.mul_comm]

private theorem parse_setEncodings (padding : UInt8) (encodings : List UInt32)
    (count_lt : encodings.length < 2 ^ 16) (rest : Bytes) :
    parse ((setEncodings padding encodings count_lt).bytes ++ rest) =
      some (setEncodings padding encodings count_lt, rest) := by
  have hcount : (UInt16.ofNat encodings.length).toNat = encodings.length := by
    rw [UInt16.toNat_ofNat', Nat.mod_eq_of_lt count_lt]
  have htake : (encodings.flatMap bigEndian32 ++ rest).take (4 * encodings.length) =
      encodings.flatMap bigEndian32 := List.take_left' (encodings_length encodings)
  have hdrop : (encodings.flatMap bigEndian32 ++ rest).drop (4 * encodings.length) = rest :=
    List.drop_left' (encodings_length encodings)
  have hword := word16_store16 (UInt16.ofNat encodings.length)
  simp only [bytes, bigEndian16, rfbMessageTypeSetEncodings, List.cons_append, List.nil_append,
    parse]
  rw [hword, hcount]
  simp only [htake, hdrop, encodings_read, count_lt, dif_pos]

theorem parse_bytes (m : ClientMessage) (rest : Bytes) :
    parse (m.bytes ++ rest) = some (m, rest) := by
  cases m with
  | setPixelFormat padding format formatPadding =>
    simp [parse, bytes, bigEndian16, rfbMessageTypeSetPixelFormat]
  | setEncodings padding encodings count_lt =>
    exact parse_setEncodings padding encodings count_lt rest
  | frameBufferUpdateRequest incremental x y width height =>
    simp [parse, bytes, bigEndian16, rfbMessageTypeFrameBufferUpdateRequest]
  | keyEvent downFlag padding key =>
    simp [parse, bytes, bigEndian32, rfbMessageTypeKeyEvent]
  | pointerEvent buttonMask x y =>
    simp [parse, bytes, bigEndian16, rfbMessageTypePointerEvent]

/-- The grammar of a client's stream. -/
def codec : Codec ClientMessage UInt8 where
  encode := bytes
  decode := parse
  encode_ne_nil := bytes_ne_nil
  decode_encode := parse_bytes

/-- The format that a client requests. -/
def requestedFormat : PixelFormat where
  bitsPerPixel := 32
  depth := 32
  bigEndianFlag := 0
  trueColourFlag := 1
  redMax := 255
  greenMax := 255
  blueMax := 255
  redShift := 16
  greenShift := 8
  blueShift := 0

def requestFormat : ClientMessage := setPixelFormat (0, 0, 0) requestedFormat (0, 0, 0)

def requestEncodings : ClientMessage := setEncodings 0 [rfbEncodingRaw] (by decide)

/-- The request for the whole of a screen. -/
def requestScreen (width height : UInt16) : ClientMessage :=
  frameBufferUpdateRequest rfbIncrementalOff 0 0 width height

def pressKey (key : UInt32) : ClientMessage := keyEvent rfbKeyDown (0, 0) key

def releaseKey (key : UInt32) : ClientMessage := keyEvent rfbKeyUp (0, 0) key

/-- The mask is what a byte holds of the shifted bit. -/
def pressButton (button : UInt8) (x y : UInt16) : ClientMessage :=
  pointerEvent (UInt8.ofNat (rfbPointerDown <<< button.toNat)) x y

def releaseButtons (x y : UInt16) : ClientMessage := pointerEvent 0 x y

end ClientMessage

/-! What the client sends are messages of the grammar. -/

theorem setPixelFormatMessage_bytes :
    setPixelFormatMessage = ClientMessage.requestFormat.bytes := by decide

theorem setEncodingsMessage_bytes :
    setEncodingsMessage = ClientMessage.requestEncodings.bytes := by decide

theorem frameBufferUpdateRequest_bytes (width height : UInt16) :
    frameBufferUpdateRequest width height = (ClientMessage.requestScreen width height).bytes := by
  simp only [frameBufferUpdateRequest, store16_htons]
  rfl

theorem keyEvent_bytes (downFlag : UInt8) (key : UInt32) :
    keyEvent downFlag key = (ClientMessage.keyEvent downFlag (0, 0) key).bytes := by
  simp only [keyEvent, store32_htonl]
  rfl

theorem pointerEvent_bytes (buttonMask : UInt8) (x y : UInt16) :
    pointerEvent buttonMask x y = (ClientMessage.pointerEvent buttonMask x y).bytes := by
  simp only [pointerEvent, store16_htons]
  rfl

end Mrhc
