import Mrhc.Client.MessageRuns
import Mrhc.Client.Operation

/-!
# Framing of server messages

On a connection without short transfers each receive function consumes exactly one serialised
message. The round trip is proved for one message and then for a stream of them.
-/

namespace Mrhc

/-- The session when this input is left to receive. -/
def Session.rest (s : Session) (input : Bytes) : Session := s.on { s.conn with input := input }

@[simp] theorem Session.rest_rest (s : Session) (input input' : Bytes) :
    (s.rest input).rest input' = s.rest input' := rfl

@[simp] theorem Session.push_rest (s : Session) (pixels : List UInt32) (input : Bytes) :
    (s.push pixels).rest input = (s.rest input).push pixels := rfl

@[simp] theorem Session.on_rest (s : Session) (input : Bytes) :
    s.on (s.rest input).conn = s.rest input := rfl

theorem Session.rest_self (s : Session) : s.rest s.conn.input = s := rfl

theorem recv_message (s : Session) (n : Nat) (message rest : Bytes)
    (hn : message.length = n) (hr : s.conn.recvs = []) (hi : s.conn.input = message ++ rest) :
    s.conn.recv n = (some message, (s.rest rest).conn) := by
  rw [Socket.recv_unscheduled hr, hi, ← hn]
  simp [Session.rest]

private theorem afterPayload_words (s : Session) (pixels : List UInt32) (rest : Bytes)
    (hr : s.conn.recvs = []) (hi : s.conn.input = wordBytes pixels ++ rest) :
    afterPayload
      (s.conn.gather bufSize (s.conn.fuelFor (4 * pixels.length)) (4 * pixels.length)) s =
        .ok true ((s.rest rest).push pixels) := by
  let g := s.conn.gather bufSize (s.conn.fuelFor (4 * pixels.length)) (4 * pixels.length)
  have hlen : (wordBytes pixels).length = 4 * pixels.length := wordBytes_length pixels
  have hle : 4 * pixels.length ≤ s.conn.input.length := by rw [hi, List.length_append]; omega
  have hend : g.ending = .full := by
    have h := Socket.gather_ending (by decide : 0 < bufSize)
      (by rw [Socket.NoRecvError, hr]; simp : s.conn.NoRecvError)
      (by simp only [Socket.fuelFor]; omega :
        4 * pixels.length + s.conn.recvs.length < s.conn.fuelFor (4 * pixels.length))
    rwa [if_pos hle] at h
  have hparts := Socket.gather_full_parts hend
  have hframe := Socket.gather_frame bufSize (s.conn.fuelFor (4 * pixels.length))
    (4 * pixels.length) s.conn
  have hwhole : g.socket.recvs = [] := Socket.gather_whole_recvs hr
  have hsocket : g.socket = (s.rest rest).conn := by
    have hinput : g.socket.input = rest := by rw [hparts.2, hi, List.drop_left' hlen]
    cases hg : g.socket
    simp_all [g, Session.rest]
  have hwords : (g.chunks.map words).flatten = pixels := by
    rw [words_flatten (Socket.gather_whole_dvd (by decide : 4 ∣ bufSize) (Nat.dvd_mul_right 4 _)
      hr hle), hparts.1, hi, List.take_left' hlen, words_wordBytes]
  rw [afterPayload_full s hend, hsocket, hwords]
  rfl

/-- A raw rectangle is received whole: its pixels are appended and its bytes are consumed. -/
theorem recvRectangle_bytes (s : Session) (hbits : s.client.pixelFormat.bitsPerPixel = 0x20)
    (r : RawRectangle) (harea : r.toRectangle.area < 2 ^ 27) (rest : Bytes)
    (hr : s.conn.recvs = []) (hi : s.conn.input = r.bytes ++ rest) :
    recvRectangle.run s = .ok true ((s.rest rest).push r.pixels) := by
  have hrecv := recv_message s sizeofPixelData r.toRectangle.bytes (wordBytes r.pixels ++ rest)
    rfl hr (by rw [hi, RawRectangle.bytes, List.append_assoc])
  have henc : load32 r.toRectangle.bytes 8 = rfbEncodingRaw :=
    r.toRectangle.load_encodingType.trans (by decide : htonl rfbEncodingRaw = rfbEncodingRaw)
  have hsize : payloadSize r.toRectangle.area = 4 * r.pixels.length := by
    have hlen : r.pixels.length = r.toRectangle.area := r.pixels_length
    rw [payloadSize, hlen]
    omega
  rw [recvRectangle_run s hbits, Session.received_some hrecv]
  simp only [henc, ne_eq, not_true_eq_false, if_false, headerArea_bytes]
  rw [if_neg (by omega), hsize]
  exact afterPayload_words (s.rest (wordBytes r.pixels ++ rest)) r.pixels rest hr rfl

private theorem recvRectangles_bytes (rectangles : List RawRectangle) (s : Session)
    (hbits : s.client.pixelFormat.bitsPerPixel = 0x20)
    (harea : ∀ r ∈ rectangles, r.toRectangle.area < 2 ^ 27) (rest : Bytes)
    (hr : s.conn.recvs = [])
    (hi : s.conn.input = rectangles.flatMap RawRectangle.bytes ++ rest) :
    (recvRectangles rectangles.length).run s =
      .ok true ((s.rest rest).push (rectangles.flatMap RawRectangle.pixels)) := by
  induction rectangles generalizing s with
  | nil =>
    have hself : s.rest rest = s := by
      rw [← s.rest_self, hi]
      rfl
    simp only [List.flatMap_nil, Session.push_nil, hself]
    rfl
  | cons r rectangles ih =>
    have hfirst := recvRectangle_bytes s hbits r (harea r (by simp))
      (rectangles.flatMap RawRectangle.bytes ++ rest) hr (by rw [hi]; simp)
    have hnext := ih ((s.rest (rectangles.flatMap RawRectangle.bytes ++ rest)).push r.pixels)
      hbits (fun r' hr' => harea r' (by simp [hr'])) hr rfl
    rw [List.length_cons, recvRectangles_succ, require_true hfirst, hnext]
    simp

theorem recvFrameBufferUpdate_bytes (s : Session)
    (hbits : s.client.pixelFormat.bitsPerPixel = 0x20) (m : FrameBufferUpdate)
    (harea : ∀ r ∈ m.rectangles, r.toRectangle.area < 2 ^ 27) (rest : Bytes)
    (hr : s.conn.recvs = []) (hi : s.conn.input = m.bytes.drop 1 ++ rest) :
    recvFrameBufferUpdate.run s =
      .ok true ((s.rest rest).push (m.rectangles.flatMap RawRectangle.pixels)) := by
  have hrecv := recv_message s (sizeofFrameBufferUpdate - 1)
    ([m.padding] ++ store16 (htons (UInt16.ofNat m.rectangles.length)))
    (m.rectangles.flatMap RawRectangle.bytes ++ rest) rfl hr
    (by rw [hi]; simp [FrameBufferUpdate.bytes])
  have hcount := load_count [m.padding] m.count_lt
  rw [List.length_singleton] at hcount
  rw [recvFrameBufferUpdate_run, Session.received_some hrecv]
  simp only [hcount, Session.on_rest]
  exact recvRectangles_bytes m.rectangles
    (s.rest (m.rectangles.flatMap RawRectangle.bytes ++ rest)) hbits harea rest hr rfl

private theorem recvColours_bytes (colours : List Colour) (s : Session) (rest : Bytes)
    (hr : s.conn.recvs = []) (hi : s.conn.input = colours.flatMap Colour.bytes ++ rest) :
    (recvColours colours.length).run s = .ok true (s.rest rest) := by
  induction colours generalizing s with
  | nil =>
    have hself : s.rest rest = s := by
      rw [← s.rest_self, hi]
      rfl
    rw [hself]
    rfl
  | cons colour colours ih =>
    have hrecv := recv_message s sizeofColourData colour.bytes
      (colours.flatMap Colour.bytes ++ rest) rfl hr (by rw [hi]; simp)
    have hfirst := (recvColour_run s).trans (Session.received_some hrecv _)
    rw [List.length_cons, recvColours_succ, require_true hfirst]
    exact ih (s.rest _) hr rfl

theorem recvSetColourMapEntries_bytes (s : Session) (m : SetColourMapEntries) (rest : Bytes)
    (hr : s.conn.recvs = []) (hi : s.conn.input = m.bytes.drop 1 ++ rest) :
    recvSetColourMapEntries.run s = .ok true (s.rest rest) := by
  have hrecv := recv_message s (sizeofSetColourMapEntries - 1)
    ([m.padding] ++ store16 (htons m.firstColour) ++
      store16 (htons (UInt16.ofNat m.colours.length)))
    (m.colours.flatMap Colour.bytes ++ rest) rfl hr
    (by rw [hi]; simp [SetColourMapEntries.bytes])
  have hcount := load_count ([m.padding] ++ store16 (htons m.firstColour)) m.count_lt
  change (ntohs (load16 _ 3)).toNat = _ at hcount
  rw [recvSetColourMapEntries_run, Session.received_some hrecv]
  simp only [hcount, Session.on_rest]
  exact recvColours_bytes m.colours (s.rest (m.colours.flatMap Colour.bytes ++ rest)) rest hr rfl

/-- A cut text that fits the buffer is consumed; it is also used as a format string. -/
theorem recvServerCutText_bytes (s : Session) (m : ServerCutText) (hfit : m.text.length < bufSize)
    (rest : Bytes) (hr : s.conn.recvs = []) (hi : s.conn.input = m.bytes.drop 1 ++ rest) :
    recvServerCutText.run s =
      if formatComplete (cString m.text) then .ok true (s.rest rest)
      else .error .badFormat (s.rest rest) := by
  have hrecv := recv_message s (sizeofServerCutText - 1)
    ([m.padding.1, m.padding.2.1, m.padding.2.2] ++
      store32 (htonl (UInt32.ofNat m.text.length))) (m.text ++ rest) rfl hr
    (by rw [hi]; simp [ServerCutText.bytes])
  have hload := load32_store32 [m.padding.1, m.padding.2.1, m.padding.2.2] []
    (htonl (UInt32.ofNat m.text.length))
  have hlength : (UInt32.ofNat m.text.length).toNat = m.text.length := by
    rw [UInt32.toNat_ofNat', Nat.mod_eq_of_lt m.length_lt]
  have htext := recv_message (s.rest (m.text ++ rest)) m.text.length m.text rest rfl hr rfl
  have hsize : bufSize = 1024 := rfl
  rw [List.append_nil] at hload
  change load32 _ 3 = _ at hload
  rw [recvServerCutText_run, Session.received_some hrecv]
  simp only [hload, ntohl_htonl, Session.on_rest, recvText_run, hlength]
  rw [Session.received_some htext, if_neg (by omega)]
  rfl

/-- The messages that the client's buffers and counters can hold. -/
def ServerMessage.Receivable : ServerMessage → Prop
  | .frameBufferUpdate m => ∀ r ∈ m.rectangles, r.toRectangle.area < 2 ^ 27
  | .serverCutText m => m.text.length < bufSize
  | _ => True

/-- The messages that can be logged: a cut text is passed as a format string. -/
def ServerMessage.printable : ServerMessage → Bool
  | .serverCutText m => formatComplete (cString m.text)
  | _ => true

/-- One message is consumed byte for byte and leaves its pixels, unless its text is not
printable. -/
theorem recvServerToClientMessage_bytes (s : Session)
    (hbits : s.client.pixelFormat.bitsPerPixel = 0x20) (m : ServerMessage) (hm : m.Receivable)
    (rest : Bytes) (hr : s.conn.recvs = []) (hi : s.conn.input = m.bytes ++ rest) :
    recvServerToClientMessage.run s =
      if m.printable then .ok true ((s.rest rest).push m.pixels)
      else .error .badFormat (s.rest rest) := by
  have hcons : m.bytes = [m.bytes.headD 0] ++ m.bytes.drop 1 := by cases m <;> rfl
  have hrecv := recv_message s 1 [m.bytes.headD 0] (m.bytes.drop 1 ++ rest) rfl hr
    (by rw [hi, ← List.append_assoc, ← hcons])
  rw [recvServerToClientMessage_run, Session.received_some hrecv]
  cases m with
  | frameBufferUpdate m =>
    exact recvFrameBufferUpdate_bytes (s.rest (m.bytes.drop 1 ++ rest)) hbits m hm rest hr rfl
  | setColourMapEntries m =>
    simp only [ServerMessage.printable, ServerMessage.pixels, Session.push_nil, if_true]
    exact recvSetColourMapEntries_bytes (s.rest (m.bytes.drop 1 ++ rest)) m rest hr rfl
  | bell =>
    simp only [ServerMessage.printable, ServerMessage.pixels, Session.push_nil, if_true]
    rfl
  | serverCutText m =>
    simp only [ServerMessage.printable, ServerMessage.pixels, Session.push_nil]
    exact recvServerCutText_bytes (s.rest (m.bytes.drop 1 ++ rest)) m hm rest hr rfl

/-- The messages are received one after the other: each call returns `true`, consumes the bytes
of its message and no others, and leaves the pixels of its message and no others. -/
def RoundTrip : List ServerMessage → Session → Prop
  | [], _ => True
  | m :: ms, s => ∃ s', (clearBuf >>= fun _ => recvServerToClientMessage).run s = .ok true s' ∧
      s.conn.input = m.bytes ++ s'.conn.input ∧ s'.client.imageBuf = m.pixels ∧ RoundTrip ms s'

private theorem recvCleared_bytes (s : Session)
    (hbits : s.client.pixelFormat.bitsPerPixel = 0x20) (m : ServerMessage) (hm : m.Receivable)
    (rest : Bytes) (hr : s.conn.recvs = []) (hi : s.conn.input = m.bytes ++ rest) :
    (clearBuf >>= fun _ => recvServerToClientMessage).run s =
      if m.printable then
        .ok true ((s.update fun c => { c with imageBuf := m.pixels, jpegBuf := [] }).rest rest)
      else .error .badFormat
        ((s.update fun c => { c with imageBuf := [], jpegBuf := [] }).rest rest) := by
  have hclear : clearBuf.run s =
      .ok () (s.update fun c => { c with imageBuf := [], jpegBuf := [] }) := rfl
  rw [bind_ok hclear, recvServerToClientMessage_bytes
    (s.update fun c => { c with imageBuf := [], jpegBuf := [] }) hbits m hm rest hr hi]
  rfl

/-- A stream of receivable messages makes the round trip exactly when every cut text in it is
complete as a format string. -/
theorem recvServerToClientMessage_roundTrip (s : Session)
    (hconf : s.client.pixelFormat = configuredFormat) (hr : s.conn.recvs = [])
    (ms : List ServerMessage) (hms : ∀ m ∈ ms, m.Receivable) (rest : Bytes)
    (hi : s.conn.input = ms.flatMap ServerMessage.bytes ++ rest) :
    RoundTrip ms s ↔ ∀ m ∈ ms, m.printable = true := by
  induction ms generalizing s with
  | nil => simp [RoundTrip]
  | cons m ms ih =>
    have hi' : s.conn.input = m.bytes ++ (ms.flatMap ServerMessage.bytes ++ rest) := by
      rw [hi]; simp
    have hstep := recvCleared_bytes s (VncClient.bits_of_configured hconf) m
      (hms m (by simp)) _ hr hi'
    have hnext := ih ((s.update fun c => { c with imageBuf := m.pixels, jpegBuf := [] }).rest
      (ms.flatMap ServerMessage.bytes ++ rest)) hconf hr (fun m' hm' => hms m' (by simp [hm'])) rfl
    rw [List.forall_mem_cons, ← hnext]
    constructor
    · rintro ⟨s', hs', _, _, hrest⟩
      rw [hstep] at hs'
      by_cases hp : m.printable = true
      · rw [if_pos hp, EStateM.Result.ok.injEq] at hs'
        exact ⟨hp, hs'.2 ▸ hrest⟩
      · rw [if_neg hp] at hs'
        simp at hs'
    · rintro ⟨hp, hrest⟩
      rw [if_pos hp] at hstep
      exact ⟨_, hstep, hi', rfl, hrest⟩

/-- An update with a single pixel. -/
def onePixelAnswer : FrameBufferUpdate := ⟨0, [⟨0, 0, 1, 1, [0x04030201], rfl⟩], by decide⟩

def mixedMessages : List ServerMessage :=
  [.frameBufferUpdate onePixelAnswer, .bell, .serverCutText ⟨(0, 0, 0), ascii "100%%", by decide⟩]

theorem recvServerToClientMessage_roundTrip_mixed :
    RoundTrip mixedMessages { configuredSession with
      conn := Socket.delivering (mixedMessages.flatMap ServerMessage.bytes) } :=
  (recvServerToClientMessage_roundTrip _ rfl rfl mixedMessages
    (by simp [mixedMessages, onePixelAnswer, ServerMessage.Receivable,
      RawRectangle.toRectangle, Rectangle.area,
      bufSize, ascii]) [] (by simp [Socket.delivering])).mpr (by decide)

def formatMessage : ServerMessage := .serverCutText ⟨(0, 0, 0), ascii "%n", by decide⟩

/-- A cut text of two characters takes the logger to undefined behaviour. -/
theorem recvServerToClientMessage_formatMessage :
    formatMessage.Receivable ∧
      ¬RoundTrip [formatMessage] { configuredSession with
        conn := Socket.delivering formatMessage.bytes } := by
  have hfits : formatMessage.Receivable := (by decide : 2 < 1024)
  refine ⟨hfits, ?_⟩
  rintro ⟨s', hs', _⟩
  rw [recvCleared_bytes _ rfl formatMessage hfits [] rfl (by simp [Socket.delivering])] at hs'
  simp only [show formatMessage.printable = false from rfl] at hs'
  simp at hs'

end Mrhc
