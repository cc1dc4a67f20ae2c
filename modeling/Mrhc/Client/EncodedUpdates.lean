import Mrhc.Client.CutText
import Mrhc.Client.DrawnImage
import Mrhc.Client.Frames

/-!
# Updates in other encodings

A server may send rectangles that are not raw. The client rejects such a rectangle after its
header, whatever follows the header on the stream.
-/

namespace Mrhc

/-- A rectangle in some encoding. The payload of a raw one has four bytes for each pixel. -/
structure EncodedRectangle where
  header : Rectangle
  payload : Bytes
  payload_length : header.encodingType = rfbEncodingRaw → payload.length = 4 * header.area

def EncodedRectangle.bytes (r : EncodedRectangle) : Bytes := r.header.bytes ++ r.payload

structure EncodedUpdate where
  padding : UInt8
  rectangles : List EncodedRectangle
  count_lt : rectangles.length < 2 ^ 16

def EncodedUpdate.bytes (m : EncodedUpdate) : Bytes :=
  [rfbMessageTypeFrameBufferUpdate, m.padding] ++
    store16 (htons (UInt16.ofNat m.rectangles.length)) ++
    m.rectangles.flatMap EncodedRectangle.bytes

/-- A server message whose rectangles may have any encoding. -/
inductive EncodedMessage where
  | frameBufferUpdate (m : EncodedUpdate)
  | setColourMapEntries (m : SetColourMapEntries)
  | bell
  | serverCutText (m : ServerCutText)

def EncodedMessage.bytes : EncodedMessage → Bytes
  | .frameBufferUpdate m => m.bytes
  | .setColourMapEntries m => m.bytes
  | .bell => [rfbMessageTypeBell]
  | .serverCutText m => m.bytes

/-- The rectangles are raw and their sizes are computed without a wrap, except that the last one
may have another encoding without a payload. An area that overflows `int` is undefined behaviour:
nothing is asked of what follows it only because the model goes no further. -/
def RectanglesInStep : List EncodedRectangle → Prop
  | [] => True
  | r :: rectangles =>
    if r.header.encodingType = rfbEncodingRaw then
      2 ^ 31 ≤ r.header.area ∨ (r.header.area < 2 ^ 27 ∧ RectanglesInStep rectangles)
    else r.payload = [] ∧ rectangles = []

instance decideRectanglesInStep :
    (rectangles : List EncodedRectangle) → Decidable (RectanglesInStep rectangles)
  | [] => inferInstanceAs (Decidable True)
  | r :: rectangles =>
    have := decideRectanglesInStep rectangles
    inferInstanceAs (Decidable (if r.header.encodingType = rfbEncodingRaw then
      2 ^ 31 ≤ r.header.area ∨ (r.header.area < 2 ^ 27 ∧ RectanglesInStep rectangles)
      else r.payload = [] ∧ rectangles = []))

/-- Receiving the message leaves the stream at its end, or does not return. -/
def EncodedMessage.InStep : EncodedMessage → Prop
  | .frameBufferUpdate m => RectanglesInStep m.rectangles
  | _ => True

instance : (m : EncodedMessage) → Decidable m.InStep
  | .frameBufferUpdate m => inferInstanceAs (Decidable (RectanglesInStep m.rectangles))
  | .setColourMapEntries _ => inferInstanceAs (Decidable True)
  | .bell => inferInstanceAs (Decidable True)
  | .serverCutText _ => inferInstanceAs (Decidable True)

private theorem words_payload {r : EncodedRectangle}
    (h : r.header.encodingType = rfbEncodingRaw) :
    (words r.payload).length = r.header.width.toNat * r.header.height.toNat := by
  have hlength := r.payload_length h
  rw [Rectangle.area] at hlength
  rw [words_length, hlength]
  omega

/-- The raw rectangle with these pixels. -/
def EncodedRectangle.toRaw (r : EncodedRectangle) (h : r.header.encodingType = rfbEncodingRaw) :
    RawRectangle where
  xPosition := r.header.xPosition
  yPosition := r.header.yPosition
  width := r.header.width
  height := r.header.height
  pixels := words r.payload
  pixels_length := words_payload h

theorem EncodedRectangle.toRaw_header {r : EncodedRectangle}
    (h : r.header.encodingType = rfbEncodingRaw) : (r.toRaw h).toRectangle = r.header := by
  rw [RawRectangle.toRectangle, ← h]
  rfl

theorem EncodedRectangle.toRaw_bytes {r : EncodedRectangle}
    (h : r.header.encodingType = rfbEncodingRaw) : (r.toRaw h).bytes = r.bytes := by
  have hdvd : 4 ∣ r.payload.length := by
    rw [r.payload_length h]
    exact Nat.dvd_mul_right 4 _
  have hpixels : wordBytes (r.toRaw h).pixels = r.payload := wordBytes_words hdvd
  rw [RawRectangle.bytes, toRaw_header h, hpixels, EncodedRectangle.bytes]

section

variable {s t : Session} {b : Bool} {rest : Bytes}

theorem recvRectangle_rejected (hbits : s.client.pixelFormat.bitsPerPixel = 0x20) (r : Rectangle)
    (henc : r.encodingType ≠ rfbEncodingRaw) (input : Bytes) (hr : s.conn.recvs = [])
    (hi : s.conn.input = r.bytes ++ input) : recvRectangle.run s = .ok false (s.rest input) := by
  have hload : load32 r.bytes 8 ≠ rfbEncodingRaw := by
    rw [r.load_encodingType]
    intro h
    exact henc (ntohl_eq_zero.mp h)
  rw [recvRectangle_run s hbits,
    Session.received_some (recv_message s sizeofPixelData r.bytes input rfl hr hi), if_pos hload]
  rfl

theorem recvRectangle_overflows (hbits : s.client.pixelFormat.bitsPerPixel = 0x20)
    (r : Rectangle) (henc : r.encodingType = rfbEncodingRaw) (harea : 2 ^ 31 ≤ r.area)
    (input : Bytes) (hr : s.conn.recvs = []) (hi : s.conn.input = r.bytes ++ input) :
    recvRectangle.run s = .error .signedOverflow (s.rest input) := by
  have hload : load32 r.bytes 8 = rfbEncodingRaw := by
    rw [r.load_encodingType, henc]
    rfl
  rw [recvRectangle_run s hbits,
    Session.received_some (recv_message s sizeofPixelData r.bytes input rfl hr hi),
    if_neg (not_not.mpr hload), headerArea_bytes, if_pos harea]
  rfl

/-- Rectangles in step are consumed whenever their receipt returns. -/
theorem recvRectangles_inStep {rectangles : List EncodedRectangle}
    (hbits : s.client.pixelFormat.bitsPerPixel = 0x20) (hstep : RectanglesInStep rectangles)
    (hr : s.conn.recvs = [])
    (hi : s.conn.input = rectangles.flatMap EncodedRectangle.bytes ++ rest)
    (h : (recvRectangles rectangles.length).run s = .ok b t) : t.conn.input = rest := by
  induction rectangles generalizing s with
  | nil =>
    cases h
    exact hi
  | cons r rectangles ih =>
    have hhead : s.conn.input =
        r.bytes ++ (rectangles.flatMap EncodedRectangle.bytes ++ rest) := by
      rw [hi, List.flatMap_cons, List.append_assoc]
    rw [List.length_cons, recvRectangles_succ] at h
    rw [RectanglesInStep] at hstep
    by_cases henc : r.header.encodingType = rfbEncodingRaw
    · rw [if_pos henc] at hstep
      cases hstep with
      | inl hover =>
        rw [require_error (recvRectangle_overflows hbits r.header henc hover _ hr
          (by rw [hhead, EncodedRectangle.bytes, List.append_assoc]))] at h
        cases h
      | inr hfits =>
        have harea : (r.toRaw henc).toRectangle.area < 2 ^ 27 := by
          rw [EncodedRectangle.toRaw_header henc]
          exact hfits.1
        have hfirst := recvRectangle_bytes s hbits (r.toRaw henc) harea
          (rectangles.flatMap EncodedRectangle.bytes ++ rest) hr
          (by rw [hhead, EncodedRectangle.toRaw_bytes henc])
        rw [require_true hfirst] at h
        exact ih (s := (s.rest (rectangles.flatMap EncodedRectangle.bytes ++ rest)).push
          (r.toRaw henc).pixels) hbits hfits.2 hr rfl h
    · rw [if_neg henc] at hstep
      obtain ⟨hpayload, hlast⟩ := hstep
      subst hlast
      have hheader : s.conn.input = r.header.bytes ++ rest := by
        rw [hhead, EncodedRectangle.bytes, hpayload, List.append_nil, List.flatMap_nil,
          List.nil_append]
      rw [require_false (recvRectangle_rejected hbits r.header henc rest hr hheader)] at h
      cases h
      rfl

private theorem recvUpdate_inStep {m : EncodedUpdate}
    (hbits : s.client.pixelFormat.bitsPerPixel = 0x20) (hstep : RectanglesInStep m.rectangles)
    (hr : s.conn.recvs = []) (hi : s.conn.input = m.bytes.drop 1 ++ rest)
    (h : recvFrameBufferUpdate.run s = .ok b t) : t.conn.input = rest := by
  have hrecv := recv_message s (sizeofFrameBufferUpdate - 1)
    ([m.padding] ++ store16 (htons (UInt16.ofNat m.rectangles.length)))
    (m.rectangles.flatMap EncodedRectangle.bytes ++ rest) rfl hr
    (by rw [hi]; simp [EncodedUpdate.bytes])
  have hcount := load_count [m.padding] m.count_lt
  rw [List.length_singleton] at hcount
  rw [recvFrameBufferUpdate_run, Session.received_some hrecv] at h
  simp only [hcount, Session.on_rest] at h
  exact recvRectangles_inStep (s := s.rest (m.rectangles.flatMap EncodedRectangle.bytes ++ rest))
    hbits hstep hr rfl h

private theorem recvCutText_inStep {m : ServerCutText} (hr : s.conn.recvs = [])
    (hi : s.conn.input = m.bytes.drop 1 ++ rest) (h : recvServerCutText.run s = .ok b t) :
    t.conn.input = rest := by
  have hheader := recv_message s m.header.length m.header (m.text ++ rest) rfl hr (by
    rw [hi]
    simp [ServerCutText.bytes, ServerCutText.header])
  have htext := recv_message (s.rest (m.text ++ rest)) m.text.length m.text rest rfl hr rfl
  rw [recvServerCutText_header hheader, recvText_received, Session.on_rest,
    Session.received_some htext, afterText] at h
  split at h
  · cases h
  · split at h
    · cases h
      rfl
    · cases h

/-- A message in step is consumed whenever its receipt returns, with whatever result. -/
theorem recvServerToClientMessage_inStep {m : EncodedMessage}
    (hbits : s.client.pixelFormat.bitsPerPixel = 0x20) (hstep : m.InStep)
    (hr : s.conn.recvs = []) (hi : s.conn.input = m.bytes ++ rest)
    (h : recvServerToClientMessage.run s = .ok b t) : t.conn.input = rest := by
  have hcons : m.bytes = [m.bytes.headD 0] ++ m.bytes.drop 1 := by cases m <;> rfl
  have hrecv := recv_message s 1 [m.bytes.headD 0] (m.bytes.drop 1 ++ rest) rfl hr
    (by rw [hi, ← List.append_assoc, ← hcons])
  rw [recvServerToClientMessage_run, Session.received_some hrecv] at h
  cases m with
  | frameBufferUpdate m =>
    exact recvUpdate_inStep (s := s.rest (m.bytes.drop 1 ++ rest)) hbits hstep hr rfl h
  | setColourMapEntries m =>
    have hrun := recvSetColourMapEntries_bytes (s.rest (m.bytes.drop 1 ++ rest)) m rest hr rfl
    cases hrun.symm.trans h
    rfl
  | bell =>
    cases h
    rfl
  | serverCutText m =>
    exact recvCutText_inStep (s := s.rest (m.bytes.drop 1 ++ rest)) hr rfl h

/-- The same is to be received, in the same format. -/
structure Session.SameStream (s t : Session) : Prop where
  stream : t.conn.stream = s.conn.stream
  format : t.client.pixelFormat = s.client.pixelFormat

instance : SendFrame Session.SameStream where
  refl := fun _ => ⟨rfl, rfl⟩
  trans := fun _ _ _ h h' => ⟨h'.stream.trans h.stream, h'.format.trans h.format⟩
  send := fun s message => ⟨s.conn.send_stream message, rfl⟩

/-- A part of the input has been received in whole transfers, and the format is the same. -/
structure Session.Receives (s t : Session) : Prop where
  input : t.conn.input <:+ s.conn.input
  whole : s.conn.recvs = [] → t.conn.recvs = []
  format : t.client.pixelFormat = s.client.pixelFormat

instance : DrawFrame Session.Receives where
  refl := fun _ => ⟨List.suffix_rfl, id, rfl⟩
  trans := fun _ _ _ h h' =>
    ⟨h'.input.trans h.input, h'.whole ∘ h.whole, h'.format.trans h.format⟩
  recv := fun s n => ⟨s.conn.recv_input_suffix n, fun h => Socket.recv_recvs_nil h n, rfl⟩
  push := fun _ _ => ⟨List.suffix_rfl, id, rfl⟩
  draw := by
    intro s f hf
    obtain ⟨image, imageBuf, jpegBuf, hc⟩ := hf s.client
    refine ⟨List.suffix_rfl, id, ?_⟩
    rw [Session.update_client, hc]

/-- A capture that has sent its request consumes a message in step whenever it returns. -/
theorem answered_inStep {lib : Platform} {operation : VncOperation} {m : EncodedMessage}
    (hbits : s.client.pixelFormat.bitsPerPixel = 0x20) (hstep : m.InStep)
    (hr : s.conn.recvs = []) (hi : s.conn.input = m.bytes ++ rest)
    (h : (answered lib operation).run s = .ok b t) : t.conn.input = rest := by
  rw [answered] at h
  rcases hrecv : recvServerToClientMessage.run s with ⟨_ | _, u⟩ | ⟨reason, u⟩
  · rw [require_false hrecv] at h
    cases h
    exact recvServerToClientMessage_inStep hbits hstep hr hi hrecv
  · rw [require_true hrecv, drawCapture_run] at h
    have hinput := recvServerToClientMessage_inStep hbits hstep hr hi hrecv
    split at h
    · cases h
    · cases h
      exact hinput
  · rw [require_error hrecv] at h
    cases h

end

/-- The session in which `capture` receives its message, if it sends its request. -/
def captureReceives (operation : VncOperation) (s : Session) : Option Session :=
  if operation.key = [] ∧
      (s.conn.send (frameBufferUpdateRequest s.client.width s.client.height)).1 = true then
    some s.requested
  else none

theorem capture_receives {operation : VncOperation} {s t : Session} (lib : Platform)
    (h : captureReceives operation s = some t) :
    (capture lib operation).run s = (answered lib operation).run t ∧ s.SameStream t := by
  rw [captureReceives] at h
  split at h
  · rename_i hcapture
    cases h
    obtain ⟨hkey, hsend⟩ := hcapture
    have hrequest : sendFrameBufferUpdateRequest.run
        (s.update fun c => { c with imageBuf := [], jpegBuf := [] }) = .ok true s.requested := by
      simp [sendFrameBufferUpdateRequest, hsend, Session.requested]
    constructor
    · rw [← require_true hrequest]
      simp only [capture, hkey]
      rfl
    · exact ⟨s.conn.send_stream _, rfl⟩
  · cases h

theorem capture_receives_none {operation : VncOperation} {s : Session} (lib : Platform)
    (h : captureReceives operation s = none) :
    s.SameStream (finalState ((capture lib operation).run s)) := by
  by_cases hkey : operation.key = []
  · have hsend : (s.conn.send
        (frameBufferUpdateRequest s.client.width s.client.height)).1 = false := by
      rw [captureReceives] at h
      simpa [hkey] using h
    rw [capture_unsent lib operation s hkey hsend]
    exact ⟨s.conn.send_stream _, rfl⟩
  · have hrun : (capture lib operation).run s = .ok true s := by
      simp [capture, hkey]
    rw [hrun]
    exact ⟨rfl, rfl⟩

end Mrhc
