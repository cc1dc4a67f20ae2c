import Mrhc.Client.BufferedPixels
import Mrhc.Client.CutText
import Mrhc.Client.EncodedUpdates
import Mrhc.Client.Outgoing

/-!
# What becomes of a capture

A capture receives one message. It fails when that is an update with a rectangle that is not raw,
and shows an image otherwise: of the pixels that the message has brought and, where they do not
reach, of the memory behind the buffer.
-/

namespace Mrhc

/-- What receiving comes to: this many pixels, a refusal, or undefined behaviour. -/
inductive Receipt where
  | pixels (count : Nat)
  | refused
  | undefined
deriving DecidableEq

/-- The receipt of a raw rectangle of this area and of what follows it. -/
def Receipt.after (area : Nat) : Receipt → Receipt
  | .pixels count => .pixels (area + count)
  | receipt => receipt

def rectanglesReceipt : List EncodedRectangle → Receipt
  | [] => .pixels 0
  | r :: rectangles =>
    if r.header.encodingType = rfbEncodingRaw then
      if 2 ^ 31 ≤ r.header.area then .undefined
      else (rectanglesReceipt rectangles).after r.header.area
    else .refused

/-- The text is used as a C string and as a format. -/
def ServerCutText.receipt (m : ServerCutText) : Receipt :=
  if bufSize < m.text.length ∨ (m.text.length = bufSize ∧ 0 ∉ m.text) then .undefined
  else if formatComplete (cString m.text) then .pixels 0
  else .undefined

def EncodedMessage.receipt : EncodedMessage → Receipt
  | .frameBufferUpdate m => rectanglesReceipt m.rectangles
  | .setColourMapEntries _ => .pixels 0
  | .bell => .pixels 0
  | .serverCutText m => m.receipt

/-- A connection that has been closed reads as an update without rectangles. -/
def nextReceipt : List EncodedMessage → Receipt
  | [] => .pixels 0
  | m :: _ => m.receipt

inductive Fate where
  | shown
  | refused
  | undefined
deriving DecidableEq

/-- What becomes of a capture of a screen of this size. It is undefined when the memory behind the
pixels ends too early. -/
def Receipt.fate (lib : Platform) (size : Nat) : Receipt → Fate
  | .pixels count =>
    if size ≤ 2 ^ 31 ∧ ∀ i < size, count ≤ i → (lib.imageTail i).isSome then .shown
    else .undefined
  | .refused => .refused
  | .undefined => .undefined

/-- The result has this receipt, and what is left to be received is `rest`. -/
inductive ReceivesAs (s : Session) (rest : Bytes) :
    Receipt → EStateM.Result Stop Session Bool → Prop where
  | pixels (pixels : List UInt32) :
    ReceivesAs s rest (.pixels pixels.length) (.ok true ((s.rest rest).push pixels))
  | refused (pixels : List UInt32) :
    ReceivesAs s rest .refused (.ok false ((s.rest rest).push pixels))
  | undefined (reason : Stop) (t : Session) : ReceivesAs s rest .undefined (.error reason t)

section

variable {s : Session} {rest : Bytes}

private theorem ReceivesAs.after {pixels : List UInt32} {input : Bytes} {receipt : Receipt}
    {r : EStateM.Result Stop Session Bool}
    (h : ReceivesAs ((s.rest input).push pixels) rest receipt r) :
    ReceivesAs s rest (receipt.after pixels.length) r := by
  cases h with
  | pixels more =>
    rw [Session.push_rest, Session.rest_rest, Session.push_push, Receipt.after,
      ← List.length_append]
    exact .pixels _
  | refused more =>
    rw [Session.push_rest, Session.rest_rest, Session.push_push]
    exact .refused _
  | undefined reason t => exact .undefined reason t

private theorem ReceivesAs.of_rest {input : Bytes} {receipt : Receipt}
    {r : EStateM.Result Stop Session Bool} (h : ReceivesAs (s.rest input) rest receipt r) :
    ReceivesAs s rest receipt r := by
  cases h with
  | pixels pixels => exact .pixels pixels
  | refused pixels => exact .refused pixels
  | undefined reason t => exact .undefined reason t

private theorem ReceivesAs.nothing (s : Session) (rest : Bytes) :
    ReceivesAs s rest (.pixels 0) (.ok true (s.rest rest)) := by
  have h : ReceivesAs s rest (.pixels 0) (.ok true ((s.rest rest).push [])) := .pixels []
  rwa [Session.push_nil] at h

/-- Rectangles in step are received up to the first one that is refused or overflows. -/
theorem recvRectangles_receipt {rectangles : List EncodedRectangle}
    (hbits : s.client.pixelFormat.bitsPerPixel = 0x20) (hstep : RectanglesInStep rectangles)
    (hr : s.conn.recvs = [])
    (hi : s.conn.input = rectangles.flatMap EncodedRectangle.bytes ++ rest) :
    ReceivesAs s rest (rectanglesReceipt rectangles)
      ((recvRectangles rectangles.length).run s) := by
  induction rectangles generalizing s with
  | nil =>
    have hself : s.rest rest = s := by
      rw [← s.rest_self, hi]
      rfl
    have hnothing := ReceivesAs.nothing s rest
    rw [hself] at hnothing
    exact hnothing
  | cons r rectangles ih =>
    have hhead : s.conn.input =
        r.bytes ++ (rectangles.flatMap EncodedRectangle.bytes ++ rest) := by
      rw [hi, List.flatMap_cons, List.append_assoc]
    rw [RectanglesInStep] at hstep
    rw [List.length_cons, recvRectangles_succ, rectanglesReceipt]
    by_cases henc : r.header.encodingType = rfbEncodingRaw
    · rw [if_pos henc] at hstep ⊢
      cases hstep with
      | inl hover =>
        rw [if_pos hover, require_error (recvRectangle_overflows hbits r.header henc hover _ hr
          (by rw [hhead, EncodedRectangle.bytes, List.append_assoc]))]
        exact .undefined _ _
      | inr hfits =>
        obtain ⟨hsmall, hstep⟩ := hfits
        have harea : (r.toRaw henc).toRectangle.area < 2 ^ 27 := by
          rw [EncodedRectangle.toRaw_header henc]
          exact hsmall
        have hfirst := recvRectangle_bytes s hbits (r.toRaw henc) harea
          (rectangles.flatMap EncodedRectangle.bytes ++ rest) hr
          (by rw [hhead, EncodedRectangle.toRaw_bytes henc])
        have hcount : (r.toRaw henc).pixels.length = r.header.area := (r.toRaw henc).pixels_length
        rw [if_neg (by omega), require_true hfirst, ← hcount]
        exact (ih (s := (s.rest (rectangles.flatMap EncodedRectangle.bytes ++ rest)).push
          (r.toRaw henc).pixels) hbits hstep hr rfl).after
    · rw [if_neg henc] at hstep ⊢
      obtain ⟨hpayload, rfl⟩ := hstep
      have hheader : s.conn.input = r.header.bytes ++ rest := by
        rw [hhead, EncodedRectangle.bytes, hpayload, List.append_nil, List.flatMap_nil,
          List.nil_append]
      rw [require_false (recvRectangle_rejected hbits r.header henc rest hr hheader)]
      have hrefused : ReceivesAs s rest .refused (.ok false ((s.rest rest).push [])) := .refused []
      rw [Session.push_nil] at hrefused
      exact hrefused

private theorem recvUpdate_receipt {m : EncodedUpdate}
    (hbits : s.client.pixelFormat.bitsPerPixel = 0x20) (hstep : RectanglesInStep m.rectangles)
    (hr : s.conn.recvs = []) (hi : s.conn.input = m.bytes.drop 1 ++ rest) :
    ReceivesAs s rest (rectanglesReceipt m.rectangles) (recvFrameBufferUpdate.run s) := by
  have hrecv := recv_message s (sizeofFrameBufferUpdate - 1)
    ([m.padding] ++ store16 (htons (UInt16.ofNat m.rectangles.length)))
    (m.rectangles.flatMap EncodedRectangle.bytes ++ rest) rfl hr
    (by rw [hi]; simp [EncodedUpdate.bytes])
  have hcount := load_count [m.padding] m.count_lt
  rw [List.length_singleton] at hcount
  rw [recvFrameBufferUpdate_run, Session.received_some hrecv]
  simp only [hcount, Session.on_rest]
  have hrectangles : ReceivesAs (s.rest (m.rectangles.flatMap EncodedRectangle.bytes ++ rest)) rest
      (rectanglesReceipt m.rectangles) _ := recvRectangles_receipt hbits hstep hr rfl
  exact hrectangles.of_rest

private theorem recvCutText_receipt {m : ServerCutText} (hr : s.conn.recvs = [])
    (hi : s.conn.input = m.bytes.drop 1 ++ rest) :
    ReceivesAs s rest m.receipt (recvServerCutText.run s) := by
  have hheader := recv_message s m.header.length m.header (m.text ++ rest) rfl hr (by
    rw [hi]
    simp [ServerCutText.bytes, ServerCutText.header])
  have htext := recv_message (s.rest (m.text ++ rest)) m.text.length m.text rest rfl hr rfl
  rw [recvServerCutText_header hheader, recvText_received, Session.on_rest,
    Session.received_some htext, afterText, ServerCutText.receipt]
  split
  · exact .undefined _ _
  · split
    · exact .nothing s rest
    · exact .undefined _ _

/-- A message in step is received as its receipt says. -/
theorem recvServerToClientMessage_receipt {m : EncodedMessage}
    (hbits : s.client.pixelFormat.bitsPerPixel = 0x20) (hstep : m.InStep)
    (hr : s.conn.recvs = []) (hi : s.conn.input = m.bytes ++ rest) :
    ReceivesAs s rest m.receipt (recvServerToClientMessage.run s) := by
  have hcons : m.bytes = [m.bytes.headD 0] ++ m.bytes.drop 1 := by cases m <;> rfl
  have hrecv := recv_message s 1 [m.bytes.headD 0] (m.bytes.drop 1 ++ rest) rfl hr
    (by rw [hi, ← List.append_assoc, ← hcons])
  rw [recvServerToClientMessage_run, Session.received_some hrecv]
  cases m with
  | frameBufferUpdate m =>
    exact (recvUpdate_receipt (s := s.rest (m.bytes.drop 1 ++ rest)) hbits hstep hr rfl).of_rest
  | setColourMapEntries m =>
    have hrun := recvSetColourMapEntries_bytes (s.rest (m.bytes.drop 1 ++ rest)) m rest hr rfl
    have hnothing := ReceivesAs.nothing (s.rest (m.bytes.drop 1 ++ rest)) rest
    rw [← hrun] at hnothing
    exact hnothing.of_rest
  | bell => exact .nothing s rest
  | serverCutText m =>
    exact (recvCutText_receipt (s := s.rest (m.bytes.drop 1 ++ rest)) hr rfl).of_rest

private theorem recvServerToClientMessage_closed (hr : s.conn.recvs = [])
    (hi : s.conn.input = []) :
    ReceivesAs s [] (.pixels 0) (recvServerToClientMessage.run s) := by
  have hself : s.rest [] = s := by
    rw [← s.rest_self, hi]
    rfl
  have hrecv : ∀ n, s.conn.recv n = (some [], s.conn) := by
    intro n
    rw [Socket.recv_unscheduled hr, hi, List.take_nil, List.drop_nil, ← hi]
  have hupdate : recvFrameBufferUpdate.run s = .ok true s := by
    rw [recvFrameBufferUpdate_run, Session.received_some (hrecv _)]
    rfl
  have hmessage : recvServerToClientMessage.run s = .ok true s := by
    rw [recvServerToClientMessage_run, Session.received_some (hrecv 1)]
    exact hupdate
  have hnothing := ReceivesAs.nothing s []
  rwa [hself, ← hmessage] at hnothing

end

/-- A session that is in step with its server: the messages that it has still to receive, whole,
and what becomes of its sends. -/
structure Streaming (s : Session) (w h : UInt16) (messages : List EncodedMessage)
    (sends : List Transfer) : Prop where
  format : s.client.pixelFormat = configuredFormat
  width : s.client.width = w
  height : s.client.height = h
  input : s.conn.input = messages.flatMap EncodedMessage.bytes
  recvs : s.conn.recvs = []
  sends : s.conn.sends = sends

/-- The result has this fate, and leaves the session in step. -/
inductive EndsAs (w h : UInt16) (messages : List EncodedMessage) (sends : List Transfer) :
    Fate → EStateM.Result Stop Session Bool → Prop where
  | shown {t : Session} (ht : Streaming t w h messages sends) :
    EndsAs w h messages sends .shown (.ok true t)
  | refused {t : Session} (ht : Streaming t w h messages sends) :
    EndsAs w h messages sends .refused (.ok false t)
  | undefined (reason : Stop) (t : Session) :
    EndsAs w h messages sends .undefined (.error reason t)

section

variable {s : Session} {w h : UInt16} {messages : List EncodedMessage} {sends : List Transfer}

private theorem Streaming.after {rest : List EncodedMessage} (hs : Streaming s w h messages sends)
    (pixels : List UInt32) :
    Streaming ((s.rest (rest.flatMap EncodedMessage.bytes)).push pixels) w h rest sends :=
  ⟨hs.format, hs.width, hs.height, rfl, hs.recvs, hs.sends⟩

theorem Streaming.receives (hs : Streaming s w h messages sends)
    (hstep : ∀ m ∈ messages, m.InStep) :
    ReceivesAs s (messages.tail.flatMap EncodedMessage.bytes) (nextReceipt messages)
      (recvServerToClientMessage.run s) := by
  cases messages with
  | nil => exact recvServerToClientMessage_closed hs.recvs hs.input
  | cons m messages =>
    exact recvServerToClientMessage_receipt (VncClient.bits_of_configured hs.format)
      (hstep m List.mem_cons_self) hs.recvs hs.input

/-- A capture that has sent its request meets the fate of the next message. -/
theorem Streaming.answered (lib : Platform) (operation : VncOperation)
    (hs : Streaming s w h messages sends) (hbuf : s.client.imageBuf = [])
    (hstep : ∀ m ∈ messages, m.InStep) :
    EndsAs w h messages.tail sends ((nextReceipt messages).fate lib (w.toNat * h.toNat))
      ((answered lib operation).run s) := by
  have hreceives := hs.receives hstep
  rw [Mrhc.answered]
  generalize hreceipt : nextReceipt messages = receipt at hreceives
  generalize hresult : recvServerToClientMessage.run s = result at hreceives
  cases hreceives with
  | refused pixels =>
    rw [require_false hresult]
    exact .refused (hs.after pixels)
  | undefined reason t =>
    rw [require_error hresult]
    exact .undefined reason t
  | pixels pixels =>
    let c := ((s.rest (messages.tail.flatMap EncodedMessage.bytes)).push pixels).client
    have hlength : c.imageBuf.length = pixels.length := by
      change (s.client.imageBuf ++ pixels).length = pixels.length
      rw [hbuf, List.nil_append]
    have hreadable : c.Readable lib ↔ w.toNat * h.toNat ≤ 2 ^ 31 ∧
        ∀ i < w.toNat * h.toNat, pixels.length ≤ i → (lib.imageTail i).isSome := by
      have hwidth : c.width = w := hs.width
      have hheight : c.height = h := hs.height
      rw [c.readable_iff, hwidth, hheight, hlength]
    rw [require_true hresult, drawCapture_run, Receipt.fate]
    by_cases hreads : c.Readable lib
    · rw [if_pos (hreadable.mp hreads), drawPixels_ok hreads]
      exact .shown ⟨hs.format, hs.width, hs.height, rfl, hs.recvs, hs.sends⟩
    · obtain ⟨reason, hreason⟩ := drawPixels_error hreads
      rw [if_neg fun hcan => hreads (hreadable.mpr hcan), hreason]
      exact .undefined reason _

/-- The messages of a call are sent up to the first failure. -/
theorem Streaming.sendAll (script : List ClientMessage) (hs : Streaming s w h messages sends) :
    ∃ t, (Mrhc.sendAll script).run s = .ok (Socket.sendsThrough script.length sends).1 t ∧
      t.client = s.client ∧
      Streaming t w h messages (Socket.sendsThrough script.length sends).2 := by
  induction script generalizing s sends with
  | nil => exact ⟨s, rfl, rfl, hs⟩
  | cons m script ih =>
    obtain ⟨hpasses, hleft⟩ := s.conn.send_schedule m.bytes
    have hstream := s.conn.send_stream m.bytes
    simp only [Socket.stream, Socket.mk.injEq, true_and, and_true] at hstream
    have ht : Streaming (s.on (s.conn.send m.bytes).2) w h messages sends.tail :=
      ⟨hs.format, hs.width, hs.height, hstream.1.trans hs.input, hstream.2.trans hs.recvs,
        hleft.trans (congrArg List.tail hs.sends)⟩
    have hrun : (send m.bytes).run s =
        .ok (s.conn.send m.bytes).1 (s.on (s.conn.send m.bytes).2) := send_run m.bytes s
    rw [hpasses, hs.sends] at hrun
    rw [Mrhc.sendAll, List.length_cons, Socket.sendsThrough]
    by_cases herror : sends.head? = some .error
    · rw [decide_eq_true herror] at hrun
      rw [if_pos herror, require_false hrun]
      exact ⟨_, rfl, rfl, ht⟩
    · rw [decide_eq_false herror] at hrun
      rw [if_neg herror, require_true hrun]
      exact ih ht

end

end Mrhc
