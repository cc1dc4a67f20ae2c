import Mrhc.Client.Framing
import Mrhc.Client.Rectangles
import Mrhc.Client.Views

/-!
# Updates that the network cuts

A stream of updates may arrive in many pieces. As long as each header arrives in one and each piece
of a payload ends on a pixel boundary, every call on the session ends the same, however the stream
has been cut.
-/

namespace Mrhc

/-- A raw rectangle with the pieces in which its payload arrives. -/
structure CutRectangle where
  rectangle : RawRectangle
  small : rectangle.toRectangle.area < 2 ^ 27
  cut : Socket.Cutting (wordBytes rectangle.pixels) bufSize
  aligned : PixelAligned cut

/-- An update of rectangles that arrive in pieces. -/
structure CutUpdate where
  padding : UInt8
  rectangles : List CutRectangle
  count_lt : rectangles.length < 2 ^ 16

namespace CutUpdate

/-- The update as the server has sent it. -/
def update (m : CutUpdate) : FrameBufferUpdate where
  padding := m.padding
  rectangles := m.rectangles.map CutRectangle.rectangle
  count_lt := by
    rw [List.length_map]
    exact m.count_lt

def header (m : CutUpdate) : Bytes :=
  [m.padding] ++ store16 (htons (UInt16.ofNat m.rectangles.length))

def pieces (m : CutUpdate) : List Bytes :=
  [rfbMessageTypeFrameBufferUpdate] :: m.header ::
    m.rectangles.flatMap fun r => r.rectangle.toRectangle.bytes :: r.cut.pieces

end CutUpdate

/-- The session when this is left to receive, by these transfers. -/
def Session.left (s : Session) (input : Bytes) (recvs : List Transfer) : Session :=
  s.on { s.conn with input := input, recvs := recvs }

@[simp] theorem Session.left_left (s : Session) (input input' : Bytes)
    (recvs recvs' : List Transfer) :
    (s.left input recvs).left input' recvs' = s.left input' recvs' := rfl

@[simp] theorem Session.push_left (s : Session) (pixels : List UInt32) (input : Bytes)
    (recvs : List Transfer) :
    (s.push pixels).left input recvs = (s.left input recvs).push pixels := rfl

theorem Session.left_self (s : Session) : s.left s.conn.input s.conn.recvs = s := rfl

section

variable {s : Session} (rest : Bytes) (later : List Transfer)

private theorem received_delivered (n : Nat) {piece : Bytes} (hn : piece.length = n)
    (hi : s.conn.input = piece ++ rest) (hr : s.conn.recvs = .atMost piece.length :: later)
    (f : Bytes → Session → EStateM.Result Stop Session Bool) :
    s.received n f = f piece (s.left rest later) := by
  have hrecv := Socket.recv_piece s.conn piece rest later n hi hr (Nat.le_of_eq hn)
  rw [Session.received_some hrecv]
  rfl

private theorem recvRectangle_pieces (r : CutRectangle)
    (hbits : s.client.pixelFormat.bitsPerPixel = 0x20)
    (hi : s.conn.input = r.rectangle.bytes ++ rest)
    (hr : s.conn.recvs =
      Socket.transfers (r.rectangle.toRectangle.bytes :: r.cut.pieces) ++ later) :
    recvRectangle.run s = .ok true ((s.left rest later).push r.rectangle.pixels) := by
  let payload := wordBytes r.rectangle.pixels
  have hsmall := r.small
  have hlength : payload.length = payloadSize r.rectangle.toRectangle.area := by
    have hpixels : r.rectangle.pixels.length = r.rectangle.toRectangle.area :=
      r.rectangle.pixels_length
    rw [wordBytes_length, hpixels, payloadSize]
    omega
  have henc : load32 r.rectangle.toRectangle.bytes 8 = rfbEncodingRaw :=
    r.rectangle.toRectangle.load_encodingType.trans
      (by decide : htonl rfbEncodingRaw = rfbEncodingRaw)
  have hgather := Socket.gather_cutting r.cut rest later
    (s.left (payload ++ rest) (Socket.transfers r.cut.pieces ++ later)).conn rfl rfl
  have hwords : (r.cut.pieces.map words).flatten = r.rectangle.pixels := by
    rw [words_flatten r.aligned, r.cut.joined, words_wordBytes]
  rw [recvRectangle_run s hbits,
    received_delivered (payload ++ rest) (Socket.transfers r.cut.pieces ++ later) sizeofPixelData rfl
      (by rw [hi, RawRectangle.bytes, List.append_assoc]) hr]
  simp only [henc, ne_eq, not_true_eq_false, if_false, headerArea_bytes]
  rw [if_neg (by omega), ← hlength, hgather, afterPayload, hwords]
  rfl

private theorem recvRectangles_pieces (rectangles : List CutRectangle)
    (hbits : s.client.pixelFormat.bitsPerPixel = 0x20)
    (hi : s.conn.input = rectangles.flatMap (·.rectangle.bytes) ++ rest)
    (hr : s.conn.recvs =
      Socket.transfers (rectangles.flatMap fun r =>
        r.rectangle.toRectangle.bytes :: r.cut.pieces) ++ later) :
    (recvRectangles rectangles.length).run s =
      .ok true ((s.left rest later).push (rectangles.flatMap (·.rectangle.pixels))) := by
  induction rectangles generalizing s with
  | nil =>
    have hself : s.left rest later = s := by
      rw [← s.left_self, hi, hr]
      rfl
    rw [hself, List.flatMap_nil, Session.push_nil]
    rfl
  | cons r rectangles ih =>
    let input := rectangles.flatMap (·.rectangle.bytes) ++ rest
    let recvs := Socket.transfers (rectangles.flatMap fun r =>
      r.rectangle.toRectangle.bytes :: r.cut.pieces) ++ later
    have hfirst := recvRectangle_pieces input recvs r hbits
      (by rw [hi, List.flatMap_cons, List.append_assoc])
      (by rw [hr, List.flatMap_cons, Socket.transfers, List.map_append, List.append_assoc]; rfl)
    have hnext := ih (s := (s.left input recvs).push r.rectangle.pixels) hbits rfl rfl
    rw [List.length_cons, recvRectangles_succ, require_true hfirst, hnext, Session.push_left,
      Session.left_left, Session.push_push, List.flatMap_cons]

/-- An update is received with its pixels, however it is cut. -/
theorem recvServerToClientMessage_pieces (m : CutUpdate)
    (hbits : s.client.pixelFormat.bitsPerPixel = 0x20)
    (hi : s.conn.input = m.update.bytes ++ rest)
    (hr : s.conn.recvs = Socket.transfers m.pieces ++ later) :
    recvServerToClientMessage.run s =
      .ok true ((s.left rest later).push (m.update.rectangles.flatMap RawRectangle.pixels)) := by
  let input := m.rectangles.flatMap (·.rectangle.bytes) ++ rest
  let recvs := Socket.transfers (m.rectangles.flatMap fun r =>
    r.rectangle.toRectangle.bytes :: r.cut.pieces) ++ later
  have hinput : s.conn.input = [rfbMessageTypeFrameBufferUpdate] ++ (m.header ++ input) := by
    rw [hi]
    simp [CutUpdate.update, CutUpdate.header, FrameBufferUpdate.bytes, List.flatMap_map, input]
  have hcount := load_count [m.padding] m.count_lt
  rw [List.length_singleton] at hcount
  have hrectangles := recvRectangles_pieces rest later (s := s.left input recvs) m.rectangles
    hbits rfl rfl
  rw [Session.left_left] at hrectangles
  rw [recvServerToClientMessage_run, received_delivered (m.header ++ input) _ 1 rfl hinput hr]
  change recvFrameBufferUpdate.run _ = _
  rw [recvFrameBufferUpdate_run,
    received_delivered input recvs (sizeofFrameBufferUpdate - 1) rfl rfl rfl, Session.left_left]
  simp only [CutUpdate.header, hcount]
  rw [hrectangles, CutUpdate.update, List.flatMap_map]

end

/-- Two sessions to which the same updates come, cut in two ways, and then the same bytes. -/
structure Session.RecutBy (updates updates' : List CutUpdate) (rest : Bytes)
    (later : List Transfer) (s t : Session) : Prop where
  same : updates'.map CutUpdate.update = updates.map CutUpdate.update
  bits : updates = [] ∨ s.client.pixelFormat.bitsPerPixel = 0x20
  input : s.conn.input = updates.flatMap (·.update.bytes) ++ rest
  inputs : t.conn.input = s.conn.input
  recvs : s.conn.recvs = Socket.transfers (updates.flatMap CutUpdate.pieces) ++ later
  recvs' : t.conn.recvs = Socket.transfers (updates'.flatMap CutUpdate.pieces) ++ later
  sends : t.conn.sends = s.conn.sends
  width : t.client.width = s.client.width
  height : t.client.height = s.client.height
  format : t.client.pixelFormat = s.client.pixelFormat
  jpegBuf : t.client.jpegBuf = s.client.jpegBuf

/-- Two sessions whose streams are the same up to the cuts. -/
def Session.Recut (s t : Session) : Prop :=
  ∃ updates updates' rest later, Session.RecutBy updates updates' rest later s t

/-- Two such sessions in the middle of a capture, with the same pixels so far. -/
structure Session.RecutScreen (s t : Session) : Prop where
  streams : s.Recut t
  imageBuf : t.client.imageBuf = s.client.imageBuf

theorem Session.SameView.recut {s t : Session} (h : s.SameView t) : s.Recut t :=
  ⟨[], [], s.conn.input, s.conn.recvs, rfl, .inl rfl, rfl, h.conn.input, rfl, h.conn.recvs,
    h.conn.sends, h.width, h.height, h.format, h.jpegBuf⟩

namespace Session.RecutBy

variable {updates updates' : List CutUpdate} {rest : Bytes} {later : List Transfer} {s t : Session}

private theorem sameView (h : RecutBy [] updates' rest later s t) : s.SameView t := by
  obtain rfl : updates' = [] := List.map_eq_nil_iff.mp h.same
  exact ⟨⟨h.inputs, h.recvs'.trans h.recvs.symm, h.sends⟩, h.width, h.height, h.format, h.jpegBuf⟩

private theorem sent (h : RecutBy updates updates' rest later s t) (message : Bytes) :
    RecutBy updates updates' rest later (s.on (s.conn.send message).2)
      (t.on (t.conn.send message).2) where
  same := h.same
  bits := h.bits
  input := (Socket.send_input _ _).trans h.input
  inputs := (Socket.send_input _ _).trans (h.inputs.trans (Socket.send_input _ _).symm)
  recvs := (Socket.send_recvs _ _).trans h.recvs
  recvs' := (Socket.send_recvs _ _).trans h.recvs'
  sends := (Socket.send_congr h.sends message).2
  width := h.width
  height := h.height
  format := h.format
  jpegBuf := h.jpegBuf

private theorem requested (h : RecutBy updates updates' rest later s t) :
    RecutBy updates updates' rest later s.requested t.requested := by
  have hsent := h.sent (frameBufferUpdateRequest s.client.width s.client.height)
  rw [Session.requested, Session.requested, h.width, h.height]
  exact { hsent with jpegBuf := rfl }

private theorem received {m : CutUpdate} (h : RecutBy (m :: updates) updates' rest later s t)
    (himage : t.client.imageBuf = s.client.imageBuf) :
    Coupled RecutScreen Eq (recvServerToClientMessage.run s)
      (recvServerToClientMessage.run t) := by
  have hbits : s.client.pixelFormat.bitsPerPixel = 0x20 :=
    h.bits.resolve_left (List.cons_ne_nil m updates)
  cases updates' with
  | nil => exact absurd h.same.symm (List.cons_ne_nil _ _)
  | cons m' updates' =>
    obtain ⟨hupdate, hsame⟩ := List.cons_eq_cons.mp h.same
    let input := updates.flatMap (·.update.bytes) ++ rest
    have hinput : s.conn.input = m.update.bytes ++ input := by
      rw [h.input, List.flatMap_cons, List.append_assoc]
    have hrecvs : ∀ (m : CutUpdate) (updates : List CutUpdate),
        Socket.transfers ((m :: updates).flatMap CutUpdate.pieces) ++ later =
          Socket.transfers m.pieces ++
            (Socket.transfers (updates.flatMap CutUpdate.pieces) ++ later) := by
      intro m updates
      rw [List.flatMap_cons, Socket.transfers, List.map_append, List.append_assoc]
      rfl
    rw [recvServerToClientMessage_pieces input _ m hbits hinput (h.recvs.trans (hrecvs m updates)),
      recvServerToClientMessage_pieces input _ m' (by rw [h.format, hbits])
        (by rw [h.inputs, hinput, hupdate]) (h.recvs'.trans (hrecvs m' updates')), hupdate]
    refine .ok rfl ⟨⟨updates, updates', rest, later, hsame, .inr hbits, rfl, rfl, rfl, rfl,
      h.sends, h.width, h.height, h.format, h.jpegBuf⟩, ?_⟩
    exact congrArg (· ++ _) himage

end Session.RecutBy

instance : SendsAlike Session.Recut where
  send := by
    rintro message s t ⟨updates, updates', rest, later, h⟩
    rw [send_run, send_run, (Socket.send_congr h.sends message).1]
    exact .ok rfl ⟨updates, updates', rest, later, h.sent message⟩

private instance : DrawsAlike Session.RecutScreen where
  width := fun _ _ ⟨⟨_, _, _, _, h⟩, _⟩ => h.width
  height := fun _ _ ⟨⟨_, _, _, _, h⟩, _⟩ => h.height
  format := fun _ _ ⟨⟨_, _, _, _, h⟩, _⟩ => h.format
  imageBuf := fun _ _ h => h.imageBuf
  showing := fun _ _ _ _ _ ⟨⟨_, _, _, _, h⟩, himage⟩ =>
    ⟨⟨_, _, _, _, { h with jpegBuf := rfl }⟩, himage⟩

/-- `capture` ends the same, however the stream is cut. -/
theorem capture_recut (lib : Platform) (operation : VncOperation) :
    Respects Session.Recut (capture lib operation) := by
  rintro s t ⟨updates, updates', rest, later, h⟩
  cases updates with
  | nil =>
    have hcoupled := capture_respects lib operation s t h.sameView
    exact hcoupled.mono fun _ _ => Session.SameView.recut
  | cons m updates =>
    by_cases hkey : operation.key = []
    · have hrequested : s.requested.RecutScreen t.requested := ⟨⟨_, _, _, _, h.requested⟩, rfl⟩
      have hcoupled := capture_coupled lib hkey h.sends hrequested (h.requested.received rfl)
      exact hcoupled.mono fun _ _ hstate => hstate.streams
    · rw [capture_keyed lib hkey s, capture_keyed lib hkey t]
      exact .ok rfl ⟨_, _, _, _, h⟩

end Mrhc
