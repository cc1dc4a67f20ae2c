import Mrhc.Client.MessageRuns

/-!
# Termination of the receive loop

Whether a call that receives a server message ever returns is decided by the bytes that the peer
delivers before it closes. `messageFault` reads that off the connection without decoding a pixel.
-/

namespace Mrhc

/-- What can be wrong with a stream: it ends before a payload is complete, or it carries a message
that takes the client to undefined behaviour. -/
inductive StreamFault where
  | insidePayload
  | undefined
deriving DecidableEq, Repr

/-- The first fault in this many rectangles. A payload is cut off when more bytes are announced
than the peer still delivers. -/
def rectanglesFault : Nat → Socket UInt8 → Option StreamFault
  | 0, _ => none
  | count + 1, c =>
    match c.recv sizeofPixelData with
    | (none, _) => none
    | (some buf, c) =>
      let size := payloadSize (headerArea buf)
      if load32 buf 8 ≠ rfbEncodingRaw then none
      else if 2 ^ 31 ≤ headerArea buf then some .undefined
      else if c.input.length < size then some .insidePayload
      else rectanglesFault count (c.gather bufSize (c.fuelFor size) size).socket

/-- A cut text must fit the buffer with a terminating zero and be complete as a format string. -/
def textFault (length : Nat) (c : Socket UInt8) : Option StreamFault :=
  match c.recv length with
  | (none, _) => none
  | (some buf, _) =>
    if bufSize < buf.length ∨ (buf.length = bufSize ∧ 0 ∉ buf) then some .undefined
    else if formatComplete (cString buf) then none
    else some .undefined

def updateFault (c : Socket UInt8) : Option StreamFault :=
  match c.recv (sizeofFrameBufferUpdate - 1) with
  | (none, _) => none
  | (some buf, c) => rectanglesFault (ntohs (load16 buf 1)).toNat c

def cutTextFault (c : Socket UInt8) : Option StreamFault :=
  match c.recv (sizeofServerCutText - 1) with
  | (none, _) => none
  | (some buf, c) => textFault (ntohl (load32 buf 3)).toNat c

def messageFault (c : Socket UInt8) : Option StreamFault :=
  match c.recv 1 with
  | (none, _) => none
  | (some buf, c) =>
    if buf.getD 0 0 = rfbMessageTypeFrameBufferUpdate then updateFault c
    else if buf.getD 0 0 = rfbMessageTypeServerCutText then cutTextFault c
    else none

/-- How a call ends on a stream with this fault. -/
def Meets (r : EStateM.Result Stop Session Bool) : Option StreamFault → Prop
  | none => ∃ b s, r = .ok b s
  | some .undefined => ∃ reason s, reason ≠ .endless ∧ r = .error reason s
  | some .insidePayload => ∃ s, r = .error .endless s

theorem returns_iff_of_meets {r : EStateM.Result Stop Session Bool} {fault : Option StreamFault}
    (h : Meets r fault) : (∃ b s, r = .ok b s) ↔ fault = none := by
  rcases fault with _ | _ | _
  · simpa [Meets] using h
  · obtain ⟨s, rfl⟩ := h
    simp
  · obtain ⟨reason, s, _, rfl⟩ := h
    simp

theorem recvRectangles_meets (count : Nat) (s : Session)
    (hbits : s.client.pixelFormat.bitsPerPixel = 0x20) (hno : s.conn.NoRecvError) :
    Meets ((recvRectangles count).run s) (rectanglesFault count s.conn) := by
  induction count generalizing s with
  | zero => exact ⟨true, s, rfl⟩
  | succ count ih =>
    have hrun := recvRectangle_run s hbits
    obtain ⟨buf, c, hr, _, hcno⟩ := Socket.recv_of_noError hno sizeofPixelData
    rw [Session.received_some hr] at hrun
    simp only [rectanglesFault, hr]
    rw [recvRectangles_succ]
    by_cases henc : load32 buf 8 = rfbEncodingRaw
    · by_cases hover : 2 ^ 31 ≤ headerArea buf
      · simp only [henc, hover, ne_eq, not_true_eq_false, if_false, if_true] at hrun ⊢
        exact ⟨.signedOverflow, s.on c, by decide, require_error hrun⟩
      · simp only [henc, hover, ne_eq, not_true_eq_false, if_false, Session.on_conn] at hrun ⊢
        have hend := Socket.gather_ending (by decide : 0 < bufSize) hcno
          (by simp only [Socket.fuelFor]; omega :
            payloadSize (headerArea buf) + c.recvs.length <
              c.fuelFor (payloadSize (headerArea buf)))
        by_cases hlt : c.input.length < payloadSize (headerArea buf)
        · rw [if_neg (by omega)] at hend
          rw [afterPayload, hend] at hrun
          rw [if_pos hlt]
          exact ⟨_, require_error hrun⟩
        · rw [if_pos (by omega)] at hend
          rw [afterPayload, hend] at hrun
          rw [if_neg hlt, require_true hrun]
          exact ih _ hbits (Socket.gather_not_failed _ _ _ hcno).2
    · simp only [henc, ne_eq, not_false_eq_true, if_true] at hrun ⊢
      exact ⟨false, s.on c, require_false hrun⟩

private theorem recvFrameBufferUpdate_meets (s : Session)
    (hbits : s.client.pixelFormat.bitsPerPixel = 0x20) (hno : s.conn.NoRecvError) :
    Meets (recvFrameBufferUpdate.run s) (updateFault s.conn) := by
  obtain ⟨buf, c, hr, _, hcno⟩ := Socket.recv_of_noError hno (sizeofFrameBufferUpdate - 1)
  rw [recvFrameBufferUpdate_run, Session.received_some hr, updateFault, hr]
  exact recvRectangles_meets _ (s.on c) hbits hcno

private theorem recvColours_returns (count : Nat) (s : Session) :
    ∃ b s', (recvColours count).run s = .ok b s' := by
  induction count generalizing s with
  | zero => exact ⟨true, s, rfl⟩
  | succ count ih =>
    rw [recvColours_succ]
    have hrun := recvColour_run s
    rcases hr : s.conn.recv sizeofColourData with ⟨_ | buf, c⟩
    · exact ⟨false, _, require_false (hrun.trans (Session.received_none hr _))⟩
    · obtain ⟨b, s', h⟩ := ih (s.on c)
      exact ⟨b, s', (require_true (hrun.trans (Session.received_some hr _))).trans h⟩

private theorem recvSetColourMapEntries_returns (s : Session) :
    ∃ b s', recvSetColourMapEntries.run s = .ok b s' := by
  rw [recvSetColourMapEntries_run, Session.received]
  rcases s.conn.recv (sizeofSetColourMapEntries - 1) with ⟨_ | buf, c⟩
  · exact ⟨false, _, rfl⟩
  · exact recvColours_returns _ _

private theorem recvText_meets (length : UInt32) (s : Session) :
    Meets ((recvText length).run s) (textFault length.toNat s.conn) := by
  rw [recvText_run, Session.received, textFault]
  rcases s.conn.recv length.toNat with ⟨_ | buf, c⟩
  · exact ⟨false, _, rfl⟩
  · dsimp only
    split
    · exact ⟨.outOfBounds, s.on c, by decide, rfl⟩
    · split
      · exact ⟨true, s.on c, rfl⟩
      · exact ⟨.badFormat, s.on c, by decide, rfl⟩

private theorem recvServerCutText_meets (s : Session) :
    Meets (recvServerCutText.run s) (cutTextFault s.conn) := by
  rw [recvServerCutText_run, Session.received, cutTextFault]
  rcases s.conn.recv (sizeofServerCutText - 1) with ⟨_ | buf, c⟩
  · exact ⟨false, _, rfl⟩
  · exact recvText_meets _ _

theorem recvServerToClientMessage_meets (s : Session)
    (hbits : s.client.pixelFormat.bitsPerPixel = 0x20) (hno : s.conn.NoRecvError) :
    Meets (recvServerToClientMessage.run s) (messageFault s.conn) := by
  obtain ⟨buf, c, hr, _, hcno⟩ := Socket.recv_of_noError hno 1
  rw [recvServerToClientMessage_run, Session.received_some hr, messageFault, hr]
  dsimp only [recvMessageBody]
  generalize buf.getD 0 0 = messageType
  by_cases h0 : messageType = rfbMessageTypeFrameBufferUpdate
  · simp only [h0, if_true]
    exact recvFrameBufferUpdate_meets (s.on c) hbits hcno
  · by_cases h3 : messageType = rfbMessageTypeServerCutText
    · subst h3
      exact recvServerCutText_meets (s.on c)
    · simp only [h0, h3, if_false]
      split
      · exact recvSetColourMapEntries_returns _
      · split
        · exact ⟨true, _, rfl⟩
        · exact ⟨false, _, rfl⟩

/-- Receiving one server message returns after finitely many calls of `recv`, with `false` if the
stream ended inside a payload, exactly when it does not end there and the message reaches no
undefined behaviour. -/
theorem recvServerToClientMessage_terminates_iff (s : Session)
    (hconf : s.client.pixelFormat = configuredFormat) (hno : s.conn.NoRecvError) :
    (∃ b s', recvServerToClientMessage.run s = .ok b s' ∧
        (messageFault s.conn = some .insidePayload → b = false)) ↔
      messageFault s.conn = none := by
  have hiff := returns_iff_of_meets
    (recvServerToClientMessage_meets s (VncClient.bits_of_configured hconf) hno)
  constructor
  · rintro ⟨b, s', h, _⟩
    exact hiff.mp ⟨b, s', h⟩
  · intro h
    obtain ⟨b, s', hs'⟩ := hiff.mpr h
    exact ⟨b, s', hs', by simp [h]⟩

/-- An update with one rectangle of one pixel, followed by `payload`. -/
def onePixelUpdate (payload : Bytes) (recvs : List Transfer) : Session where
  client := (VncClient.new [] 5900 [] .blank).configured
  conn := { Socket.delivering ([0, 0, 0, 1] ++ Rectangle.bytes ⟨0, 0, 1, 1, 0⟩ ++ payload) with
    recvs := recvs }

theorem recvServerToClientMessage_terminates_onePixel :
    ∃ b s', recvServerToClientMessage.run
        (onePixelUpdate [1, 2, 3, 4] [.whole, .whole, .whole, .atMost 1]) = .ok b s' ∧
      (messageFault (onePixelUpdate [1, 2, 3, 4] [.whole, .whole, .whole, .atMost 1]).conn =
        some .insidePayload → b = false) :=
  (recvServerToClientMessage_terminates_iff _ rfl (by decide)).mpr (by decide)

/-- A peer that closes after two of the four bytes is waited for forever. -/
theorem recvServerToClientMessage_endless :
    (onePixelUpdate [1, 2] []).client.pixelFormat = configuredFormat ∧
      (onePixelUpdate [1, 2] []).conn.NoRecvError ∧
      ¬∃ b s', recvServerToClientMessage.run (onePixelUpdate [1, 2] []) = .ok b s' := by
  refine ⟨rfl, by decide, fun h => ?_⟩
  have hmeets := recvServerToClientMessage_meets (onePixelUpdate [1, 2] []) rfl (by decide)
  have hnone := (returns_iff_of_meets hmeets).mp h
  exact absurd hnone (by decide)

end Mrhc
