import Mrhc.Client.Rectangles

/-!
# Runs of the receive functions

What each receive function does with the result of its own `recv`. Later modules reason with
these equations and not with the functions.
-/

namespace Mrhc

private theorem recv_require_run (n : Nat) (f : Bytes → ClientM Bool) (s : Session) :
    (do match ← recv n with
        | none => return false
        | some buf => require (f buf) (pure true) : ClientM Bool).run s =
      s.received n fun buf t => (f buf).run t := by
  simp only [require_pure]
  exact recv_match_run n f s

theorem recvRectangles_succ (count : Nat) :
    recvRectangles (count + 1) = require recvRectangle (recvRectangles count) := rfl

theorem recvFrameBufferUpdate_run (s : Session) :
    recvFrameBufferUpdate.run s =
      s.received (sizeofFrameBufferUpdate - 1) fun buf t =>
        (recvRectangles (ntohs (load16 buf 1)).toNat).run t :=
  recv_require_run _ (fun buf => recvRectangles (ntohs (load16 buf 1)).toNat) s

theorem recvColour_run (s : Session) :
    recvColour.run s = s.received sizeofColourData fun _ t => .ok true t :=
  recv_match_run sizeofColourData (fun _ => pure true) s

theorem recvColours_succ (count : Nat) :
    recvColours (count + 1) = require recvColour (recvColours count) := rfl

theorem recvSetColourMapEntries_run (s : Session) :
    recvSetColourMapEntries.run s =
      s.received (sizeofSetColourMapEntries - 1) fun buf t =>
        (recvColours (ntohs (load16 buf 3)).toNat).run t :=
  recv_require_run _ (fun buf => recvColours (ntohs (load16 buf 3)).toNat) s

theorem recvText_run (length : UInt32) (s : Session) :
    (recvText length).run s =
      s.received length.toNat fun buf t =>
        if bufSize < buf.length ∨ (buf.length = bufSize ∧ 0 ∉ buf) then .error .outOfBounds t
        else if formatComplete (cString buf) then .ok true t
        else .error .badFormat t := by
  rcases hr : s.conn.recv length.toNat with ⟨_ | buf, c⟩
  · simp [recvText, Session.received_none hr, hr]
  · rw [Session.received_some hr]
    by_cases hover : bufSize < buf.length ∨ (buf.length = bufSize ∧ 0 ∉ buf)
    · simp only [recvText, EStateM.run_bind, recv_run, hr, hover, if_true, stop_run]
    · by_cases hfmt : formatComplete (cString buf) = true
      · simp [recvText, hr, hover, hfmt, loggerDebug_run]
      · simp [recvText, hr, hover, hfmt, loggerDebug_run]

theorem recvServerCutText_run (s : Session) :
    recvServerCutText.run s =
      s.received (sizeofServerCutText - 1) fun buf t => (recvText (ntohl (load32 buf 3))).run t :=
  recv_require_run _ (fun buf => recvText (ntohl (load32 buf 3))) s

/-- The receive function that a message type selects. -/
def recvMessageBody (messageType : UInt8) : ClientM Bool :=
  if messageType = rfbMessageTypeFrameBufferUpdate then recvFrameBufferUpdate
  else if messageType = rfbMessageTypeSetColourMapEntries then recvSetColourMapEntries
  else if messageType = rfbMessageTypeBell then recvBell
  else if messageType = rfbMessageTypeServerCutText then recvServerCutText
  else return false

theorem recvServerToClientMessage_run (s : Session) :
    recvServerToClientMessage.run s =
      s.received 1 fun buf t => (recvMessageBody (buf.getD 0 0)).run t :=
  recv_match_run 1 (fun buf => recvMessageBody (buf.getD 0 0)) s

end Mrhc
