import Mrhc.Client.DrawnImage
import Mrhc.Client.Frames
import Mrhc.Framework.Coupling

/-!
# What a session depends on

The calls on an open session depend on the size of the screen, the pixel format, the last image and
the two directions of the connection. The other members of the client make no difference to them.
-/

namespace Mrhc

/-- Two sockets that transfer the same from now on. What has been written before may differ. -/
structure Socket.Alike {α : Type} (c d : Socket α) : Prop where
  input : d.input = c.input
  recvs : d.recvs = c.recvs
  sends : d.sends = c.sends

namespace Socket.Alike

variable {α : Type} {c d : Socket α}

theorem refl (c : Socket α) : c.Alike c := ⟨rfl, rfl, rfl⟩

theorem recv (h : c.Alike d) (n : Nat) :
    (d.recv n).1 = (c.recv n).1 ∧ (c.recv n).2.Alike (d.recv n).2 := by
  simp only [Socket.recv, h.recvs, h.input]
  cases allowance n c.recvs with
  | none => exact ⟨rfl, rfl, rfl, h.sends⟩
  | some k => exact ⟨rfl, rfl, rfl, h.sends⟩

theorem send (h : c.Alike d) (message : List α) :
    (d.send message).1 = (c.send message).1 ∧ (c.send message).2.Alike (d.send message).2 := by
  obtain ⟨hresult, hsends⟩ := send_congr h.sends message
  refine ⟨hresult, ?_, ?_, hsends⟩
  · simpa only [send_input] using h.input
  · simpa only [send_recvs] using h.recvs

theorem fuelFor (h : c.Alike d) (n : Nat) : d.fuelFor n = c.fuelFor n := by
  rw [Socket.fuelFor, Socket.fuelFor, h.recvs]

end Socket.Alike

/-- Two sessions that a user cannot tell from each other. -/
structure Session.SameView (s t : Session) : Prop where
  conn : s.conn.Alike t.conn
  width : t.client.width = s.client.width
  height : t.client.height = s.client.height
  format : t.client.pixelFormat = s.client.pixelFormat
  jpegBuf : t.client.jpegBuf = s.client.jpegBuf

/-- Two such sessions in the middle of a capture, with the same pixels so far. -/
structure Session.SameScreen (s t : Session) : Prop extends s.SameView t where
  imageBuf : t.client.imageBuf = s.client.imageBuf

theorem Session.SameView.refl (s : Session) : s.SameView s := ⟨.refl s.conn, rfl, rfl, rfl, rfl⟩

/-- Sessions that are related stay so on like sockets. -/
private class OnSockets (R : Session → Session → Prop) : Prop where
  conn : ∀ s t, R s t → s.conn.Alike t.conn
  on : ∀ s t c d, R s t → c.Alike d → R (s.on c) (t.on d)

private instance : OnSockets Session.SameView where
  conn := fun _ _ h => h.conn
  on := fun _ _ _ _ h hcd => ⟨hcd, h.width, h.height, h.format, h.jpegBuf⟩

private instance : OnSockets Session.SameScreen where
  conn := fun _ _ h => h.conn
  on := fun _ _ _ _ h hcd => ⟨⟨hcd, h.width, h.height, h.format, h.jpegBuf⟩, h.imageBuf⟩

private theorem stop_respects {α : Type} {R : Session → Session → Prop} (reason : Stop) :
    Respects R (stop reason : ClientM α) := fun _ _ h => .error h

/-- Related sessions send alike and stay related. -/
class SendsAlike (R : Session → Session → Prop) : Prop where
  send : ∀ message, Respects R (Mrhc.send message)

private theorem sendTwice_respects {R : Session → Session → Prop} [SendsAlike R]
    (message message' : Bytes) :
    Respects R (do
      if !(← send message) then return false
      if !(← send message') then return false
      return true) :=
  Respects.require (SendsAlike.send message)
    (Respects.require (SendsAlike.send message') (Respects.pure true))

/-- `operate` sends what the operation says. -/
theorem operate_respects {R : Session → Session → Prop} [SendsAlike R] (lib : Platform)
    (operation : VncOperation) : Respects R (operate lib operation) := by
  have hkey : Respects R (sendKeyEvent lib operation.key) :=
    Respects.ite (Respects.pure true) (sendTwice_respects _ _)
  have hpointer : Respects R (sendPointerEvent operation.x operation.y operation.button) :=
    Respects.ite (Respects.bind (stop_respects _) fun _ => sendTwice_respects _ _)
      (sendTwice_respects _ _)
  apply Respects.ite (Respects.require hkey (Respects.pure true))
  exact Respects.ite (Respects.pure true) (Respects.require hpointer (Respects.pure true))

section

variable {R : Session → Session → Prop} [OnSockets R]

private theorem recv_respects (n : Nat) : Respects R (recv n) := by
  intro s t h
  obtain ⟨hresult, hconn⟩ := (OnSockets.conn s t h).recv n
  rw [recv_run, recv_run, hresult]
  exact .ok rfl (OnSockets.on s t _ _ h hconn)

private theorem send_respects (message : Bytes) : Respects R (send message) := by
  intro s t h
  obtain ⟨hresult, hconn⟩ := (OnSockets.conn s t h).send message
  rw [send_run, send_run, hresult]
  exact .ok rfl (OnSockets.on s t _ _ h hconn)

private instance : SendsAlike R where
  send := send_respects

private theorem received_respects {n : Nat} {f : Bytes → ClientM Bool}
    (hf : ∀ buf, Respects R (f buf)) :
    Respects R (do
      match ← recv n with
      | none => return false
      | some buf => f buf) := by
  refine Respects.bind (recv_respects n) ?_
  intro result
  cases result with
  | none => exact Respects.pure false
  | some buf => exact hf buf

end

/-! The messages of a server. -/

private theorem pushPixels_respects (buf : Bytes) (bytesPerPixel fuel i : Nat) :
    Respects Session.SameScreen (pushPixels buf bytesPerPixel fuel i) := by
  induction fuel generalizing i with
  | zero => exact stop_respects _
  | succ fuel ih =>
    have hpush : Respects Session.SameScreen (modifyClient fun c =>
        { c with imageBuf := c.imageBuf ++ [load32 buf i] }) := by
      intro s t h
      have hpixels := congrArg (· ++ [load32 buf i]) h.imageBuf
      exact .ok rfl ⟨⟨h.conn, h.width, h.height, h.format, h.jpegBuf⟩, hpixels⟩
    have hrest := Respects.bind hpush fun _ => ih (i + bytesPerPixel)
    exact Respects.ite (Respects.ite (Respects.bind (stop_respects _) fun _ => hrest) hrest)
      (Respects.pure ())

private theorem recvPixels_respects (totalPixelBytes : UInt32) (bytesPerPixel : UInt8) (fuel : Nat)
    (totalRecv : UInt32) :
    Respects Session.SameScreen (recvPixels totalPixelBytes bytesPerPixel fuel totalRecv) := by
  induction fuel generalizing totalRecv with
  | zero => exact stop_respects _
  | succ fuel ih =>
    have hchunk : ∀ n, Respects Session.SameScreen (do
        match ← recv n with
        | none => return false
        | some buf =>
          pushPixels buf bytesPerPixel.toNat (buf.length + 1) 0
          recvPixels totalPixelBytes bytesPerPixel fuel (totalRecv + UInt32.ofNat buf.length)) :=
      fun _ => received_respects fun _ => Respects.bind (pushPixels_respects _ _ _ _) fun _ => ih _
    exact Respects.ite (Respects.ite (hchunk _) (hchunk _)) (Respects.pure true)

private theorem recvRectangle_respects : Respects Session.SameScreen recvRectangle := by
  apply received_respects
  intro buf
  refine Respects.ite (Respects.pure false) ?_
  have hclient : Couples Session.SameScreen
      (fun c d : VncClient => d.pixelFormat = c.pixelFormat) getClient getClient :=
    fun s t h => .ok h.format h
  refine Couples.bind hclient ?_
  intro c d hformat
  rw [hformat]
  have hpixels : ∀ total : UInt32, Respects Session.SameScreen (do
      recvPixels total (c.pixelFormat.bitsPerPixel / 8) (← pixelFuel total) 0) := by
    intro total
    have hfuel : Respects Session.SameScreen (pixelFuel total) :=
      fun s t h => .ok (h.conn.fuelFor total.toNat).symm h
    exact Respects.bind hfuel fun fuel => recvPixels_respects _ _ fuel 0
  exact Respects.ite (Respects.bind (stop_respects _) fun _ => hpixels _) (hpixels _)

private theorem recvRectangles_respects (n : Nat) :
    Respects Session.SameScreen (recvRectangles n) := by
  induction n with
  | zero => exact Respects.pure true
  | succ n ih => exact Respects.require recvRectangle_respects ih

private theorem recvColours_respects (n : Nat) : Respects Session.SameScreen (recvColours n) := by
  induction n with
  | zero => exact Respects.pure true
  | succ n ih => exact Respects.require (received_respects fun _ => Respects.pure true) ih

private theorem recvText_respects (length : UInt32) :
    Respects Session.SameScreen (recvText length) := by
  apply received_respects
  intro buf
  have hlog : Respects Session.SameScreen (loggerDebug buf) :=
    Respects.ite (Respects.pure ()) (stop_respects _)
  have hrest := Respects.bind hlog fun _ => Respects.pure true
  exact Respects.ite (Respects.bind (stop_respects _) fun _ => hrest) hrest

private theorem recvServerToClientMessage_respects :
    Respects Session.SameScreen recvServerToClientMessage := by
  have htrue : Respects Session.SameScreen (Pure.pure true : ClientM Bool) := Respects.pure true
  apply received_respects
  intro buf
  apply Respects.ite
  · exact received_respects fun _ => Respects.require (recvRectangles_respects _) htrue
  apply Respects.ite
  · exact received_respects fun _ => Respects.require (recvColours_respects _) htrue
  apply Respects.ite htrue
  apply Respects.ite
  · exact received_respects fun _ => Respects.require (recvText_respects _) htrue
  · exact Respects.pure false

/-! A capture. -/

/-- Related sessions are in the middle of a capture, with the same pixels so far. -/
class DrawsAlike (R : Session → Session → Prop) : Prop where
  width : ∀ s t, R s t → t.client.width = s.client.width
  height : ∀ s t, R s t → t.client.height = s.client.height
  format : ∀ s t, R s t → t.client.pixelFormat = s.client.pixelFormat
  imageBuf : ∀ s t, R s t → t.client.imageBuf = s.client.imageBuf
  showing : ∀ s t lib operation image, R s t →
    R (s.update (·.showing lib operation image)) (t.update (·.showing lib operation image))

instance : DrawsAlike Session.SameScreen where
  width := fun _ _ h => h.width
  height := fun _ _ h => h.height
  format := fun _ _ h => h.format
  imageBuf := fun _ _ h => h.imageBuf
  showing := fun _ _ _ _ _ h => ⟨⟨h.conn, h.width, h.height, h.format, rfl⟩, h.imageBuf⟩

section

variable {R : Session → Session → Prop} [DrawsAlike R]

private theorem drawPixels_alike (lib : Platform) {s t : Session} (h : R s t) :
    drawPixels lib t.client = drawPixels lib s.client := by
  have hwidth := DrawsAlike.width s t h
  have hpixel : drawPixel lib t.client = drawPixel lib s.client := by
    funext y image x
    simp only [drawPixel, VncClient.wordAt, hwidth, DrawsAlike.format s t h,
      DrawsAlike.imageBuf s t h]
  rw [drawPixels, drawPixels, hwidth, DrawsAlike.height s t h, hpixel]

/-- `capture` ends alike when it receives alike. -/
theorem capture_coupled (lib : Platform) {operation : VncOperation} (hkey : operation.key = [])
    {s t : Session} (hsends : t.conn.sends = s.conn.sends) (h : R s.requested t.requested)
    (hreceived : Coupled R Eq (recvServerToClientMessage.run s.requested)
      (recvServerToClientMessage.run t.requested)) :
    Coupled R Eq ((capture lib operation).run s) ((capture lib operation).run t) := by
  have hwidth : t.client.width = s.client.width :=
    DrawsAlike.width s.requested t.requested h
  have hheight : t.client.height = s.client.height :=
    DrawsAlike.height s.requested t.requested h
  have hsent : (t.conn.send (frameBufferUpdateRequest t.client.width t.client.height)).1 =
      (s.conn.send (frameBufferUpdateRequest s.client.width s.client.height)).1 := by
    rw [hwidth, hheight]
    exact (Socket.send_congr hsends _).1
  cases hsend : (s.conn.send (frameBufferUpdateRequest s.client.width s.client.height)).1 with
  | false =>
    rw [capture_unsent lib operation s hkey hsend, capture_unsent lib operation t hkey
      (hsent.trans hsend)]
    exact .ok rfl h
  | true =>
    rw [capture_run lib operation s hkey hsend, capture_run lib operation t hkey
      (hsent.trans hsend)]
    generalize recvServerToClientMessage.run s.requested = r at hreceived
    generalize recvServerToClientMessage.run t.requested = r' at hreceived
    cases hreceived with
    | error hstate => exact .error hstate
    | @ok b b' u u' hvalue hstate =>
      subst hvalue
      cases b with
      | false => exact .ok rfl hstate
      | true =>
        dsimp only
        rw [drawPixels_alike lib hstate]
        cases drawPixels lib u.client with
        | error reason => exact .error hstate
        | ok image => exact .ok rfl (DrawsAlike.showing u u' lib operation image hstate)

end

theorem capture_keyed (lib : Platform) {operation : VncOperation} (hkey : operation.key ≠ [])
    (s : Session) : (capture lib operation).run s = .ok true s := by
  simp [capture, hkey]

/-- `capture` answers with what it receives, or with the last image. -/
theorem capture_respects (lib : Platform) (operation : VncOperation) :
    Respects Session.SameView (capture lib operation) := by
  intro s t h
  by_cases hkey : operation.key = []
  · obtain ⟨-, hconn⟩ := h.conn.send (frameBufferUpdateRequest s.client.width s.client.height)
    have hrequested : s.requested.SameScreen t.requested := by
      rw [Session.requested, Session.requested, h.width, h.height]
      exact ⟨⟨hconn, h.width, h.height, h.format, rfl⟩, rfl⟩
    have hcoupled := capture_coupled lib hkey h.conn.sends hrequested
      (recvServerToClientMessage_respects _ _ hrequested)
    exact hcoupled.mono fun _ _ hstate => hstate.toSameView
  · rw [capture_keyed lib hkey s, capture_keyed lib hkey t]
    exact .ok rfl h

end Mrhc
