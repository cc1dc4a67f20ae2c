import Mrhc.Client.Handshake
import Mrhc.Client.Operation
import Mrhc.Client.Payload

/-!
# What a call can change

A relation between sessions that is closed under the primitive actions holds between the first
and the last session of every call, whether or not the call returns. The functions that receive
a message append pixels and do nothing else to the client.
-/

namespace Mrhc

/-- What a client is created with: its destination and the password. -/
structure Credentials where
  host : Bytes
  port : Int
  password : Bytes
deriving DecidableEq, Repr

def VncClient.credentials (c : VncClient) : Credentials := ⟨c.host, c.port, c.password⟩

/-- The formats that a client has had: that of the constructor and the one it requests. -/
def VncClient.FormatSet (c : VncClient) : Prop :=
  c.pixelFormat = PixelFormat.zero ∨ c.pixelFormat = configuredFormat

instance (c : VncClient) : Decidable c.FormatSet := inferInstanceAs (Decidable (_ ∨ _))

/-- The relation is closed under receives. -/
class ReadFrame (R : Session → Session → Prop) : Prop extends IsPreorder Session R where
  recv : ∀ s n, R s (s.on (s.conn.recv n).2)

/-- The relation is closed under receives and under new pixels. -/
class ReceiveFrame (R : Session → Session → Prop) : Prop extends ReadFrame R where
  push : ∀ s pixels, R s (s.push pixels)

/-- What every member function leaves alone when it sets members. -/
structure Sets (f : VncClient → VncClient) : Prop where
  credentials : ∀ c, (f c).credentials = c.credentials
  format : ∀ c, c.FormatSet → (f c).FormatSet

/-- Sets the image and the buffers and nothing else. -/
def Draws (f : VncClient → VncClient) : Prop :=
  ∀ c, ∃ image imageBuf jpegBuf,
    f c = { c with image := image, imageBuf := imageBuf, jpegBuf := jpegBuf }

theorem Draws.sets {f : VncClient → VncClient} (h : Draws f) : Sets f where
  credentials := by
    intro c
    obtain ⟨image, imageBuf, jpegBuf, hc⟩ := h c
    rw [hc]
    rfl
  format := by
    intro c hformat
    obtain ⟨image, imageBuf, jpegBuf, hc⟩ := h c
    rw [hc]
    exact hformat

/-- The relation is closed under receives and under drawing. -/
class DrawFrame (R : Session → Session → Prop) : Prop extends ReceiveFrame R where
  draw : ∀ s f, Draws f → R s (s.update f)

/-- The relation is closed under sends. -/
class SendFrame (R : Session → Session → Prop) : Prop extends IsPreorder Session R where
  send : ∀ s message, R s (s.on (s.conn.send message).2)

/-- Sets members, but neither the image nor the buffers. -/
structure SetsUp (f : VncClient → VncClient) : Prop extends Sets f where
  image : ∀ c, (f c).image = c.image
  imageBuf : ∀ c, (f c).imageBuf = c.imageBuf
  jpegBuf : ∀ c, (f c).jpegBuf = c.jpegBuf

/-- The relation is closed under every action of the opening. -/
class OpeningFrame (R : Session → Session → Prop) : Prop extends ReceiveFrame R, SendFrame R where
  set : ∀ s f, SetsUp f → R s (s.update f)

/-- The relation is closed under every action of the client. -/
class SessionFrame (R : Session → Session → Prop) : Prop extends DrawFrame R, SendFrame R where
  update : ∀ s f, Sets f → R s (s.update f)
  draw := fun s f hf => update s f hf.sets

instance (R : Session → Session → Prop) [SessionFrame R] : OpeningFrame R where
  set := fun s f hf => SessionFrame.update s f hf.toSets

section

variable {R : Session → Session → Prop} [IsPreorder Session R]

private theorem getClient_moves : Moves R getClient := refl_of R

private theorem stop_moves {α : Type} (reason : Stop) : Moves R (stop reason : ClientM α) :=
  refl_of R

private theorem pixelFuel_moves (totalPixelBytes : UInt32) :
    Moves R (pixelFuel totalPixelBytes) := refl_of R

private theorem loggerDebug_moves (buf : Bytes) : Moves R (loggerDebug buf) :=
  Moves.ite (Moves.pure ()) (stop_moves _)

private theorem guarded_moves {α : Type} {p : Prop} [Decidable p] (reason : Stop) {x : ClientM α}
    (hx : Moves R x) :
    Moves R (do
      if p then stop reason
      x) :=
  Moves.ite (Moves.bind (stop_moves reason) fun _ => hx) hx

private theorem checked_moves {x y : ClientM Bool} (hx : Moves R x) (hy : Moves R y) :
    Moves R (do
      if !(← x) then return false
      y) := Moves.require hx hy

end

section

variable {R : Session → Session → Prop} [SendFrame R]

theorem send_moves (message : Bytes) : Moves R (send message) :=
  fun s => SendFrame.send s message

private theorem sent_moves (message : Bytes) {y : ClientM Bool} (hy : Moves R y) :
    Moves R (do
      if !(← send message) then return false
      y) := checked_moves (send_moves message) hy

theorem sendSetEncodings_moves : Moves R sendSetEncodings := sent_moves _ (Moves.pure true)

theorem sendFrameBufferUpdateRequest_moves : Moves R sendFrameBufferUpdateRequest :=
  Moves.bind getClient_moves fun _ => sent_moves _ (Moves.pure true)

theorem operate_moves (lib : Platform) (operation : VncOperation) :
    Moves R (operate lib operation) := by
  have hkey : Moves R (sendKeyEvent lib operation.key) :=
    Moves.ite (Moves.pure true) (sent_moves _ (sent_moves _ (Moves.pure true)))
  have hpointer : Moves R (sendPointerEvent operation.x operation.y operation.button) :=
    guarded_moves _ (sent_moves _ (sent_moves _ (Moves.pure true)))
  apply Moves.ite (checked_moves hkey (Moves.pure true))
  exact Moves.ite (Moves.pure true) (checked_moves hpointer (Moves.pure true))

end

section

variable {R : Session → Session → Prop} [ReadFrame R]

private theorem recv_moves (n : Nat) : Moves R (recv n) := fun s => ReadFrame.recv s n

private theorem received_moves {n : Nat} {f : Bytes → ClientM Bool}
    (hf : ∀ buf, Moves R (f buf)) :
    Moves R (do
      match ← recv n with
      | none => return false
      | some buf => f buf) := by
  refine Moves.bind (recv_moves n) ?_
  intro result
  cases result with
  | none => exact Moves.pure false
  | some buf => exact hf buf

private theorem recvColours_moves (n : Nat) : Moves R (recvColours n) := by
  induction n with
  | zero => exact Moves.pure true
  | succ n ih => exact checked_moves (received_moves fun _ => Moves.pure true) ih

private theorem recvText_moves (length : UInt32) : Moves R (recvText length) := by
  apply received_moves
  intro buf
  exact guarded_moves _ (Moves.bind (loggerDebug_moves buf) fun _ => Moves.pure true)

/-- A message moves along the relation when its rectangles do. -/
theorem recvServerToClientMessage_of_recvRectangle (hrectangle : Moves R recvRectangle) :
    Moves R recvServerToClientMessage := by
  have hrectangles : ∀ n, Moves R (recvRectangles n) := by
    intro n
    induction n with
    | zero => exact Moves.pure true
    | succ n ih => exact checked_moves hrectangle ih
  apply received_moves
  intro buf
  apply Moves.ite
  · exact received_moves fun _ => checked_moves (hrectangles _) (Moves.pure true)
  apply Moves.ite
  · exact received_moves fun _ => checked_moves (recvColours_moves _) (Moves.pure true)
  refine Moves.ite (Moves.pure true) ?_
  apply Moves.ite
  · exact received_moves fun _ => checked_moves (recvText_moves _) (Moves.pure true)
  · exact Moves.pure false

end

section

variable {R : Session → Session → Prop} [ReceiveFrame R]

private theorem pushPixels_moves (buf : Bytes) (bytesPerPixel fuel i : Nat) :
    Moves R (pushPixels buf bytesPerPixel fuel i) := by
  induction fuel generalizing i with
  | zero => exact stop_moves _
  | succ fuel ih =>
    have hpush : Moves R (modifyClient fun c =>
        { c with imageBuf := c.imageBuf ++ [load32 buf i] }) :=
      fun s => ReceiveFrame.push s [load32 buf i]
    exact Moves.ite (guarded_moves _ (Moves.bind hpush fun _ => ih _)) (Moves.pure ())

private theorem recvPixels_moves (totalPixelBytes : UInt32) (bytesPerPixel : UInt8) (fuel : Nat)
    (totalRecv : UInt32) :
    Moves R (recvPixels totalPixelBytes bytesPerPixel fuel totalRecv) := by
  induction fuel generalizing totalRecv with
  | zero => exact stop_moves _
  | succ fuel ih =>
    have hchunk : ∀ n, Moves R (do
        match ← recv n with
        | none => return false
        | some buf =>
          pushPixels buf bytesPerPixel.toNat (buf.length + 1) 0
          recvPixels totalPixelBytes bytesPerPixel fuel (totalRecv + UInt32.ofNat buf.length)) :=
      fun _ => received_moves fun _ => Moves.bind (pushPixels_moves _ _ _ _) fun _ => ih _
    exact Moves.ite (Moves.ite (hchunk _) (hchunk _)) (Moves.pure true)

theorem recvRectangle_moves : Moves R recvRectangle := by
  apply received_moves
  intro buf
  have hpixels := fun (bits : UInt8) (area : Nat) =>
    Moves.bind (pixelFuel_moves (UInt32.ofNat area * bits.toUInt32 / 8)) fun fuel =>
      recvPixels_moves (R := R) (UInt32.ofNat area * bits.toUInt32 / 8) (bits / 8) fuel 0
  refine Moves.ite (Moves.pure false) ?_
  refine Moves.bind getClient_moves ?_
  intro c
  exact guarded_moves _ (hpixels _ _)

theorem recvServerToClientMessage_moves : Moves R recvServerToClientMessage :=
  recvServerToClientMessage_of_recvRectangle recvRectangle_moves

end

section

variable {R : Session → Session → Prop} [DrawFrame R]

private theorem drawn_moves {α : Type} {f : VncClient → VncClient} {x : Unit → ClientM α}
    (hf : Draws f) (hx : ∀ u, Moves R (x u)) : Moves R (modifyClient f >>= x) :=
  Moves.bind (fun s => DrawFrame.draw s f hf) hx

private theorem drawImage_moves (lib : Platform) : Moves R (drawImage lib) := by
  refine Moves.bind getClient_moves ?_
  intro c
  cases drawPixels lib c with
  | error reason => exact stop_moves reason
  | ok image => exact drawn_moves (fun _ => ⟨_, _, _, rfl⟩) fun _ => Moves.pure true

private theorem drawPointer_moves (lib : Platform) (x y : UInt16) :
    Moves R (drawPointer lib x y) :=
  Moves.ite (Moves.pure true) (drawn_moves (fun _ => ⟨_, _, _, rfl⟩) fun _ => Moves.pure true)

/-- A capture after its request. -/
def answered (lib : Platform) (operation : VncOperation) : ClientM Bool :=
  require recvServerToClientMessage (require (drawImage lib) (do
    if operation.x = 0 ∧ operation.y = 0 then return true
    if !(← drawPointer lib operation.x operation.y) then return false
    return true))

theorem answered_moves (lib : Platform) (operation : VncOperation) :
    Moves R (answered lib operation) := by
  refine Moves.require recvServerToClientMessage_moves ?_
  refine Moves.require (drawImage_moves lib) ?_
  exact Moves.ite (Moves.pure true) (checked_moves (drawPointer_moves lib _ _) (Moves.pure true))

end

section

variable {R : Session → Session → Prop} [OpeningFrame R]

private theorem modifyClient_moves {f : VncClient → VncClient} (hf : SetsUp f) :
    Moves R (modifyClient f) := fun s => OpeningFrame.set s f hf

private theorem updated_moves {α : Type} {f : VncClient → VncClient} {x : Unit → ClientM α}
    (hf : SetsUp f) (hx : ∀ u, Moves R (x u)) : Moves R (modifyClient f >>= x) :=
  Moves.bind (modifyClient_moves hf) hx

private theorem sets_other {f : VncClient → VncClient}
    (hf : ∀ c, (f c).credentials = c.credentials ∧ (f c).pixelFormat = c.pixelFormat ∧
      (f c).image = c.image ∧ (f c).imageBuf = c.imageBuf ∧ (f c).jpegBuf = c.jpegBuf) :
    SetsUp f where
  credentials := fun c => (hf c).1
  format := by
    intro c hc
    rwa [VncClient.FormatSet, (hf c).2.1]
  image := fun c => (hf c).2.2.1
  imageBuf := fun c => (hf c).2.2.2.1
  jpegBuf := fun c => (hf c).2.2.2.2

/-! The handshake. -/

private theorem recvProtocolVersion_moves : Moves R recvProtocolVersion := by
  apply received_moves
  intro buf
  refine Moves.bind (loggerDebug_moves buf) ?_
  intro _
  have hset : Moves R (do
      modifyClient fun c => { c with version := cString buf }
      return true) :=
    updated_moves (sets_other fun _ => ⟨rfl, rfl, rfl, rfl, rfl⟩) fun _ => Moves.pure true
  exact Moves.ite hset (Moves.ite hset (Moves.ite hset (Moves.pure false)))

private theorem sendProtocolVersion_moves : Moves R sendProtocolVersion := by
  refine Moves.bind getClient_moves ?_
  intro c
  have hlogged := Moves.bind (loggerDebug_moves (R := R)
    (zeroPad sizeofProtocolVersion c.version ++ c.versionTail)) fun _ => Moves.pure true
  exact guarded_moves _ (sent_moves _ hlogged)

private theorem receivedUpdate_moves {n : Nat} {f : Bytes → VncClient → VncClient}
    (hf : ∀ buf, SetsUp (f buf)) :
    Moves R (do
      match ← recv n with
      | none => return false
      | some buf =>
        modifyClient (f buf)
        return true) :=
  received_moves fun buf => updated_moves (hf buf) fun _ => Moves.pure true

private theorem recvSupportedSecurityTypes_moves : Moves R recvSupportedSecurityTypes :=
  receivedUpdate_moves fun _ => sets_other fun _ => ⟨rfl, rfl, rfl, rfl, rfl⟩

private theorem recvVncAuthChallenge_moves : Moves R recvVncAuthChallenge :=
  receivedUpdate_moves fun _ => sets_other fun _ => ⟨rfl, rfl, rfl, rfl, rfl⟩

private theorem sendVncAuthResponse_moves : Moves R sendVncAuthResponse := by
  apply updated_moves
  · exact sets_other fun _ => ⟨rfl, rfl, rfl, rfl, rfl⟩
  · exact fun _ => Moves.bind getClient_moves fun _ => sent_moves _ (Moves.pure true)

theorem recvServerInit_moves : Moves R recvServerInit := by
  apply received_moves
  intro buf
  apply updated_moves
  · exact sets_other fun _ => ⟨rfl, rfl, rfl, rfl, rfl⟩
  intro _
  exact guarded_moves _
    (updated_moves (sets_other fun _ => ⟨rfl, rfl, rfl, rfl, rfl⟩) fun _ => Moves.pure true)

/-- The handshake after the response. -/
def closing : ClientM Bool :=
  require recvSecurityResult (require sendClientInit (require recvServerInit (pure true)))

/-- The handshake after the security type has been sent. -/
def afterChoice : ClientM Bool :=
  require recvVncAuthChallenge (require sendVncAuthResponse closing)

/-- The handshake after the version has been sent. -/
def afterVersion : ClientM Bool :=
  require recvSupportedSecurityTypes (require sendSecurityType afterChoice)

/-! The calls of the handler. -/

theorem initializeClient_moves : Moves R initializeClient := by
  have hconnect : Moves R connectToServer := refl_of R
  exact checked_moves hconnect (Moves.pure true)

theorem closing_moves : Moves R closing := by
  have hresult : Moves R recvSecurityResult :=
    received_moves fun _ => Moves.ite (Moves.pure false) (Moves.pure true)
  refine Moves.require hresult ?_
  refine Moves.require (sent_moves _ (Moves.pure true)) ?_
  exact Moves.require recvServerInit_moves (Moves.pure true)

theorem afterChoice_moves : Moves R afterChoice :=
  Moves.require recvVncAuthChallenge_moves (Moves.require sendVncAuthResponse_moves closing_moves)

theorem afterVersion_moves : Moves R afterVersion := by
  refine Moves.require recvSupportedSecurityTypes_moves ?_
  exact Moves.require (sent_moves _ (Moves.pure true)) afterChoice_moves

theorem authenticate_moves : Moves R authenticate := by
  refine checked_moves recvProtocolVersion_moves ?_
  exact checked_moves sendProtocolVersion_moves afterVersion_moves

theorem configure_moves : Moves R configure := by
  apply checked_moves
  · have hset : SetsUp VncClient.configured :=
      ⟨⟨fun _ => rfl, fun _ _ => Or.inr rfl⟩, fun _ => rfl, fun _ => rfl, fun _ => rfl⟩
    exact updated_moves hset fun _ => sent_moves _ (Moves.pure true)
  · exact checked_moves sendSetEncodings_moves (Moves.pure true)

end

section

variable {R : Session → Session → Prop} [SessionFrame R]

theorem capture_moves (lib : Platform) (operation : VncOperation) :
    Moves R (capture lib operation) := by
  refine Moves.ite (Moves.pure true) ?_
  refine drawn_moves (fun _ => ⟨_, _, _, rfl⟩) ?_
  intro _
  exact checked_moves sendFrameBufferUpdateRequest_moves (answered_moves lib operation)

end

/-- What has been written stays written. -/
def Session.Extends (s t : Session) : Prop := s.conn.written <+: t.conn.written

instance : SessionFrame Session.Extends where
  refl := fun _ => List.prefix_rfl
  trans := fun _ _ _ => List.IsPrefix.trans
  recv := by
    intro s n
    rcases s.conn.recv_cases n with h | ⟨k, -, h⟩ <;> rw [h] <;> exact List.prefix_rfl
  push := fun _ _ => List.prefix_rfl
  send := by
    intro s message
    rcases s.conn.send_cases message with h | ⟨k, -, h⟩ <;> rw [h]
    · exact List.prefix_rfl
    · exact List.prefix_append _ _
  update := fun _ _ _ => List.prefix_rfl

end Mrhc
