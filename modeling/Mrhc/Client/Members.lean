import Mrhc.Client.Frames

/-!
# Members that a client keeps

The destination and the password are set by the constructor and by nothing else, and the pixel
format is that of the constructor until it is the requested one.
-/

namespace Mrhc

def Session.credentials (s : Session) : Credentials :=
  ⟨s.client.host, s.client.port, s.client.password⟩

abbrev KeepsCredentials {α : Type} (x : ClientM α) : Prop := Keeps Session.credentials x

private def SameCredentials (s t : Session) : Prop := t.credentials = s.credentials

private instance : SessionFrame SameCredentials where
  refl := fun _ => rfl
  trans := fun _ _ _ h h' => Eq.trans h' h
  recv := fun _ _ => rfl
  push := fun _ _ => rfl
  send := fun _ _ => rfl
  update := fun s _ hf => hf.credentials s.client

private theorem keepsCredentials_of_moves {α : Type} {x : ClientM α}
    (hx : Moves SameCredentials x) : KeepsCredentials x := fun _ _ _ => hx.of_ok

theorem initializeClient_keepsCredentials : KeepsCredentials initializeClient :=
  keepsCredentials_of_moves initializeClient_moves

theorem authenticate_keepsCredentials : KeepsCredentials authenticate :=
  keepsCredentials_of_moves authenticate_moves

theorem configure_keepsCredentials : KeepsCredentials configure :=
  keepsCredentials_of_moves configure_moves

theorem operate_keepsCredentials (lib : Platform) (operation : VncOperation) :
    KeepsCredentials (operate lib operation) :=
  keepsCredentials_of_moves (operate_moves lib operation)

theorem capture_keepsCredentials (lib : Platform) (operation : VncOperation) :
    KeepsCredentials (capture lib operation) :=
  keepsCredentials_of_moves (capture_moves lib operation)

private def KeepsFormat (s t : Session) : Prop := s.client.FormatSet → t.client.FormatSet

private instance : SessionFrame KeepsFormat where
  refl := fun _ => id
  trans := fun _ _ _ h h' => h' ∘ h
  recv := fun _ _ => id
  push := fun _ _ => id
  send := fun _ _ => id
  update := fun s _ hf => hf.format s.client

/-- Whatever a client is asked to do, it has one of two formats. -/
theorem formatSet_of_moves {α : Type} {x : ClientM α}
    (hx : ∀ (R : Session → Session → Prop) [SessionFrame R], Moves R x) {s : Session}
    (hs : s.client.FormatSet) : (finalState (x.run s)).client.FormatSet := hx KeepsFormat s hs

private def SameFormat (s t : Session) : Prop := t.client.pixelFormat = s.client.pixelFormat

private instance : SendFrame SameFormat where
  refl := fun _ => rfl
  trans := fun _ _ _ h h' => Eq.trans h' h
  send := fun _ _ => rfl

theorem configure_format (s : Session) :
    (finalState (configure.run s)).client.pixelFormat = configuredFormat := by
  let message := [rfbMessageTypeSetPixelFormat, 0, 0, 0] ++ configuredFormat.bytes
  let sends := require (require (send message) (pure true)) (require sendSetEncodings (pure true))
  have hrun : configure.run s = sends.run (s.update VncClient.configured) := rfl
  have hsends : Moves SameFormat sends :=
    Moves.require (Moves.require (send_moves message) (Moves.pure true))
      (Moves.require sendSetEncodings_moves (Moves.pure true))
  rw [hrun]
  exact hsends (s.update VncClient.configured)

end Mrhc
