import Mrhc.Client.Framing
import Mrhc.Client.HandshakeRuns

/-!
# Server init

The message that ends the handshake. Its desktop name has any length, while `recv_server_init`
asks for a fixed number of bytes.
-/

namespace Mrhc

/-- A ServerInit message with the sixteen bytes of some pixel format. -/
structure ServerInit where
  width : UInt16
  height : UInt16
  pixelFormat : Bytes
  name : Bytes
  pixelFormat_length : pixelFormat.length = 16
  name_length : name.length < 2 ^ 32

/-- The bytes in front of the name. -/
def ServerInit.header (m : ServerInit) : Bytes :=
  store16 (htons m.width) ++ store16 (htons m.height) ++ m.pixelFormat ++
    store32 (htonl (UInt32.ofNat m.name.length))

def ServerInit.bytes (m : ServerInit) : Bytes := m.header ++ m.name

theorem ServerInit.header_length (m : ServerInit) : m.header.length = 24 := by
  simp [ServerInit.header, store16, m.pixelFormat_length]

section

variable (m : ServerInit) (name : Bytes)

theorem ServerInit.load_width : ntohs (load16 (m.header ++ name) 0) = m.width := by
  have h := load16_store16 [] (store16 (htons m.height) ++ m.pixelFormat ++
    store32 (htonl (UInt32.ofNat m.name.length)) ++ name) (htons m.width)
  simp only [List.nil_append, List.length_nil, ← List.append_assoc] at h
  rw [ServerInit.header, h, ntohs_htons]

theorem ServerInit.load_height : ntohs (load16 (m.header ++ name) 2) = m.height := by
  have h := load16_store16 (store16 (htons m.width)) (m.pixelFormat ++
    store32 (htonl (UInt32.ofNat m.name.length)) ++ name) (htons m.height)
  simp only [← List.append_assoc] at h
  exact (congrArg ntohs h).trans (ntohs_htons _)

theorem ServerInit.announces : announcedNameLength (m.header ++ name) = m.name.length := by
  have h := load32_store32 (store16 (htons m.width) ++ store16 (htons m.height) ++ m.pixelFormat)
    name (htonl (UInt32.ofNat m.name.length))
  have hplace : (store16 (htons m.width) ++ store16 (htons m.height) ++
      m.pixelFormat).length = 20 := by
    simp [store16, m.pixelFormat_length]
  rw [hplace] at h
  rw [announcedNameLength, ServerInit.header, h, ntohl_htonl, UInt32.toNat_ofNat',
    Nat.mod_eq_of_lt m.name_length]

end

/-- Facing this message and what follows it on the stream, `recv_server_init` stays inside its
arrays, and when it returns `true` it has set the members to the values of the message and has
received exactly the message. -/
def DecodesServerInit (s : Session) (m : ServerInit) (rest : Bytes) : Prop :=
  (∀ t, recvServerInit.run (s.rest (m.bytes ++ rest)) ≠ .error .outOfBounds t) ∧
    ∀ t, recvServerInit.run (s.rest (m.bytes ++ rest)) = .ok true t →
      t.client.width = m.width ∧ t.client.height = m.height ∧
        t.client.name = cString m.name ∧ t.conn.input = rest

/-- The one receive takes the header and up to 256 bytes after it. -/
theorem recvServerInit_message (s : Session) (hr : s.conn.recvs = []) (m : ServerInit)
    (rest : Bytes) :
    recvServerInit.run (s.rest (m.bytes ++ rest)) =
      let buf := m.header ++ (m.name ++ rest).take rfbBufSize
      let t := s.rest ((m.name ++ rest).drop rfbBufSize)
      if m.name.length ≤ rfbBufSize then .ok true (t.update (·.withServerInit buf))
      else .error .outOfBounds (t.update fun c =>
        { c with width := ntohs (load16 buf 0), height := ntohs (load16 buf 2) }) := by
  have hrecv : (s.rest (m.bytes ++ rest)).conn.recv sizeofServerInit =
      (some (m.header ++ (m.name ++ rest).take rfbBufSize),
        (s.rest ((m.name ++ rest).drop rfbBufSize)).conn) := by
    have hsize : sizeofServerInit = m.header.length + rfbBufSize := by
      rw [m.header_length]
      rfl
    rw [Socket.recv_unscheduled (c := (s.rest (m.bytes ++ rest)).conn) hr, hsize]
    simp only [ServerInit.bytes, List.append_assoc, Session.rest, Session.on_conn,
      List.take_length_add_append, List.drop_length_add_append]
  rw [recvServerInit_run, Session.received_some hrecv, m.announces]
  rfl

/-- The message is decoded exactly when its name fits the received array and nothing that could be
taken for more of the name follows it. -/
theorem recvServerInit_decodes_iff (s : Session) (hr : s.conn.recvs = []) (m : ServerInit)
    (rest : Bytes) :
    DecodesServerInit s m rest ↔
      m.name.length ≤ rfbBufSize ∧ (m.name.length = rfbBufSize ∨ rest = []) := by
  have hrun := recvServerInit_message s hr m rest
  dsimp only at hrun
  by_cases hfits : m.name.length ≤ rfbBufSize
  · rw [if_pos hfits] at hrun
    have hleft : (m.name ++ rest).drop rfbBufSize = rest.drop (rfbBufSize - m.name.length) := by
      rw [List.drop_append, List.drop_eq_nil_of_le hfits, List.nil_append]
    have hname : cString (((m.header ++ (m.name ++ rest).take rfbBufSize).drop 24).take
        m.name.length) = cString m.name := by
      rw [← m.header_length, List.drop_left, List.take_take, Nat.min_eq_left hfits,
        List.take_left]
    constructor
    · intro h
      obtain ⟨-, -, -, hrest⟩ := h.2 _ hrun
      have hlength : rest.length - (rfbBufSize - m.name.length) = rest.length := by
        rw [← List.length_drop, ← hleft]
        exact congrArg List.length hrest
      refine ⟨hfits, ?_⟩
      rw [← List.length_eq_zero_iff]
      omega
    · intro h
      have hrest : rest.drop (rfbBufSize - m.name.length) = rest := by
        cases h.2 with
        | inl hfull => rw [hfull, Nat.sub_self, List.drop_zero]
        | inr hend => rw [hend, List.drop_nil]
      refine ⟨fun t ht => ?_, fun t ht => ?_⟩
      · rw [hrun] at ht
        cases ht
      · rw [hrun, EStateM.Result.ok.injEq] at ht
        obtain ⟨-, rfl⟩ := ht
        refine ⟨m.load_width _, m.load_height _, ?_, hleft.trans hrest⟩
        simp only [Session.update_client, VncClient.withServerInit, m.announces, hname]
  · rw [if_neg hfits] at hrun
    constructor
    · intro h
      exact absurd hrun (h.1 _)
    · intro h
      exact absurd h.1 hfits

/-- The last message of a handshake with a screen that has this name. -/
def namedScreen (name : Bytes) (h : name.length < 2 ^ 32) : ServerInit where
  width := 1
  height := 1
  pixelFormat := configuredFormat.bytes
  name := name
  pixelFormat_length := rfl
  name_length := h

theorem recvServerInit_decodes_last :
    DecodesServerInit configuredSession (namedScreen (ascii "desktop") (by decide)) [] :=
  (recvServerInit_decodes_iff configuredSession rfl _ []).mpr ⟨by decide, Or.inr rfl⟩

/-- A name that is one byte longer than the received array. -/
def longName : Bytes := List.replicate 257 0x61

theorem longName_length : longName.length = 257 := List.length_replicate

/-- A bell behind a short name is swallowed, and a name of 257 bytes is read past its array. -/
theorem recvServerInit_not_decodes :
    ¬DecodesServerInit configuredSession (namedScreen (ascii "desktop") (by decide))
        ServerMessage.bell.bytes ∧
      ¬DecodesServerInit configuredSession (namedScreen longName (by rw [longName_length]; decide)) [] := by
  constructor
  · intro h
    have hcondition := (recvServerInit_decodes_iff configuredSession rfl _ _).mp h
    exact absurd hcondition.2 (by decide)
  · intro h
    have hcondition := (recvServerInit_decodes_iff configuredSession rfl _ _).mp h
    have hlong : longName.length ≤ rfbBufSize := hcondition.1
    rw [longName_length] at hlong
    exact absurd hlong (by decide)

end Mrhc
