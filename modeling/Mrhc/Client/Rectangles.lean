import Mrhc.Client.Payload
import Mrhc.Client.ServerMessages

/-!
# Receiving a rectangle

What `recv_rectangle` does with a 32-bit pixel format, and how far its pixels depend on the way
in which the payload is cut by the network.
-/

namespace Mrhc

/-- The area that a received header announces. -/
def headerArea (buf : Bytes) : Nat :=
  (ntohs (load16 buf 4)).toNat * (ntohs (load16 buf 6)).toNat

/-- The size of a payload in bytes as the client computes it, modulo 2^32 before the division. -/
def payloadSize (area : Nat) : Nat := 4 * (area % 2 ^ 27)

@[simp] theorem headerArea_bytes (r : Rectangle) : headerArea r.bytes = r.area := by
  rw [headerArea, r.load_width, r.load_height, Rectangle.area]

theorem totalPixelBytes_toNat (area : Nat) :
    (UInt32.ofNat area * (0x20 : UInt8).toUInt32 / 8).toNat = payloadSize area := by
  have h32 : (0x20 : UInt8).toUInt32.toNat = 32 := rfl
  have h8 : (8 : UInt32).toNat = 8 := rfl
  rw [UInt32.toNat_div, UInt32.toNat_mul, UInt32.toNat_ofNat', h32, h8, payloadSize]
  omega

theorem recvRectangle_received (s : Session) :
    recvRectangle.run s = s.received sizeofPixelData fun buf t =>
      let bits := s.client.pixelFormat.bitsPerPixel
      let size := UInt32.ofNat (headerArea buf) * bits.toUInt32 / 8
      if load32 buf 8 ≠ rfbEncodingRaw then .ok false t
      else if 2 ^ 31 ≤ headerArea buf then .error .signedOverflow t
      else (recvPixels size (bits / 8) (t.conn.fuelFor size.toNat) 0).run t := by
  rcases hr : s.conn.recv sizeofPixelData with ⟨_ | buf, c⟩
  · simp [recvRectangle, Session.received_none hr, hr]
  · rw [Session.received_some hr]
    by_cases henc : load32 buf 8 = rfbEncodingRaw
    · by_cases hover : 2 ^ 31 ≤ headerArea buf
      · have hover' := hover
        unfold headerArea at hover'
        simp only [recvRectangle, EStateM.run_bind, recv_run, hr, henc, getClient_run, hover,
          hover', if_true, stop_run, ne_eq, not_true_eq_false, if_false]
      · have hover' := hover
        unfold headerArea at hover'
        simp only [recvRectangle, EStateM.run_bind, recv_run, hr, henc, getClient_run, hover',
          Session.on_client, hover, if_false, ne_eq, not_true_eq_false]
        rfl
    · simp [recvRectangle, hr, henc]

/-- `recv_rectangle` on a 32-bit pixel format: the header decides whether a payload is read. -/
theorem recvRectangle_run (s : Session) (hbits : s.client.pixelFormat.bitsPerPixel = 0x20) :
    recvRectangle.run s = s.received sizeofPixelData fun buf t =>
      if load32 buf 8 ≠ rfbEncodingRaw then .ok false t
      else if 2 ^ 31 ≤ headerArea buf then .error .signedOverflow t
      else afterPayload (t.conn.gather bufSize (t.conn.fuelFor (payloadSize (headerArea buf)))
        (payloadSize (headerArea buf))) t := by
  have hpixels : ∀ (area : Nat) (t : Session),
      (recvPixels (UInt32.ofNat area * (0x20 : UInt8).toUInt32 / 8) (0x20 / 8)
        (t.conn.fuelFor (payloadSize area)) 0).run t =
      afterPayload (t.conn.gather bufSize (t.conn.fuelFor (payloadSize area))
        (payloadSize area)) t := by
    intro area t
    have hrun := recvPixels_run (UInt32.ofNat area * (0x20 : UInt8).toUInt32 / 8) 0
      (t.conn.fuelFor (payloadSize area)) t (Nat.zero_le _)
    rwa [totalPixelBytes_toNat] at hrun
  simp only [recvRectangle_received, hbits, totalPixelBytes_toNat, hpixels]

/-- A raw rectangle whose header arrives whole and whose payload arrives in these pieces, ahead
of whatever follows on the connection. -/
def Session.facing (s : Session) (r : Rectangle) {payload : Bytes}
    (cut : Socket.Cutting payload bufSize) (rest : Bytes) (later : List Transfer) : Session :=
  s.on { s.conn with
    input := r.bytes ++ (payload ++ rest)
    recvs := .whole :: (Socket.transfers cut.pieces ++ later) }

/-- `recv_rectangle` returns `true`, has appended exactly the words of the payload and has
received exactly the payload. -/
def DecodesPayload (s : Session) (payload rest : Bytes) : Prop :=
  ∃ s', recvRectangle.run s = .ok true s' ∧
    s'.client.imageBuf = s.client.imageBuf ++ words payload ∧ s'.conn.input = rest

theorem recvRectangle_facing (s : Session) (hbits : s.client.pixelFormat.bitsPerPixel = 0x20)
    (r : Rectangle) (hraw : r.encodingType = rfbEncodingRaw) (harea : r.area < 2 ^ 31)
    {payload : Bytes} (cut : Socket.Cutting payload bufSize) (rest : Bytes)
    (later : List Transfer) :
    recvRectangle.run (s.facing r cut rest later) =
      let c := { s.conn with
        input := payload ++ rest
        recvs := Socket.transfers cut.pieces ++ later }
      afterPayload (c.gather bufSize (c.fuelFor (payloadSize r.area)) (payloadSize r.area))
        (s.on c) := by
  have hrecv := Socket.recv_whole (s.facing r cut rest later).conn r.bytes (payload ++ rest)
    (Socket.transfers cut.pieces ++ later) rfl rfl
  have henc : load32 r.bytes 8 = rfbEncodingRaw := by rw [r.load_encodingType, hraw]; rfl
  rw [r.bytes_length] at hrecv
  rw [recvRectangle_run (s.facing r cut rest later) hbits, Session.received_some hrecv]
  simp only [henc, ne_eq, not_true_eq_false, if_false, headerArea_bytes]
  rw [if_neg (by omega)]
  rfl

private theorem facing_decodes_pieces (s : Session)
    (hbits : s.client.pixelFormat.bitsPerPixel = 0x20) (r : Rectangle)
    (hraw : r.encodingType = rfbEncodingRaw) {payload : Bytes} (rest : Bytes)
    (later : List Transfer) (hlen : payload.length = 4 * r.area) (harea : r.area < 2 ^ 27)
    (cut : Socket.Cutting payload bufSize) :
    ∃ s', recvRectangle.run (s.facing r cut rest later) = .ok true s' ∧
      s'.client.imageBuf = s.client.imageBuf ++ (cut.pieces.map words).flatten ∧
      s'.conn.input = rest := by
  have hrun := recvRectangle_facing s hbits r hraw (by omega) cut rest later
  have hpayload : payloadSize r.area = payload.length := by rw [payloadSize]; omega
  have hgather := Socket.gather_cutting cut rest later { s.conn with
      input := payload ++ rest
      recvs := Socket.transfers cut.pieces ++ later } rfl rfl
  rw [hpayload] at hrun
  dsimp only at hrun
  rw [hgather] at hrun
  exact ⟨_, hrun, rfl, rfl⟩

private theorem facing_wraps (s : Session)
    (hbits : s.client.pixelFormat.bitsPerPixel = 0x20) (r : Rectangle)
    (hraw : r.encodingType = rfbEncodingRaw) {payload : Bytes} (rest : Bytes)
    (later : List Transfer) (hlen : payload.length = 4 * r.area) (hsize : payload.length < 2 ^ 32)
    (cut : Socket.Cutting payload bufSize) {s' : Session}
    (hrun : recvRectangle.run (s.facing r cut rest later) = .ok true s')
    (hrest : s'.conn.input = rest) : r.area < 2 ^ 27 := by
  rw [recvRectangle_facing s hbits r hraw (by omega) cut rest later] at hrun
  obtain ⟨hfull, rfl⟩ := of_afterPayload_true hrun
  have hinput := (Socket.gather_full_parts hfull).2
  rw [Session.push_conn, Session.on_conn] at hrest
  rw [hrest] at hinput
  have hl := congrArg List.length hinput
  simp only [List.length_drop, List.length_append, payloadSize] at hl
  omega

/-- The cuts of a payload that end on pixel boundaries. -/
def PixelAligned {payload : Bytes} (cut : Socket.Cutting payload bufSize) : Prop :=
  ∀ piece ∈ cut.pieces, 4 ∣ piece.length

instance {payload : Bytes} (cut : Socket.Cutting payload bufSize) : Decidable (PixelAligned cut) :=
  inferInstanceAs (Decidable (∀ piece ∈ cut.pieces, 4 ∣ piece.length))

/-- The payload is decoded exactly when the size computation does not wrap and every piece ends on
a pixel boundary. -/
theorem recvRectangle_decodes_iff (s : Session)
    (hbits : s.client.pixelFormat.bitsPerPixel = 0x20) (r : Rectangle)
    (hraw : r.encodingType = rfbEncodingRaw) {payload : Bytes} (rest : Bytes)
    (later : List Transfer) (hlen : payload.length = 4 * r.area) (hsize : payload.length < 2 ^ 32)
    (cut : Socket.Cutting payload bufSize) :
    DecodesPayload (s.facing r cut rest later) payload rest ↔
      r.area < 2 ^ 27 ∧ PixelAligned cut := by
  constructor
  · rintro ⟨s', hs', hbuf, hrest⟩
    have harea := facing_wraps s hbits r hraw rest later hlen hsize cut hs' hrest
    refine ⟨harea, ?_⟩
    obtain ⟨t, ht, htbuf, _⟩ := facing_decodes_pieces s hbits r hraw rest later hlen harea cut
    rw [ht, EStateM.Result.ok.injEq] at hs'
    obtain ⟨_, rfl⟩ := hs'
    have hwords : (cut.pieces.map words).flatten = words payload :=
      List.append_cancel_left (htbuf.symm.trans hbuf)
    refine (words_flatten_length cut.pieces).2.mp ?_
    rw [hwords, words_length, cut.joined]
    omega
  · rintro ⟨harea, haligned⟩
    obtain ⟨t, ht, hbuf, hrest⟩ := facing_decodes_pieces s hbits r hraw rest later hlen harea cut
    refine ⟨t, ht, ?_, hrest⟩
    rw [hbuf, words_flatten haligned, cut.joined]
    rfl

/-- Two ways of cutting a payload are both decoded, to the same pixels, exactly when both keep to
pixel boundaries and the size computation does not wrap. -/
theorem recvRectangle_segmentation (s : Session)
    (hbits : s.client.pixelFormat.bitsPerPixel = 0x20) (r : Rectangle)
    (hraw : r.encodingType = rfbEncodingRaw) (payload rest : Bytes) (later later' : List Transfer)
    (hlen : payload.length = 4 * r.area) (hsize : payload.length < 2 ^ 32)
    (cut cut' : Socket.Cutting payload bufSize) :
    (DecodesPayload (s.facing r cut rest later) payload rest ∧
        DecodesPayload (s.facing r cut' rest later') payload rest ∧
        ∀ t t', recvRectangle.run (s.facing r cut rest later) = .ok true t →
          recvRectangle.run (s.facing r cut' rest later') = .ok true t' →
          t.client.imageBuf = t'.client.imageBuf) ↔
      r.area < 2 ^ 27 ∧ PixelAligned cut ∧ PixelAligned cut' := by
  rw [recvRectangle_decodes_iff s hbits r hraw rest later hlen hsize cut,
    recvRectangle_decodes_iff s hbits r hraw rest later' hlen hsize cut']
  constructor
  · rintro ⟨⟨harea, hcut⟩, ⟨_, hcut'⟩, _⟩
    exact ⟨harea, hcut, hcut'⟩
  · rintro ⟨harea, hcut, hcut'⟩
    refine ⟨⟨harea, hcut⟩, ⟨harea, hcut'⟩, fun t t' ht ht' => ?_⟩
    obtain ⟨u, hu, hbuf, _⟩ :=
      (recvRectangle_decodes_iff s hbits r hraw rest later hlen hsize cut).mpr ⟨harea, hcut⟩
    obtain ⟨u', hu', hbuf', _⟩ :=
      (recvRectangle_decodes_iff s hbits r hraw rest later' hlen hsize cut').mpr ⟨harea, hcut'⟩
    rw [hu, EStateM.Result.ok.injEq] at ht
    rw [hu', EStateM.Result.ok.injEq] at ht'
    rw [← ht.2, ← ht'.2, hbuf, hbuf']
    rfl

/-- A client that has been configured, on a connection that is still open. -/
def configuredSession : Session where
  client := (VncClient.new [] 5900 [] .blank).configured
  conn := Socket.delivering []

/-- The payload of a row of three pixels. -/
def threePixels : Bytes := [1, 2, 3, 4, 5, 6, 7, 8, 9, 10, 11, 12]

def threeTogether : Socket.Cutting threePixels bufSize where
  pieces := [[1, 2, 3, 4, 5, 6, 7, 8, 9, 10, 11, 12]]
  joined := rfl
  ne_nil := by decide
  length_le := by decide

def firstApart : Socket.Cutting threePixels bufSize where
  pieces := [[1, 2, 3, 4], [5, 6, 7, 8, 9, 10, 11, 12]]
  joined := rfl
  ne_nil := by decide
  length_le := by decide

theorem recvRectangle_segmentation_threePixels :
    DecodesPayload (configuredSession.facing ⟨0, 0, 3, 1, 0⟩ threeTogether [] []) threePixels [] ∧
      DecodesPayload (configuredSession.facing ⟨0, 0, 3, 1, 0⟩ firstApart [] []) threePixels
        [] := by
  obtain ⟨htogether, hapart, -⟩ := (recvRectangle_segmentation configuredSession rfl
    ⟨0, 0, 3, 1, 0⟩ rfl threePixels [] [] [] rfl (by decide) threeTogether firstApart).mpr
    (by decide)
  exact ⟨htogether, hapart⟩

/-- The payload of a single pixel. -/
def onePixel : Bytes := [1, 2, 3, 4]

def splitPixel : Socket.Cutting onePixel bufSize where
  pieces := [[1], [2, 3, 4]]
  joined := rfl
  ne_nil := by decide
  length_le := by decide

/-- A pixel that arrives in two pieces is decoded as two pixels. -/
theorem recvRectangle_splitPixel :
    (∃ t, recvRectangle.run (configuredSession.facing ⟨0, 0, 1, 1, 0⟩ splitPixel [] []) =
        .ok true t ∧ t.client.imageBuf = [1, 0x040302]) ∧
      ¬DecodesPayload (configuredSession.facing ⟨0, 0, 1, 1, 0⟩ splitPixel [] []) onePixel [] := by
  obtain ⟨t, ht, hbuf, _⟩ := facing_decodes_pieces configuredSession rfl ⟨0, 0, 1, 1, 0⟩ rfl [] []
    rfl (by decide) splitPixel
  refine ⟨⟨t, ht, hbuf.trans (by decide)⟩, fun h => ?_⟩
  have haligned := ((recvRectangle_decodes_iff configuredSession rfl ⟨0, 0, 1, 1, 0⟩ rfl [] [] rfl
    (by decide) splitPixel).mp h).2
  exact absurd haligned (by decide)

end Mrhc
