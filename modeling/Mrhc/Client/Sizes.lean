import Mrhc.Client.DrawnImage
import Mrhc.Client.Rectangles

/-!
# Sizes and indexes

The arithmetic on the two 16-bit sizes of a rectangle or a screen. The area and the index of a
pixel are computed in `int`, the size of a payload in 32 bits with the multiplication first.
-/

namespace Mrhc

/-- A rectangle of this size is rejected, or its payload is read as one of exactly four bytes for
each of its pixels. -/
def PayloadExact (width height : UInt16) : Prop :=
  ∀ (s : Session) (buf : Bytes) (c : Socket UInt8),
    s.client.pixelFormat.bitsPerPixel = 0x20 → s.conn.recv sizeofPixelData = (some buf, c) →
    ntohs (load16 buf 4) = width → ntohs (load16 buf 6) = height →
    recvRectangle.run s = .ok false (s.on c) ∨
      recvRectangle.run s =
        let size := 4 * (width.toNat * height.toNat)
        afterPayload (c.gather bufSize (c.fuelFor size) size) (s.on c)

/-- The index of every position of a screen of this size is in the range of `int`. -/
def IndexesExact (width height : UInt16) : Prop :=
  ∀ (lib : Platform) (c : VncClient) (image : Mat) (x y : Nat),
    c.width = width → c.height = height → x < width.toNat → y < height.toNat →
    drawPixel lib c y image x ≠ .error .signedOverflow

private theorem payloadExact_of_lt {width height : UInt16}
    (h : width.toNat * height.toNat < 2 ^ 27) : PayloadExact width height := by
  intro s buf c hbits hrecv hwidth hheight
  have harea : headerArea buf = width.toNat * height.toNat := by
    rw [headerArea, hwidth, hheight]
  have hsize : payloadSize (headerArea buf) = 4 * (width.toNat * height.toNat) := by
    rw [payloadSize, harea, Nat.mod_eq_of_lt h]
  rw [recvRectangle_run s hbits, Session.received_some hrecv, hsize, harea]
  by_cases henc : load32 buf 8 = rfbEncodingRaw
  · right
    rw [if_neg (not_not.mpr henc), if_neg (by omega)]
    rfl
  · left
    rw [if_pos henc]

/-- A connection on which the header of a raw rectangle of this size and as many bytes as the client
computes for it arrive. -/
def wrappedSession (width height : UInt16) : Session where
  client := (VncClient.new [] 5900 [] .blank).configured
  conn := Socket.delivering ((Rectangle.mk 0 0 width height rfbEncodingRaw).bytes ++
    List.replicate (payloadSize (width.toNat * height.toNat)) 0)

/-- The connection after the header. -/
private def wrappedPayload (width height : UInt16) : Socket UInt8 :=
  Socket.delivering (List.replicate (payloadSize (width.toNat * height.toNat)) 0)

private theorem wrapped_recv (width height : UInt16) :
    (wrappedSession width height).conn.recv sizeofPixelData =
      (some (Rectangle.mk 0 0 width height rfbEncodingRaw).bytes, wrappedPayload width height) := by
  rw [Socket.recv_unscheduled rfl]
  rfl

private theorem wrapped_run (width height : UInt16) :
    recvRectangle.run (wrappedSession width height) =
      let t := (wrappedSession width height).on (wrappedPayload width height)
      let size := payloadSize (width.toNat * height.toNat)
      if 2 ^ 31 ≤ width.toNat * height.toNat then .error .signedOverflow t
      else afterPayload (t.conn.gather bufSize (t.conn.fuelFor size) size) t := by
  have henc : load32 (Rectangle.mk 0 0 width height rfbEncodingRaw).bytes 8 = rfbEncodingRaw := by
    rw [Rectangle.load_encodingType]
    change htonl rfbEncodingRaw = rfbEncodingRaw
    decide
  rw [recvRectangle_run _ rfl, Session.received_some (wrapped_recv width height),
    headerArea_bytes, if_neg (not_not.mpr henc)]
  rfl

private theorem wrapped_returns {width height : UInt16}
    (h : width.toNat * height.toNat < 2 ^ 31) :
    ∃ t, recvRectangle.run (wrappedSession width height) = .ok true t := by
  let size := payloadSize (width.toNat * height.toNat)
  have hfuel : size + (wrappedPayload width height).recvs.length <
      (wrappedPayload width height).fuelFor size := by
    rw [Socket.fuelFor]
    exact Nat.lt_succ_self _
  have hnoError : (wrappedPayload width height).NoRecvError := by
    simp [Socket.NoRecvError, wrappedPayload, Socket.delivering]
  have hending := Socket.gather_ending (by decide : 0 < bufSize) hnoError hfuel
  rw [if_pos (by simp [wrappedPayload, Socket.delivering, size])] at hending
  rw [wrapped_run]
  dsimp only
  rw [if_neg (by omega)]
  exact ⟨_, afterPayload_full _ hending⟩

private theorem lt_of_payloadExact {width height : UInt16} (h : PayloadExact width height) :
    width.toNat * height.toNat < 2 ^ 27 := by
  by_contra hlarge
  let r : Rectangle := ⟨0, 0, width, height, rfbEncodingRaw⟩
  have hexact := h (wrappedSession width height) r.bytes (wrappedPayload width height) rfl
    (wrapped_recv width height) r.load_width r.load_height
  dsimp only at hexact
  by_cases hover : 2 ^ 31 ≤ width.toNat * height.toNat
  · have hrun := wrapped_run width height
    rw [if_pos hover] at hrun
    rw [hrun] at hexact
    rcases hexact with hreject | hread
    · cases hreject
    · unfold afterPayload at hread
      split at hread <;> cases hread
  · obtain ⟨t, ht⟩ := wrapped_returns (Nat.not_le.mp hover)
    rw [ht] at hexact
    rcases hexact with hreject | hread
    · cases hreject
    · -- the connection does not have the bytes of so many pixels
      have hfull := (of_afterPayload_true hread.symm).1
      have hlength := congrArg List.length (Socket.gather_full_parts hfull).1
      rw [Socket.gather_full_length hfull] at hlength
      simp only [wrappedPayload, Socket.delivering, List.length_take, List.length_replicate,
        payloadSize] at hlength
      omega

theorem indexesExact_iff (width height : UInt16) :
    IndexesExact width height ↔ width.toNat * height.toNat ≤ 2 ^ 31 := by
  constructor
  · intro h
    by_contra hlarge
    obtain ⟨x, y, hx, hy, hxy, -⟩ :=
      raster_index (w := width.toNat) (h := height.toNat) (i := 2 ^ 31) (by omega)
    refine h Platform.plain { VncClient.new [] 0 [] .blank with width := width, height := height }
      ⟨0, 0, fun _ _ => ⟨0, 0, 0⟩⟩ x y rfl rfl hx hy ?_
    exact if_pos (Nat.le_of_eq hxy)
  · intro h lib c image x y hwidth _ hx hy
    have hindex := Nat.lt_of_lt_of_le (raster_index_lt hx hy) h
    rw [drawPixel, hwidth, if_neg (Nat.not_le.mpr hindex)]
    split <;> simp

/-- The arithmetic on a size is exact: in `recv_rectangle`, whatever has been received behind the
header, and in `draw_image`. -/
structure SizeExact (width height : UInt16) : Prop where
  payload : PayloadExact width height
  indexes : IndexesExact width height

/-- The arithmetic on a size is exact up to 2^27 pixels. -/
theorem sizeExact_iff (width height : UInt16) :
    SizeExact width height ↔ width.toNat * height.toNat < 2 ^ 27 := by
  constructor
  · exact fun h => lt_of_payloadExact h.payload
  · intro h
    exact ⟨payloadExact_of_lt h, (indexesExact_iff width height).mpr (by omega)⟩

/-- The payload of a rectangle of 2^27 pixels is computed to be empty and is left on the
connection, and the area of the largest rectangle is no `int`. -/
theorem size_wraps :
    ¬SizeExact 8192 16384 ∧ ¬SizeExact 65535 65535 ∧
      payloadSize ((8192 : UInt16).toNat * (16384 : UInt16).toNat) = 0 ∧
      (∃ t, recvRectangle.run (wrappedSession 8192 16384) = .ok true t) ∧
      ∃ t, recvRectangle.run (wrappedSession 65535 65535) = .error .signedOverflow t :=
  ⟨fun h => absurd (lt_of_payloadExact h.payload) (by decide),
    fun h => absurd (lt_of_payloadExact h.payload) (by decide), by decide,
    wrapped_returns (by decide), _, wrapped_run 65535 65535⟩

end Mrhc
