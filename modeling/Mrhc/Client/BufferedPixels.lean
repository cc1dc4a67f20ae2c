import Mrhc.Client.Frames
import Mrhc.Client.Interleaving

/-!
# Buffered pixels

How many pixels an update leaves in the buffer is decided by its rectangle headers and by the
pieces in which the payloads arrive, while `draw_image` visits every position of the screen.
-/

namespace Mrhc

/-- The bytes that are read for a rectangle of this area. Without a format there are none. -/
def PixelFormat.payloadBytes (f : PixelFormat) (area : Nat) : Nat :=
  if f.bitsPerPixel = 0 then 0 else payloadSize area

/-- A piece of a payload leaves a pixel for every four bytes it starts. -/
def piecePixels (pieces : List Bytes) : Nat :=
  (pieces.map fun piece => (piece.length + 3) / 4).sum

/-- The pixels that this many rectangles leave when all of them are received. -/
def rectanglesPixels (f : PixelFormat) : Nat → Socket UInt8 → Nat
  | 0, _ => 0
  | count + 1, c =>
    match c.recv sizeofPixelData with
    | (none, _) => 0
    | (some buf, c) =>
      let size := f.payloadBytes (headerArea buf)
      let payload := c.gather bufSize (c.fuelFor size) size
      piecePixels payload.chunks + rectanglesPixels f count payload.socket

/-- The pixels that an update leaves, from the bytes behind its message type. -/
def updatePixels (f : PixelFormat) (c : Socket UInt8) : Nat :=
  match c.recv (sizeofFrameBufferUpdate - 1) with
  | (none, _) => 0
  | (some buf, c) => rectanglesPixels f (ntohs (load16 buf 1)).toNat c

/-- Every index `width * y + x` of the screen is inside the buffer, and in the range of `int`. -/
def VncClient.IndexesInside (c : VncClient) : Prop :=
  ∀ x y, x < c.width.toNat → y < c.height.toNat →
    c.width.toNat * y + x < c.imageBuf.length ∧ c.width.toNat * y + x < 2 ^ 31

/-- This capture gets to `draw_image`, and in this session. -/
structure DrawsIn (operation : VncOperation) (s t : Session) : Prop where
  noKey : operation.key = []
  sent : (s.conn.send (frameBufferUpdateRequest s.client.width s.client.height)).1 = true
  received : recvServerToClientMessage.run s.requested = .ok true t

theorem VncClient.indexesInside_iff (c : VncClient) : c.IndexesInside ↔ c.Drawable := by
  constructor
  · intro h
    by_cases hempty : c.width.toNat * c.height.toNat = 0
    · simp [VncClient.Drawable, hempty]
    · -- the last position of the screen
      have hlast : c.width.toNat * c.height.toNat - 1 < c.width.toNat * c.height.toNat := by omega
      obtain ⟨x, y, hx, hy, hxy, -⟩ := raster_index hlast
      obtain ⟨hbuf, hint⟩ := h x y hx hy
      constructor <;> omega
  · intro h x y hx hy
    have hindex := raster_index_lt hx hy
    exact ⟨Nat.lt_of_lt_of_le hindex h.1, Nat.lt_of_lt_of_le hindex h.2⟩

/-- The drawing of a screen returns whatever lies behind the buffer exactly when its indexes are
inside. -/
theorem drawPixels_ok_iff (c : VncClient) :
    (∀ lib, ∃ image, drawPixels lib c = .ok image) ↔ c.IndexesInside := by
  rw [c.indexesInside_iff]
  constructor
  · intro h
    -- behind this buffer every read faults
    obtain ⟨image, himage⟩ := h Platform.plain
    obtain ⟨hint, hwords⟩ := readable_of_ok himage
    refine ⟨Nat.le_of_not_lt fun hshort => ?_, hint⟩
    have hword := hwords c.imageBuf.length hshort
    rw [VncClient.wordAt_behind Platform.plain (Nat.le_refl _)] at hword
    exact absurd hword Bool.false_ne_true
  · exact fun h lib => ⟨_, drawPixels_ok (h.readable lib)⟩

theorem flatten_words_length (pieces : List Bytes) :
    (pieces.map words).flatten.length = piecePixels pieces := by
  rw [List.length_flatten, List.map_map, piecePixels]
  congr 1
  exact List.map_congr_left fun piece _ => words_length piece

private theorem recvRectangle_unformatted (s : Session)
    (hbits : s.client.pixelFormat.bitsPerPixel = 0) :
    recvRectangle.run s = s.received sizeofPixelData fun buf t =>
      if load32 buf 8 ≠ rfbEncodingRaw then .ok false t
      else if 2 ^ 31 ≤ headerArea buf then .error .signedOverflow t
      else .ok true t := by
  have hzero : ∀ x : UInt32, x * (0 : UInt8).toUInt32 / 8 = 0 := by
    intro x
    rw [show (0 : UInt8).toUInt32 = 0 from rfl, UInt32.mul_zero]
    rfl
  simp only [recvRectangle_received, hbits, hzero]
  rfl

private theorem recvRectangle_formatted (s : Session) (hformat : s.client.FormatSet) :
    recvRectangle.run s = s.received sizeofPixelData fun buf t =>
      let size := s.client.pixelFormat.payloadBytes (headerArea buf)
      if load32 buf 8 ≠ rfbEncodingRaw then .ok false t
      else if 2 ^ 31 ≤ headerArea buf then .error .signedOverflow t
      else afterPayload (t.conn.gather bufSize (t.conn.fuelFor size) size) t := by
  cases hformat with
  | inl hzero =>
    have hbits : s.client.pixelFormat.bitsPerPixel = 0 := by rw [hzero]; rfl
    have hnothing : ∀ c : Socket UInt8, c.gather bufSize (c.fuelFor 0) 0 = ⟨[], .full, c⟩ :=
      fun c => Socket.gather_zero _ _ c
    simp only [recvRectangle_unformatted s hbits, PixelFormat.payloadBytes, hbits, if_true,
      hnothing, afterPayload, List.map_nil, List.flatten_nil, Session.push_nil]
    rfl
  | inr hconf =>
    have hbits := VncClient.bits_of_configured hconf
    simp only [recvRectangle_run s hbits, PixelFormat.payloadBytes, hbits]
    rfl

private theorem of_recvRectangles_true (count : Nat) {s t : Session}
    (hformat : s.client.FormatSet) (h : (recvRectangles count).run s = .ok true t) :
    ∃ pixels, t.client = { s.client with imageBuf := s.client.imageBuf ++ pixels } ∧
      pixels.length = rectanglesPixels s.client.pixelFormat count s.conn := by
  induction count generalizing s with
  | zero =>
    simp only [recvRectangles, EStateM.run_pure, EStateM.Result.ok.injEq, true_and] at h
    exact ⟨[], by rw [← h, List.append_nil], rfl⟩
  | succ count ih =>
    obtain ⟨u, hfirst, hrest⟩ := of_require_true h
    rw [recvRectangle_formatted s hformat] at hfirst
    rcases hr : s.conn.recv sizeofPixelData with ⟨_ | buf, c⟩
    · simp [Session.received_none hr] at hfirst
    · rw [Session.received_some hr] at hfirst
      dsimp only at hfirst
      split at hfirst
      · simp at hfirst
      · split at hfirst
        · simp at hfirst
        · obtain ⟨-, rfl⟩ := of_afterPayload_true hfirst
          obtain ⟨pixels, hclient, hlength⟩ := ih (by exact hformat) hrest
          let size := s.client.pixelFormat.payloadBytes (headerArea buf)
          let payload := c.gather bufSize (c.fuelFor size) size
          refine ⟨(payload.chunks.map words).flatten ++ pixels, ?_, ?_⟩
          · rw [hclient, ← List.append_assoc]
            rfl
          · rw [List.length_append, hlength, flatten_words_length, rectanglesPixels, hr]
            rfl

private theorem of_drawsIn {operation : VncOperation} {s t : Session} {c : Socket UInt8}
    (hformat : s.client.FormatSet)
    (htype : s.requested.conn.recv 1 = (some [rfbMessageTypeFrameBufferUpdate], c))
    (h : DrawsIn operation s t) :
    t.client.width = s.client.width ∧ t.client.height = s.client.height ∧
      t.client.imageBuf.length = updatePixels s.client.pixelFormat c := by
  have hrun := h.received
  rw [recvServerToClientMessage_run, Session.received_some htype] at hrun
  change recvFrameBufferUpdate.run (s.requested.on c) = _ at hrun
  rw [recvFrameBufferUpdate_run] at hrun
  rcases hr : c.recv (sizeofFrameBufferUpdate - 1) with ⟨_ | buf, d⟩
  · rw [Session.received_none (s := s.requested.on c) hr] at hrun
    simp at hrun
  · rw [Session.received_some (s := s.requested.on c) hr] at hrun
    obtain ⟨pixels, hclient, hlength⟩ := of_recvRectangles_true _ (s := (s.requested.on c).on d)
      hformat hrun
    have hlength' : t.client.imageBuf.length = pixels.length := by
      rw [hclient]
      rfl
    refine ⟨by rw [hclient]; rfl, by rw [hclient]; rfl, ?_⟩
    rw [hlength', hlength, updatePixels, hr]
    rfl

/-- Every index that a capture draws at after an accepted update is inside the received pixels
exactly when the pieces of the payloads leave as many pixels as the screen has. -/
theorem capture_indexesInside_iff (operation : VncOperation) (s : Session) (c : Socket UInt8)
    (hformat : s.client.FormatSet)
    (htype : s.requested.conn.recv 1 = (some [rfbMessageTypeFrameBufferUpdate], c))
    (hdraws : ∃ t, DrawsIn operation s t) :
    (∀ t, DrawsIn operation s t → t.client.IndexesInside) ↔
      s.client.width.toNat * s.client.height.toNat ≤ updatePixels s.client.pixelFormat c ∧
        s.client.width.toNat * s.client.height.toNat ≤ 2 ^ 31 := by
  have hdrawable : ∀ t, DrawsIn operation s t → (t.client.IndexesInside ↔
      s.client.width.toNat * s.client.height.toNat ≤ updatePixels s.client.pixelFormat c ∧
        s.client.width.toNat * s.client.height.toNat ≤ 2 ^ 31) := by
    intro t ht
    obtain ⟨hwidth, hheight, hlength⟩ := of_drawsIn hformat htype ht
    rw [t.client.indexesInside_iff, VncClient.Drawable, hwidth, hheight, hlength]
  constructor
  · intro h
    obtain ⟨t, ht⟩ := hdraws
    exact (hdrawable t ht).mp (h t ht)
  · intro h t ht
    exact (hdrawable t ht).mpr h

/-- The lower row of the screen arrives pixel by pixel. -/
def rowsScreen : Session :=
  { squareScreen with
    conn := { Socket.delivering squareUpdate.bytes with
      recvs := [.whole, .whole, .whole, .whole, .whole, .atMost 4, .atMost 4] } }

theorem capture_indexesInside_rows :
    ∃ t, DrawsIn ⟨0, 0, 0, []⟩ rowsScreen t ∧ t.client.IndexesInside := by
  have haccepted : returnsTrue (recvServerToClientMessage.run rowsScreen.requested) = true := by
    decide +kernel
  obtain ⟨t, hreceived⟩ := returnsTrue_iff.mp haccepted
  have hdraws : DrawsIn ⟨0, 0, 0, []⟩ rowsScreen t := ⟨rfl, rfl, hreceived⟩
  have hinside := (capture_indexesInside_iff ⟨0, 0, 0, []⟩ rowsScreen _ (Or.inr rfl) rfl
    ⟨t, hdraws⟩).mpr (by decide +kernel)
  exact ⟨t, hdraws, hinside t hdraws⟩

private theorem onePixelScreen_draws (m : FrameBufferUpdate)
    (hm : (ServerMessage.frameBufferUpdate m).Receivable) :
    DrawsIn ⟨0, 0, 0, []⟩ (onePixelScreen.rest m.bytes)
      ((onePixelScreen.requested.rest []).push (m.rectangles.flatMap RawRectangle.pixels)) where
  noKey := rfl
  sent := rfl
  received := recvServerToClientMessage_bytes (onePixelScreen.rest m.bytes).requested rfl
    (.frameBufferUpdate m) hm [] rfl (List.append_nil _).symm

/-- An update without rectangles is accepted and nothing is left to draw. -/
theorem capture_emptyUpdate_outside :
    ∃ t, DrawsIn ⟨0, 0, 0, []⟩ (onePixelScreen.rest (FrameBufferUpdate.bytes ⟨0, [], by decide⟩)) t ∧
      ¬t.client.IndexesInside := by
  refine ⟨_, onePixelScreen_draws ⟨0, [], by decide⟩ (by simp [ServerMessage.Receivable]), ?_⟩
  intro h
  obtain ⟨hbuf, -⟩ := h 0 0 (by decide) (by decide)
  exact absurd hbuf (by decide)

end Mrhc
