import Mrhc.Client.BufferedPixels

/-!
# The counters of the payload loop

The loop of `recv_rectangle` when each call of `recv` returns whatever it may. Its unsigned
counter is the number of bytes received, which stays below the total that the loop reads.
-/

namespace Mrhc

/-- `total_pixel_bytes` behind this header. -/
def VncClient.totalPixelBytes (c : VncClient) (header : Bytes) : UInt32 :=
  UInt32.ofNat (headerArea header) * c.pixelFormat.bitsPerPixel.toUInt32 / 8

def VncClient.bytesPerPixel (c : VncClient) : UInt8 := c.pixelFormat.bitsPerPixel / 8

/-- The loop that `recv_rectangle` gets to behind a raw header. -/
theorem recvRectangle_loop (s : Session) :
    recvRectangle.run s = s.received sizeofPixelData fun header t =>
      let total := s.client.totalPixelBytes header
      if load32 header 8 ≠ rfbEncodingRaw then .ok false t
      else if 2 ^ 31 ≤ headerArea header then .error .signedOverflow t
      else (recvPixels total s.client.bytesPerPixel (t.conn.fuelFor total.toNat) 0).run t :=
  recvRectangle_received s

/-- The number of bytes that the loop asks `recv` for. -/
def payloadAsk (total received : UInt32) : Nat :=
  if (total - received).toNat < bufSize then (total - received).toNat else bufSize

/-- The loop gets to this `total_recv` and this session when `recv` returns these chunks. Each is
any that the call may return, and each call leaves the connection in any state. -/
inductive PayloadReaches (total : UInt32) (step : UInt8) (s : Session) :
    List Bytes → UInt32 → Session → Prop where
  | start : PayloadReaches total step s [] 0 s
  | chunk {chunks : List Bytes} {received : UInt32} {t u : Session}
      (h : PayloadReaches total step s chunks received t) (hloop : received < total)
      (conn : Socket UInt8) {buf : Bytes} (hbuf : buf.length ≤ payloadAsk total received)
      (hpush : (pushPixels buf step.toNat (buf.length + 1) 0).run (t.on conn) = .ok () u) :
      PayloadReaches total step s (chunks ++ [buf]) (received + UInt32.ofNat buf.length) u

/-- The invariant of the loop: its counter is the number of bytes received, and has not wrapped. -/
structure PayloadCounts (total : UInt32) (s : Session) (chunks : List Bytes)
    (received : UInt32) (t : Session) : Prop where
  counter : received.toNat = chunks.flatten.length
  within : received.toNat ≤ total.toNat
  client : t.client =
    { s.client with imageBuf := s.client.imageBuf ++ (chunks.map words).flatten }

/-- A turn of the loop asks for something that is missing and has room in the buffer, and
whatever it gets, the inner loop reads inside the buffer and ends. -/
structure PayloadTurn (total : UInt32) (step : UInt8) (received : UInt32) : Prop where
  asks_pos : 1 ≤ payloadAsk total received
  asks_le : payloadAsk total received ≤ min 1024 (total.toNat - received.toNat)
  step_eq : step = 4
  reads : ∀ i, i < payloadAsk total received → 4 ∣ i → i + 4 ≤ 1024
  pushes : ∀ (buf : Bytes) (t : Session), buf.length ≤ payloadAsk total received →
    ∃ u, (pushPixels buf step.toNat (buf.length + 1) 0).run t = .ok () u

/-- The loop has ended with these chunks: it has read its total, and has appended a pixel for
every four bytes that a chunk starts. -/
structure PayloadEnd (total : UInt32) (s t : Session) (chunks : List Bytes) : Prop where
  consumed : (chunks.map List.length).sum = total.toNat
  pixels : ∃ pixels, t.client = { s.client with imageBuf := s.client.imageBuf ++ pixels } ∧
    pixels.length = piecePixels chunks
  least : total.toNat / 4 ≤ piecePixels chunks
  exact_iff : piecePixels chunks = total.toNat / 4 ↔ ∀ chunk ∈ chunks, 4 ∣ chunk.length

/-- How a call of the loop ends in this state. -/
inductive PayloadOutcome (total received : UInt32) (t : Session) :
    EStateM.Result Stop Session Bool → Prop where
  | full (h : ¬received < total) : PayloadOutcome total received t (.ok true t)
  | failed (conn : Socket UInt8) : PayloadOutcome total received t (.ok false (t.on conn))
  | endless : PayloadOutcome total received t (.error .endless t)

/-- The payload loop stays inside its bounds, and every call of it is such a loop. -/
structure PayloadSafe (total : UInt32) (step : UInt8) (s : Session) : Prop where
  bounded : ∀ chunks received t, PayloadReaches total step s chunks received t →
    received ≤ total ∧ (total - received).toNat = total.toNat - received.toNat
  turn : ∀ chunks received t, PayloadReaches total step s chunks received t →
    received < total → PayloadTurn total step received
  ended : ∀ chunks received t, PayloadReaches total step s chunks received t →
    ¬received < total → PayloadEnd total s t chunks
  followed : ∀ fuel, ∃ chunks received t, PayloadReaches total step s chunks received t ∧
    s.conn.input = chunks.flatten ++ t.conn.input ∧
    PayloadOutcome total received t ((recvPixels total step fuel 0).run s)

section

variable {total received : UInt32} {step : UInt8} {s t u : Session} {chunks : List Bytes}

theorem payloadAsk_eq (h : received.toNat ≤ total.toNat) :
    payloadAsk total received = min (total.toNat - received.toNat) bufSize := by
  rw [payloadAsk, UInt32.toNat_sub_of_le total received (UInt32.le_iff_toNat_le.mpr h)]
  split <;> omega

private theorem pushPixels_chunk {buf : Bytes} (hbuf : buf.length ≤ bufSize) (t : Session) :
    (pushPixels buf (4 : UInt8).toNat (buf.length + 1) 0).run t = .ok () (t.push (words buf)) :=
  pushPixels_run buf (buf.length + 1) 0 t hbuf (by omega) (by omega) (by omega)

private theorem PayloadCounts.ne_zero (h : PayloadCounts total s chunks received t)
    (hloop : received < total) : total ≠ 0 := by
  rintro rfl
  exact absurd hloop UInt32.not_lt_zero

private theorem PayloadCounts.chunk {buf : Bytes} {conn : Socket UInt8}
    (h : PayloadCounts total s chunks received t) (hstep : step = 4)
    (hbuf : buf.length ≤ payloadAsk total received)
    (hpush : (pushPixels buf step.toNat (buf.length + 1) 0).run (t.on conn) = .ok () u) :
    PayloadCounts total s (chunks ++ [buf]) (received + UInt32.ofNat buf.length) u := by
  have htotal := total.toNat_lt
  have hcount := h.counter
  have hwithin := h.within
  rw [payloadAsk_eq hwithin] at hbuf
  have hsum : (received + UInt32.ofNat buf.length).toNat = received.toNat + buf.length := by
    rw [UInt32.toNat_add, UInt32.toNat_ofNat', Nat.mod_eq_of_lt (a := buf.length) (by omega),
      Nat.mod_eq_of_lt (by omega)]
  rw [hstep, pushPixels_chunk (by omega), EStateM.Result.ok.injEq] at hpush
  obtain ⟨-, rfl⟩ := hpush
  refine ⟨?_, ?_, ?_⟩
  · rw [hsum, hcount, List.flatten_append, List.length_append, List.flatten_singleton]
  · rw [hsum]
    omega
  · show { t.client with imageBuf := t.client.imageBuf ++ words buf } = _
    rw [h.client, List.map_append, List.flatten_append, List.map_singleton,
      List.flatten_singleton, List.append_assoc]

/-- By induction on the turns. -/
theorem PayloadReaches.counts (hstep : total ≠ 0 → step = 4)
    (h : PayloadReaches total step s chunks received t) :
    PayloadCounts total s chunks received t := by
  induction h with
  | start =>
    refine ⟨rfl, Nat.zero_le _, ?_⟩
    rw [List.map_nil, List.flatten_nil, List.append_nil]
  | chunk _ hloop conn hbuf hpush ih => exact ih.chunk (hstep (ih.ne_zero hloop)) hbuf hpush

/-- Without a format there is no payload, and with the requested one a pixel has four bytes. -/
theorem VncClient.FormatSet.payload {c : VncClient} (h : c.FormatSet) (header : Bytes) :
    4 ∣ (c.totalPixelBytes header).toNat ∧
      (c.totalPixelBytes header ≠ 0 → c.bytesPerPixel = 4) := by
  cases h with
  | inl hzero =>
    have hnone : c.totalPixelBytes header = 0 := by
      rw [VncClient.totalPixelBytes, hzero, show PixelFormat.zero.bitsPerPixel.toUInt32 = 0 from rfl,
        UInt32.mul_zero]
      rfl
    exact ⟨by rw [hnone]; decide, fun hne => absurd hnone hne⟩
  | inr hconf =>
    have hbits := VncClient.bits_of_configured hconf
    have hsize : (c.totalPixelBytes header).toNat = payloadSize (headerArea header) := by
      rw [VncClient.totalPixelBytes, hbits, totalPixelBytes_toNat]
    exact ⟨by rw [hsize]; exact Nat.dvd_mul_right 4 _, fun _ => by rw [bytesPerPixel, hbits]; rfl⟩

private theorem PayloadCounts.turn (h : PayloadCounts total s chunks received t)
    (hstep : total ≠ 0 → step = 4) (hloop : received < total) : PayloadTurn total step received := by
  have hlt := UInt32.lt_iff_toNat_lt.mp hloop
  have hask := payloadAsk_eq h.within
  have hsize : bufSize = 1024 := rfl
  have hfour := hstep (h.ne_zero hloop)
  refine ⟨by omega, by omega, hfour, fun i hi hdvd => by omega, fun buf t hbuf => ?_⟩
  rw [hfour]
  exact ⟨_, pushPixels_chunk (by omega) t⟩

private theorem PayloadCounts.ended (h : PayloadCounts total s chunks received t)
    (hfour : 4 ∣ total.toNat) (hended : ¬received < total) : PayloadEnd total s t chunks := by
  have hlength : chunks.flatten.length = total.toNat := by
    rw [← h.counter]
    exact Nat.le_antisymm h.within (by simpa [UInt32.lt_iff_toNat_lt] using hended)
  have hwords := words_flatten_length chunks
  rw [hlength, flatten_words_length] at hwords
  obtain ⟨hleast, hexact⟩ := hwords
  refine ⟨?_, ⟨_, h.client, flatten_words_length chunks⟩, by omega, ?_⟩
  · rw [← hlength, List.length_flatten]
  · rw [← hexact]
    omega

private theorem recvPixels_turn (hloop : received < total) (fuel : Nat) (t : Session) :
    (recvPixels total step (fuel + 1) received).run t =
      t.received (payloadAsk total received) fun buf u =>
        (pushPixels buf step.toNat (buf.length + 1) 0 >>= fun _ =>
          recvPixels total step fuel (received + UInt32.ofNat buf.length)).run u := by
  have hle : received.toNat ≤ total.toNat := Nat.le_of_lt (UInt32.lt_iff_toNat_lt.mp hloop)
  rw [recvPixels_succ total received step fuel hloop, ← payloadAsk_eq hle, EStateM.run_bind,
    recv_run]
  rcases hr : t.conn.recv (payloadAsk total received) with ⟨_ | buf, c⟩
  · simp [Session.received_none hr]
  · rw [Session.received_some hr]

private theorem PayloadReaches.followed (hstep : total ≠ 0 → step = 4) (fuel : Nat)
    (h : PayloadReaches total step s chunks received t) :
    ∃ more received' u, PayloadReaches total step s (chunks ++ more) received' u ∧
      t.conn.input = more.flatten ++ u.conn.input ∧
      PayloadOutcome total received' u ((recvPixels total step fuel received).run t) := by
  -- on the turns that are left: a call only ever does what the loop does
  induction fuel generalizing chunks received t with
  | zero => exact ⟨[], received, t, by rwa [List.append_nil], rfl, .endless⟩
  | succ fuel ih =>
    by_cases hloop : received < total
    · have hturn := (h.counts hstep).turn hstep hloop
      rw [recvPixels_turn hloop]
      rcases t.conn.recv_cases (payloadAsk total received) with hr | ⟨k, hk, hr⟩
      · rw [Session.received_none hr]
        exact ⟨[], received, t, by rwa [List.append_nil], rfl, .failed _⟩
      · let buf := t.conn.input.take k
        let next := t.on { t.conn with input := t.conn.input.drop k, recvs := t.conn.recvs.tail }
        have hbuf : buf.length ≤ payloadAsk total received :=
          Nat.le_trans (List.length_take_le k _) hk
        have hpush : (pushPixels buf step.toNat (buf.length + 1) 0).run next =
            .ok () (next.push (words buf)) := by
          rw [hturn.step_eq, pushPixels_chunk (Nat.le_trans hbuf (hturn.asks_le.trans
            (Nat.min_le_left _ _)))]
        obtain ⟨more, received', u, hreach, hinput, hout⟩ := ih (h.chunk hloop _ hbuf hpush)
        rw [Session.received_some hr, bind_ok hpush]
        refine ⟨buf :: more, received', u, by rwa [List.append_cons], ?_, hout⟩
        rw [List.flatten_cons, List.append_assoc, ← hinput]
        exact (List.take_append_drop k _).symm
    · refine ⟨[], received, t, by rwa [List.append_nil], rfl, ?_⟩
      have hrun : (recvPixels total step (fuel + 1) received).run t = .ok true t := by
        rw [recvPixels, if_neg hloop]
        rfl
      rw [hrun]
      exact .full hloop

end

/-- **The payload loop stays inside its bounds**, whatever the header announces and however the
payload is cut. -/
theorem payloadLoop_safe (s : Session) (hformat : s.client.FormatSet) (header : Bytes) :
    PayloadSafe (s.client.totalPixelBytes header) s.client.bytesPerPixel s := by
  obtain ⟨hfour, hstep⟩ := hformat.payload header
  refine ⟨?_, ?_, ?_, ?_⟩
  · intro chunks received t h
    have hle := UInt32.le_iff_toNat_le.mpr (h.counts hstep).within
    exact ⟨hle, UInt32.toNat_sub_of_le _ _ hle⟩
  · intro chunks received t h hloop
    exact (h.counts hstep).turn hstep hloop
  · intro chunks received t h hended
    exact (h.counts hstep).ended hfour hended
  · intro fuel
    exact PayloadReaches.start.followed hstep fuel

theorem payloadLoop_safe_onePixel : PayloadSafe 4 4 onePixelScreen := by
  have htotal : onePixelScreen.client.totalPixelBytes (Rectangle.bytes ⟨0, 0, 1, 1, 0⟩) = 4 := by
    decide
  have hsafe := payloadLoop_safe onePixelScreen (Or.inr rfl) (Rectangle.bytes ⟨0, 0, 1, 1, 0⟩)
  rwa [htotal] at hsafe

end Mrhc
