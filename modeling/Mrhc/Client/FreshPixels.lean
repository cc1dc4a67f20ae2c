import Mrhc.Client.DrawnImage
import Mrhc.Client.Members
import Mrhc.Client.Rectangles

/-!
# Fresh pixels

However the network cuts the stream, the pixels that a capture draws were decoded from bytes that it
has received itself, and no byte was decoded twice.
-/

namespace Mrhc

/-- These pixels can be decoded from these bytes: each from one to four bytes in a row, behind the
bytes of the pixel before it. What a pixel lacks of its four bytes is zero. -/
inductive DecodedFrom : List UInt32 → Bytes → Prop where
  | nil : DecodedFrom [] []
  | skip (b : UInt8) {pixels : List UInt32} {bytes : Bytes} (h : DecodedFrom pixels bytes) :
    DecodedFrom pixels (b :: bytes)
  | pixel {group : Bytes} (hne : group ≠ []) (hlength : group.length ≤ 4) {pixels : List UInt32}
    {bytes : Bytes} (h : DecodedFrom pixels bytes) :
    DecodedFrom (load32 group 0 :: pixels) (group ++ bytes)

namespace DecodedFrom

theorem skipped (bytes : Bytes) : DecodedFrom [] bytes := by
  induction bytes with
  | nil => exact nil
  | cons b bytes ih => exact skip b ih

theorem append {pixels pixels' : List UInt32} {bytes bytes' : Bytes} (h : DecodedFrom pixels bytes)
    (h' : DecodedFrom pixels' bytes') : DecodedFrom (pixels ++ pixels') (bytes ++ bytes') := by
  induction h with
  | nil => exact h'
  | skip b _ ih => exact skip b ih
  | pixel hne hlength _ ih =>
    rw [List.append_assoc]
    exact pixel hne hlength ih

/-- Every pixel has taken a byte of its own. -/
theorem length_le {pixels : List UInt32} {bytes : Bytes} (h : DecodedFrom pixels bytes) :
    pixels.length ≤ bytes.length := by
  induction h with
  | nil => exact Nat.le_refl 0
  | skip b _ ih =>
    rw [List.length_cons]
    omega
  | pixel hne _ _ ih =>
    have hpos := List.length_pos_iff.mpr hne
    rw [List.length_cons, List.length_append]
    omega

/-- The words of a piece are decoded from it. -/
theorem words_piece (piece : Bytes) : DecodedFrom (words piece) piece := by
  induction piece using words.induct with
  | case1 b₀ b₁ b₂ b₃ rest ih =>
    exact @pixel [b₀, b₁, b₂, b₃] (List.cons_ne_nil _ _) (Nat.le_refl 4) _ _ ih
  | case2 b₀ b₁ b₂ => exact @pixel [b₀, b₁, b₂] (List.cons_ne_nil _ _) (Nat.le_add_right 3 1) _ _ nil
  | case3 b₀ b₁ => exact @pixel [b₀, b₁] (List.cons_ne_nil _ _) (Nat.le_add_right 2 2) _ _ nil
  | case4 b₀ => exact @pixel [b₀] (List.cons_ne_nil _ _) (Nat.le_add_right 1 3) _ _ nil
  | case5 => exact nil

theorem words_pieces (pieces : List Bytes) :
    DecodedFrom (pieces.map words).flatten pieces.flatten := by
  induction pieces with
  | nil => exact nil
  | cons piece pieces ih => exact (words_piece piece).append ih

end DecodedFrom

/-- From a session with a format of the client on, pixels have been appended that were decoded from
what has been received. -/
def Session.Decodes (s t : Session) : Prop :=
  s.client.FormatSet → ∃ received pixels, s.conn.input = received ++ t.conn.input ∧
    t.client = (s.push pixels).client ∧ DecodedFrom pixels received

namespace Session.Decodes

theorem refl (s : Session) : s.Decodes s :=
  fun _ => ⟨[], [], rfl, (congrArg Session.client s.push_nil).symm, .nil⟩

theorem trans {s t u : Session} (h : s.Decodes t) (h' : t.Decodes u) : s.Decodes u := by
  intro hs
  obtain ⟨received, pixels, hinput, hclient, hdecoded⟩ := h hs
  have ht : t.client.FormatSet := by
    rw [hclient]
    exact hs
  obtain ⟨received', pixels', hinput', hclient', hdecoded'⟩ := h' ht
  refine ⟨received ++ received', pixels ++ pixels', ?_, ?_, hdecoded.append hdecoded'⟩
  · rw [hinput, hinput', List.append_assoc]
  · have hpush : (t.push pixels').client = ((s.push pixels).push pixels').client := by
      simp only [Session.push, Session.update, hclient]
    rw [hclient', hpush, Session.push_push]

/-- What has been received without a pixel was skipped. -/
theorem of_read {s t : Session} (hclient : t.client = s.client)
    (hinput : t.conn.input <:+ s.conn.input) : s.Decodes t := by
  intro _
  obtain ⟨received, hreceived⟩ := hinput
  refine ⟨received, [], hreceived.symm, ?_, .skipped received⟩
  rw [Session.push_nil, hclient]

end Session.Decodes

instance : ReadFrame Session.Decodes where
  refl := Session.Decodes.refl
  trans := fun _ _ _ => Session.Decodes.trans
  recv := fun s n => .of_read rfl (s.conn.recv_input_suffix n)

private theorem afterPayload_decodes (s : Session) (cap fuel n : Nat) :
    s.Decodes (finalState (afterPayload (s.conn.gather cap fuel n) s)) := by
  intro _
  have hend : finalState (afterPayload (s.conn.gather cap fuel n) s) =
      (s.on (s.conn.gather cap fuel n).socket).push
        ((s.conn.gather cap fuel n).chunks.map words).flatten := by
    cases hending : (s.conn.gather cap fuel n).ending <;> simp only [afterPayload, hending] <;> rfl
  rw [hend]
  exact ⟨_, _, (Socket.gather_input cap fuel n s.conn).symm, rfl, .words_pieces _⟩

private theorem recvPixels_none (b : UInt8) (fuel area : Nat) (s : Session) :
    finalState ((recvPixels (UInt32.ofNat area * (0 : UInt8).toUInt32 / 8) b fuel 0).run s) = s := by
  have hsize : UInt32.ofNat area * (0 : UInt8).toUInt32 / 8 = 0 := by
    rw [show (0 : UInt8).toUInt32 = 0 from rfl, UInt32.mul_zero]
    rfl
  rw [hsize]
  cases fuel with
  | zero => rfl
  | succ fuel => rfl

private theorem recvRectangle_decodes : Moves Session.Decodes recvRectangle := by
  intro s hs
  suffices h : s.Decodes (finalState (recvRectangle.run s)) from h hs
  have hread : s.Decodes (s.on (s.conn.recv sizeofPixelData).2) := ReadFrame.recv s _
  rcases hrecv : s.conn.recv sizeofPixelData with ⟨_ | buf, c⟩
  · rw [hrecv] at hread
    rw [recvRectangle_received, Session.received_none hrecv]
    exact hread
  · rw [hrecv] at hread
    cases hs with
    | inl hzero =>
      have hbits : s.client.pixelFormat.bitsPerPixel = 0 := congrArg PixelFormat.bitsPerPixel hzero
      rw [recvRectangle_received, Session.received_some hrecv]
      simp only [hbits]
      split
      · exact hread
      split
      · exact hread
      · rw [recvPixels_none]
        exact hread
    | inr hconf =>
      rw [recvRectangle_run s (VncClient.bits_of_configured hconf), Session.received_some hrecv]
      split
      · exact hread
      split
      · exact hread
      · exact hread.trans (afterPayload_decodes _ _ _ _)

theorem recvServerToClientMessage_decodes : Moves Session.Decodes recvServerToClientMessage :=
  recvServerToClientMessage_of_recvRectangle recvRectangle_decodes

/-- The client after it has received these pixels for a capture. -/
def VncClient.holding (c : VncClient) (pixels : List UInt32) : VncClient :=
  { c with imageBuf := pixels, jpegBuf := [] }

/-- A picture of the client's screen with these pixels, row by row. A position that they do not
reach shows what lies behind the buffer. -/
structure VncClient.Pictures (lib : Platform) (c : VncClient) (pixels : List UInt32) (image : Mat) :
    Prop where
  rows : image.rows = c.height.toNat
  cols : image.cols = c.width.toNat
  reached : ∀ x y, x < c.width.toNat → y < c.height.toNat →
    (h : c.width.toNat * y + x < pixels.length) →
      image.pixel x y = pixelColour c.pixelFormat pixels[c.width.toNat * y + x]
  behind : ∀ x y, x < c.width.toNat → y < c.height.toNat →
    pixels.length ≤ c.width.toNat * y + x → ∃ word,
      lib.imageTail (c.width.toNat * y + x) = some word ∧
        image.pixel x y = pixelColour c.pixelFormat word

theorem pictures_of_drawPixels {lib : Platform} (hbox : lib.FillsBox) {c : VncClient}
    {pixels : List UInt32} {image : Mat} (h : drawPixels lib (c.holding pixels) = .ok image) :
    c.Pictures lib pixels image := by
  obtain ⟨hrows, hcols⟩ := drawPixels_size hbox h
  refine ⟨hrows, hcols, fun x y hx hy hbuf => ?_, fun x y hx hy hbuf => ?_⟩
  · obtain ⟨word, hword, hpixel⟩ := drawPixels_word hbox h hx hy
    obtain rfl := Option.some.inj
      ((VncClient.wordAt_buffered lib (c := c.holding pixels) hbuf).symm.trans hword)
    exact hpixel
  · obtain ⟨word, hword, hpixel⟩ := drawPixels_word hbox h hx hy
    have hbehind := VncClient.wordAt_behind lib (c := c.holding pixels) hbuf
    exact ⟨word, hbehind.symm.trans hword, hpixel⟩

/-- The picture with the mark of the pointer, if the operation has a pointer. -/
def Mat.marked (lib : Platform) (operation : VncOperation) (image : Mat) : Mat :=
  if operation.x = 0 ∧ operation.y = 0 then image
  else (List.range 5).foldl (drawMark lib operation.x operation.y) image

/-- A capture that returns `true` without a key has encoded a picture of pixels that were decoded
from what it has received itself. -/
theorem capture_fresh {lib : Platform} (hbox : lib.FillsBox) {operation : VncOperation}
    {s t : Session} (hformat : s.client.FormatSet) (hkey : operation.key = [])
    (h : (capture lib operation).run s = .ok true t) :
    ∃ received pixels image, s.conn.input = received ++ t.conn.input ∧
      DecodedFrom pixels received ∧ s.client.Pictures lib pixels image ∧
      t.client.jpegBuf = lib.imencode (image.marked lib operation) := by
  have hsend : (s.conn.send (frameBufferUpdateRequest s.client.width s.client.height)).1 = true := by
    by_contra hfailed
    rw [capture_unsent lib operation s hkey (Bool.eq_false_iff.mpr hfailed)] at h
    cases h
  rw [capture_run lib operation s hkey hsend] at h
  rcases hrecv : recvServerToClientMessage.run s.requested with ⟨_ | _, u⟩ | ⟨reason, u⟩
  · simp only [hrecv] at h
    cases h
  · obtain ⟨received, pixels, hinput, hclient, hdecoded⟩ :=
      recvServerToClientMessage_decodes.of_ok hrecv hformat
    have hu : u.client = s.client.holding pixels := hclient
    have hstream : s.requested.conn.stream = s.conn.stream := s.conn.send_stream _
    have hsame := congrArg Socket.input hstream
    simp only [hrecv, hu] at h
    cases hdraw : drawPixels lib (s.client.holding pixels) with
    | error reason =>
      rw [hdraw] at h
      cases h
    | ok image =>
      rw [hdraw] at h
      cases h
      exact ⟨received, pixels, image, hsame.symm.trans hinput, hdecoded,
        pictures_of_drawPixels hbox hdraw, rfl⟩
  · simp only [hrecv] at h
    cases h

end Mrhc
