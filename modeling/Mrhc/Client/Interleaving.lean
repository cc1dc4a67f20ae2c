import Mrhc.Client.DrawnImage
import Mrhc.Client.Framing

/-!
# Asynchronous messages in front of an update

A server may send a bell, colour map entries or a cut text before it answers a request. `capture`
receives one message for each request, whichever message that is.
-/

namespace Mrhc

/-- The messages that are no answer to a request. -/
def ServerMessage.Asynchronous : ServerMessage → Prop
  | .frameBufferUpdate _ => False
  | _ => True

/-- The messages in front of an update change neither what `capture` returns and draws nor where
it leaves the stream. -/
def Transparent (lib : Platform) (operation : VncOperation) (s : Session)
    (ms : List ServerMessage) (m : FrameBufferUpdate) (rest : Bytes) : Prop :=
  ∃ b t t', (capture lib operation).run (s.rest (m.bytes ++ rest)) = .ok b t ∧
    (capture lib operation).run
      (s.rest (ms.flatMap ServerMessage.bytes ++ (m.bytes ++ rest))) = .ok b t' ∧
    t'.client.image = t.client.image ∧ t'.client.jpegBuf = t.client.jpegBuf ∧
    t.conn.input = rest ∧ t'.conn.input = rest

private theorem send_rest (s : Session) (message input : Bytes) :
    (s.rest input).conn.send message =
      ((s.conn.send message).1, { (s.conn.send message).2 with input := input }) :=
  s.conn.send_of_input input message

private theorem requested_rest (s : Session) (input : Bytes) :
    (s.rest input).requested = s.requested.rest input := by
  rw [Session.requested, send_rest]
  rfl

private theorem requested_recvs (s : Session) : s.requested.conn.recvs = s.conn.recvs :=
  s.conn.send_recvs _

/-- What a capture needs of its session: pixels of 32 bits, whole transfers from the server, no key
in the operation and a request that is sent. -/
structure Session.Captures (s : Session) (operation : VncOperation) : Prop where
  bits : s.client.pixelFormat.bitsPerPixel = 0x20
  whole : s.conn.recvs = []
  noKey : operation.key = []
  sent : (s.conn.send (frameBufferUpdateRequest s.client.width s.client.height)).1 = true

/-- `capture` when the next message on the stream is `m`: it draws the pixels of that message. -/
theorem capture_message (lib : Platform) {operation : VncOperation} {s : Session}
    (hs : s.Captures operation) (m : ServerMessage) (hm : m.Receivable) (rest : Bytes) :
    (capture lib operation).run (s.rest (m.bytes ++ rest)) =
      let t := (s.requested.rest rest).push m.pixels
      if m.printable then
        match drawPixels lib t.client with
        | .error reason => .error reason t
        | .ok image => .ok true (t.update (·.showing lib operation image))
      else .error .badFormat (s.requested.rest rest) := by
  have hrecv := recvServerToClientMessage_bytes (s.requested.rest (m.bytes ++ rest)) hs.bits m hm
    rest ((requested_recvs s).trans hs.whole) rfl
  rw [capture_run lib operation (s.rest (m.bytes ++ rest)) hs.noKey
    ((congrArg Prod.fst (send_rest s _ _)).trans hs.sent),
    requested_rest, hrecv]
  by_cases hp : m.printable = true
  · simp only [hp, if_true]
    rfl
  · simp only [hp]
    rfl

/-- When `capture` returns it has consumed the message, whichever pixels that has brought. -/
theorem of_capture_message {lib : Platform} {operation : VncOperation} {s t : Session}
    {b : Bool} {m : ServerMessage} {rest : Bytes} (hs : s.Captures operation) (hm : m.Receivable)
    (h : (capture lib operation).run (s.rest (m.bytes ++ rest)) = .ok b t) :
    t.conn.input = rest ∧ s.client.width.toNat * s.client.height.toNat ≤ 2 ^ 31 := by
  rw [capture_message lib hs m hm rest] at h
  dsimp only at h
  split at h
  · cases hdraw : drawPixels lib ((s.requested.rest rest).push m.pixels).client with
    | error reason => simp [hdraw] at h
    | ok image =>
      have hreadable := readable_of_ok hdraw
      rw [hdraw, EStateM.Result.ok.injEq] at h
      obtain ⟨-, rfl⟩ := h
      exact ⟨rfl, hreadable.1⟩
  · simp at h

private theorem capture_update (lib : Platform) {operation : VncOperation} {s : Session}
    (hs : s.Captures operation) (m : FrameBufferUpdate)
    (hm : (ServerMessage.frameBufferUpdate m).Receivable) (rest : Bytes)
    (hanswer : s.client.width.toNat * s.client.height.toNat ≤
      (ServerMessage.frameBufferUpdate m).pixels.length)
    (hscreen : s.client.width.toNat * s.client.height.toNat ≤ 2 ^ 31) :
    ∃ t, (capture lib operation).run (s.rest (m.bytes ++ rest)) = .ok true t ∧
      t.conn.input = rest := by
  have hrun := capture_message lib hs (.frameBufferUpdate m) hm rest
  have hdrawable : ((s.requested.rest rest).push
    (ServerMessage.frameBufferUpdate m).pixels).client.Drawable := ⟨hanswer, hscreen⟩
  simp only [ServerMessage.printable, if_true] at hrun
  rw [drawPixels_ok (hdrawable.readable lib)] at hrun
  exact ⟨_, hrun, rfl⟩

/-- Messages in front of an update are transparent only when there are none: the first of them is
taken for the answer. -/
theorem capture_transparent_iff (lib : Platform) (operation : VncOperation) (s : Session)
    (hconf : s.client.pixelFormat = configuredFormat) (hr : s.conn.recvs = [])
    (hkey : operation.key = [])
    (hsend : (s.conn.send (frameBufferUpdateRequest s.client.width s.client.height)).1 = true)
    (ms : List ServerMessage) (hms : ∀ m ∈ ms, m.Asynchronous ∧ m.Receivable)
    (m : FrameBufferUpdate) (hm : (ServerMessage.frameBufferUpdate m).Receivable) (rest : Bytes)
    (hanswer : s.client.width.toNat * s.client.height.toNat ≤
      (ServerMessage.frameBufferUpdate m).pixels.length) :
    Transparent lib operation s ms m rest ↔
      ms = [] ∧ s.client.width.toNat * s.client.height.toNat ≤ 2 ^ 31 := by
  have hs : s.Captures operation := ⟨VncClient.bits_of_configured hconf, hr, hkey, hsend⟩
  constructor
  · rintro ⟨b, t, t', hbase, hrun, _, _, _, hrest⟩
    refine ⟨?_, (of_capture_message hs hm hbase).2⟩
    rcases ms with _ | ⟨first, ms⟩
    · rfl
    · -- the first message has been consumed, so what is left is longer than `rest`
      rw [List.flatMap_cons, List.append_assoc] at hrun
      have hleft := (of_capture_message hs (hms first (by simp)).2 hrun).1
      have hlength := congrArg List.length (hrest.symm.trans hleft)
      simp [FrameBufferUpdate.bytes] at hlength
      omega
  · rintro ⟨rfl, hscreen⟩
    obtain ⟨t, hrun, hrest⟩ := capture_update lib hs m hm rest hanswer hscreen
    exact ⟨true, t, t, hrun, hrun, rfl, rfl, hrest, hrest⟩

/-- A client of a screen with a single pixel. -/
def onePixelScreen : Session :=
  { configuredSession with client := { configuredSession.client with width := 1, height := 1 } }

/-- A client of a screen of two by two pixels. -/
def squareScreen : Session :=
  { configuredSession with client := { configuredSession.client with width := 2, height := 2 } }

theorem two_rectangles_lt : 2 < 2 ^ 16 := by decide

/-- The upper row of the screen and then the lower one. -/
def squareUpdate : FrameBufferUpdate :=
  ⟨0, [⟨0, 0, 2, 1, [1, 2], rfl⟩, ⟨0, 1, 2, 1, [3, 4], rfl⟩], two_rectangles_lt⟩

theorem onePixelAnswer_receivable : (ServerMessage.frameBufferUpdate onePixelAnswer).Receivable := by
  simp [ServerMessage.Receivable, onePixelAnswer, RawRectangle.toRectangle, Rectangle.area]

theorem capture_transparent_onePixel :
    Transparent Platform.plain ⟨0, 0, 0, []⟩ onePixelScreen [] onePixelAnswer [] :=
  (capture_transparent_iff Platform.plain ⟨0, 0, 0, []⟩ onePixelScreen rfl rfl rfl rfl [] (by simp)
    onePixelAnswer onePixelAnswer_receivable [] (by decide)).mpr (by decide)

/-- A bell in front of the update is taken for the answer. -/
theorem capture_bell_not_transparent :
    ServerMessage.bell.Asynchronous ∧ ServerMessage.bell.Receivable ∧
      ¬Transparent Platform.plain ⟨0, 0, 0, []⟩ onePixelScreen [.bell] onePixelAnswer [] := by
  refine ⟨trivial, trivial, ?_⟩
  rintro ⟨b, t, t', _, hrun, _, _, _, hrest⟩
  -- the bell is consumed, and the update stays on the stream
  have hleft := (of_capture_message (m := .bell) ⟨rfl, rfl, rfl, rfl⟩ trivial hrun).1
  exact absurd (hrest.symm.trans hleft) (by decide)

end Mrhc
