import Mrhc.Client.Colours
import Mrhc.Handler.RemoteHost

/-!
# Machines that paint

A remote machine with a screen of colours, which it paints in the pixel format that it was last
told. Whatever its own format was, a user of the page sees the colours of the screen.
-/

namespace Mrhc

/-- A pixel format with a byte for each colour. -/
abbrev PaintFormat := { f : PixelFormat // f.Bytewise }

/-- The format of a server after a message. -/
def PaintFormat.told (f : PaintFormat) : ClientMessage → PaintFormat
  | .setPixelFormat _ g _ => if h : g.Bytewise then ⟨g, h⟩ else f
  | _ => f

/-- A machine with a screen of `w` by `h` colours, which it can paint in any format. -/
structure Painter (σ : Type) (w h : Nat) where
  receive : σ → ClientMessage → σ
  colours : σ → Nat → Nat → Scalar
  update : σ → PaintFormat → FrameBufferUpdate
  paints : ∀ s f, (update s f).Shows w h fun x y => f.1.word (colours s x y)

namespace Painter

section

variable {σ : Type} {w h : Nat} (p : Painter σ w h)

/-- The machine paints in the format that it was told last. -/
def host : Host (σ × PaintFormat) w h where
  receive := fun s message => (p.receive s.1 message, s.2.told message)
  screen := fun s x y => s.2.1.word (p.colours s.1 x y)
  update := fun s => p.update s.1 s.2
  shows := fun s => p.paints s.1 s.2

/-- The machine after these messages. -/
def after (s : σ) (ms : List ClientMessage) : σ := ms.foldl p.receive s

private theorem host_after (s : σ) (f : PaintFormat) (ms : List ClientMessage) :
    p.host.after (s, f) ms = (p.after s ms, ms.foldl PaintFormat.told f) := by
  induction ms generalizing s f with
  | nil => rfl
  | cons message ms ih => exact ih _ _

end

variable {σ : Type} {w h : UInt16} (p : Painter σ w.toNat h.toNat) (lib : Platform)

/-- What a user sees after each action: the picture of the screen when the machine has received the
action, with the cross of the pointer on it, or after a key press what he has seen before. -/
def seen : Bytes → σ → List UserAction → List Bytes
  | _, _, [] => []
  | shown, s, a :: as =>
    let s := p.after s (a.messages lib w h)
    let image :=
      if a.looks then
        lib.imencode ((picture w.toNat h.toNat (p.colours s)).afterOperation a.operation)
      else shown
    image :: seen image s as

private theorem told_messages (a : UserAction) (f : PaintFormat) :
    (a.messages lib w h).foldl PaintFormat.told f = f := by
  cases a with
  | watch => rfl
  | refresh time => rfl
  | click x y button =>
    rw [UserAction.messages, UserAction.events]
    split
    · rfl
    · rfl
  | press key =>
    rw [UserAction.messages, UserAction.events]
    split
    · rfl
    · rfl

private theorem host_seen (f : PaintFormat) (hf : f.1 = ClientMessage.requestedFormat)
    (shown : Bytes) (s : σ) (actions : List UserAction) :
    p.host.seen lib shown (s, f) actions = p.seen lib shown s actions := by
  induction actions generalizing shown s with
  | nil => rfl
  | cons a actions ih =>
    have hscreen : ∀ s, screenshot w.toNat h.toNat (p.host.screen (s, f)) =
        picture w.toNat h.toNat (p.colours s) := by
      intro s
      rw [← screenshot_word, ← hf]
      rfl
    rw [Host.seen, seen, host_after, told_messages, hscreen]
    exact congrArg (_ :: ·) (ih _ _)

private theorem told_settings (f : PaintFormat) :
    ([.requestFormat, .requestEncodings].foldl PaintFormat.told f).1 =
      ClientMessage.requestedFormat := rfl

end Painter

/-- **True colours.** A user who logs in to a server in front of a machine that paints in the pixel
format it was told last, whatever that was before, sees after each action the colours of the
machine's screen as they are. -/
theorem serve_colours {lib : Platform} (hbox : lib.FillsBox) {before : List Visit}
    (hbefore : stateAfter (handleVisit lib) none before = some none) {version : Bytes}
    (hversion : version ∈ listingVersions) (d : ServerSide) (haccepts : d.result = 0)
    (hview : Viewable d.serverInit.width d.serverInit.height) {σ : Type}
    (p : Painter σ d.serverInit.width.toNat d.serverInit.height.toNat) (s : σ) (f : PaintFormat)
    {login : Visit} {credentials : Credentials} (hlogin : login.request.LogsIn lib credentials)
    (hhost : login.request.hostname ≠ none) (hlogs : login.residue.LogsVersion)
    {visits : List Visit} {actions : List UserAction}
    (hactions : List.Forall₂ (fun v a => v.request.Performs a) visits actions)
    (hpossible : ∀ a ∈ actions,
      a.Possible d.serverInit.width.toNat d.serverInit.height.toNat)
    (hserver : login.server = d.connection version ((p.host.replies (s, f)
      (sessionMessages lib d.serverInit.width d.serverInit.height actions)).flatMap
        FrameBufferUpdate.bytes)) :
    ∃ page, (serve lib (before ++ login :: visits)).map Served.shown =
      (serve lib before).map Served.shown ++ (some .ok, Response.page page) ::
        (p.seen lib [] (p.after s [.requestFormat, .requestEncodings]) actions).map shownImage := by
  let u : UserSession lib :=
    { server := d
      version := version
      State := σ × PaintFormat
      host := p.host
      start := (s, f)
      login := login
      credentials := credentials
      visits := visits
      actions := actions
      listing := hversion
      accepts := haccepts
      viewable := hview
      logsIn := hlogin
      named := hhost
      logs := hlogs
      performs := hactions
      possible := hpossible
      connected := hserver }
  obtain ⟨client, ⟨c, page, hwidth, hheight, hpage, hanswers⟩, -, -⟩ := u.served hbox
  have hseen : p.host.seen lib [] (p.host.after (s, f) [.requestFormat, .requestEncodings])
      actions = p.seen lib [] (p.after s [.requestFormat, .requestEncodings]) actions := by
    rw [p.host_after, p.host_seen lib _ (Painter.told_settings f)]
  refine ⟨page, ?_⟩
  rw [serve, runFrom_append hbefore, List.map_append, ← hseen]
  exact congrArg _ hanswers

/-- A machine with a blue pixel that grows brighter with each press of a button, and a red one. -/
def brightening : Painter UInt8 2 1 where
  receive := fun presses message =>
    match message with
    | .pointerEvent buttonMask _ _ => if buttonMask = 0 then presses else presses + 1
    | _ => presses
  colours := fun presses x _ => if x = 0 then ⟨presses, 0, 0⟩ else ⟨3, 0, 255⟩
  update := fun presses f => twoPixels (f.1.word ⟨presses, 0, 0⟩) (f.1.word ⟨3, 0, 255⟩)
  paints := by
    intro presses f
    have hcolours : ∀ x : Nat, f.1.word (if x = 0 then ⟨presses, 0, 0⟩ else ⟨3, 0, 255⟩) =
        if x = 0 then f.1.word ⟨presses, 0, 0⟩ else f.1.word ⟨3, 0, 255⟩ :=
      fun x => apply_ite f.1.word _ _ _
    simp only [hcolours]
    exact twoPixels_shows _ _

/-- A format with red in the least byte. -/
def redFirst : PaintFormat :=
  ⟨{ ClientMessage.requestedFormat with redShift := 0, blueShift := 16 }, by decide⟩

def brighteningLogin (actions : List UserAction) : Visit :=
  ⟨pageRequest (some testHeader), twoPixelServer.connection rfbProtocolVersion38
    ((brightening.host.replies (0, redFirst) (sessionMessages bluePlatform 2 1 actions)).flatMap
      FrameBufferUpdate.bytes), .blank⟩

theorem serve_colours_brightening :
    ∃ page, (serve bluePlatform (brighteningLogin [.watch, .click 1 0 0, .refresh 7] ::
        [.watch, .click 1 0 0, .refresh 7].map actionVisit)).map Served.shown =
      (some .ok, Response.page page) :: [[0, 3], [1, 0], [1, 3]].map shownImage := by
  have hbox : bluePlatform.FillsBox := fun _ _ _ _ _ _ => rfl
  have hcredentials : (pageRequest (some testHeader)).credentials bluePlatform =
      some testCredentials := by decide +kernel
  have hpossible : ∀ a ∈ [UserAction.watch, .click 1 0 0, .refresh 7], a.Possible 2 1 := by
    simp only [List.forall_mem_cons, List.not_mem_nil, false_implies, implies_true, and_true]
    exact ⟨trivial, ⟨by decide, by decide, Or.inl rfl⟩, trivial⟩
  obtain ⟨page, hshown⟩ := @serve_colours bluePlatform hbox [] rfl rfbProtocolVersion38
    (by decide) twoPixelServer rfl twoPixelServer_viewable UInt8 brightening 0 redFirst
    (brighteningLogin [.watch, .click 1 0 0, .refresh 7]) testCredentials
    ⟨by decide, hcredentials⟩ (by decide) rfl _ _
    (List.forall₂_map_left_iff.mpr (List.forall₂_same.mpr fun a _ => actionVisit_performs a))
    hpossible rfl
  have himages : brightening.seen (w := 2) (h := 1) bluePlatform []
      (brightening.after 0 [.requestFormat, .requestEncodings])
      [.watch, .click 1 0 0, .refresh 7] = [[0, 3], [1, 0], [1, 3]] := by decide
  have hlist := congrArg
    (fun images => (some Status.ok, Response.page page) :: images.map shownImage) himages
  exact ⟨page, hshown.trans hlist⟩

end Mrhc
