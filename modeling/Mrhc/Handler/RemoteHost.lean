import Mrhc.Handler.ViewerRuns

/-!
# The remote machine

The handler and a remote machine together. The machine changes with the messages that it receives
and answers each request for its screen with the screen that it then has, so that a user sees what
the messages of his own actions have made of it.
-/

namespace Mrhc

/-- A remote machine with a screen of `w` by `h` pixels, which it sends in an update of raw
rectangles that list the positions row by row. -/
structure Host (σ : Type) (w h : Nat) where
  receive : σ → ClientMessage → σ
  screen : σ → Nat → Nat → UInt32
  update : σ → FrameBufferUpdate
  shows : ∀ s, (update s).Shows w h (screen s)

/-- The message asks for an update. -/
def ClientMessage.asks : ClientMessage → Bool
  | frameBufferUpdateRequest .. => true
  | _ => false

/-- The settings of a session, and then what its user's actions send. -/
def sessionMessages (lib : Platform) (w h : UInt16) (actions : List UserAction) :
    List ClientMessage :=
  [.requestFormat, .requestEncodings] ++ actions.flatMap (·.messages lib w h)

namespace Host

variable {σ : Type} {w h : Nat} (m : Host σ w h)

/-- The machine after these messages. -/
def after (s : σ) (ms : List ClientMessage) : σ := ms.foldl m.receive s

/-- What the machine sends while it receives these messages. -/
def replies : σ → List ClientMessage → List FrameBufferUpdate
  | _, [] => []
  | s, message :: ms =>
    let s := m.receive s message
    if message.asks then m.update s :: replies s ms else replies s ms

theorem replies_append (s : σ) (ms ms' : List ClientMessage) :
    m.replies s (ms ++ ms') = m.replies s ms ++ m.replies (m.after s ms) ms' := by
  induction ms generalizing s with
  | nil => rfl
  | cons message ms ih =>
    rw [List.cons_append, replies, replies, ih]
    split
    · rfl
    · rfl

theorem replies_quiet {ms : List ClientMessage} (h : ∀ message ∈ ms, message.asks = false)
    (s : σ) : m.replies s ms = [] := by
  induction ms generalizing s with
  | nil => rfl
  | cons message ms ih =>
    have hrest := fun message' hmem => h message' (List.mem_cons_of_mem message hmem)
    rw [replies, h message List.mem_cons_self, if_neg Bool.false_ne_true, ih hrest]

end Host

theorem UserAction.events_quiet (lib : Platform) (a : UserAction) :
    ∀ message ∈ a.events lib, message.asks = false := by
  intro message hmem
  cases a with
  | watch => exact absurd hmem List.not_mem_nil
  | refresh time => exact absurd hmem List.not_mem_nil
  | click x y button =>
    simp only [events] at hmem
    split at hmem
    · exact absurd hmem List.not_mem_nil
    · simp only [List.mem_cons, List.not_mem_nil, or_false] at hmem
      rcases hmem with rfl | rfl
      · rfl
      · rfl
  | press key =>
    simp only [events] at hmem
    split at hmem
    · exact absurd hmem List.not_mem_nil
    · simp only [List.mem_cons, List.not_mem_nil, or_false] at hmem
      rcases hmem with rfl | rfl
      · rfl
      · rfl

namespace Host

variable {σ : Type} {w h : UInt16} (m : Host σ w.toNat h.toNat) (lib : Platform)

/-- What a user sees after each action: the screen as the machine has it when it has received the
action, with the cross of the pointer on it, or after a key press what he has seen before. -/
def seen : Bytes → σ → List UserAction → List Bytes
  | _, _, [] => []
  | shown, s, a :: as =>
    let s := m.after s (a.messages lib w h)
    let image :=
      if a.looks then
        lib.imencode ((screenshot w.toNat h.toNat (m.screen s)).afterOperation a.operation)
      else shown
    image :: seen image s as

/-- The screens that the machine has when it is asked for them. -/
def screens : σ → List UserAction → List (Nat → Nat → UInt32)
  | _, [] => []
  | s, a :: as =>
    let s := m.after s (a.messages lib w h)
    if a.looks then m.screen s :: screens s as else screens s as

private theorem replies_messages (s : σ) (a : UserAction) :
    m.replies s (a.messages lib w h) =
      if a.looks then [m.update (m.after s (a.messages lib w h))] else [] := by
  rw [UserAction.messages, replies_append, m.replies_quiet (a.events_quiet lib)]
  cases a.looks with
  | false => rfl
  | true =>
    simp only [if_true, List.nil_append, after, List.foldl_append]
    rfl

private theorem replies_show (s : σ) (actions : List UserAction) :
    List.Forall₂ (fun update screen => update.Shows w.toNat h.toNat screen)
      (m.replies s (actions.flatMap (·.messages lib w h))) (m.screens lib s actions) := by
  induction actions generalizing s with
  | nil => exact .nil
  | cons a actions ih =>
    rw [List.flatMap_cons, replies_append, replies_messages, screens]
    cases a.looks with
    | false => exact ih _
    | true => exact .cons (m.shows _) (ih _)

private theorem screens_length (s : σ) (actions : List UserAction) :
    (m.screens lib s actions).length = actions.countP UserAction.looks := by
  induction actions generalizing s with
  | nil => rfl
  | cons a actions ih =>
    rw [screens, List.countP_cons]
    cases a.looks with
    | false => exact ih _
    | true => exact congrArg (· + 1) (ih _)

private theorem viewerShows_screens (shown : Bytes) (s : σ) (actions : List UserAction) :
    viewerShows lib.imencode w.toNat h.toNat shown (m.screens lib s actions) actions =
      m.seen lib shown s actions := by
  induction actions generalizing shown s with
  | nil => rfl
  | cons a actions ih =>
    rw [screens, seen]
    cases hlooks : a.looks with
    | false =>
      rw [if_neg Bool.false_ne_true, if_neg Bool.false_ne_true, viewerShows_press hlooks, ih]
    | true =>
      rw [if_pos rfl, if_pos rfl, viewerShows_look hlooks]
      exact congrArg (_ :: ·) (ih _ _)

end Host

private theorem runFrom_host {lib : Platform} (hbox : lib.FillsBox) {w h : UInt16}
    (hview : Viewable w h) {σ : Type} (m : Host σ w.toNat h.toNat) (s : σ) {visits : List Visit}
    {actions : List UserAction}
    (hactions : List.Forall₂ (fun v a => v.request.Performs a) visits actions)
    (hpossible : ∀ a ∈ actions, a.Possible w.toNat h.toNat) {client : Instance} {shown : Bytes}
    {written : List Bytes}
    (hs : Viewing client.session w h shown
      ((m.replies s (actions.flatMap (·.messages lib w h))).flatMap FrameBufferUpdate.bytes)
      written) :
    (runFrom (handleVisit lib) (some client) visits).map Served.shown =
        (m.seen lib shown s actions).map shownImage ∧
      ∃ client', stateAfter (handleVisit lib) (some client) visits = some (some client') ∧
        client'.session.conn.written =
          written ++ (actions.flatMap (·.messages lib w h)).map ClientMessage.bytes := by
  have hviewing := runFrom_viewing hbox hview hactions hpossible (m.replies_show lib s actions)
    (Nat.le_of_eq (m.screens_length lib s actions).symm) hs
  rwa [m.viewerShows_screens] at hviewing

/-- A session of a user on a remote machine, in front of a server that accepts him: the login, and
what he does on the page. -/
structure UserSession (lib : Platform) where
  server : ServerSide
  version : Bytes
  State : Type
  host : Host State server.serverInit.width.toNat server.serverInit.height.toNat
  start : State
  login : Visit
  credentials : Credentials
  visits : List Visit
  actions : List UserAction
  listing : version ∈ listingVersions
  accepts : server.result = 0
  viewable : Viewable server.serverInit.width server.serverInit.height
  logsIn : login.request.LogsIn lib credentials
  named : login.request.hostname ≠ none
  logs : login.residue.LogsVersion
  performs : List.Forall₂ (fun v a => v.request.Performs a) visits actions
  possible : ∀ a ∈ actions,
    a.Possible server.serverInit.width.toNat server.serverInit.height.toNat
  connected : login.server = server.connection version
    ((host.replies start (sessionMessages lib server.serverInit.width server.serverInit.height
      actions)).flatMap FrameBufferUpdate.bytes)

namespace UserSession

variable {lib : Platform} (u : UserSession lib)

def requests : List Visit := u.login :: u.visits

/-- What the browser gets: the page of the screen, and then what the user sees. -/
def Answers (answers : List (Option Status × Response)) : Prop :=
  ∃ (c : VncClient) (page : Bytes), c.width = u.server.serverInit.width ∧
    c.height = u.server.serverInit.height ∧ mrhcHtml u.login.request c = .ok page ∧
    answers = (some .ok, Response.page page) ::
      (u.host.seen lib [] (u.host.after u.start [.requestFormat, .requestEncodings])
        u.actions).map shownImage

/-- What the machine receives: the answers of the handshake, and the messages that it replies
to. -/
def received : List Bytes :=
  u.server.answers u.version (Instance.new u.credentials u.login).session.client ++
    (sessionMessages lib u.server.serverInit.width u.server.serverInit.height u.actions).map
      ClientMessage.bytes

theorem served (hbox : lib.FillsBox) :
    ∃ client, u.Answers ((runFrom (handleVisit lib) none u.requests).map Served.shown) ∧
      stateAfter (handleVisit lib) none u.requests = some (some client) ∧
      client.session.conn.written = u.received := by
  let asked := u.host.after u.start [.requestFormat, .requestEncodings]
  have hquiet : u.host.replies u.start [.requestFormat, .requestEncodings] = [] :=
    u.host.replies_quiet (List.forall_mem_cons.mpr ⟨rfl, List.forall_mem_singleton.mpr rfl⟩) _
  have hserver := u.connected
  rw [sessionMessages, Host.replies_append, hquiet, List.nil_append] at hserver
  obtain ⟨t, hrun, ht⟩ := spinProgram_viewing
    (s := (Instance.new u.credentials u.login).session) u.listing u.server u.accepts hserver
    (VncClient.new_logsVersion u.logs _ _ _) rfl rfl
  obtain ⟨client, page, rfl, hpage, hvisit⟩ :=
    handleVisit_opened u.logsIn.1 u.logsIn.2 u.named hrun
  obtain ⟨hshown, client', hafter, hwritten⟩ :=
    runFrom_host hbox u.viewable u.host asked u.performs u.possible ht
  refine ⟨client', ⟨client.session.client, page, ht.width, ht.height, hpage, ?_⟩, ?_, ?_⟩
  · rw [requests, runFrom_cons hvisit, List.map_cons, hshown]
    rfl
  · rw [requests, stateAfter_cons hvisit]
    exact hafter
  · rw [hwritten, received, sessionMessages, List.map_append, List.append_assoc]

end UserSession

/-- A session that ends with a request to log out. -/
structure ClosedSession (lib : Platform) extends UserSession lib where
  logout : Visit
  addressed : logout.request.Addressed
  logsOut : mrhcConfirm logout.request = false

namespace ClosedSession

variable {lib : Platform} (u : ClosedSession lib)

def requests : List Visit := u.toUserSession.requests ++ [u.logout]

/-- What the browser gets: the answers of the session, and the refusal that asks for credentials. -/
def Answers (answers : List (Option Status × Response)) : Prop :=
  ∃ session, u.toUserSession.Answers session ∧
    answers = session ++ [(some .unauthorized, Response.refusal)]

private theorem served (hbox : lib.FillsBox) :
    u.Answers ((runFrom (handleVisit lib) none u.requests).map Served.shown) ∧
      stateAfter (handleVisit lib) none u.requests = some none := by
  obtain ⟨client, hanswers, hafter, -⟩ := u.toUserSession.served hbox
  have hlogout := handleVisit_logout lib client u.addressed u.logsOut
  constructor
  · refine ⟨_, hanswers, ?_⟩
    rw [requests, runFrom_append hafter, runFrom_cons hlogout, List.map_append]
    rfl
  · rw [requests, stateAfter_append hafter, stateAfter_cons hlogout]
    rfl

end ClosedSession

/-- Users who log in to remote machines one after another, and log out again, each see the screen
of their own machine as their own actions have left it, whoever has been there before, and the
machine of the open session has received just the messages that it replies to. -/
theorem serve_sessions {lib : Platform} (hbox : lib.FillsBox) (closed : List (ClosedSession lib))
    (u : UserSession lib) :
    ∃ (answers : List (List (Option Status × Response)))
      (last : List (Option Status × Response)) (client : Instance),
      List.Forall₂ ClosedSession.Answers closed answers ∧ u.Answers last ∧
      (serve lib (closed.flatMap ClosedSession.requests ++ u.requests)).map Served.shown =
        answers.flatten ++ last ∧
      stateAfter (handleVisit lib) none (closed.flatMap ClosedSession.requests ++ u.requests) =
        some (some client) ∧
      client.session.conn.written = u.received := by
  induction closed with
  | nil =>
    obtain ⟨client, hanswers, hafter, hwritten⟩ := u.served hbox
    exact ⟨[], _, client, .nil, hanswers, rfl, hafter, hwritten⟩
  | cons c closed ih =>
    obtain ⟨hanswers, hafter⟩ := c.served hbox
    obtain ⟨answers, last, client, hclosed, hlast, hshown, hend, hwritten⟩ := ih
    refine ⟨_ :: answers, last, client, .cons hanswers hclosed, hlast, ?_, ?_, hwritten⟩
    · rw [serve] at hshown
      rw [serve, List.flatMap_cons, List.append_assoc, runFrom_append hafter, List.map_append,
        hshown, List.flatten_cons, List.append_assoc]
    · rw [List.flatMap_cons, List.append_assoc, stateAfter_append hafter]
      exact hend

/-- A machine that shows in its left pixel how often a button has been pressed. -/
def clickCounter : Host UInt32 2 1 where
  receive := fun presses message =>
    match message with
    | .pointerEvent buttonMask _ _ => if buttonMask = 0 then presses else presses + 1
    | _ => presses
  screen := fun presses => twoPixelScreen presses 9
  update := fun presses => twoPixels presses 9
  shows := fun presses => twoPixels_shows presses 9

private theorem bluePlatform_fills : bluePlatform.FillsBox := fun _ _ _ _ _ _ => rfl

/-- A session with a look at the screen, two clicks on its second pixel and another look. -/
def clicking : UserSession bluePlatform where
  server := twoPixelServer
  version := rfbProtocolVersion38
  State := UInt32
  host := clickCounter
  start := 0
  login := ⟨pageRequest (some testHeader), twoPixelServer.connection rfbProtocolVersion38
    ([twoPixels 0 9, twoPixels 1 9, twoPixels 2 9, twoPixels 2 9].flatMap
      FrameBufferUpdate.bytes), .blank⟩
  credentials := testCredentials
  visits := [.watch, .click 1 0 0, .click 1 0 2, .refresh 7].map actionVisit
  actions := [.watch, .click 1 0 0, .click 1 0 2, .refresh 7]
  listing := by decide
  accepts := rfl
  viewable := twoPixelServer_viewable
  logsIn := ⟨by decide, by decide +kernel⟩
  named := by decide
  logs := rfl
  performs :=
    List.forall₂_map_left_iff.mpr (List.forall₂_same.mpr fun a _ => actionVisit_performs a)
  possible := by
    simp only [List.forall_mem_cons, List.not_mem_nil, false_implies, implies_true, and_true]
    exact ⟨trivial, ⟨by decide, by decide, Or.inl rfl⟩, ⟨by decide, by decide, Or.inr rfl⟩, trivial⟩
  connected := rfl

def clickingClosed : ClosedSession bluePlatform :=
  { clicking with
    logout := ⟨{ pageRequest none with formNames := some [ascii "logout"] },
      Socket.delivering [], .blank⟩
    addressed := (by decide : (pageRequest none).Addressed)
    logsOut := by decide }

private theorem clicking_answers {answers : List (Option Status × Response)}
    (h : clicking.Answers answers) :
    ∃ page, answers =
      (some .ok, Response.page page) :: [[0, 9], [1, 0], [2, 0], [2, 9]].map shownImage := by
  obtain ⟨-, page, -, -, -, hanswers⟩ := h
  have himages : clickCounter.seen bluePlatform (w := 2) (h := 1) []
      (clickCounter.after 0 [.requestFormat, .requestEncodings])
      [.watch, .click 1 0 0, .click 1 0 2, .refresh 7] = [[0, 9], [1, 0], [2, 0], [2, 9]] := by
    decide
  exact ⟨page, hanswers.trans (congrArg (fun images => _ :: images.map shownImage) himages)⟩

theorem serve_sessions_clicks :
    ∃ page page', (serve bluePlatform (clickingClosed.requests ++ clicking.requests)).map
        Served.shown =
      ((some .ok, Response.page page) :: [[0, 9], [1, 0], [2, 0], [2, 9]].map shownImage ++
          [(some .unauthorized, Response.refusal)]) ++
        (some .ok, Response.page page') :: [[0, 9], [1, 0], [2, 0], [2, 9]].map shownImage := by
  obtain ⟨answers, last, -, hclosed, hlast, hshown, -, -⟩ :=
    serve_sessions bluePlatform_fills [clickingClosed] clicking
  obtain ⟨page', rfl⟩ := clicking_answers hlast
  cases hclosed with
  | cons hfirst hnone =>
    cases hnone
    obtain ⟨session, hsession, rfl⟩ := hfirst
    obtain ⟨page, rfl⟩ := clicking_answers hsession
    refine ⟨page, page', ?_⟩
    rw [List.flatMap_singleton] at hshown
    rw [hshown, List.flatten_cons, List.flatten_nil, List.append_nil]

end Mrhc
