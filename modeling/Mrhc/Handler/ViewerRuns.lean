import Mrhc.Handler.Viewer

/-!
# The handler as a viewer

The handler refines the viewer. A session that is open on a server with these screens is served,
request after request, with what the viewer shows, and its server receives what the viewer sends.
-/

namespace Mrhc

/-- A session in which the screen of `w` by `h` pixels is viewed: what has been shown last, what is
left to receive and what has been written. -/
structure Viewing (s : Session) (w h : UInt16) (shown input : Bytes) (written : List Bytes) :
    Prop where
  format : s.client.pixelFormat = configuredFormat
  width : s.client.width = w
  height : s.client.height = h
  shown : s.client.jpegBuf = shown
  input : s.conn.input = input
  written : s.conn.written = written
  recvs : s.conn.recvs = []
  sends : s.conn.sends = []

/-- Screens of this size can be shown: JPEG holds their images, which leaves room for the marks of
the pointer, and the indices of the pixels are in the range of `int`. -/
structure Viewable (w h : UInt16) : Prop where
  width_pos : 0 < w.toNat
  width : w.toNat ≤ jpegMaxDimension
  height_pos : 0 < h.toNat
  height : h.toNat ≤ jpegMaxDimension
  size : w.toNat * h.toNat ≤ 2 ^ 31

section

variable (lib : Platform) {s : Session} {w h : UInt16} {shown input : Bytes}
  {written : List Bytes} {a : UserAction}

private theorem operation_button (ha : a.Possible w.toNat h.toNat) :
    ¬32 ≤ a.operation.button.toNat := by
  have hnone : ¬32 ≤ (0 : UInt8).toNat := by decide
  cases a with
  | watch => exact hnone
  | refresh time => exact hnone
  | click x y button =>
    rcases ha.2.2 with rfl | rfl
    · exact hnone
    · exact (by decide : ¬32 ≤ (2 : UInt8).toNat)
  | press key => exact hnone

private theorem script_action (ha : a.Possible w.toNat h.toNat) (width height : UInt16) :
    ClientCall.script lib width height (.operate a.operation) = a.events lib := by
  have hbutton := operation_button ha
  cases a with
  | watch => rfl
  | refresh time => rfl
  | click x y button =>
    rw [ClientCall.script, if_neg (fun hkey => hkey rfl)]
    simp only [UserAction.events, if_neg hbutton]
    rfl
  | press key =>
    have hkey : (UserAction.press key).operation.key ≠ [] := ha.1
    rw [ClientCall.script, if_pos hkey]
    rfl

private theorem operation_key (ha : a.Possible w.toNat h.toNat) :
    a.operation.key = [] ↔ a.looks = true := by
  cases a with
  | watch => exact iff_of_true rfl rfl
  | refresh time => exact iff_of_true rfl rfl
  | click x y button => exact iff_of_true rfl rfl
  | press key => exact iff_of_false ha.1 Bool.false_ne_true

private theorem operation_points (ha : a.Possible w.toNat h.toNat) :
    a.operation.PointsInside w.toNat h.toNat := by
  cases a with
  | watch => exact Or.inl ⟨rfl, rfl⟩
  | refresh time => exact Or.inl ⟨rfl, rfl⟩
  | click x y button => exact Or.inr ⟨ha.1, ha.2.1⟩
  | press key => exact Or.inl ⟨rfl, rfl⟩

private theorem Viewing.operate (hs : Viewing s w h shown input written)
    (ha : a.Possible w.toNat h.toNat) :
    ∃ t, (operate lib a.operation).run s = .ok true t ∧
      Viewing t w h shown input (written ++ (a.events lib).map ClientMessage.bytes) := by
  have hrun := (operate_script lib s a.operation hs.sends).resolve_right
    fun h => operation_button ha h.1
  rw [script_action lib ha] at hrun
  refine ⟨_, hrun, ?_⟩
  exact ⟨hs.format, hs.width, hs.height, hs.shown, hs.input, by rw [← hs.written]; rfl, hs.recvs,
    hs.sends⟩

private theorem Viewing.capture_press (hs : Viewing s w h shown input written)
    (ha : a.Possible w.toNat h.toNat) (hlooks : a.looks = false) :
    ∃ t, (capture lib a.operation).run s = .ok true t ∧ Viewing t w h shown input written := by
  have hkey : a.operation.key ≠ [] := fun hnil => by
    rw [(operation_key ha).mp hnil] at hlooks
    cases hlooks
  refine ⟨s, ?_, hs⟩
  simp [capture, hkey]

private theorem Viewing.capture_look (hbox : lib.FillsBox) (hview : Viewable w h)
    {m : FrameBufferUpdate} {screen : Nat → Nat → UInt32} (hm : m.Shows w.toNat h.toNat screen)
    (hs : Viewing s w h shown (m.bytes ++ input) written) (ha : a.Possible w.toNat h.toNat)
    (hlooks : a.looks = true) :
    ∃ t, (capture lib a.operation).run s = .ok true t ∧
      Viewing t w h (lib.imencode ((screenshot w.toNat h.toNat screen).afterOperation a.operation))
        input (written ++ [(ClientMessage.requestScreen w h).bytes]) := by
  have hsend := Socket.send_unscheduled hs.sends
    (frameBufferUpdateRequest s.client.width s.client.height)
  have hcaptures : s.Captures a.operation :=
    ⟨VncClient.bits_of_configured hs.format, hs.recvs, (operation_key ha).mpr hlooks,
      congrArg Prod.fst hsend⟩
  have hrun := capture_screenshot hbox hs.format hcaptures (congrArg UInt16.toNat hs.width)
    (congrArg UInt16.toNat hs.height) (operation_points ha)
    (Nat.le_trans hview.width (by decide)) (Nat.le_trans hview.height (by decide)) hview.size hm
    input
  have hself : s.rest (m.bytes ++ input) = s := by
    rw [← hs.input]
    exact s.rest_self
  rw [hself] at hrun
  have hrequested : s.requested.conn =
      { s.conn with
        written := s.conn.written ++ [frameBufferUpdateRequest s.client.width s.client.height] } :=
    congrArg Prod.snd hsend
  refine ⟨_, hrun, hs.format, hs.width, hs.height, rfl, rfl, ?_, ?_, ?_⟩
  · rw [Session.update_conn, Session.rest, Session.on_conn, hrequested, hs.written,
      frameBufferUpdateRequest_bytes, hs.width, hs.height]
  · rw [Session.update_conn, Session.rest, Session.on_conn, hrequested]
    exact hs.recvs
  · rw [Session.update_conn, Session.rest, Session.on_conn, hrequested]
    exact hs.sends

private theorem throwProgram_calls {r : Request} (hr : r.query = a.query) :
    (throwProgram lib r a.operation).run s =
      (require (operate lib a.operation) (capture lib a.operation)).run s := by
  rw [throwProgram]
  split
  · next hnone =>
    rw [hnone] at hr
    cases a with
    | watch => rfl
    | refresh time => cases hr
    | click x y button => cases hr
    | press key => cases hr
  · rfl

private theorem Viewing.throwProgram_press {r : Request} (hr : r.query = a.query)
    (hs : Viewing s w h shown input written) (ha : a.Possible w.toNat h.toNat)
    (hlooks : a.looks = false) :
    ∃ t, (throwProgram lib r a.operation).run s = .ok true t ∧
      Viewing t w h shown input (written ++ (a.messages lib w h).map ClientMessage.bytes) := by
  obtain ⟨t, hoperate, ht⟩ := hs.operate lib ha
  obtain ⟨u, hcapture, hu⟩ := ht.capture_press lib ha hlooks
  refine ⟨u, ?_, ?_⟩
  · rw [throwProgram_calls lib hr, require_true hoperate]
    exact hcapture
  · rw [UserAction.messages, hlooks, if_neg Bool.false_ne_true, List.append_nil]
    exact hu

private theorem Viewing.throwProgram_look {r : Request} (hr : r.query = a.query)
    (hbox : lib.FillsBox) (hview : Viewable w h) {m : FrameBufferUpdate}
    {screen : Nat → Nat → UInt32} (hm : m.Shows w.toNat h.toNat screen)
    (hs : Viewing s w h shown (m.bytes ++ input) written) (ha : a.Possible w.toNat h.toNat)
    (hlooks : a.looks = true) :
    ∃ t, (throwProgram lib r a.operation).run s = .ok true t ∧
      Viewing t w h (lib.imencode ((screenshot w.toNat h.toNat screen).afterOperation a.operation))
        input (written ++ (a.messages lib w h).map ClientMessage.bytes) := by
  obtain ⟨t, hoperate, ht⟩ := hs.operate lib ha
  obtain ⟨u, hcapture, hu⟩ := ht.capture_look lib hbox hview hm ha hlooks
  refine ⟨u, ?_, ?_⟩
  · rw [throwProgram_calls lib hr, require_true hoperate]
    exact hcapture
  · rw [UserAction.messages, hlooks, if_pos rfl, List.map_append, ← List.append_assoc]
    exact hu

end

/-- What the browser gets for an entry. -/
def Served.shown (e : Served) : Option Status × Response := (e.output.status, e.output.response)

/-- The answer with an image. -/
def shownImage (image : Bytes) : Option Status × Response := (some .ok, Response.jpeg image)

private theorem viewing_cons {lib : Platform} {v : Visit} {visits : List Visit}
    {client client' : Instance} {image : Bytes} {events : List Event} {images : List Bytes}
    {written : List Bytes}
    (hvisit : handleVisit lib (some client) v =
      (⟨some .ok, Response.jpeg image, events⟩, some (some client')))
    (hlater : (runFrom (handleVisit lib) (some client') visits).map Served.shown =
        images.map shownImage ∧
      ∃ last, stateAfter (handleVisit lib) (some client') visits = some (some last) ∧
        last.session.conn.written = written) :
    (runFrom (handleVisit lib) (some client) (v :: visits)).map Served.shown =
        (image :: images).map shownImage ∧
      ∃ last, stateAfter (handleVisit lib) (some client) (v :: visits) = some (some last) ∧
        last.session.conn.written = written := by
  obtain ⟨hshown, hlast⟩ := hlater
  constructor
  · rw [runFrom_cons hvisit, List.map_cons, hshown]
    rfl
  · rw [stateAfter_cons hvisit]
    exact hlast

/-- From a session on, the handler shows and sends what the viewer does. -/
theorem runFrom_viewing {lib : Platform} (hbox : lib.FillsBox) {w h : UInt16}
    (hview : Viewable w h) {visits : List Visit} {actions : List UserAction}
    (hactions : List.Forall₂ (fun v a => v.request.Performs a) visits actions)
    (hpossible : ∀ a ∈ actions, a.Possible w.toNat h.toNat) {updates : List FrameBufferUpdate}
    {screens : List (Nat → Nat → UInt32)}
    (hupdates : List.Forall₂ (fun m screen => m.Shows w.toNat h.toNat screen) updates screens)
    (hscreens : actions.countP UserAction.looks ≤ screens.length) {client : Instance}
    {shown : Bytes} {written : List Bytes}
    (hs : Viewing client.session w h shown (updates.flatMap FrameBufferUpdate.bytes) written) :
    (runFrom (handleVisit lib) (some client) visits).map Served.shown =
        (viewerShows lib.imencode w.toNat h.toNat shown screens actions).map shownImage ∧
      ∃ client', stateAfter (handleVisit lib) (some client) visits = some (some client') ∧
        client'.session.conn.written =
          written ++ (actions.flatMap (·.messages lib w h)).map ClientMessage.bytes := by
  induction hactions generalizing updates screens client shown written with
  | nil =>
    refine ⟨rfl, client, rfl, ?_⟩
    rw [hs.written]
    exact (List.append_nil written).symm
  | @cons v a visits actions hperforms hrest ih =>
    have ha := hpossible a List.mem_cons_self
    have hpossible' := fun b hb => hpossible b (List.mem_cons_of_mem a hb)
    have hquery := mrhcQuery_action hperforms.query ha
    rw [List.countP_cons] at hscreens
    rw [List.flatMap_cons, List.map_append, ← List.append_assoc]
    cases hlooks : a.looks with
    | false =>
      rw [hlooks, if_neg Bool.false_ne_true] at hscreens
      obtain ⟨t, hrun, ht⟩ := hs.throwProgram_press (v.platform lib) hperforms.query ha hlooks
      rw [a.messages_platform] at ht
      obtain ⟨client', rfl, hvisit⟩ := handleVisit_shown hperforms.addressed hperforms.confirmed
        hquery hrun
      rw [viewerShows_press hlooks]
      rw [ht.shown] at hvisit
      exact viewing_cons hvisit (ih hpossible' hupdates hscreens ht)
    | true =>
      rw [hlooks, if_pos rfl] at hscreens
      cases hupdates with
      | nil => cases hscreens
      | @cons m screen updates screens hm hupdates =>
        obtain ⟨t, hrun, ht⟩ := hs.throwProgram_look (v.platform lib) hperforms.query
          (v.platform_fillsBox hbox) hview hm ha hlooks
        rw [a.messages_platform] at ht
        obtain ⟨client', rfl, hvisit⟩ := handleVisit_shown hperforms.addressed
          hperforms.confirmed hquery hrun
        rw [viewerShows_look hlooks]
        rw [ht.shown] at hvisit
        exact viewing_cons hvisit (ih hpossible' hupdates (Nat.le_of_succ_le_succ hscreens) ht)

/-- A connection to a server that has this dialogue and then goes on with these bytes. -/
def ServerSide.connection (d : ServerSide) (version later : Bytes) : Socket UInt8 :=
  { Socket.delivering ((d.turns version).flatten ++ later) with
    recvs := Socket.transfers (d.turns version) }

/-- Such a connection when the bytes after the dialogue arrive by these transfers. -/
def ServerSide.streaming (d : ServerSide) (version later : Bytes) (recvs : List Transfer) :
    Socket UInt8 :=
  { Socket.delivering ((d.turns version).flatten ++ later) with
    recvs := Socket.transfers (d.turns version) ++ recvs }

theorem ServerSide.connection_eq (d : ServerSide) (version later : Bytes) :
    d.connection version later = d.streaming version later [] := by
  rw [connection, streaming, List.append_nil]

section

variable {version : Bytes} (hversion : version ∈ listingVersions) (d : ServerSide) {later : Bytes}
  {recvs : List Transfer} {s : Session} (hconn : s.conn = d.streaming version later recvs)

include hconn

private theorem underway_streaming :
    s.underway s.client ((d.turns version).flatten ++ later)
      (Socket.transfers (d.turns version) ++ recvs) [] = s := by
  rw [Session.underway, List.append_nil, hconn]
  cases s
  obtain rfl : _ = _ := hconn
  rfl

include hversion

/-- Without a defined log call the handshake with such a server stops. -/
theorem authenticate_streaming_unlogged (hlogs : ¬s.client.LogsVersion) :
    ∃ t, authenticate.run s = .error .badFormat t := by
  have hsends : s.conn.sends = [] := by rw [hconn]; rfl
  rw [← underway_streaming d hconn, d.turns_listing hversion, List.cons_append, List.flatten_cons,
    List.append_assoc]
  exact authenticate_unlogged hsends hlogs (List.mem_cons_of_mem _ hversion)

variable (hlogs : s.client.LogsVersion)
  (hchallenge : s.client.challenge.length = rfbVncAuthChallengeLength)

include hlogs hchallenge

/-- The first two calls of an opening on a server that has this dialogue. -/
theorem spinCalls_streaming :
    initializeClient.run s = .ok true s ∧
      authenticate.run s = .ok (d.result == 0) (s.underway (d.initialized version s.client) later
        recvs (d.answers version s.client)) := by
  have hsends : s.conn.sends = [] := by rw [hconn]; rfl
  have hauthenticate := authenticate_dialogue d hsends hlogs hchallenge hversion later recvs
  rw [underway_streaming d hconn] at hauthenticate
  refine ⟨?_, hauthenticate⟩
  have hconnect : connectToServer.run s = .ok s.conn.connects s := rfl
  rw [initializeClient, bind_ok hconnect, hconn]
  rfl

/-- The opening of a session on a server that accepts the password. -/
theorem spinProgram_streaming (haccepts : d.result = 0) :
    spinProgram.run s = .ok true
      { client := (d.initialized version s.client).configured
        conn := { s.conn with
          input := later
          recvs := recvs
          written := (s.conn.written ++ d.answers version s.client) ++
            [ClientMessage.requestFormat, .requestEncodings].map ClientMessage.bytes } } := by
  have hsends : s.conn.sends = [] := by rw [hconn]; rfl
  obtain ⟨hconnected, hauthenticate⟩ := spinCalls_streaming hversion d hconn hlogs hchallenge
  rw [haccepts] at hauthenticate
  let t := s.underway (d.initialized version s.client) later recvs (d.answers version s.client)
  have hconfigure := (configure_eq t).trans
    (sendAll_all (t.update VncClient.configured) hsends [.requestFormat, .requestEncodings])
  rw [spinProgram, require_true hconnected, require_true hauthenticate]
  exact hconfigure

end

/-- A session that is opened on a connection without short transfers is like a viewer. -/
theorem spinProgram_viewing {version : Bytes} (hversion : version ∈ listingVersions)
    (d : ServerSide) (haccepts : d.result = 0) {later : Bytes} {s : Session}
    (hconn : s.conn = d.connection version later) (hlogs : s.client.LogsVersion)
    (hchallenge : s.client.challenge.length = rfbVncAuthChallengeLength)
    (hjpeg : s.client.jpegBuf = []) :
    ∃ t, spinProgram.run s = .ok true t ∧
      Viewing t d.serverInit.width d.serverInit.height [] later
        (d.answers version s.client ++
          [ClientMessage.requestFormat, .requestEncodings].map ClientMessage.bytes) := by
  rw [d.connection_eq] at hconn
  refine ⟨_, spinProgram_streaming hversion d hconn hlogs hchallenge haccepts, rfl, ?_, ?_, ?_, rfl,
    ?_, rfl, ?_⟩
  · change (d.initialized version s.client).width = _
    rw [ServerSide.initialized, if_pos haccepts]
    exact d.serverInit.load_width _
  · change (d.initialized version s.client).height = _
    rw [ServerSide.initialized, if_pos haccepts]
    exact d.serverInit.load_height _
  · change (d.initialized version s.client).jpegBuf = _
    rw [ServerSide.initialized, if_pos haccepts]
    exact hjpeg
  · have hwritten : s.conn.written = [] := by rw [hconn]; rfl
    rw [hwritten]
    rfl
  · rw [hconn]
    rfl

/-- After a run that left no session open, a user who logs in to a server that accepts the password
is served as by a viewer: with the page of the screen, and for each action with what the viewer
shows then. The server has received the answers of the handshake, the two settings, and what the
viewer sends. -/
theorem serve_viewer {lib : Platform} (hbox : lib.FillsBox) {before : List Visit}
    (hbefore : stateAfter (handleVisit lib) none before = some none) {version : Bytes}
    (hversion : version ∈ listingVersions) (d : ServerSide) (haccepts : d.result = 0)
    (hview : Viewable d.serverInit.width d.serverInit.height) {updates : List FrameBufferUpdate}
    {screens : List (Nat → Nat → UInt32)}
    (hupdates : List.Forall₂
      (fun m screen => m.Shows d.serverInit.width.toNat d.serverInit.height.toNat screen)
      updates screens)
    {login : Visit} {credentials : Credentials} (hlogin : login.request.LogsIn lib credentials)
    (hhost : login.request.hostname ≠ none) (hlogs : login.residue.LogsVersion)
    (hserver : login.server =
      d.connection version (updates.flatMap FrameBufferUpdate.bytes))
    {visits : List Visit} {actions : List UserAction}
    (hactions : List.Forall₂ (fun v a => v.request.Performs a) visits actions)
    (hpossible : ∀ a ∈ actions,
      a.Possible d.serverInit.width.toNat d.serverInit.height.toNat)
    (hscreens : actions.countP UserAction.looks ≤ screens.length) :
    ∃ c client page, c.width = d.serverInit.width ∧ c.height = d.serverInit.height ∧
      mrhcHtml login.request c = .ok page ∧
      (serve lib (before ++ login :: visits)).map Served.shown =
        (serve lib before).map Served.shown ++ (some .ok, Response.page page) ::
          (viewerShows lib.imencode d.serverInit.width.toNat d.serverInit.height.toNat [] screens
            actions).map shownImage ∧
      stateAfter (handleVisit lib) none (before ++ login :: visits) = some (some client) ∧
      client.session.conn.written =
        d.answers version (Instance.new credentials login).session.client ++
          ([ClientMessage.requestFormat, .requestEncodings] ++
            actions.flatMap (·.messages lib d.serverInit.width d.serverInit.height)).map
              ClientMessage.bytes := by
  obtain ⟨t, hrun, ht⟩ := spinProgram_viewing (s := (Instance.new credentials login).session)
    hversion d haccepts hserver (VncClient.new_logsVersion hlogs _ _ _) rfl rfl
  obtain ⟨client, page, rfl, hpage, hvisit⟩ := handleVisit_opened hlogin.1 hlogin.2 hhost hrun
  obtain ⟨hshown, client', hafter, hwritten⟩ :=
    runFrom_viewing hbox hview hactions hpossible hupdates hscreens ht
  refine ⟨client.session.client, client', page, ht.width, ht.height, hpage, ?_, ?_, ?_⟩
  · rw [serve, runFrom_append hbefore, runFrom_cons hvisit, List.map_append, List.map_cons, hshown]
    rfl
  · rw [stateAfter_append hbefore, stateAfter_cons hvisit]
    exact hafter
  · rw [hwritten, List.map_append, List.append_assoc]

/-- A server of a screen of two pixels. -/
def twoPixelServer : ServerSide :=
  { plainServer with
    serverInit := { plainServer.serverInit with width := 2 }
    name_length := plainServer.name_length }

theorem twoPixelServer_viewable :
    Viewable twoPixelServer.serverInit.width twoPixelServer.serverInit.height :=
  ⟨by decide, by decide, by decide, by decide, by decide⟩

/-- An update of a screen of two pixels with these words. -/
def twoPixels (left right : UInt32) : FrameBufferUpdate :=
  ⟨0, [⟨0, 0, 2, 1, [left, right], rfl⟩], (by decide : 1 < 2 ^ 16)⟩

/-- The screen with these words. -/
def twoPixelScreen (left right : UInt32) (x _ : Nat) : UInt32 := if x = 0 then left else right

theorem twoPixels_shows (left right : UInt32) :
    (twoPixels left right).Shows 2 1 (twoPixelScreen left right) where
  area := by
    intro r hr
    rw [List.mem_singleton.mp hr]
    exact (by decide : 2 * 1 < 2 ^ 27)
  order := rfl
  carries := by
    have hraster : raster 2 1 = [(0, 0), (1, 0)] := by decide
    rw [hraster]
    intro p hp
    simp only [List.mem_cons, List.not_mem_nil, or_false] at hp
    rcases hp with rfl | rfl
    · rfl
    · rfl

/-- A platform that encodes an image as the blue parts of its pixels. -/
def bluePlatform : Platform :=
  { Platform.plain with
    imencode := fun m => (raster m.cols m.rows).map fun p => (m.pixel p.1 p.2).blue }

/-- The visit of a user who does this on the page. -/
def actionVisit (a : UserAction) : Visit :=
  ⟨{ pageRequest none with query := a.query }, Socket.delivering [], .blank⟩

theorem actionVisit_performs (a : UserAction) : (actionVisit a).request.Performs a where
  addressed := (by decide : (pageRequest none).Addressed)
  confirmed := (by decide : mrhcConfirm (pageRequest none) = true)
  query := rfl

theorem serve_viewer_twoPixels :
    ∃ page, (serve bluePlatform
        [⟨pageRequest (some testHeader), twoPixelServer.connection rfbProtocolVersion38
            ((twoPixels 1 2).bytes ++ (twoPixels 3 4).bytes), .blank⟩,
          actionVisit .watch, actionVisit (.click 1 0 0),
          actionVisit (.press (ascii "Enter"))]).map Served.shown =
      (some .ok, Response.page page) :: [[1, 2], [3, 0], [3, 0]].map shownImage := by
  have hbox : bluePlatform.FillsBox := fun _ _ _ _ _ _ => rfl
  have hupdates : List.Forall₂ (fun m screen => m.Shows 2 1 screen)
      [twoPixels 1 2, twoPixels 3 4] [twoPixelScreen 1 2, twoPixelScreen 3 4] :=
    .cons (twoPixels_shows 1 2) (.cons (twoPixels_shows 3 4) .nil)
  have hactions : List.Forall₂ (fun v a => v.request.Performs a)
      [actionVisit .watch, actionVisit (.click 1 0 0), actionVisit (.press (ascii "Enter"))]
      [.watch, .click 1 0 0, .press (ascii "Enter")] :=
    .cons (actionVisit_performs _) (.cons (actionVisit_performs _)
      (.cons (actionVisit_performs _) .nil))
  have hpossible : ∀ a ∈ [UserAction.watch, .click 1 0 0, .press (ascii "Enter")],
      a.Possible 2 1 := by
    simp only [List.forall_mem_cons, List.not_mem_nil, false_implies, implies_true, and_true]
    exact ⟨trivial, ⟨by decide, by decide, Or.inl rfl⟩, by decide,
      ⟨by decide, by decide, by decide⟩⟩
  have hcredentials : (pageRequest (some testHeader)).credentials bluePlatform =
      some testCredentials := by decide +kernel
  obtain ⟨c, client, page, -, -, -, hshown, -, -⟩ := @serve_viewer bluePlatform hbox []
    rfl rfbProtocolVersion38 (by decide) twoPixelServer rfl twoPixelServer_viewable _ _ hupdates
    ⟨pageRequest (some testHeader), _, .blank⟩ testCredentials
    ⟨by decide, hcredentials⟩ (by decide) rfl rfl _ _ hactions hpossible (by decide)
  have himages : viewerShows bluePlatform.imencode 2 1 []
      [twoPixelScreen 1 2, twoPixelScreen 3 4]
      [.watch, .click 1 0 0, .press (ascii "Enter")] = [[1, 2], [3, 0], [3, 0]] := by decide
  have hlater : [twoPixels 1 2, twoPixels 3 4].flatMap FrameBufferUpdate.bytes =
      (twoPixels 1 2).bytes ++ (twoPixels 3 4).bytes := by simp
  rw [hlater] at hshown
  have hlist := congrArg
    (fun images => (some Status.ok, Response.page page) :: images.map shownImage) himages
  exact ⟨page, hshown.trans hlist⟩

end Mrhc
