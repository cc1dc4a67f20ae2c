import Mrhc.Client.FreshPixels
import Mrhc.Handler.Answers
import Mrhc.Handler.ViewerRuns

/-!
# The images of a session

Every image that the handler answers has just been captured, or for a key press is the one that the
session has answered last. Nothing remains of the images of an earlier session.
-/

namespace Mrhc

/-- The calls that leave no image behind when their request does not answer one. -/
def Event.clears : Event → Bool
  | .created _ => true
  | .called (.capture _) => true
  | .called _ => false

/-- The image that the session has after an answer, if it had `image` before it. -/
def Answer.imageAfter (a : Answer) (image : Bytes) : Bytes :=
  if a.response.contentType = some (ascii "image/jpeg") then a.response.body
  else if a.events.any Event.clears then [] else image

/-- The image that has been answered last, if no login and no failed capture came after it. -/
def lastImage (past : List Served) : Bytes :=
  past.foldl (fun image e => e.output.imageAfter image) []

theorem lastImage_append (past : List Served) (e : Served) :
    lastImage (past ++ [e]) = e.output.imageAfter (lastImage past) :=
  List.foldl_concat _ _ _ _

/-! What the calls do to the image. -/

private def SameImage (s t : Session) : Prop := t.client.jpegBuf = s.client.jpegBuf

private instance : OpeningFrame SameImage where
  refl := fun _ => rfl
  trans := fun _ _ _ h h' => Eq.trans h' h
  recv := fun _ _ => rfl
  push := fun _ _ => rfl
  send := fun _ _ => rfl
  set := fun s _ hf => hf.jpegBuf s.client

private theorem spinProgram_sameImage : Moves SameImage spinProgram :=
  Moves.require initializeClient_moves (Moves.require authenticate_moves configure_moves)

private theorem operateProgram_sameImage (lib : Platform) (r : Request)
    (operation : VncOperation) : Moves SameImage (operateProgram lib r operation) :=
  Moves.ite (Moves.pure true) (operate_moves lib operation)

section

variable {lib : Platform} {operation : VncOperation} {s t : Session}

private theorem capture_key (hkey : operation.key ≠ []) :
    (capture lib operation).run s = .ok true s := by
  simp [capture, hkey]

private theorem capture_failed (h : (capture lib operation).run s = .ok false t) :
    t.client.jpegBuf = [] := by
  by_cases hkey : operation.key = []
  · cases hsend : (s.conn.send (frameBufferUpdateRequest s.client.width s.client.height)).1 with
    | false =>
      rw [capture_unsent lib operation s hkey hsend] at h
      cases h
      rfl
    | true =>
      rw [capture_run lib operation s hkey hsend] at h
      rcases hrecv : recvServerToClientMessage.run s.requested with ⟨_ | _, u⟩ | ⟨reason, u⟩
      · rw [hrecv] at h
        cases h
        exact (recvServerToClientMessage_moves (R := SameImage)).of_ok hrecv
      · rw [hrecv] at h
        dsimp only at h
        cases hdraw : drawPixels lib u.client with
        | error reason => rw [hdraw] at h; cases h
        | ok image => rw [hdraw] at h; cases h
      · rw [hrecv] at h
        cases h
  · rw [capture_key hkey] at h
    cases h

end

/-! The image that the cached client holds. -/

private def CacheHolds (past : List Served) (cache : Option Instance) : Prop :=
  ∀ client, cache = some client →
    client.session.client.jpegBuf = lastImage past ∧ client.session.client.FormatSet

private theorem spinProgram_formatSet {s t : Session} {b : Bool} (hs : s.client.FormatSet)
    (h : spinProgram.run s = .ok b t) : t.client.FormatSet := by
  have hmoves := formatSet_of_moves (x := spinProgram) (fun R _ =>
    Moves.require initializeClient_moves (Moves.require authenticate_moves configure_moves)) hs
  rwa [h] at hmoves

private theorem operateProgram_formatSet {lib : Platform} {r : Request}
    {operation : VncOperation} {s t : Session} {b : Bool} (hs : s.client.FormatSet)
    (h : (operateProgram lib r operation).run s = .ok b t) : t.client.FormatSet := by
  have hmoves := formatSet_of_moves (x := operateProgram lib r operation) (fun R _ =>
    Moves.ite (Moves.pure true) (operate_moves lib operation)) hs
  rwa [h] at hmoves

private theorem capture_formatSet {lib : Platform} {operation : VncOperation} {s t : Session}
    {b : Bool} (hs : s.client.FormatSet) (h : (capture lib operation).run s = .ok b t) :
    t.client.FormatSet := by
  have hmoves := formatSet_of_moves (x := capture lib operation)
    (fun R _ => capture_moves lib operation) hs
  rwa [h] at hmoves

private theorem created_holds {past : List Served} {e : Served} {credentials : Credentials}
    {v : Visit} {client : Instance} {b : Bool} {calls : List Call}
    (hcontent : e.output.response.contentType ≠ some (ascii "image/jpeg"))
    (hevents : e.output.events = .created credentials :: calls.map .called)
    (hrun : spinProgram.run (Instance.new credentials v).session = .ok b client.session) :
    CacheHolds (past ++ [e]) (some client) := by
  intro client' hclient
  cases hclient
  constructor
  · rw [lastImage_append, Answer.imageAfter, if_neg hcontent, hevents]
    exact spinProgram_sameImage.of_ok hrun
  · exact spinProgram_formatSet (Or.inl rfl) hrun

private theorem answered_cacheHolds {lib : Platform} {v : Visit} {cache : Option Instance}
    {answer : Answer} {after : Option (Option Instance)} {past : List Served} {e : Served}
    (h : Answered lib v cache answer after) (houtput : e.output = answer)
    (hholds : CacheHolds past cache) {cache' : Option Instance} (hafter : after = some cache') :
    CacheHolds (past ++ [e]) cache' := by
  cases h with
  | declined =>
    cases hafter
    intro client hclient
    rw [lastImage_append, houtput]
    exact hholds client hclient
  | refused => cases hafter; exact nofun
  | opened _ _ hrun =>
    cases hafter
    have hcontent : some (ascii "text/html") ≠ some (ascii "image/jpeg") := by decide
    exact created_holds (by rw [houtput]; exact hcontent) (by rw [houtput]) hrun
  | failed k _ _ hrun =>
    cases hafter
    exact created_holds (by rw [houtput]; exact nofun) (by rw [houtput]) hrun
  | loggedOut => cases hafter; exact nofun
  | @shown operation client client' _ _ _ hrun =>
    cases hafter
    intro client'' hclient
    cases hclient
    rw [throwProgram_eq] at hrun
    obtain ⟨s, hoperate, hcapture⟩ := of_require_true hrun
    constructor
    · rw [lastImage_append, houtput]
      exact (if_pos rfl).symm
    · exact capture_formatSet (operateProgram_formatSet (hholds client rfl).2 hoperate) hcapture
  | @notOperated operation client client' _ _ _ hrun =>
    cases hafter
    intro client'' hclient
    cases hclient
    obtain ⟨himage, hformat⟩ := hholds client rfl
    constructor
    · rw [lastImage_append, houtput]
      exact ((operateProgram_sameImage lib _ operation).of_ok hrun).trans himage
    · exact operateProgram_formatSet hformat hrun
  | @notCaptured operation client client' s _ _ _ hoperate hrun =>
    cases hafter
    intro client'' hclient
    cases hclient
    constructor
    · have hclears : ((throwCalls v.request operation).map Event.called).any Event.clears = true := by
        rw [throwCalls]
        split
        · rfl
        · rfl
      rw [lastImage_append, houtput, capture_failed hrun]
      simp only [Answer.imageAfter, hclears]
      rfl
    · exact capture_formatSet (operateProgram_formatSet (hholds client rfl).2 hoperate) hrun
  | stopped => cases hafter

private theorem serve_cacheHolds {lib : Platform} {visits : List Visit} {past rest : List Served}
    {e : Served} (h : serve lib visits = past ++ e :: rest) : CacheHolds past e.before := by
  apply runFrom_history CacheHolds _ _ h
  · exact nofun
  · intro past' e' he' hholds cache' hafter
    exact answered_cacheHolds (serve_answered he') rfl hholds hafter

private theorem answered_shown {lib : Platform} {v : Visit} {client : Instance} {answer : Answer}
    {after : Option (Option Instance)} (h : Answered lib v (some client) answer after)
    {operation : VncOperation} (hquery : mrhcQuery v.request = .ok operation)
    (hok : answer.status = some .ok) :
    ∃ (client' : Instance) (s : Session), after = some (some client') ∧
      answer.response = Response.jpeg client'.session.client.jpegBuf ∧
      (operateProgram (v.platform lib) v.request operation).run client.session = .ok true s ∧
      (capture (v.platform lib) operation).run s = .ok true client'.session := by
  cases h with
  | declined => cases hok
  | loggedOut => cases hok
  | shown _ _ hquery' hrun =>
    obtain rfl := Except.ok.inj (hquery.symm.trans hquery')
    rw [throwProgram_eq] at hrun
    obtain ⟨s, hoperate, hcapture⟩ := of_require_true hrun
    exact ⟨_, s, rfl, rfl, hoperate, hcapture⟩
  | notOperated => cases hok
  | notCaptured => cases hok
  | stopped => cases hok

private theorem served_shown {lib : Platform} {visits : List Visit} {past rest : List Served}
    {e : Served} (h : serve lib visits = past ++ e :: rest) {client : Instance}
    (hclient : e.before = some client) {operation : VncOperation}
    (hquery : mrhcQuery e.input.request = .ok operation) (hok : e.output.status = some .ok) :
    ∃ (client' : Instance) (s : Session), e.after = some (some client') ∧
      e.output.response = Response.jpeg client'.session.client.jpegBuf ∧
      (operateProgram (e.input.platform lib) e.input.request operation).run client.session =
        .ok true s ∧
      (capture (e.input.platform lib) operation).run s = .ok true client'.session := by
  have he : e ∈ serve lib visits := by
    rw [h]
    exact List.mem_append_right _ List.mem_cons_self
  have hanswered := serve_answered he
  rw [hclient] at hanswered
  exact answered_shown hanswered hquery hok

/-- An operation sends events, and does nothing else. -/
private def OnlySends (s t : Session) : Prop :=
  t.client = s.client ∧ t.conn.input = s.conn.input

private instance : SendFrame OnlySends where
  refl := fun _ => ⟨rfl, rfl⟩
  trans := fun _ _ _ h h' => ⟨h'.1.trans h.1, h'.2.trans h.2⟩
  send := by
    intro s message
    have hstream := congrArg Socket.input (s.conn.send_stream message)
    exact ⟨rfl, hstream⟩

private theorem operateProgram_onlySends (lib : Platform) (r : Request)
    (operation : VncOperation) : Moves OnlySends (operateProgram lib r operation) :=
  Moves.ite (Moves.pure true) (operate_moves lib operation)

/-- A key press is answered with the image that the session has answered last. -/
theorem serve_repeatsImage {lib : Platform} {visits : List Visit} {past rest : List Served}
    {e : Served} (h : serve lib visits = past ++ e :: rest) (hsession : e.before ≠ none)
    {operation : VncOperation} (hquery : mrhcQuery e.input.request = .ok operation)
    (hkey : operation.key ≠ []) (hok : e.output.status = some .ok) :
    e.output.response = Response.jpeg (lastImage past) := by
  obtain ⟨client, hclient⟩ := Option.ne_none_iff_exists'.mp hsession
  obtain ⟨client', s, hafter, hresponse, hoperate, hcapture⟩ := served_shown h hclient hquery hok
  rw [capture_key hkey] at hcapture
  cases hcapture
  have hsame := (operateProgram_sameImage (e.input.platform lib) e.input.request operation).of_ok
    hoperate
  have himage : client'.session.client.jpegBuf = lastImage past :=
    Eq.trans hsame (serve_cacheHolds h client hclient).1
  rw [hresponse, himage]

/-- Someone logs in to a screen of one pixel, looks at it and presses a key. -/
def pixelVisits : List Visit :=
  [acceptedLogin pixelUpdateBytes [], stranger, actionVisit (.press (ascii "Enter"))]

private theorem serve_pixelVisits :
    (serve bluePlatform pixelVisits).map (fun e =>
      (e.before.isSome, (mrhcQuery e.input.request).toOption, e.output.status,
        e.output.imageAfter [])) =
      [(false, some VncOperation.zero, some .ok, []),
        (true, some VncOperation.zero, some .ok, [1]),
        (true, some ⟨0, 0, 0, ascii "Enter"⟩, some .ok, [1])] := by
  decide +kernel

private theorem ok_of_toOption {α : Type} {x : Except Stop α} {a : α} (h : x.toOption = some a) :
    x = .ok a := by
  cases x with
  | error e => cases h
  | ok b => exact congrArg Except.ok (Option.some.inj h)

theorem serve_repeatsImage_pixel :
    ∃ e₁ e₂ e₃, serve bluePlatform pixelVisits = [e₁, e₂, e₃] ∧
      e₃.output.response = Response.jpeg (lastImage [e₁, e₂]) ∧ lastImage [e₁, e₂] = [1] := by
  obtain ⟨e₁, e₂, e₃, hserve, h₁, h₂, h₃⟩ := eq_triple_of_map serve_pixelVisits
  simp only [Prod.mk.injEq] at h₁ h₂ h₃
  have hsession : e₃.before ≠ none := by
    intro hnone
    rw [hnone] at h₃
    cases h₃.1
  have hkey : (⟨0, 0, 0, ascii "Enter"⟩ : VncOperation).key ≠ [] := by decide
  refine ⟨e₁, e₂, e₃, hserve, ?_, ?_⟩
  · exact @serve_repeatsImage bluePlatform pixelVisits [e₁, e₂] [] e₃ hserve hsession _
      (ok_of_toOption h₃.2.1) hkey h₃.2.2.1
  · have hlast : lastImage [e₁, e₂] = e₂.output.imageAfter (e₁.output.imageAfter []) := rfl
    rw [hlast, h₁.2.2.2]
    exact h₂.2.2.2

/-- Every other image shows pixels that were decoded from what the session has received during this
very request, whatever has been received and shown before. Only a position that they do not reach
shows what lies behind the buffer. -/
theorem serve_freshImage {lib : Platform} (hbox : lib.FillsBox) {visits : List Visit}
    {past rest : List Served} {e : Served} (h : serve lib visits = past ++ e :: rest)
    {client : Instance} (hclient : e.before = some client) {operation : VncOperation}
    (hquery : mrhcQuery e.input.request = .ok operation) (hkey : operation.key = [])
    (hok : e.output.status = some .ok) :
    ∃ (client' : Instance) (received : Bytes) (pixels : List UInt32) (image : Mat),
      e.after = some (some client') ∧
      client.session.conn.input = received ++ client'.session.conn.input ∧
      DecodedFrom pixels received ∧
      client.session.client.Pictures (e.input.platform lib) pixels image ∧
      e.output.response = Response.jpeg (lib.imencode (image.marked lib operation)) := by
  obtain ⟨client', s, hafter, hresponse, hoperate, hcapture⟩ := served_shown h hclient hquery hok
  obtain ⟨hsame, hinput⟩ :=
    (operateProgram_onlySends (e.input.platform lib) e.input.request operation).of_ok hoperate
  have hformat : s.client.FormatSet := by
    rw [hsame]
    exact (serve_cacheHolds h client hclient).2
  obtain ⟨received, pixels, image, hreceived, hdecoded, hpictures, hjpeg⟩ :=
    capture_fresh (e.input.platform_fillsBox hbox) hformat hkey hcapture
  rw [hinput] at hreceived
  rw [hsame] at hpictures
  refine ⟨client', received, pixels, image, hafter, hreceived, hdecoded, hpictures, ?_⟩
  rw [hresponse, hjpeg]
  rfl

theorem serve_freshImage_pixel :
    ∃ e₁ e₂ e₃, serve bluePlatform pixelVisits = [e₁, e₂, e₃] ∧
      ∃ (client client' : Instance) (received : Bytes) (pixels : List UInt32) (image : Mat),
        e₂.before = some client ∧ e₂.after = some (some client') ∧
        client.session.conn.input = received ++ client'.session.conn.input ∧
        DecodedFrom pixels received ∧
        client.session.client.Pictures (e₂.input.platform bluePlatform) pixels image ∧
        e₂.output.response =
          Response.jpeg (bluePlatform.imencode (image.marked bluePlatform VncOperation.zero)) := by
  obtain ⟨e₁, e₂, e₃, hserve, -, h₂, -⟩ := eq_triple_of_map serve_pixelVisits
  simp only [Prod.mk.injEq] at h₂
  obtain ⟨client, hclient⟩ := Option.isSome_iff_exists.mp h₂.1
  refine ⟨e₁, e₂, e₃, hserve, client, ?_⟩
  obtain ⟨client', received, pixels, image, hshown⟩ :=
    @serve_freshImage bluePlatform (fun _ _ _ _ _ _ => rfl) pixelVisits [e₁] [e₃] e₂ hserve client
      hclient _ (ok_of_toOption h₂.2.1) rfl h₂.2.2.1
  exact ⟨client', received, pixels, image, hclient, hshown⟩

end Mrhc
