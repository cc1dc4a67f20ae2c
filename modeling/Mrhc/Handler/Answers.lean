import Mrhc.Handler.Requests

/-!
# Answers

What the browser gets for a request, with the calls that were made for it and the session that
they left. An answer is a refusal, or one document.
-/

namespace Mrhc

namespace Response

/-- The answer with `HTTP_UNAUTHORIZED`. -/
def refusal : Response := ⟨some (ascii "Basic real=\"\""), none, []⟩

def page (html : Bytes) : Response := ⟨none, some (ascii "text/html"), html⟩

/-- The handler sets no content type for an error page. -/
def errorPage (html : Bytes) : Response := ⟨none, none, html⟩

def jpeg (image : Bytes) : Response := ⟨none, some (ascii "image/jpeg"), image⟩

end Response

/-- The message of the error page after a failed `mrhc_spin`. -/
def spinFailure : Bytes := ascii "failed to mrhc, please try again."

/-- The part of `mrhc_throw` before the capture. -/
def operateProgram (lib : Platform) (r : Request) (operation : VncOperation) : ClientM Bool :=
  if r.query = none then pure true else operate lib operation

theorem throwProgram_eq (lib : Platform) (r : Request) (operation : VncOperation) :
    throwProgram lib r operation =
      require (operateProgram lib r operation) (capture lib operation) := by
  rw [throwProgram, operateProgram]
  split
  · rfl
  · rfl

/-- Where a request can stop the process. -/
inductive Stops (lib : Platform) (v : Visit) : Option Instance → Prop where
  | credentials {e : Stop} (hcredentials :
      apGetVncParamByBasicAuthComponents lib v.request = .error e) : Stops lib v none
  | opening {credentials : Credentials} {e : Stop} {s : Session}
    (hcredentials : v.request.credentials lib = some credentials)
    (hrun : spinProgram.run (Instance.new credentials v).session = .error e s) : Stops lib v none
  | page {credentials : Credentials} {b : Bool} {s : Session}
    (hcredentials : v.request.credentials lib = some credentials)
    (hrun : spinProgram.run (Instance.new credentials v).session = .ok b s)
    (hhost : v.request.hostname = none) : Stops lib v none
  | query {client : Instance} {e : Stop} (hconfirm : mrhcConfirm v.request = true)
    (hquery : mrhcQuery v.request = .error e) : Stops lib v (some client)
  | throwing {operation : VncOperation} {client : Instance} {e : Stop} {s : Session}
    (hconfirm : mrhcConfirm v.request = true) (hquery : mrhcQuery v.request = .ok operation)
    (hrun : (throwProgram (v.platform lib) v.request operation).run client.session = .error e s) :
    Stops lib v (some client)

/-- All that the handler can answer, and what it leaves of the session. -/
inductive Answered (lib : Platform) (v : Visit) :
    Option Instance → Answer → Option (Option Instance) → Prop where
  | declined (cache : Option Instance) (haddressed : ¬v.request.Addressed) :
    Answered lib v cache ⟨some .declined, Response.empty, []⟩ (some cache)
  | refused (haddressed : v.request.Addressed) (hcredentials : v.request.credentials lib = none) :
    Answered lib v none ⟨some .unauthorized, Response.refusal, []⟩ (some none)
  | opened {credentials : Credentials} {client : Instance} {html : Bytes}
    (haddressed : v.request.Addressed) (hcredentials : v.request.credentials lib = some credentials)
    (hrun : spinProgram.run (Instance.new credentials v).session = .ok true client.session)
    (hpage : mrhcHtml v.request client.session.client = .ok html) :
    Answered lib v none
      ⟨some .ok, Response.page html, .created credentials :: spinCalls.map .called⟩
      (some (some client))
  | failed {credentials : Credentials} {client : Instance} {html : Bytes} (k : Nat)
    (haddressed : v.request.Addressed) (hcredentials : v.request.credentials lib = some credentials)
    (hrun : spinProgram.run (Instance.new credentials v).session = .ok false client.session)
    (hpage : mrhcError v.request spinFailure = .ok html) :
    Answered lib v none
      ⟨some .ok, Response.errorPage html,
        .created credentials :: (spinCalls.take (k + 1)).map .called⟩ (some (some client))
  | loggedOut (client : Instance) (haddressed : v.request.Addressed)
    (hconfirm : mrhcConfirm v.request = false) :
    Answered lib v (some client) ⟨some .unauthorized, Response.refusal, []⟩ (some none)
  | shown {operation : VncOperation} {client client' : Instance}
    (haddressed : v.request.Addressed) (hconfirm : mrhcConfirm v.request = true)
    (hquery : mrhcQuery v.request = .ok operation)
    (hrun : (throwProgram (v.platform lib) v.request operation).run client.session =
      .ok true client'.session) :
    Answered lib v (some client)
      ⟨some .ok, Response.jpeg client'.session.client.jpegBuf,
        (throwCalls v.request operation).map .called⟩ (some (some client'))
  | notOperated {operation : VncOperation} {client client' : Instance}
    (haddressed : v.request.Addressed) (hconfirm : mrhcConfirm v.request = true)
    (hquery : mrhcQuery v.request = .ok operation)
    (hrun : (operateProgram (v.platform lib) v.request operation).run client.session =
      .ok false client'.session) :
    Answered lib v (some client)
      ⟨some .unauthorized, Response.refusal, [.called (.operate operation)]⟩ (some (some client'))
  | notCaptured {operation : VncOperation} {client client' : Instance} {s : Session}
    (haddressed : v.request.Addressed) (hconfirm : mrhcConfirm v.request = true)
    (hquery : mrhcQuery v.request = .ok operation)
    (hoperate : (operateProgram (v.platform lib) v.request operation).run client.session =
      .ok true s)
    (hrun : (capture (v.platform lib) operation).run s = .ok false client'.session) :
    Answered lib v (some client)
      ⟨some .unauthorized, Response.refusal, (throwCalls v.request operation).map .called⟩
      (some (some client'))
  | stopped {cache : Option Instance} {response : Response} {events : List Event}
    (haddressed : v.request.Addressed) (hstops : Stops lib v cache) :
    Answered lib v cache ⟨none, response, events⟩ none

/-! What is written after the calls. -/

/-- A sequence of calls answers only when it returns `true`, and leaves the cache to its caller. -/
structure Replies (reply : Instance → Response → Response → Prop)
    (x : HandlerM (Bool × Instance)) : Prop where
  cache : ∀ {w b client w'}, x.run w = .ok (b, client) w' → w'.clientCache = w.clientCache
  silent : ∀ {w client w'}, x.run w = .ok (false, client) w' → w'.response = w.response
  replies : ∀ {w client w'}, x.run w = .ok (true, client) w' → reply client w.response w'.response

section

variable {reply : Instance → Response → Response → Prop} {call : Call} {body : ClientM Bool}
  {rest : Instance → HandlerM (Bool × Instance)}

private theorem checkedCall_cases {client client' : Instance} {b : Bool} {w w' : World}
    (h : (checkedCall call body rest client).run w = .ok (b, client') w') :
    (b = false ∧ body.run client.session = .ok false client'.session ∧
        w' = w.logged (.called call)) ∨
      ∃ client'' : Instance, body.run client.session = .ok true client''.session ∧
        (rest client'').run (w.logged (.called call)) = .ok (b, client') w' := by
  rcases hbody : body.run client.session with ⟨_ | _, s⟩ | ⟨e, s⟩
  · rw [checkedCall_false rest hbody] at h
    cases h
    exact Or.inl ⟨rfl, rfl, rfl⟩
  · rw [checkedCall_true rest hbody] at h
    exact Or.inr ⟨client.after call true s, rfl, h⟩
  · rw [checkedCall_error rest hbody] at h
    cases h

theorem Replies.checked (hrest : ∀ client, Replies reply (rest client)) (client : Instance) :
    Replies reply (checkedCall call body rest client) where
  cache := by
    intro w b client' w' h
    rcases checkedCall_cases h with ⟨-, -, rfl⟩ | ⟨client'', -, h⟩
    · rfl
    · have hsame := (hrest client'').cache h
      exact hsame
  silent := by
    intro w client' w' h
    rcases checkedCall_cases h with ⟨-, -, rfl⟩ | ⟨client'', -, h⟩
    · rfl
    · have hsame := (hrest client'').silent h
      exact hsame
  replies := by
    intro w client' w' h
    rcases checkedCall_cases h with ⟨hfalse, -, -⟩ | ⟨client'', -, h⟩
    · cases hfalse
    · have hsame := (hrest client'').replies h
      exact hsame

end

/-- The page of a client that has been spun is written. -/
def PageReply (r : Request) (client : Instance) (before after : Response) : Prop :=
  ∃ html, mrhcHtml r client.session.client = .ok html ∧
    after = { before with contentType := some (ascii "text/html"), body := before.body ++ html }

private theorem spinPage_replies (r : Request) (client : Instance) :
    Replies (PageReply r) (spinPage r client) := by
  have hrun : ∀ {w : World} {b client' w'}, (spinPage r client).run w = .ok (b, client') w' →
      ∃ html, mrhcHtml r client.session.client = .ok html ∧ b = true ∧ client' = client ∧
        w' = { w with response := { w.response with
          contentType := some (ascii "text/html"), body := w.response.body ++ html } } := by
    intro w b client' w' h
    have htype : (setContentType (ascii "text/html")).run w =
        .ok () { w with response := { w.response with contentType := some (ascii "text/html") } } :=
      rfl
    cases hpage : mrhcHtml r client.session.client with
    | error e =>
      rw [spinPage, bind_ok htype, bind_error (lift_error hpage)] at h
      cases h
    | ok html =>
      rw [spinPage, bind_ok htype, bind_ok (lift_ok hpage)] at h
      cases h
      exact ⟨html, rfl, rfl, rfl, rfl⟩
  constructor
  · intro w b client' w' h
    obtain ⟨html, hpage, rfl, rfl, rfl⟩ := hrun h
    rfl
  · intro w client' w' h
    obtain ⟨html, hpage, hfalse, rfl, rfl⟩ := hrun h
    cases hfalse
  · intro w client' w' h
    obtain ⟨html, hpage, -, rfl, rfl⟩ := hrun h
    exact ⟨html, hpage, rfl⟩

private theorem mrhcSpin_replies (r : Request) (client : Instance) :
    Replies (PageReply r) (mrhcSpin client r) := by
  rw [mrhcSpin_eq]
  exact Replies.checked (Replies.checked (Replies.checked (spinPage_replies r))) client

/-- The last image of a client is written. -/
def ImageReply (client : Instance) (before after : Response) : Prop :=
  after = { before with
    contentType := some (ascii "image/jpeg"), body := before.body ++ client.session.client.jpegBuf }

private theorem throwImage_replies (client : Instance) :
    Replies ImageReply (throwImage client) := by
  constructor
  · intro w b client' w' h
    cases h
    rfl
  · intro w client' w' h
    cases h
  · intro w client' w' h
    cases h
    rfl

private theorem throwCapture_replies (lib : Platform) (operation : VncOperation)
    (client : Instance) : Replies ImageReply (throwCapture lib operation client) :=
  Replies.checked throwImage_replies client

private theorem mrhcThrow_replies (lib : Platform) {r : Request} {operation : VncOperation}
    (client : Instance) (hoperation : mrhcQuery r = .ok operation) :
    Replies ImageReply (mrhcThrow lib client r) := by
  by_cases hquery : r.query = none
  · rw [mrhcThrow, if_pos hquery]
    exact throwCapture_replies lib VncOperation.zero client
  · have hthrow : mrhcThrow lib client r =
        checkedCall (.operate operation) (operate lib operation) (throwCapture lib operation)
          client := by
      rw [mrhcThrow, if_neg hquery, hoperation]
      rfl
    rw [hthrow]
    exact Replies.checked (throwCapture_replies lib operation) client

private theorem throwCapture_failed {lib : Platform} {operation : VncOperation}
    {client client' : Instance} {w w' : World}
    (h : (throwCapture lib operation client).run w = .ok (false, client') w') :
    (capture lib operation).run client.session = .ok false client'.session ∧
      w' = w.logged (.called (.capture operation)) := by
  have hcall : throwCapture lib operation client =
      checkedCall (.capture operation) (capture lib operation) throwImage client := rfl
  rw [hcall] at h
  rcases checkedCall_cases h with ⟨-, hbody, hw⟩ | ⟨client'', -, himage⟩
  · exact ⟨hbody, hw⟩
  · cases himage

private theorem mrhcThrow_failed {lib : Platform} {r : Request} {operation : VncOperation}
    {client client' : Instance} {w w' : World} (hoperation : mrhcQuery r = .ok operation)
    (h : (mrhcThrow lib client r).run w = .ok (false, client') w') :
    ((operateProgram lib r operation).run client.session = .ok false client'.session ∧
        w' = w.logged (.called (.operate operation))) ∨
      ∃ s, (operateProgram lib r operation).run client.session = .ok true s ∧
        (capture lib operation).run s = .ok false client'.session ∧
        w'.events = w.events ++ (throwCalls r operation).map .called := by
  by_cases hquery : r.query = none
  · obtain rfl : operation = VncOperation.zero := by
      simp only [mrhcQuery, hquery, Except.ok.injEq] at hoperation
      exact hoperation.symm
    rw [mrhcThrow, if_pos hquery] at h
    obtain ⟨hcapture, rfl⟩ := throwCapture_failed h
    rw [operateProgram, throwCalls, if_pos hquery, if_pos hquery]
    exact Or.inr ⟨client.session, rfl, hcapture, rfl⟩
  · have hthrow : mrhcThrow lib client r =
        checkedCall (.operate operation) (operate lib operation) (throwCapture lib operation)
          client := by
      rw [mrhcThrow, if_neg hquery, hoperation]
      rfl
    rw [hthrow] at h
    rw [operateProgram, throwCalls, if_neg hquery, if_neg hquery]
    rcases checkedCall_cases h with ⟨-, hoperate, hw⟩ | ⟨client'', hoperate, hcapture⟩
    · exact Or.inl ⟨hoperate, hw⟩
    · obtain ⟨hbody, rfl⟩ := throwCapture_failed hcapture
      refine Or.inr ⟨client''.session, hoperate, hbody, ?_⟩
      simp [World.logged]

/-! The paths of the handler. -/

/-- The answer to a visit that found this cache. -/
private def Gives (lib : Platform) (v : Visit) (cache : Option Instance)
    (result : EStateM.Result Stop World Status) : Prop :=
  match result with
  | .ok status w => Answered lib v cache ⟨some status, w.response, w.events⟩ (some w.clientCache)
  | .error _ w => Answered lib v cache ⟨none, w.response, w.events⟩ none

private theorem hostless_of_mrhcError {r : Request} {message : Bytes} {e : Stop}
    (h : mrhcError r message = .error e) : r.hostname = none := by
  cases hhost : r.hostname with
  | none => rfl
  | some hostname =>
    rw [mrhcError, Request.location, hhost] at h
    cases h

private theorem mrhcSpin_stops {lib : Platform} {v : Visit} {credentials : Credentials}
    (hcredentials : v.request.credentials lib = some credentials) {w w' : World} {e : Stop}
    (hrun : (mrhcSpin (Instance.new credentials v) v.request).run w = .error e w') :
    Stops lib v none := by
  have hspin := mrhcSpin_outcome v.request (Instance.new credentials v) w
  have htrue := mrhcSpin_true_iff v.request (Instance.new credentials v) w
  rw [hrun] at hspin htrue
  rcases hprogram : spinProgram.run (Instance.new credentials v).session with ⟨b, s⟩ | ⟨e', s⟩
  · refine .page hcredentials hprogram ?_
    by_contra hhost
    cases b with
    | false =>
      cases hspin with
      | stopped k hnot => exact hnot s hprogram
    | true =>
      obtain ⟨client', w'', hcontra⟩ := htrue.mpr ⟨⟨s, hprogram⟩, hhost⟩
      cases hcontra
  · exact .opening hcredentials hprogram

private theorem mrhcThrow_stops {lib : Platform} {v : Visit} {operation : VncOperation}
    {client : Instance} (hconfirm : mrhcConfirm v.request = true)
    (hquery : mrhcQuery v.request = .ok operation) {w w' : World} {e : Stop}
    (hrun : (mrhcThrow (v.platform lib) client v.request).run w = .error e w') :
    Stops lib v (some client) := by
  have hthrow := mrhcThrow_outcome (v.platform lib) client hquery w
  have htrue := mrhcThrow_true_iff (v.platform lib) client hquery w
  rw [hrun] at hthrow htrue
  rcases hprogram : (throwProgram (v.platform lib) v.request operation).run client.session with
    ⟨_ | _, s⟩ | ⟨e', s⟩
  · cases hthrow with
    | stopped k hnot => exact absurd hprogram (hnot s)
  · obtain ⟨client', w'', hcontra⟩ := htrue.mpr ⟨s, hprogram⟩
    cases hcontra
  · exact .throwing hconfirm hquery hprogram

private theorem all_made {calls : List Call} {results : List (Call × Bool)} {k : Nat}
    (hmade : results.map Prod.fst = calls.take (k + 1))
    (hall : results = calls.map fun call => (call, true)) : calls.take (k + 1) = calls := by
  rw [← hmade, hall, List.map_map]
  exact List.map_id calls

private theorem createPath_gives {lib : Platform} {v : Visit} {credentials : Credentials}
    (haddressed : v.request.Addressed)
    (hcredentials : v.request.credentials lib = some credentials) :
    Gives lib v none ((createPath v credentials).run ⟨none, Response.empty, []⟩) := by
  let created : World := ⟨none, Response.empty, [.created credentials]⟩
  have hnew : (newVncClient credentials v).run ⟨none, Response.empty, []⟩ =
      .ok (Instance.new credentials v) created := rfl
  have hspin := mrhcSpin_outcome v.request (Instance.new credentials v) created
  have hreplies := mrhcSpin_replies v.request (Instance.new credentials v)
  rw [createPath, bind_ok hnew]
  cases hrun : (mrhcSpin (Instance.new credentials v) v.request).run created with
  | error e w =>
    rw [bind_error hrun]
    exact .stopped haddressed (mrhcSpin_stops hcredentials hrun)
  | ok result w =>
    obtain ⟨b, client⟩ := result
    rw [hrun] at hspin
    rw [bind_ok hrun]
    cases hspin with
    | returned k results hprogram hreturned hmade htrue hevents =>
      cases b with
      | true =>
        obtain ⟨html, hpage, hresponse⟩ := hreplies.replies hrun
        rw [all_made hmade (htrue.mp rfl)] at hevents
        have hopened := Answered.opened haddressed hcredentials hprogram hpage
        rw [show Response.page html = w.response from hresponse.symm,
          show .created credentials :: spinCalls.map .called = w.events from hevents.symm]
          at hopened
        exact hopened
      | false =>
        have hresponse : w.response = Response.empty := hreplies.silent hrun
        cases hpage : mrhcError v.request spinFailure with
        | error e =>
          have hkeep : (keepClient v.request false client).run w = .error e w :=
            bind_error (lift_error hpage) _
          rw [hkeep]
          exact .stopped haddressed (.page hcredentials hprogram (hostless_of_mrhcError hpage))
        | ok html =>
          have hkeep : (keepClient v.request false client).run w =
              .ok .ok { w with clientCache := some client, response := Response.errorPage html } := by
            have hbody : ({ w.response with body := w.response.body ++ html } : Response) =
                Response.errorPage html := by
              rw [hresponse]
              rfl
            rw [← hbody]
            exact bind_ok (lift_ok hpage) _
          have hfailed := Answered.failed k haddressed hcredentials hprogram hpage
          rw [show .created credentials :: (spinCalls.take (k + 1)).map .called = w.events from
            hevents.symm] at hfailed
          rw [hkeep]
          exact hfailed

private theorem loginPath_gives {lib : Platform} {v : Visit} (haddressed : v.request.Addressed) :
    Gives lib v none ((loginPath lib v).run ⟨none, Response.empty, []⟩) := by
  rw [loginPath]
  cases hret : apGetVncParamByBasicAuthComponents lib v.request with
  | error e =>
    rw [bind_error (lift_error rfl)]
    exact .stopped haddressed (.credentials hret)
  | ok result =>
    obtain ⟨status, credentials⟩ := result
    rw [bind_ok (lift_ok rfl)]
    cases status with
    | einval => exact .refused haddressed (by simp [Request.credentials, hret])
    | success => exact createPath_gives haddressed (by simp [Request.credentials, hret])

private theorem cachedPath_gives {lib : Platform} {v : Visit} (client : Instance)
    (haddressed : v.request.Addressed) :
    Gives lib v (some client)
      ((cachedPath lib v client).run ⟨some client, Response.empty, []⟩) := by
  rw [cachedPath]
  cases hconfirm : mrhcConfirm v.request with
  | false => exact .loggedOut client haddressed hconfirm
  | true =>
    simp only [Bool.not_true, Bool.false_eq_true, if_false]
    cases hquery : mrhcQuery v.request with
    | error e =>
      rw [bind_error (mrhcThrow_badQuery hquery)]
      exact .stopped haddressed (.query hconfirm hquery)
    | ok operation =>
      have hthrow := mrhcThrow_outcome (v.platform lib) client hquery
        ⟨some client, Response.empty, []⟩
      have hreplies := mrhcThrow_replies (v.platform lib) client hquery
      cases hrun : (mrhcThrow (v.platform lib) client v.request).run
        ⟨some client, Response.empty, []⟩ with
      | error e w =>
        rw [bind_error hrun]
        exact .stopped haddressed (mrhcThrow_stops hconfirm hquery hrun)
      | ok result w =>
        obtain ⟨b, client'⟩ := result
        rw [hrun] at hthrow
        rw [bind_ok hrun]
        cases hthrow with
        | returned k results hprogram hreturned hmade htrue hevents =>
          rw [List.nil_append] at hevents
          cases b with
          | true =>
            have hresponse : w.response = _ := hreplies.replies hrun
            rw [all_made hmade (htrue.mp rfl)] at hevents
            have hshown := Answered.shown haddressed hconfirm hquery hprogram
            rw [← hevents, show Response.jpeg client'.session.client.jpegBuf = w.response from
              hresponse.symm] at hshown
            exact hshown
          | false =>
            have hrefused : ({ w.response with
                wwwAuthenticate := some (ascii "Basic real=\"\"") } : Response) =
                Response.refusal := by
              rw [show w.response = Response.empty from hreplies.silent hrun]
              rfl
            have hgives : ∀ events, Answered lib v (some client)
                ⟨some .unauthorized, Response.refusal, events⟩ (some (some client')) →
                w.events = events → Gives lib v (some client)
                  (.ok .unauthorized { w with
                    clientCache := some client'
                    response := { w.response with
                      wwwAuthenticate := some (ascii "Basic real=\"\"") } }) := by
              intro events hanswered hsame
              rw [hrefused]
              subst hsame
              exact hanswered
            rcases mrhcThrow_failed hquery hrun with ⟨hoperate, hw⟩ | ⟨s, hoperate, hcapture, hw⟩
            · exact hgives _ (.notOperated haddressed hconfirm hquery hoperate) (by rw [hw]; rfl)
            · exact hgives _ (.notCaptured haddressed hconfirm hquery hoperate hcapture) hw

/-- The handler answers nothing else. -/
theorem handleVisit_answered (lib : Platform) (cache : Option Instance) (v : Visit) :
    Answered lib v cache (handleVisit lib cache v).1 (handleVisit lib cache v).2 := by
  have hgives : Gives lib v cache ((mrhcHandler lib v).run ⟨cache, Response.empty, []⟩) := by
    by_cases haddressed : v.request.Addressed
    · rw [mrhcHandler_addressed haddressed]
      cases cache with
      | none => exact loginPath_gives haddressed
      | some client => exact cachedPath_gives client haddressed
    · rw [mrhcHandler_declined haddressed]
      exact .declined cache haddressed
  rw [handleVisit]
  cases hrun : (mrhcHandler lib v).run ⟨cache, Response.empty, []⟩ with
  | ok status w =>
    rw [hrun] at hgives
    exact hgives
  | error e w =>
    rw [hrun] at hgives
    exact hgives

theorem serve_answered {lib : Platform} {visits : List Visit}
    {e : Entry (Option Instance) Visit Answer} (he : e ∈ serve lib visits) :
    Answered lib e.input e.before e.output e.after := by
  rw [mem_runFrom he]
  exact handleVisit_answered lib e.before e.input

/-- A request whose calls return is answered, with the image if they return `true`, and one whose
calls stop has no answer. -/
theorem handleVisit_thrown (lib : Platform) {v : Visit} {operation : VncOperation}
    (client : Instance) (haddressed : v.request.Addressed)
    (hconfirm : mrhcConfirm v.request = true) (hquery : mrhcQuery v.request = .ok operation) :
    match (throwProgram (v.platform lib) v.request operation).run client.session with
    | .ok b s => ∃ (client' : Instance) (answer : Answer), client'.session = s ∧
        handleVisit lib (some client) v = (answer, some (some client')) ∧
        answer.status = some (if b then .ok else .unauthorized) ∧
        (b = true → answer =
          ⟨some .ok, Response.jpeg s.client.jpegBuf, (throwCalls v.request operation).map .called⟩)
    | .error _ _ => (handleVisit lib (some client) v).1.status = none ∧
        (handleVisit lib (some client) v).2 = none := by
  have hanswered := handleVisit_answered lib (some client) v
  generalize handleVisit lib (some client) v = result at hanswered ⊢
  obtain ⟨answer, after⟩ := result
  cases hanswered with
  | declined cache hdeclined => exact absurd haddressed hdeclined
  | loggedOut _ _ hlogout => rw [hconfirm] at hlogout; cases hlogout
  | shown _ _ hquery' hrun =>
    obtain rfl := Except.ok.inj (hquery.symm.trans hquery')
    rw [hrun]
    exact ⟨_, _, rfl, rfl, rfl, fun _ => rfl⟩
  | notOperated _ _ hquery' hoperate =>
    obtain rfl := Except.ok.inj (hquery.symm.trans hquery')
    rw [throwProgram_eq, require_false hoperate]
    refine ⟨_, _, rfl, rfl, rfl, fun hb => ?_⟩
    cases hb
  | notCaptured _ _ hquery' hoperate hcapture =>
    obtain rfl := Except.ok.inj (hquery.symm.trans hquery')
    rw [throwProgram_eq, require_true hoperate, hcapture]
    refine ⟨_, _, rfl, rfl, rfl, fun hb => ?_⟩
    cases hb
  | stopped _ hstops =>
    cases hstops with
    | query _ hquery' => rw [hquery] at hquery'; cases hquery'
    | throwing _ hquery' hrun =>
      obtain rfl := Except.ok.inj (hquery.symm.trans hquery')
      rw [hrun]
      exact ⟨rfl, rfl⟩

theorem handleVisit_shown {lib : Platform} {v : Visit} {operation : VncOperation}
    {client : Instance} {s : Session} (haddressed : v.request.Addressed)
    (hconfirm : mrhcConfirm v.request = true) (hquery : mrhcQuery v.request = .ok operation)
    (hrun : (throwProgram (v.platform lib) v.request operation).run client.session = .ok true s) :
    ∃ client' : Instance, client'.session = s ∧
      handleVisit lib (some client) v =
        (⟨some .ok, Response.jpeg s.client.jpegBuf, (throwCalls v.request operation).map .called⟩,
          some (some client')) := by
  have hthrown := handleVisit_thrown lib client haddressed hconfirm hquery
  rw [hrun] at hthrown
  obtain ⟨client', answer, hsession, hvisit, -, hanswer⟩ := hthrown
  exact ⟨client', hsession, by rw [hvisit, hanswer rfl]⟩

theorem handleVisit_badQuery (lib : Platform) {v : Visit} {e : Stop} (client : Instance)
    (haddressed : v.request.Addressed) (hconfirm : mrhcConfirm v.request = true)
    (hquery : mrhcQuery v.request = .error e) :
    (handleVisit lib (some client) v).1.status = none ∧
      (handleVisit lib (some client) v).2 = none := by
  have hanswered := handleVisit_answered lib (some client) v
  generalize handleVisit lib (some client) v = result at hanswered ⊢
  obtain ⟨answer, after⟩ := result
  cases hanswered with
  | declined cache hdeclined => exact absurd haddressed hdeclined
  | loggedOut _ _ hlogout => rw [hconfirm] at hlogout; cases hlogout
  | shown _ _ hquery' _ => rw [hquery] at hquery'; cases hquery'
  | notOperated _ _ hquery' _ => rw [hquery] at hquery'; cases hquery'
  | notCaptured _ _ hquery' _ _ => rw [hquery] at hquery'; cases hquery'
  | stopped _ _ => exact ⟨rfl, rfl⟩

/-- A request to log out is answered with the refusal that asks for credentials. -/
theorem handleVisit_logout (lib : Platform) {v : Visit} (client : Instance)
    (haddressed : v.request.Addressed) (hconfirm : mrhcConfirm v.request = false) :
    handleVisit lib (some client) v =
      (⟨some .unauthorized, Response.refusal, []⟩, some none) := by
  have hanswered := handleVisit_answered lib (some client) v
  generalize handleVisit lib (some client) v = result at hanswered ⊢
  obtain ⟨answer, after⟩ := result
  have hstays : ∀ {p : Prop}, mrhcConfirm v.request = true → p := by
    intro p htrue
    rw [hconfirm] at htrue
    cases htrue
  cases hanswered with
  | declined _ hdeclined => exact absurd haddressed hdeclined
  | loggedOut _ _ _ => rfl
  | shown _ htrue => exact hstays htrue
  | notOperated _ htrue => exact hstays htrue
  | notCaptured _ htrue => exact hstays htrue
  | stopped _ hstops =>
    cases hstops with
    | query htrue => exact hstays htrue
    | throwing htrue => exact hstays htrue

/-- A login whose opening returns is answered, with the page if it returns `true` and with the page
for a failure if not. -/
theorem handleVisit_spun {lib : Platform} {v : Visit} {credentials : Credentials} {b : Bool}
    {s : Session} (haddressed : v.request.Addressed)
    (hcredentials : v.request.credentials lib = some credentials)
    (hhost : v.request.hostname ≠ none)
    (hrun : spinProgram.run (Instance.new credentials v).session = .ok b s) :
    ∃ (client : Instance) (answer : Answer), client.session = s ∧
      handleVisit lib none v = (answer, some (some client)) ∧
      match b with
      | true => ∃ html, mrhcHtml v.request s.client = .ok html ∧
          answer =
            ⟨some .ok, Response.page html, .created credentials :: spinCalls.map .called⟩
      | false => ∃ html, mrhcError v.request spinFailure = .ok html ∧
          answer.status = some .ok ∧ answer.response = Response.errorPage html := by
  have hanswered := handleVisit_answered lib none v
  generalize handleVisit lib none v = result at hanswered ⊢
  obtain ⟨answer, after⟩ := result
  cases hanswered with
  | declined cache hdeclined => exact absurd haddressed hdeclined
  | refused _ hnone => rw [hcredentials] at hnone; cases hnone
  | opened _ hcredentials' hrun' hpage =>
    obtain rfl := Option.some.inj (hcredentials.symm.trans hcredentials')
    rw [hrun] at hrun'
    cases hrun'
    exact ⟨_, _, rfl, rfl, _, hpage, rfl⟩
  | failed k _ hcredentials' hrun' hpage =>
    obtain rfl := Option.some.inj (hcredentials.symm.trans hcredentials')
    rw [hrun] at hrun'
    cases hrun'
    exact ⟨_, _, rfl, rfl, _, hpage, rfl, rfl⟩
  | stopped _ hstops =>
    cases hstops with
    | credentials herror => simp [Request.credentials, herror] at hcredentials
    | opening hcredentials' hrun' =>
      obtain rfl := Option.some.inj (hcredentials.symm.trans hcredentials')
      rw [hrun] at hrun'
      cases hrun'
    | page _ _ hnone => exact absurd hnone hhost

theorem handleVisit_unauthenticated {lib : Platform} {v : Visit} {credentials : Credentials}
    {e : Stop} {s t : Session} (haddressed : v.request.Addressed)
    (hcredentials : v.request.credentials lib = some credentials)
    (hconnect : initializeClient.run (Instance.new credentials v).session = .ok true s)
    (hauthenticate : authenticate.run s = .error e t) :
    handleVisit lib none v =
      (⟨none, Response.empty,
        [.created credentials, .called .initializeClient, .called .authenticate]⟩, none) := by
  let created : World := ⟨none, Response.empty, [.created credentials]⟩
  let called := (created.logged (.called .initializeClient)).logged (.called .authenticate)
  have hread : apGetVncParamByBasicAuthComponents lib v.request = .ok (.success, credentials) := by
    rw [Request.credentials] at hcredentials
    split at hcredentials
    · next hok => rw [hok, Option.some.inj hcredentials]
    · cases hcredentials
  have hnew : (newVncClient credentials v).run ⟨none, Response.empty, []⟩ =
      .ok (Instance.new credentials v) created := rfl
  have hspin : (mrhcSpin (Instance.new credentials v) v.request).run created =
      .error e called := by
    rw [mrhcSpin_eq, checkedCall_true _ hconnect]
    exact checkedCall_error _ hauthenticate
  have hlogin : (loginPath lib v).run ⟨none, Response.empty, []⟩ = .error e called := by
    rw [loginPath, bind_ok (lift_ok hread)]
    exact (bind_ok hnew _).trans (bind_error hspin _)
  rw [handleVisit, mrhcHandler_addressed haddressed, hlogin]
  rfl

theorem handleVisit_opened {lib : Platform} {v : Visit} {credentials : Credentials} {s : Session}
    (haddressed : v.request.Addressed) (hcredentials : v.request.credentials lib = some credentials)
    (hhost : v.request.hostname ≠ none)
    (hrun : spinProgram.run (Instance.new credentials v).session = .ok true s) :
    ∃ (client : Instance) (html : Bytes), client.session = s ∧
      mrhcHtml v.request s.client = .ok html ∧
      handleVisit lib none v =
        (⟨some .ok, Response.page html, .created credentials :: spinCalls.map .called⟩,
          some (some client)) := by
  obtain ⟨client, answer, hsession, hvisit, html, hpage, rfl⟩ :=
    handleVisit_spun haddressed hcredentials hhost hrun
  exact ⟨client, html, hsession, hpage, hvisit⟩

end Mrhc
