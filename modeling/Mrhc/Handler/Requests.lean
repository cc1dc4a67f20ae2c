import Mrhc.Framework.Runs
import Mrhc.Handler.Outcomes

/-!
# Requests in sequence

All that the handler can do with one request, and the run of the handler over a list of requests.
-/

namespace Mrhc

/-- The request is meant for this handler and wants more than the header. -/
def Request.Addressed (r : Request) : Prop :=
  cString r.handler = ascii "mrhc" ∧ r.headerOnly = false

instance (r : Request) : Decidable r.Addressed := inferInstanceAs (Decidable (_ ∧ _))

/-- All that the handler can do with one request. -/
inductive Handled (lib : Platform) (v : Visit) :
    Option Instance → Option Status → List Event → Option (Option Instance) → Prop where
  | declined (cache : Option Instance) (haddressed : ¬v.request.Addressed) :
    Handled lib v cache (some .declined) [] (some cache)
  | refused (haddressed : v.request.Addressed) (hcredentials : v.request.credentials lib = none) :
    Handled lib v none (some .unauthorized) [] (some none)
  | unreadable (haddressed : v.request.Addressed)
    (hcredentials : v.request.credentials lib = none) : Handled lib v none none [] none
  | spun {credentials : Credentials} {client : Instance} {b : Bool} {calls : List Call}
    (haddressed : v.request.Addressed) (hcredentials : v.request.credentials lib = some credentials)
    (hrun : spinProgram.run (Instance.new credentials v).session = .ok b client.session)
    (hready : client.Ready ↔ b = true) (hpage : b = false → v.request.hostname ≠ none)
    (hcalls : ∀ call ∈ calls, call.opens = true) :
    Handled lib v none (some .ok)
      (.created credentials :: .called .initializeClient :: calls.map .called) (some (some client))
  | spinStopped {credentials : Credentials} {calls : List Call}
    (haddressed : v.request.Addressed) (hcredentials : v.request.credentials lib = some credentials)
    (hrun : v.request.hostname ≠ none →
      ∀ s, spinProgram.run (Instance.new credentials v).session ≠ .ok false s)
    (hcalls : ∀ call ∈ calls, call.opens = true) :
    Handled lib v none none
      (.created credentials :: .called .initializeClient :: calls.map .called) none
  | loggedOut (client : Instance) (haddressed : v.request.Addressed)
    (hconfirm : mrhcConfirm v.request = false) :
    Handled lib v (some client) (some .unauthorized) [] (some none)
  | badQuery {e : Stop} (client : Instance) (haddressed : v.request.Addressed)
    (hconfirm : mrhcConfirm v.request = true) (hquery : mrhcQuery v.request = .error e) :
    Handled lib v (some client) none [] none
  | thrown {operation : VncOperation} {client client' : Instance} {b : Bool} {call : Call}
    {calls : List Call} (haddressed : v.request.Addressed)
    (hconfirm : mrhcConfirm v.request = true) (hquery : mrhcQuery v.request = .ok operation)
    (hrun : (throwProgram (v.platform lib) v.request operation).run client.session =
      .ok b client'.session)
    (hreturned : client.returned <+: client'.returned)
    (hcalls : ∀ c ∈ call :: calls, c.opens = false) :
    Handled lib v (some client) (some (if b then .ok else .unauthorized))
      ((call :: calls).map .called) (some (some client'))
  | throwStopped {operation : VncOperation} {client : Instance} {call : Call} {calls : List Call}
    (haddressed : v.request.Addressed)
    (hconfirm : mrhcConfirm v.request = true) (hquery : mrhcQuery v.request = .ok operation)
    (hrun : ∀ s,
      (throwProgram (v.platform lib) v.request operation).run client.session ≠ .ok false s)
    (hcalls : ∀ c ∈ call :: calls, c.opens = false) :
    Handled lib v (some client) none ((call :: calls).map .called) none

/-- What the client of the handler sees of one request. -/
structure Answer where
  status : Option Status
  response : Response
  events : List Event

/-- One request in the process. -/
def handleVisit (lib : Platform) (cache : Option Instance) (v : Visit) :
    Answer × Option (Option Instance) :=
  match (mrhcHandler lib v).run ⟨cache, Response.empty, []⟩ with
  | .ok status w => (⟨some status, w.response, w.events⟩, some w.clientCache)
  | .error _ w => (⟨none, w.response, w.events⟩, none)

/-- The handler has the result `result` on a visit that found this cache. -/
private def Yields (lib : Platform) (v : Visit) (cache : Option Instance)
    (result : EStateM.Result Stop World Status) : Prop :=
  match result with
  | .ok status w => Handled lib v cache (some status) w.events (some w.clientCache)
  | .error _ w => Handled lib v cache none w.events none

private theorem credentials_none {lib : Platform} {r : Request} {c : Credentials}
    (h : apGetVncParamByBasicAuthComponents lib r = .ok (.einval, c)) :
    r.credentials lib = none := by
  simp [Request.credentials, h]

private theorem credentials_some {lib : Platform} {r : Request} {c : Credentials}
    (h : apGetVncParamByBasicAuthComponents lib r = .ok (.success, c)) :
    r.credentials lib = some c := by
  simp [Request.credentials, h]

private theorem credentials_error {lib : Platform} {r : Request} {e : Stop}
    (h : apGetVncParamByBasicAuthComponents lib r = .error e) : r.credentials lib = none := by
  simp [Request.credentials, h]

/-- What follows `mrhc_spin`: the client is kept whether or not it spins. -/
def keepClient (r : Request) (spun : Bool) (client : Instance) : HandlerM Status := do
  if !spun then apWrite (← lift (mrhcError r (ascii "failed to mrhc, please try again.")))
  setCache (some client)
  return .ok

/-- The path of a request that creates a client. -/
def createPath (v : Visit) (credentials : Credentials) : HandlerM Status := do
  let client ← newVncClient credentials v
  let (spun, client) ← mrhcSpin client v.request
  keepClient v.request spun client

/-- The path of a request that finds no client. -/
def loginPath (lib : Platform) (v : Visit) : HandlerM Status := do
  let (ret, credentials) ← lift (apGetVncParamByBasicAuthComponents lib v.request)
  if ret = .einval then
    askForCredentials
    return .unauthorized
  if ret = .success then
    createPath v credentials
  else
    apWrite (← lift (mrhcError v.request (ascii "fatal error")))
    return .ok

/-- The path of a request that finds a client. -/
def cachedPath (lib : Platform) (v : Visit) (client : Instance) : HandlerM Status := do
  if !mrhcConfirm v.request then
    setCache none
    askForCredentials
    return .unauthorized
  let (thrown, client) ← mrhcThrow (v.platform lib) client v.request
  setCache (some client)
  if !thrown then
    askForCredentials
    return .unauthorized
  return .ok

theorem mrhcHandler_declined {lib : Platform} {v : Visit} {w : World}
    (h : ¬v.request.Addressed) : (mrhcHandler lib v).run w = .ok .declined w := by
  by_cases hhandler : cString v.request.handler = ascii "mrhc"
  · have hheader : v.request.headerOnly = true := by
      by_contra hfalse
      exact h ⟨hhandler, (Bool.not_eq_true _).mp hfalse⟩
    simp [mrhcHandler, hhandler, hheader]
  · simp [mrhcHandler, hhandler]

theorem mrhcHandler_addressed {lib : Platform} {v : Visit} {w : World}
    (h : v.request.Addressed) :
    (mrhcHandler lib v).run w =
      (match w.clientCache with
        | none => loginPath lib v
        | some client => cachedPath lib v client).run w := by
  obtain ⟨hhandler, hheader⟩ := h
  have hcache : getCache.run w = .ok w.clientCache w := rfl
  simp only [mrhcHandler, hhandler, hheader, ne_eq, not_true_eq_false, if_false,
    Bool.false_eq_true]
  rw [bind_ok hcache]
  cases w.clientCache <;> rfl

private theorem mrhcError_ok {r : Request} (h : r.hostname ≠ none) (message : Bytes) :
    ∃ page, mrhcError r message = .ok page := by
  obtain ⟨hostname, hhost⟩ := Option.ne_none_iff_exists'.mp h
  rw [mrhcError, Request.location, hhost]
  exact ⟨_, rfl⟩

private theorem keepClient_run (r : Request) (spun : Bool) (client : Instance) (w : World) :
    (∃ w', (keepClient r spun client).run w = .ok .ok w' ∧ w'.clientCache = some client ∧
        w'.events = w.events ∧ (spun = false → r.hostname ≠ none)) ∨
      ∃ e w', (keepClient r spun client).run w = .error e w' ∧ w'.events = w.events ∧
        r.hostname = none := by
  cases spun with
  | true => exact Or.inl ⟨_, rfl, rfl, rfl, nofun⟩
  | false =>
    by_cases hhost : r.hostname = none
    · have hpage : mrhcError r (ascii "failed to mrhc, please try again.") =
          .error .logicError := by
        rw [mrhcError, Request.location, hhost]
        rfl
      have hfailed : (keepClient r false client).run w = .error .logicError w := by
        simp only [keepClient, hpage]
        rfl
      exact Or.inr ⟨_, _, hfailed, rfl, hhost⟩
    · obtain ⟨page, hpage⟩ := mrhcError_ok hhost (ascii "failed to mrhc, please try again.")
      have hwritten : (keepClient r false client).run w =
          .ok .ok { w with
            clientCache := some client
            response := { w.response with body := w.response.body ++ page } } := by
        simp only [keepClient, hpage]
        rfl
      exact Or.inl ⟨_, hwritten, rfl, rfl, fun _ => hhost⟩

/-- The calls of `mrhc_spin` after the first. -/
private def laterSpinCalls (k : Nat) : List Call := [Call.authenticate, Call.configure].take k

private theorem laterSpinCalls_open (k : Nat) : ∀ call ∈ laterSpinCalls k, call.opens = true := by
  have hopens : ∀ call ∈ [Call.authenticate, Call.configure], call.opens = true := by decide
  intro call hcall
  exact hopens call (List.mem_of_mem_take hcall)

private theorem spin_events (credentials : Credentials) (k : Nat) :
    [Event.created credentials] ++ (spinCalls.take (k + 1)).map .called =
      .created credentials :: .called .initializeClient :: (laterSpinCalls k).map .called := rfl

private theorem createPath_yields {lib : Platform} {v : Visit} {credentials : Credentials}
    (haddressed : v.request.Addressed)
    (hcredentials : v.request.credentials lib = some credentials) :
    Yields lib v none ((createPath v credentials).run ⟨none, Response.empty, []⟩) := by
  let created : World := ⟨none, Response.empty, [.created credentials]⟩
  have hnew : (newVncClient credentials v).run ⟨none, Response.empty, []⟩ =
      .ok (Instance.new credentials v) created := rfl
  have hspin := mrhcSpin_outcome v.request (Instance.new credentials v) created
  rw [createPath, bind_ok hnew]
  cases hrun : (mrhcSpin (Instance.new credentials v) v.request).run created with
  | error e w =>
    rw [hrun] at hspin
    rw [bind_error hrun]
    cases hspin with
    | stopped k hprogram hevents =>
      have h := Handled.spinStopped haddressed hcredentials (fun _ => hprogram)
        (laterSpinCalls_open k)
      rwa [← spin_events, ← hevents] at h
  | ok result w =>
    obtain ⟨b, client⟩ := result
    rw [hrun] at hspin
    rw [bind_ok hrun]
    cases hspin with
    | returned k results hprogram hreturned hmade htrue hevents =>
      have hready := ready_iff_of_spin rfl hreturned hmade htrue
      cases keepClient_run v.request b client w with
      | inl h =>
        obtain ⟨w', hkeep, hcache, hsame, hpage⟩ := h
        have hspun := Handled.spun haddressed hcredentials hprogram hready hpage
          (laterSpinCalls_open k)
        rw [← spin_events, ← hevents, ← hsame, ← hcache] at hspun
        rw [hkeep]
        exact hspun
      | inr h =>
        obtain ⟨e, w', hkeep, hsame, hhost⟩ := h
        have hstopped : Handled lib v none none _ none :=
          .spinStopped haddressed hcredentials (fun hnot => absurd hhost hnot)
            (laterSpinCalls_open k)
        rw [← spin_events, ← hevents, ← hsame] at hstopped
        rw [hkeep]
        exact hstopped

private theorem loginPath_yields {lib : Platform} {v : Visit} (haddressed : v.request.Addressed) :
    Yields lib v none ((loginPath lib v).run ⟨none, Response.empty, []⟩) := by
  rw [loginPath]
  cases hret : apGetVncParamByBasicAuthComponents lib v.request with
  | error e =>
    rw [bind_error (lift_error rfl)]
    exact .unreadable haddressed (credentials_error hret)
  | ok result =>
    obtain ⟨status, credentials⟩ := result
    rw [bind_ok (lift_ok rfl)]
    cases status with
    | einval => exact .refused haddressed (credentials_none hret)
    | success => exact createPath_yields haddressed (credentials_some hret)

private theorem throwCalls_cons (r : Request) (operation : VncOperation) (k : Nat) :
    ∃ call calls, (throwCalls r operation).take (k + 1) = call :: calls ∧
      ∀ c ∈ call :: calls, c.opens = false := by
  have hopens : ∀ c ∈ throwCalls r operation, c.opens = false := by
    rw [throwCalls]
    split
    · simp [Call.opens]
    · simp [Call.opens]
  have htake : ∀ c ∈ (throwCalls r operation).take (k + 1), c.opens = false :=
    fun c hc => hopens c (List.mem_of_mem_take hc)
  cases hcalls : throwCalls r operation with
  | nil =>
    rw [throwCalls] at hcalls
    split at hcalls
    · cases hcalls
    · cases hcalls
  | cons call calls =>
    rw [hcalls] at htake
    exact ⟨call, calls.take k, rfl, htake⟩

private theorem cachedPath_yields {lib : Platform} {v : Visit} (client : Instance)
    (haddressed : v.request.Addressed) :
    Yields lib v (some client)
      ((cachedPath lib v client).run ⟨some client, Response.empty, []⟩) := by
  rw [cachedPath]
  cases hconfirm : mrhcConfirm v.request with
  | false => exact .loggedOut client haddressed hconfirm
  | true =>
    simp only [Bool.not_true, Bool.false_eq_true, if_false]
    cases hquery : mrhcQuery v.request with
    | error e =>
      rw [bind_error (mrhcThrow_badQuery hquery)]
      exact .badQuery client haddressed hconfirm hquery
    | ok operation =>
      have hthrow := mrhcThrow_outcome (v.platform lib) client hquery
        ⟨some client, Response.empty, []⟩
      cases hrun : (mrhcThrow (v.platform lib) client v.request).run
        ⟨some client, Response.empty, []⟩ with
      | error e w =>
        rw [hrun] at hthrow
        rw [bind_error hrun]
        cases hthrow with
        | stopped k hprogram hevents =>
          obtain ⟨call, calls, hcalls, hopens⟩ := throwCalls_cons v.request operation k
          rw [hcalls, List.nil_append] at hevents
          have h := Handled.throwStopped haddressed hconfirm hquery hprogram hopens
          rwa [← hevents] at h
      | ok result w =>
        obtain ⟨b, client'⟩ := result
        rw [hrun] at hthrow
        rw [bind_ok hrun]
        cases hthrow with
        | returned k results hprogram hreturned hmade htrue hevents =>
          obtain ⟨call, calls, hcalls, hopens⟩ := throwCalls_cons v.request operation k
          rw [hcalls, List.nil_append] at hevents
          have h := Handled.thrown haddressed hconfirm hquery hprogram ⟨results, hreturned.symm⟩
            hopens
          rw [← hevents] at h
          cases b with
          | true => exact h
          | false => exact h

/-- The handler does nothing else with a request. -/
theorem handleVisit_handled (lib : Platform) (cache : Option Instance) (v : Visit) :
    Handled lib v cache (handleVisit lib cache v).1.status (handleVisit lib cache v).1.events
      (handleVisit lib cache v).2 := by
  have hyields : Yields lib v cache ((mrhcHandler lib v).run ⟨cache, Response.empty, []⟩) := by
    by_cases haddressed : v.request.Addressed
    · rw [mrhcHandler_addressed haddressed]
      cases cache with
      | none => exact loginPath_yields haddressed
      | some client => exact cachedPath_yields client haddressed
    · rw [mrhcHandler_declined haddressed]
      exact .declined cache haddressed
  rw [handleVisit]
  cases hrun : (mrhcHandler lib v).run ⟨cache, Response.empty, []⟩ with
  | ok status w =>
    rw [hrun] at hyields
    exact hyields
  | error e w =>
    rw [hrun] at hyields
    exact hyields

/-- The requests that the process answers, one after another, from its start. -/
def serve (lib : Platform) (visits : List Visit) : List (Entry (Option Instance) Visit Answer) :=
  runFrom (handleVisit lib) none visits

theorem serve_handled {lib : Platform} {visits : List Visit}
    {e : Entry (Option Instance) Visit Answer} (he : e ∈ serve lib visits) :
    Handled lib e.input e.before e.output.status e.output.events e.after := by
  rw [mem_runFrom he]
  exact handleVisit_handled lib e.before e.input

end Mrhc
