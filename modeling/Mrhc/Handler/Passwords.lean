import Mrhc.Client.StandardServer
import Mrhc.Handler.Credentials
import Mrhc.Handler.Lifecycle
import Mrhc.Handler.RemoteHost

/-!
# Typed passwords

From the text that a user types into the browser to the server that judges his password by the
Data Encryption Standard, and back to the page. However often users try and log out again, each
attempt is decided by its own password alone.
-/

namespace Mrhc

/-- The credentials that are taken: a password ends at its first colon. -/
def Credentials.taken (c : Credentials) : Credentials :=
  { c with password := c.password.takeWhile (· ≠ 0x3a) }

private theorem taken_plain {c : Credentials} (hcolon : 0x3a ∉ c.password) : c.taken = c := by
  have hself : c.password.takeWhile (· ≠ 0x3a) = c.password := by
    rw [List.takeWhile_eq_self_iff]
    intro b hb
    exact decide_eq_true fun heq => hcolon (heq ▸ hb)
  rw [Credentials.taken, hself]

/-- An attempt to log in with typed credentials at a server that judges by the standard, and the
request to log out that ends it, which the page and the page for a failure both offer: without it a
client whose login has failed would stay. The password that is taken fills the key. -/
structure PasswordAttempt (lib : Platform) where
  typed : Credentials
  server : ServerSide
  version : Bytes
  password : Bytes
  later : Bytes
  login : Visit
  logout : Visit
  wellFormed : typed.WellFormed
  complete : formatComplete typed.text = true
  fills : 7 ≤ typed.taken.password.length
  addressed : login.request.Addressed
  header : login.request.authHeader = some typed.header
  named : login.request.hostname ≠ none
  logs : login.residue.LogsVersion
  listing : version ∈ listingVersions
  judges : server.Judges password version (Instance.new typed.taken login).session.client
  connected : login.server = server.connection version later
  leaves : logout.request.Addressed
  logsOut : mrhcConfirm logout.request = false

namespace PasswordAttempt

variable {lib : Platform} (a : PasswordAttempt lib)

def requests : List Visit := [a.login, a.logout]

/-- The two passwords make the same of the challenge. -/
def Passes : Prop :=
  standardResponse a.typed.taken.password a.server.challenge =
    standardResponse a.password a.server.challenge

instance : Decidable a.Passes := inferInstanceAs (Decidable (_ = _))

/-- What the browser gets: the page of the screen or the page for a failure, and then the refusal
that asks for credentials. -/
inductive Answers : List (Option Status × Response) → Prop where
  | accepted {c : VncClient} {page : Bytes} (hpasses : a.Passes)
    (hwidth : c.width = a.server.serverInit.width) (hheight : c.height = a.server.serverInit.height)
    (hpage : mrhcHtml a.login.request c = .ok page) :
    Answers [(some .ok, Response.page page), (some .unauthorized, Response.refusal)]
  | rejected {page : Bytes} (hfails : ¬a.Passes)
    (hpage : mrhcError a.login.request spinFailure = .ok page) :
    Answers [(some .ok, Response.errorPage page), (some .unauthorized, Response.refusal)]

theorem passes_of_alike (h : Alike a.typed.taken.password a.password) : a.Passes :=
  standardResponse_of_alike a.server.challenge_length h

private theorem credentials_taken (hlib : lib.ReadsBasic) :
    a.login.request.credentials lib = some a.typed.taken := by
  have hheader := apGetVncParamByBasicAuthComponents_header a.wellFormed hlib a.header
  rw [if_pos a.complete] at hheader
  rw [Request.credentials, hheader]
  rfl

private theorem accepts_iff_passes : a.server.result = 0 ↔ a.Passes :=
  a.judges.accepts_iff a.listing a.fills

private theorem login_answered (hlib : lib.ReadsBasic) :
    ∃ (client : Instance) (answer : Answer),
      handleVisit lib none a.login = (answer, some (some client)) ∧
      a.Answers [(answer.status, answer.response), (some .unauthorized, Response.refusal)] := by
  have hcredentials := a.credentials_taken hlib
  by_cases haccepts : a.server.result = 0
  · obtain ⟨t, hrun, ht⟩ := spinProgram_viewing
      (s := (Instance.new a.typed.taken a.login).session) a.listing a.server haccepts a.connected
      (VncClient.new_logsVersion a.logs _ _ _) rfl rfl
    obtain ⟨client, page, rfl, hpage, hvisit⟩ :=
      handleVisit_opened a.addressed hcredentials a.named hrun
    exact ⟨client, _, hvisit,
      .accepted (a.accepts_iff_passes.mp haccepts) ht.width ht.height hpage⟩
  · obtain ⟨hconnected, hauthenticate⟩ := spinCalls_streaming
      (s := (Instance.new a.typed.taken a.login).session) a.listing a.server
      (a.connected.trans (a.server.connection_eq a.version a.later))
      (VncClient.new_logsVersion a.logs _ _ _) rfl
    rw [beq_false_of_ne haccepts] at hauthenticate
    obtain ⟨t, hrun⟩ : ∃ t, spinProgram.run (Instance.new a.typed.taken a.login).session =
        .ok false t := ⟨_, (require_true hconnected).trans (require_false hauthenticate)⟩
    obtain ⟨client, answer, -, hvisit, page, hpage, hstatus, hresponse⟩ :=
      handleVisit_spun a.addressed hcredentials a.named hrun
    refine ⟨client, answer, hvisit, ?_⟩
    rw [hstatus, hresponse]
    exact .rejected (fun hpasses => haccepts (a.accepts_iff_passes.mpr hpasses)) hpage

private theorem attempt_served (hlib : lib.ReadsBasic) :
    a.Answers ((runFrom (handleVisit lib) none a.requests).map Served.shown) ∧
      stateAfter (handleVisit lib) none a.requests = some none := by
  obtain ⟨client, answer, hlogin, hanswers⟩ := a.login_answered hlib
  have hlogout := handleVisit_logout lib client a.leaves a.logsOut
  constructor
  · rw [requests, runFrom_cons hlogin, runFrom_cons hlogout]
    exact hanswers
  · rw [requests, stateAfter_cons hlogin, stateAfter_cons hlogout]
    rfl

end PasswordAttempt

/-- **Passwords decide.** After a run that left no session open, each of the users who type their
credentials one after another, and log out in between, gets the page exactly when the password that
he typed and the server's make the same of the challenge, however the attempts before went. -/
theorem serve_passwords {lib : Platform} (hlib : lib.ReadsBasic) {before : List Visit}
    (hbefore : stateAfter (handleVisit lib) none before = some none)
    (attempts : List (PasswordAttempt lib)) :
    ∃ answers : List (List (Option Status × Response)),
      List.Forall₂ PasswordAttempt.Answers attempts answers ∧
      (∀ a ∈ attempts, Alike a.typed.taken.password a.password → a.Passes) ∧
      (serve lib (before ++ attempts.flatMap PasswordAttempt.requests)).map Served.shown =
        (serve lib before).map Served.shown ++ answers.flatten ∧
      stateAfter (handleVisit lib) none (before ++ attempts.flatMap PasswordAttempt.requests) =
        some none := by
  suffices hrun : ∃ answers : List (List (Option Status × Response)),
      List.Forall₂ PasswordAttempt.Answers attempts answers ∧
      (runFrom (handleVisit lib) none (attempts.flatMap PasswordAttempt.requests)).map
        Served.shown = answers.flatten ∧
      stateAfter (handleVisit lib) none (attempts.flatMap PasswordAttempt.requests) =
        some none by
    obtain ⟨answers, hanswers, hshown, hafter⟩ := hrun
    refine ⟨answers, hanswers, fun a _ => a.passes_of_alike, ?_, ?_⟩
    · rw [serve, runFrom_append hbefore, List.map_append, hshown]
      rfl
    · rw [stateAfter_append hbefore]
      exact hafter
  induction attempts with
  | nil => exact ⟨[], .nil, rfl, rfl⟩
  | cons a attempts ih =>
    obtain ⟨hfirst, hended⟩ := a.attempt_served hlib
    obtain ⟨answers, hanswers, hshown, hafter⟩ := ih
    refine ⟨_ :: answers, .cons hfirst hanswers, ?_, ?_⟩
    · rw [List.flatMap_cons, runFrom_append hended, List.map_append, hshown, List.flatten_cons]
    · rw [List.flatMap_cons, stateAfter_append hended]
      exact hafter

def judgingServer (password : Bytes) : ServerSide :=
  { plainServer with
    result := verdict (ascii "testtestX") plainServer.challenge
      (encryptChallenge (password ++ [0]) plainServer.challenge) }

private theorem requestWith_addressed (password : Bytes) : (requestWith password).Addressed :=
  (by decide : (pageRequest none).Addressed)

private theorem requestWith_named (password : Bytes) : (requestWith password).hostname ≠ none :=
  (by decide : (pageRequest none).hostname ≠ none)

private theorem version38_listing : rfbProtocolVersion38 ∈ listingVersions := by decide

private theorem logoutForm_addressed : (formVisit [ascii "logout"]).request.Addressed :=
  (by decide : (pageRequest none).Addressed)

private theorem logoutForm_leaves : mrhcConfirm (formVisit [ascii "logout"]).request = false := by
  decide

private theorem destinationWith_fills {password : Bytes} (hcolon : 0x3a ∉ password)
    (hfills : 7 ≤ password.length) : 7 ≤ (destinationWith password).taken.password.length := by
  rw [taken_plain hcolon]
  exact hfills

def attemptWith (password : Bytes) (hfills : 7 ≤ password.length)
    (hsize : password.length < bufSize) (hzero : 0 ∉ password) (hpercent : 0x25 ∉ password)
    (hcolon : 0x3a ∉ password) : PasswordAttempt Platform.plain where
  typed := destinationWith password
  server := judgingServer password
  version := rfbProtocolVersion38
  password := ascii "testtestX"
  later := []
  login :=
    ⟨requestWith password, (judgingServer password).connection rfbProtocolVersion38 [], .blank⟩
  logout := formVisit [ascii "logout"]
  wellFormed := destinationWith_wellFormed hzero hsize
  complete := formatComplete_destinationWith hpercent
  fills := destinationWith_fills hcolon hfills
  addressed := requestWith_addressed password
  header := requestWith_authHeader password
  named := requestWith_named password
  logs := rfl
  listing := version38_listing
  judges := by
    rw [taken_plain hcolon, ServerSide.Judges, third_answer _ version38_listing]
    rfl
  connected := rfl
  leaves := logoutForm_addressed
  logsOut := logoutForm_leaves

-- Evaluated on the words of `des`, which the standard's lists of bits are equal to.
private theorem otherCharacter_differs :
    ¬standardResponse (ascii "testtesu") plainServer.challenge =
      standardResponse (ascii "testtestX") plainServer.challenge := by
  have hword : ∀ password, standardResponse password plainServer.challenge =
      D3des.blockBits (encryptChallenge (passwordKey password) plainServer.challenge) :=
    fun _ => (encryptChallenge_standard rfl plainServer.challenge_length).symm
  rw [hword, hword]
  decide +kernel

theorem serve_passwords_second :
    ∃ page page', (serve Platform.plain
        ((attemptWith (ascii "testtesu") (by decide) (by decide) (by decide) (by decide)
            (by decide)).requests ++
          (attemptWith (ascii "testtest") (by decide) (by decide) (by decide) (by decide)
            (by decide)).requests)).map Served.shown =
      [(some .ok, Response.errorPage page), (some .unauthorized, Response.refusal),
        (some .ok, Response.page page'), (some .unauthorized, Response.refusal)] := by
  obtain ⟨answers, hanswers, halike, hshown, -⟩ :=
    @serve_passwords Platform.plain Platform.plain_readsBasic [] rfl
      [attemptWith (ascii "testtesu") (by decide) (by decide) (by decide) (by decide) (by decide),
        attemptWith (ascii "testtest") (by decide) (by decide) (by decide) (by decide) (by decide)]
  have hright := halike _ (List.mem_cons_of_mem _ List.mem_cons_self) (by unfold Alike; decide)
  cases hanswers with
  | cons hfirst hanswers =>
    cases hanswers with
    | cons hsecond hnone =>
      cases hnone
      cases hfirst with
      | accepted hpasses => exact absurd hpasses otherCharacter_differs
      | rejected _ _ =>
        cases hsecond with
        | rejected hfails _ => exact absurd hright hfails
        | accepted _ _ _ _ => exact ⟨_, _, hshown⟩

end Mrhc
