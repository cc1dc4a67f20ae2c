import Mrhc.Client.Views
import Mrhc.Handler.ViewerRuns

/-!
# What the answers depend on

What a session is served depends on its screen and on its connection. The credentials, the password,
the challenge and the rest of the handshake make no difference once the session is open.
-/

namespace Mrhc

/-- Sessions so related cannot be told from each other: all that is asked of them ends the same. -/
class Indistinct (R : Session → Session → Prop) : Prop where
  refl : ∀ s, R s s
  jpegBuf : ∀ s t, R s t → t.client.jpegBuf = s.client.jpegBuf
  operate : ∀ lib operation, Respects R (Mrhc.operate lib operation)
  capture : ∀ lib operation, Respects R (Mrhc.capture lib operation)

instance : Indistinct Session.SameView where
  refl := Session.SameView.refl
  jpegBuf := fun _ _ h => h.jpegBuf
  operate := operate_respects
  capture := capture_respects

/-- Two objects with such sessions. -/
def Instance.Alike (R : Session → Session → Prop) (client client' : Instance) : Prop :=
  R client.session client'.session

/-- Two worlds that answer alike. -/
structure World.Alike (R : Session → Session → Prop) (w w' : World) : Prop where
  cache : Option.Rel (Instance.Alike R) w.clientCache w'.clientCache
  response : w'.response = w.response
  events : w'.events = w.events

section

variable {R : Session → Session → Prop}

private theorem log_respects (event : Event) : Respects (World.Alike R) (log event) :=
  fun _ _ h => .ok rfl ⟨h.cache, h.response, congrArg (· ++ [event]) h.events⟩

private theorem respond_respects (f : Response → Response) : Respects (World.Alike R) (respond f) :=
  fun _ _ h => .ok rfl ⟨h.cache, congrArg f h.response, h.events⟩

private theorem lift_respects {α : Type} (x : Except Stop α) : Respects (World.Alike R) (lift x) := by
  cases x with
  | ok a => exact Respects.pure a
  | error e => exact fun _ _ h => .error h

/-- A call that returned the same and left two objects alike. -/
private def SameReturn (R : Session → Session → Prop) (p q : Bool × Instance) : Prop :=
  p.1 = q.1 ∧ p.2.Alike R q.2

private theorem callClient_couples {call : Call} {body : ClientM Bool}
    (hbody : Respects R body) {client client' : Instance}
    (hclient : client.Alike R client') :
    Couples (World.Alike R) (SameReturn R) (callClient call body client)
      (callClient call body client') := by
  refine Couples.bind (log_respects _) ?_
  intro _ _ _
  have hresult := hbody _ _ hclient
  generalize body.run client.session = r at hresult ⊢
  generalize body.run client'.session = r' at hresult ⊢
  cases hresult with
  | ok hvalue hstate =>
    subst hvalue
    exact Couples.pure ⟨rfl, hstate⟩
  | error hstate => exact fun _ _ h => .error h

private theorem checkedCall_couples {call : Call} {body : ClientM Bool}
    (hbody : Respects R body) {rest : Instance → HandlerM (Bool × Instance)}
    (hrest : ∀ client client', Instance.Alike R client client' →
      Couples (World.Alike R) (SameReturn R) (rest client) (rest client'))
    {client client' : Instance} (hclient : client.Alike R client') :
    Couples (World.Alike R) (SameReturn R) (checkedCall call body rest client)
      (checkedCall call body rest client') := by
  refine Couples.bind (callClient_couples hbody hclient) ?_
  intro p q hpq
  obtain ⟨b, client⟩ := p
  obtain ⟨b', client'⟩ := q
  obtain ⟨rfl, hclient⟩ := hpq
  cases b with
  | false => exact Couples.pure ⟨rfl, hclient⟩
  | true => exact hrest client client' hclient

variable [Indistinct R]

private theorem cache_refl (cache : Option Instance) :
    Option.Rel (Instance.Alike R) cache cache := by
  cases cache with
  | none => exact .none
  | some client => exact .some (Indistinct.refl client.session)

private theorem World.Alike.refl (w : World) : World.Alike R w w :=
  ⟨cache_refl w.clientCache, rfl, rfl⟩

private theorem throwImage_couples {client client' : Instance} (hclient : client.Alike R client') :
    Couples (World.Alike R) (SameReturn R) (throwImage client) (throwImage client') := by
  have hwrite : apWrite client'.session.client.jpegBuf = apWrite client.session.client.jpegBuf :=
    congrArg apWrite (Indistinct.jpegBuf client.session client'.session hclient)
  rw [throwImage, throwImage, hwrite]
  refine Couples.bind (respond_respects _) fun _ _ _ => ?_
  refine Couples.bind (respond_respects _) fun _ _ _ => ?_
  exact Couples.pure ⟨rfl, hclient⟩

private theorem throwCapture_couples (lib : Platform) (operation : VncOperation)
    {client client' : Instance} (hclient : client.Alike R client') :
    Couples (World.Alike R) (SameReturn R) (throwCapture lib operation client)
      (throwCapture lib operation client') := by
  have hthrow : ∀ client, throwCapture lib operation client =
      checkedCall (.capture operation) (capture lib operation) throwImage client := fun _ => rfl
  rw [hthrow, hthrow]
  exact checkedCall_couples (Indistinct.capture lib operation) (fun _ _ => throwImage_couples) hclient

private theorem mrhcThrow_couples (lib : Platform) (r : Request) {client client' : Instance}
    (hclient : client.Alike R client') :
    Couples (World.Alike R) (SameReturn R) (mrhcThrow lib client r) (mrhcThrow lib client' r) := by
  rw [mrhcThrow, mrhcThrow]
  split
  · exact throwCapture_couples lib VncOperation.zero hclient
  · refine Couples.bind (lift_respects _) ?_
    intro operation _ hoperation
    subst hoperation
    exact checkedCall_couples (Indistinct.operate lib operation)
      (fun _ _ => throwCapture_couples lib operation) hclient

private theorem cachedPath_couples (lib : Platform) (v : Visit) {client client' : Instance}
    (hclient : client.Alike R client') :
    Couples (World.Alike R) Eq (cachedPath lib v client) (cachedPath lib v client') := by
  have hset : ∀ {cache cache' : Option Instance}, Option.Rel (Instance.Alike R) cache cache' →
      Couples (World.Alike R) Eq (setCache cache) (setCache cache') :=
    fun hcache _ _ h => .ok rfl ⟨hcache, h.response, h.events⟩
  have hrefuse : Respects (World.Alike R) (do
      askForCredentials
      return Status.unauthorized) :=
    Respects.bind (respond_respects _) fun _ => Respects.pure _
  rw [cachedPath, cachedPath]
  split
  · exact Respects.bind (hset .none) fun _ => hrefuse
  · refine Couples.bind (mrhcThrow_couples (v.platform lib) v.request hclient) ?_
    intro p q hpq
    obtain ⟨b, client⟩ := p
    obtain ⟨b', client'⟩ := q
    obtain ⟨rfl, hclient⟩ := hpq
    refine Couples.bind (hset (.some hclient)) fun _ _ _ => ?_
    cases b with
    | false => exact hrefuse
    | true => exact Respects.pure _

private theorem handleVisit_alike (lib : Platform) {cache cache' : Option Instance}
    (hcache : Option.Rel (Instance.Alike R) cache cache') (v : Visit) :
    (handleVisit lib cache v).1 = (handleVisit lib cache' v).1 ∧
      Option.Rel (Option.Rel (Instance.Alike R)) (handleVisit lib cache v).2
        (handleVisit lib cache' v).2 := by
  have hresult : Coupled (World.Alike R) Eq ((mrhcHandler lib v).run ⟨cache, Response.empty, []⟩)
      ((mrhcHandler lib v).run ⟨cache', Response.empty, []⟩) := by
    by_cases haddressed : v.request.Addressed
    · rw [mrhcHandler_addressed haddressed, mrhcHandler_addressed haddressed]
      cases hcache with
      | none =>
        generalize (loginPath lib v).run ⟨none, Response.empty, []⟩ = result
        cases result with
        | ok status w => exact .ok rfl (.refl w)
        | error reason w => exact .error (.refl w)
      | some hclient => exact cachedPath_couples lib v hclient _ _ ⟨.some hclient, rfl, rfl⟩
    · rw [mrhcHandler_declined haddressed, mrhcHandler_declined haddressed]
      exact .ok rfl ⟨hcache, rfl, rfl⟩
  rw [handleVisit, handleVisit]
  generalize (mrhcHandler lib v).run ⟨cache, Response.empty, []⟩ = r at hresult
  generalize (mrhcHandler lib v).run ⟨cache', Response.empty, []⟩ = r' at hresult
  cases hresult with
  | @ok status status' w w' hvalue hstate =>
    subst hvalue
    dsimp only
    rw [hstate.response, hstate.events]
    exact ⟨rfl, .some hstate.cache⟩
  | @error reason w w' hstate =>
    dsimp only
    rw [hstate.response, hstate.events]
    exact ⟨rfl, .none⟩

/-- Sessions that cannot be told from each other are served the same from then on. -/
theorem runFrom_alike (lib : Platform) {client client' : Instance}
    (hclient : client.Alike R client') (visits : List Visit) :
    (runFrom (handleVisit lib) (some client) visits).map Entry.output =
      (runFrom (handleVisit lib) (some client') visits).map Entry.output :=
  runFrom_coupled (R := Option.Rel (Instance.Alike R))
    (fun _ _ v hcache => handleVisit_alike lib hcache v) (.some hclient) visits

end

/-- After two accepted logins to screens of one size that send the same, everybody is served the
same, in front of the same memory: the answers do not depend on the version, the security types, the
challenge or the name, nor on the address or the password. -/
theorem serve_indifferent {lib : Platform} {version version' : Bytes}
    (hversion : version ∈ listingVersions) (hversion' : version' ∈ listingVersions)
    (d d' : ServerSide) (haccepts : d.result = 0) (haccepts' : d'.result = 0)
    (hwidth : d'.serverInit.width = d.serverInit.width)
    (hheight : d'.serverInit.height = d.serverInit.height) {login login' : Visit}
    {credentials credentials' : Credentials} (hlogin : login.request.LogsIn lib credentials)
    (hlogin' : login'.request.LogsIn lib credentials') (hhost : login.request.hostname ≠ none)
    (hhost' : login'.request.hostname ≠ none) (hlogs : login.residue.LogsVersion)
    (hlogs' : login'.residue.LogsVersion) {later : Bytes}
    (hserver : login.server = d.connection version later)
    (hserver' : login'.server = d'.connection version' later) (visits : List Visit) :
    (serve lib (login :: visits)).tail.map Entry.output =
      (serve lib (login' :: visits)).tail.map Entry.output := by
  obtain ⟨s, hrun, hs⟩ := @spinProgram_viewing version hversion d haccepts later
    (Instance.new credentials login).session hserver (VncClient.new_logsVersion hlogs _ _ _) rfl rfl
  obtain ⟨s', hrun', hs'⟩ := @spinProgram_viewing version' hversion' d' haccepts' later
    (Instance.new credentials' login').session hserver' (VncClient.new_logsVersion hlogs' _ _ _) rfl
    rfl
  obtain ⟨client, page, rfl, -, hvisit⟩ := handleVisit_opened hlogin.1 hlogin.2 hhost hrun
  obtain ⟨client', page', rfl, -, hvisit'⟩ := handleVisit_opened hlogin'.1 hlogin'.2 hhost' hrun'
  have hclient : client.session.SameView client'.session :=
    { conn :=
        ⟨hs'.input.trans hs.input.symm, hs'.recvs.trans hs.recvs.symm,
          hs'.sends.trans hs.sends.symm⟩
      width := hs'.width.trans (hwidth.trans hs.width.symm)
      height := hs'.height.trans (hheight.trans hs.height.symm)
      format := hs'.format.trans hs.format.symm
      jpegBuf := hs'.shown.trans hs.shown.symm }
  rw [serve, serve, runFrom_cons hvisit, runFrom_cons hvisit']
  exact runFrom_alike lib hclient visits

def namelessServer : ServerSide where
  types := [1, rfbSecurityTypeVncAuth]
  challenge := List.replicate rfbVncAuthChallengeLength 9
  result := 0
  serverInit := namedScreen [] (by decide)
  types_length := by decide
  offers_vncAuth := by decide
  challenge_length := rfl
  name_length := by decide

def otherHeader : Bytes := ascii "Basic MTAuMC4wLjc6NTkwMTpvdGhlcg=="

theorem serve_indifferent_stranger :
    (serve bluePlatform [⟨pageRequest (some testHeader),
        plainServer.connection rfbProtocolVersion38 pixelUpdateBytes, .blank⟩, stranger]).tail.map
          Entry.output =
      (serve bluePlatform [⟨pageRequest (some otherHeader),
        namelessServer.connection rfbProtocolVersion37 pixelUpdateBytes, .blank⟩, stranger]).tail.map
          Entry.output := by
  have hcredentials : (pageRequest (some testHeader)).credentials bluePlatform =
      some testCredentials := by decide +kernel
  have hcredentials' : (pageRequest (some otherHeader)).credentials bluePlatform =
      some ⟨ascii "10.0.0.7", 5901, ascii "other"⟩ := by decide +kernel
  exact @serve_indifferent bluePlatform rfbProtocolVersion38 rfbProtocolVersion37 (by decide)
    (by decide) plainServer namelessServer rfl rfl rfl rfl
    ⟨pageRequest (some testHeader), _, .blank⟩ ⟨pageRequest (some otherHeader), _, .blank⟩
    testCredentials ⟨ascii "10.0.0.7", 5901, ascii "other"⟩ ⟨by decide, hcredentials⟩
    ⟨by decide, hcredentials'⟩ (by decide) (by decide) rfl rfl pixelUpdateBytes rfl rfl [stranger]

end Mrhc
