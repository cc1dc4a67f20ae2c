import Mrhc.Client.HandshakeRuns

/-!
# Authentication

Which deliveries make `authenticate` return `true`, and when these contain a complete handshake.
-/

namespace Mrhc

/-- On a connection without send errors `x` returns `true` exactly when the receives it makes
return buffers that satisfy `ok`. -/
structure Admits (x : ClientM Bool) (pre post : VncClient → Prop) (asks : List Nat)
    (ok : List Bytes → Prop) : Prop where
  length_eq : ∀ bufs, ok bufs → bufs.length = asks.length
  sound : ∀ s t, pre s.client → s.conn.NoSendError → x.run s = .ok true t →
    post t.client ∧ t.conn.NoSendError ∧
      ∃ bufs, ok bufs ∧ s.conn.stream.receives asks = some (bufs, t.conn.stream)
  complete : ∀ s bufs c, pre s.client → s.conn.NoSendError → ok bufs →
    s.conn.stream.receives asks = some (bufs, c) →
    ∃ t, x.run s = .ok true t ∧ t.conn.stream = c

theorem Admits.of_iff {x : ClientM Bool} {pre post : VncClient → Prop} {asks : List Nat}
    {ok ok' : List Bytes → Prop} (h : Admits x pre post asks ok)
    (hiff : ∀ bufs, ok bufs ↔ ok' bufs) : Admits x pre post asks ok' := by
  obtain rfl : ok = ok' := funext fun bufs => propext (hiff bufs)
  exact h

theorem Admits.congr {x y : ClientM Bool} {pre post : VncClient → Prop} {asks : List Nat}
    {ok : List Bytes → Prop} (h : Admits y pre post asks ok)
    (heq : ∀ s, pre s.client → x.run s = y.run s) : Admits x pre post asks ok where
  length_eq := h.length_eq
  sound s t hpre hsend hrun := h.sound s t hpre hsend ((heq s hpre).symm.trans hrun)
  complete s bufs c hpre hsend hok hreceives := by
    obtain ⟨t, ht, htc⟩ := h.complete s bufs c hpre hsend hok hreceives
    exact ⟨t, (heq s hpre).trans ht, htc⟩

/-- Checked sequences make the receives of both parts. -/
theorem Admits.require {x y : ClientM Bool} {pre mid post : VncClient → Prop}
    {asks asks' : List Nat} {ok ok' : List Bytes → Prop} (hx : Admits x pre mid asks ok)
    (hy : Admits y mid post asks' ok') :
    Admits (Mrhc.require x y) pre post (asks ++ asks')
      fun bufs => ∃ b b', bufs = b ++ b' ∧ ok b ∧ ok' b' where
  length_eq := by
    intro bufs h
    obtain ⟨b, b', rfl, hb, hb'⟩ := h
    rw [List.length_append, List.length_append, hx.length_eq b hb, hy.length_eq b' hb']
  sound := by
    intro s t hpre hsend hrun
    obtain ⟨u, hu, ht⟩ := of_require_true hrun
    obtain ⟨hmid, husend, b, hb, hreceives⟩ := hx.sound s u hpre hsend hu
    obtain ⟨hpost, htsend, b', hb', hreceives'⟩ := hy.sound u t hmid husend ht
    refine ⟨hpost, htsend, b ++ b', ⟨b, b', rfl, hb, hb'⟩, ?_⟩
    rw [Socket.receives_append, hreceives, Option.bind_some]
    dsimp only
    rw [hreceives']
    rfl
  complete := by
    intro s bufs c hpre hsend hok hreceives
    obtain ⟨b, b', rfl, hb, hb'⟩ := hok
    rw [Socket.receives_append] at hreceives
    obtain ⟨⟨first, d⟩, hfirst, hrest⟩ := Option.bind_eq_some_iff.mp hreceives
    obtain ⟨⟨second, e⟩, hsecond, heq⟩ := Option.map_eq_some_iff.mp hrest
    simp only [Prod.mk.injEq] at heq
    obtain ⟨happend, rfl⟩ := heq
    have hlength : first.length = b.length := by
      rw [hx.length_eq b hb]
      exact Socket.receives_length hfirst
    obtain ⟨rfl, rfl⟩ := List.append_inj happend hlength
    obtain ⟨u, hu, hud⟩ := hx.complete s first d hpre hsend hb hfirst
    obtain ⟨hmid, husend, _⟩ := hx.sound s u hpre hsend hu
    obtain ⟨t, ht, htc⟩ := hy.complete u second e hmid husend hb' (hud ▸ hsecond)
    exact ⟨t, (require_true hu).trans ht, htc⟩

theorem Admits.recv {x : ClientM Bool} {pre post : VncClient → Prop} {n : Nat}
    {ok : Bytes → Prop} {f : Bytes → Session → EStateM.Result Stop Session Bool}
    (hrun : ∀ s, x.run s = s.received n f)
    (hsound : ∀ buf s t, buf.length ≤ n → pre s.client → f buf s = .ok true t →
      ok buf ∧ post t.client ∧ t.conn = s.conn)
    (hcomplete : ∀ buf s, pre s.client → ok buf → ∃ t, f buf s = .ok true t ∧ t.conn = s.conn) :
    Admits x pre post [n] fun bufs => ∃ buf, bufs = [buf] ∧ ok buf where
  length_eq := by
    intro bufs h
    obtain ⟨buf, rfl, _⟩ := h
    rfl
  sound := by
    intro s t hpre hsend h
    have hstream := s.conn.recv_stream n
    have hkeep := Socket.recv_noSendError hsend n
    rw [hrun] at h
    rcases hr : s.conn.recv n with ⟨_ | buf, c⟩
    · simp [Session.received_none hr] at h
    · rw [Session.received_some hr] at h
      rw [hr] at hstream hkeep
      obtain ⟨hok, hpost, hconn⟩ := hsound buf (s.on c) t (Socket.recv_length_le hr) hpre h
      refine ⟨hpost, hconn ▸ hkeep, [buf], ⟨buf, rfl, hok⟩, ?_⟩
      rw [Socket.receives_cons hstream, hconn]
      rfl
  complete := by
    intro s bufs c hpre hsend hok hreceives
    obtain ⟨buf, rfl, hbuf⟩ := hok
    have hstream := s.conn.recv_stream n
    rcases hr : s.conn.recv n with ⟨_ | buf', c'⟩
    · rw [hr] at hstream
      simp [Socket.receives, hstream] at hreceives
    · rw [hr] at hstream
      rw [Socket.receives_cons hstream] at hreceives
      simp only [Socket.receives, Option.map_some, Option.some.injEq, Prod.mk.injEq,
        List.cons.injEq, and_true] at hreceives
      obtain ⟨rfl, rfl⟩ := hreceives
      obtain ⟨t, ht, hconn⟩ := hcomplete buf' (s.on c') hpre hbuf
      refine ⟨t, ?_, congrArg Socket.stream hconn⟩
      rw [hrun, Session.received_some hr]
      exact ht

theorem Admits.send {x : ClientM Bool} {pre post : VncClient → Prop}
    (f : VncClient → VncClient) (message : VncClient → Bytes)
    (hrun : ∀ s, pre s.client → x.run s =
      .ok (s.conn.send (message s.client)).1 ((s.update f).sent (message s.client)))
    (hpost : ∀ c, pre c → post (f c)) : Admits x pre post [] fun bufs => bufs = [] where
  length_eq := by
    intro bufs h
    simp [h]
  sound := by
    intro s t hpre hsend h
    rw [hrun s hpre, EStateM.Result.ok.injEq] at h
    obtain ⟨-, rfl⟩ := h
    refine ⟨hpost s.client hpre, (Socket.send_of_noError hsend _).2, [], rfl, ?_⟩
    exact congrArg (fun d => some ([], d)) (s.conn.send_stream _).symm
  complete := by
    intro s bufs c hpre hsend hok hreceives
    refine ⟨(s.update f).sent (message s.client), ?_, ?_⟩
    · rw [hrun s hpre, (Socket.send_of_noError hsend _).1]
    · rw [hok] at hreceives
      simp only [Socket.receives, Option.some.injEq, Prod.mk.injEq, true_and] at hreceives
      rw [← hreceives]
      exact s.conn.send_stream _

private def Always (_ : VncClient) : Prop := True

/-- The version has been accepted, and `tail` lies behind it. -/
private def VersionAccepted (tail : Bytes) (c : VncClient) : Prop :=
  c.version ∈ acceptedVersions ∧ c.versionTail = tail

private theorem recvProtocolVersion_admits (tail : Bytes) :
    Admits recvProtocolVersion (·.versionTail = tail) (VersionAccepted tail)
      [sizeofProtocolVersion] fun bufs => ∃ buf, bufs = [buf] ∧ buf ∈ acceptedVersions := by
  refine Admits.recv recvProtocolVersion_run ?_ ?_
  · intro buf s t hlen htail h
    split at h
    · simp at h
    · split at h
      · next haccepted =>
        simp only [EStateM.Result.ok.injEq, true_and] at h
        subst h
        have hbuf := (acceptedVersion_iff hlen).mp haccepted
        refine ⟨hbuf, ⟨?_, htail⟩, rfl⟩
        exact (accepted_version_steps hbuf).2.2.1.symm ▸ hbuf
      · simp at h
  · intro buf s _ hbuf
    obtain ⟨hformat, haccepted, hterminated, -⟩ := accepted_version_steps hbuf
    simp [hterminated, hformat, haccepted]

private theorem logVersion_admits (tail : Bytes) :
    Admits logVersion (VersionAccepted tail) Always [] fun bufs =>
      bufs = [] ∧ formatComplete (cString tail) = true where
  length_eq := by
    intro bufs h
    simp [h.1]
  sound := by
    intro s t hpre hsend h
    obtain ⟨hversion, rfl⟩ := hpre
    rw [logVersion_run s hversion] at h
    split at h
    · next hlogs =>
      simp only [EStateM.Result.ok.injEq, true_and] at h
      subst h
      exact ⟨trivial, hsend, [], ⟨rfl, hlogs⟩, rfl⟩
    · simp at h
  complete := by
    intro s bufs c hpre _ hok hreceives
    obtain ⟨hversion, rfl⟩ := hpre
    obtain ⟨rfl, hformat⟩ := hok
    have hlogs : s.client.LogsVersion := hformat
    simp only [Socket.receives, Option.some.injEq, Prod.mk.injEq, true_and] at hreceives
    exact ⟨s, by rw [logVersion_run s hversion, if_pos hlogs], hreceives⟩

private theorem sendProtocolVersion_admits (tail : Bytes) :
    Admits sendProtocolVersion (VersionAccepted tail) Always [] fun bufs =>
      bufs = [] ∧ formatComplete (cString tail) = true := by
  have hsent := (Admits.send id VncClient.version
    (fun s (_ : VersionAccepted tail s.client) => send_match_run s.client.version s)
    fun _ h => h).require (logVersion_admits tail)
  refine (hsent.congr fun s hs => ?_).of_iff fun bufs => ?_
  · exact sendProtocolVersion_run s hs.1
  · simp

private theorem recvSecurityResult_admits :
    Admits recvSecurityResult Always Always [sizeofSecurityResult] fun bufs =>
      ∃ buf, bufs = [buf] ∧ load32 buf 0 = 0 := by
  refine Admits.recv recvSecurityResult_run ?_ ?_
  · intro buf s t _ _ h
    simp only [EStateM.Result.ok.injEq, beq_iff_eq] at h
    exact ⟨h.1, trivial, h.2 ▸ rfl⟩
  · intro buf s _ hbuf
    exact ⟨s, by simp [hbuf], rfl⟩

private theorem admits_any {x : ClientM Bool} {n : Nat} {f : Bytes → VncClient → VncClient}
    (hrun : ∀ s, x.run s = s.received n fun buf t => .ok true (t.update (f buf))) :
    Admits x Always Always [n] fun bufs => ∃ buf, bufs = [buf] ∧ True := by
  refine Admits.recv hrun ?_ ?_
  · intro buf s t _ _ h
    simp only [EStateM.Result.ok.injEq, true_and] at h
    exact ⟨trivial, trivial, h ▸ rfl⟩
  · intro buf s _ _
    exact ⟨_, rfl, rfl⟩

private theorem recvServerInit_admits :
    Admits recvServerInit Always Always [sizeofServerInit] fun bufs =>
      ∃ buf, bufs = [buf] ∧ announcedNameLength buf ≤ rfbBufSize := by
  refine Admits.recv recvServerInit_run ?_ ?_
  · intro buf s t _ _ h
    split at h
    · simp only [EStateM.Result.ok.injEq, true_and] at h
      exact ⟨by assumption, trivial, h ▸ rfl⟩
    · simp at h
  · intro buf s _ hbuf
    exact ⟨_, if_pos hbuf, rfl⟩

private theorem send_admits (message : Bytes) :
    Admits (do if !(← Mrhc.send message) then return false
               return true) Always Always [] fun bufs => bufs = [] :=
  Admits.send id (fun _ => message) (fun s _ => send_match_run message s) fun _ _ => trivial

private theorem pure_admits :
    Admits (pure true) Always Always [] fun bufs => bufs = [] where
  length_eq := by
    intro bufs h
    simp [h]
  sound := by
    intro s t _ hsend h
    simp only [EStateM.run_pure, EStateM.Result.ok.injEq, true_and] at h
    subst h
    exact ⟨trivial, hsend, [], rfl, rfl⟩
  complete := by
    intro s bufs c _ _ hok hreceives
    rw [hok] at hreceives
    simp only [Socket.receives, Option.some.injEq, Prod.mk.injEq, true_and] at hreceives
    exact ⟨s, rfl, hreceives⟩

/-- The numbers of bytes that `authenticate` asks for. -/
def handshakeAsks : List Nat :=
  [sizeofProtocolVersion, sizeofSupportedSecurityTypes, rfbVncAuthChallengeLength,
    sizeofSecurityResult, sizeofServerInit]

/-- What `authenticate` checks of the five buffers that it receives. It does not check the length
of the name: a longer one than the structure holds is read behind it, where the model stops. -/
structure PassesChecks (version types challenge result serverInit : Bytes) : Prop where
  version : version ∈ acceptedVersions
  result : load32 result 0 = 0
  nameLength : announcedNameLength serverInit ≤ rfbBufSize

private theorem authenticate_admits (tail : Bytes) :
    Admits authenticate (·.versionTail = tail) Always handshakeAsks fun bufs =>
      formatComplete (cString tail) = true ∧ ∃ version types challenge result serverInit,
        bufs = [version, types, challenge, result, serverInit] ∧
          PassesChecks version types challenge result serverInit := by
  have hall := (recvProtocolVersion_admits tail).require
    ((sendProtocolVersion_admits tail).require
      ((admits_any recvSupportedSecurityTypes_run).require
        ((send_admits [rfbSecurityTypeVncAuth]).require
          ((admits_any recvVncAuthChallenge_run).require
            ((Admits.send VncClient.responding (fun c => c.responding.challenge)
              (fun s _ => sendVncAuthResponse_run s) fun _ _ => trivial).require
              (recvSecurityResult_admits.require
                ((send_admits [rfbSharedFlagOn]).require
                  (recvServerInit_admits.require pure_admits))))))))
  refine hall.of_iff fun bufs => ?_
  constructor
  · intro h
    obtain ⟨_, _, rfl, ⟨version, rfl, hversion⟩, _, _, rfl, ⟨rfl, hlogs⟩, _, _, rfl,
      ⟨types, rfl, _⟩, _, _, rfl, rfl, _, _, rfl, ⟨challenge, rfl, _⟩, _, _, rfl, rfl, _, _, rfl,
      ⟨result, rfl, hresult⟩, _, _, rfl, rfl, _, _, rfl, ⟨serverInit, rfl, hinit⟩, rfl⟩ := h
    exact ⟨hlogs, version, types, challenge, result, serverInit, rfl, hversion, hresult, hinit⟩
  · intro h
    obtain ⟨hlogs, version, types, challenge, result, serverInit, rfl, hchecks⟩ := h
    obtain ⟨hversion, hresult, hinit⟩ := hchecks
    exact ⟨[version], _, rfl, ⟨version, rfl, hversion⟩, [], _, rfl, ⟨rfl, hlogs⟩, [types], _, rfl,
      ⟨types, rfl, trivial⟩, [], _, rfl, rfl, [challenge], _, rfl, ⟨challenge, rfl, trivial⟩, [], _,
      rfl, rfl, [result], _, rfl, ⟨result, rfl, hresult⟩, [], _, rfl, rfl, [serverInit], [], rfl,
      ⟨serverInit, rfl, hinit⟩, rfl⟩

/-- A complete handshake at the start of the delivered bytes: an accepted version, a list of
security types, a challenge, a security result of zero and the header of a server init. -/
def CompleteHandshake (delivered : Bytes) : Prop :=
  ∃ version types challenge header rest,
    delivered = version ++ (UInt8.ofNat types.length :: types ++
      (challenge ++ ([0, 0, 0, 0] ++ (header ++ rest)))) ∧
    version ∈ acceptedVersions ∧ types.length < 256 ∧
    challenge.length = rfbVncAuthChallengeLength ∧ header.length = 24

/-- Whenever `authenticate` returns `true`, the bytes it has received contain a complete
handshake. -/
def FailsClosed (s : Session) : Prop :=
  ∀ s', authenticate.run s = .ok true s' →
    ∃ delivered, s.conn.input = delivered ++ s'.conn.input ∧ CompleteHandshake delivered

/-- After the version the bytes are long enough for the announced list, a challenge, a result and
a server init, and the four bytes in the place of the result are zero. -/
def CarriesAcceptance (afterVersion : Bytes) : Prop :=
  45 + (afterVersion.getD 0 0).toNat ≤ afterVersion.length ∧
    (afterVersion.drop (17 + (afterVersion.getD 0 0).toNat)).take 4 = [0, 0, 0, 0]

instance (afterVersion : Bytes) : Decidable (CarriesAcceptance afterVersion) :=
  inferInstanceAs (Decidable (_ ∧ _))

private theorem completeHandshake_iff {version : Bytes} (hversion : version ∈ acceptedVersions)
    (afterVersion : Bytes) :
    CompleteHandshake (version ++ afterVersion) ↔ CarriesAcceptance afterVersion := by
  have hchallenge : rfbVncAuthChallengeLength = 16 := rfl
  constructor
  · intro h
    obtain ⟨version', types, challenge, header, rest, heq, hversion', htypes, hlen, hheader⟩ := h
    obtain ⟨-, rfl⟩ := List.append_inj heq
      ((accepted_version_steps hversion).2.2.2.trans (accepted_version_steps hversion').2.2.2.symm)
    have hcount : (UInt8.ofNat types.length).toNat = types.length := by
      rw [UInt8.toNat_ofNat', Nat.mod_eq_of_lt htypes]
    have hplace : 17 + types.length =
        (UInt8.ofNat types.length :: types ++ challenge).length := by
      simp only [List.cons_append, List.length_cons, List.length_append]
      omega
    refine ⟨?_, ?_⟩
    · simp only [List.cons_append, List.getD_cons_zero, hcount, List.length_cons,
        List.length_append, List.length_nil]
      omega
    · simp only [List.cons_append, List.getD_cons_zero, hcount]
      rw [← List.cons_append, ← List.append_assoc, hplace, List.drop_left]
      rfl
  · intro h
    obtain ⟨hlen, hzero⟩ := h
    rcases afterVersion with _ | ⟨count, tail⟩
    · simp at hlen
    · simp only [List.getD_cons_zero, List.length_cons] at hlen hzero
      rw [show 17 + count.toNat = (16 + count.toNat) + 1 by omega, List.drop_succ_cons] at hzero
      refine ⟨version, tail.take count.toNat, (tail.drop count.toNat).take 16,
        ((tail.drop (16 + count.toNat)).drop 4).take 24,
        ((tail.drop (16 + count.toNat)).drop 4).drop 24, ?_, hversion, ?_, ?_, ?_⟩
      · rw [List.take_append_drop, ← hzero, List.take_append_drop, List.length_take,
          Nat.min_eq_left (by omega), Nat.add_comm 16, ← List.drop_drop, List.take_append_drop,
          List.cons_append, List.take_append_drop]
        simp
      · rw [List.length_take]
        have hbound := count.toNat_lt
        omega
      · rw [List.length_take, List.length_drop]
        omega
      · rw [List.length_take, List.length_drop, List.length_drop]
        omega

/-- Where the five receives pass the checks, they carry a complete acceptance after the version. -/
def PassesOnlyAcceptances (s : Session) : Prop :=
  ∀ version types challenge result serverInit c,
    s.conn.stream.receives handshakeAsks =
      some ([version, types, challenge, result, serverInit], c) →
    PassesChecks version types challenge result serverInit →
    CarriesAcceptance (types ++ challenge ++ result ++ serverInit)

private theorem carriesAcceptance_of_failsClosed {s : Session} (hsend : s.conn.NoSendError)
    (hlogs : s.client.LogsVersion) (h : FailsClosed s) : PassesOnlyAcceptances s := by
  intro version types challenge result serverInit c hreceives hchecks
  obtain ⟨t, ht, htc⟩ := (authenticate_admits s.client.versionTail).complete s _ c rfl hsend
    ⟨hlogs, version, types, challenge, result, serverInit, rfl, hchecks⟩ hreceives
  obtain ⟨delivered, hdelivered, hcomplete⟩ := h t ht
  have hinput := Socket.receives_input hreceives
  rw [← htc] at hinput
  have hparts : delivered = version ++ (types ++ challenge ++ result ++ serverInit) := by
    apply List.append_cancel_right (hdelivered.symm.trans ?_)
    simpa [Socket.stream] using hinput
  exact (completeHandshake_iff hchecks.version _).mp (hparts ▸ hcomplete)

private theorem failsClosed_of_passesOnlyAcceptances {s : Session} (hsend : s.conn.NoSendError)
    (h : s.client.LogsVersion → PassesOnlyAcceptances s) : FailsClosed s := by
  intro t ht
  obtain ⟨_, _, bufs, ⟨hlogs, hok⟩, hreceives⟩ :=
    (authenticate_admits s.client.versionTail).sound s t rfl hsend ht
  obtain ⟨version, types, challenge, result, serverInit, rfl, hchecks⟩ := hok
  have hcarries := h hlogs version types challenge result serverInit _ hreceives hchecks
  refine ⟨version ++ (types ++ challenge ++ result ++ serverInit), ?_,
    (completeHandshake_iff hchecks.version _).mpr hcarries⟩
  have hinput := Socket.receives_input hreceives
  simpa [Socket.stream] using hinput

/-- `authenticate` fails closed on the connections whose five receives do not pass its checks or
carry a complete acceptance after the version, and on no others. When the log call after the version
is undefined the model has no result, and there is nothing to ask for. -/
theorem authenticate_failsClosed_iff (s : Session) (hsend : s.conn.NoSendError) :
    FailsClosed s ↔ (s.client.LogsVersion → PassesOnlyAcceptances s) :=
  ⟨fun h hlogs => carriesAcceptance_of_failsClosed hsend hlogs h,
    failsClosed_of_passesOnlyAcceptances hsend⟩

/-- A client in front of a server that delivers these messages, each in one piece, and closes. -/
def handshakeSession (messages : List Bytes) : Session where
  client := VncClient.new [] 5900 (ascii "testtest") .blank
  conn := { Socket.delivering messages.flatten with
    recvs := Socket.transfers messages }

theorem handshakeSession_logsVersion (messages : List Bytes) :
    (handshakeSession messages).client.LogsVersion :=
  rfl

/-- The messages of a server that accepts the password and has a screen of one pixel. -/
def acceptingServer : List Bytes :=
  [rfbProtocolVersion38, [1, 2], List.replicate 16 7, [0, 0, 0, 0],
    [0, 1, 0, 1] ++ List.replicate 20 0]

theorem authenticate_failsClosed_accepting : FailsClosed (handshakeSession acceptingServer) := by
  refine (authenticate_failsClosed_iff (handshakeSession acceptingServer) (by decide)).mpr ?_
  intro _ version types challenge result serverInit c hreceives _
  have hfive : (handshakeSession acceptingServer).conn.stream.receives handshakeAsks =
      some (acceptingServer, (Socket.delivering []).stream) := by decide
  have heq := Option.some.inj (hfive.symm.trans hreceives)
  simp only [acceptingServer, Prod.mk.injEq, List.cons.injEq] at heq
  obtain ⟨⟨-, rfl, rfl, rfl, rfl, -⟩, -⟩ := heq
  decide

/-- A peer that delivers the version and closes is taken for one that accepts the password. -/
theorem authenticate_versionOnly_accepted :
    (handshakeSession [rfbProtocolVersion38]).conn.NoSendError ∧
    (∃ s', authenticate.run (handshakeSession [rfbProtocolVersion38]) = .ok true s') ∧
      ¬FailsClosed (handshakeSession [rfbProtocolVersion38]) := by
  have hreceives : (handshakeSession [rfbProtocolVersion38]).conn.stream.receives handshakeAsks =
      some ([rfbProtocolVersion38, [], [], [], []], (Socket.delivering []).stream) := by decide
  have hchecks : PassesChecks rfbProtocolVersion38 [] [] [] [] :=
    ⟨by decide, by decide, by decide⟩
  refine ⟨by decide, ?_, fun h => ?_⟩
  · obtain ⟨t, ht, _⟩ := (authenticate_admits []).complete (handshakeSession [rfbProtocolVersion38])
      _ _ rfl (by decide) ⟨by decide, _, _, _, _, _, rfl, hchecks⟩ hreceives
    exact ⟨t, ht⟩
  · have hcarries := carriesAcceptance_of_failsClosed (by decide) (by decide) h
    exact absurd (hcarries _ _ _ _ _ _ hreceives hchecks) (by decide)

end Mrhc
