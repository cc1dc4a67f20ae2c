import Mrhc.Client.Opening
import Mrhc.Client.SecurityChoice
import Mrhc.Client.ServerInit

/-!
# Dialogues in the accepted versions

What a server of each accepted version says in a handshake with VNC authentication and what it is
to be answered. The server says nothing before it has been answered, so what the client writes is
judged after each turn of the server, whatever comes next.
-/

namespace Mrhc

/-- What a server has to say in a handshake. The list of types is not said in version 3.3. -/
structure ServerSide where
  types : List UInt8
  challenge : Bytes
  result : UInt32
  serverInit : ServerInit
  types_length : types.length < 256
  offers_vncAuth : rfbSecurityTypeVncAuth ∈ types
  challenge_length : challenge.length = rfbVncAuthChallengeLength
  name_length : serverInit.name.length ≤ rfbBufSize

/-- The turns of the server. In version 3.3 it dictates the security type and goes on with the
challenge. -/
def ServerSide.turns (d : ServerSide) (version : Bytes) : List Bytes :=
  version ::
    (if version = rfbProtocolVersion33 then
      [store32 (htonl rfbSecurityTypeVncAuth.toUInt32) ++ d.challenge]
    else [UInt8.ofNat d.types.length :: d.types, d.challenge]) ++
    store32 (htonl d.result) :: if d.result = 0 then [d.serverInit.bytes] else []

/-- The answers of a client with this password, one for each turn but the last. -/
def ServerSide.answers (d : ServerSide) (version : Bytes) (c : VncClient) : List Bytes :=
  version ::
    (if version = rfbProtocolVersion33 then [] else [[rfbSecurityTypeVncAuth]]) ++
    encryptChallenge c.passwordMemory d.challenge ::
      if d.result = 0 then [[rfbSharedFlagOn]] else []

/-- What is offered to the receives that take these pieces of a turn: all that is left of it. -/
def leftOffers : List Bytes → List Transfer
  | [] => []
  | piece :: pieces => .atMost (piece :: pieces).flatten.length :: leftOffers pieces

/-- The session in front of these turns, each received in some pieces, and of anything after
them. -/
def Session.hearing (s : Session) (schedule : List Bytes → List Transfer)
    (turns : List (List Bytes)) (input : Bytes) (recvs : List Transfer) : Session :=
  s.underway s.client (turns.flatten.flatten ++ input) (turns.flatMap schedule ++ recvs) []

/-- `authenticate` takes each turn of the server in these pieces, has all that is left of the turn
offered for each of them, answers each turn before anything else is said, and at the end has
returned whether the result is zero and attributed every byte to its message. -/
structure SpeaksTo (s : Session) (version : Bytes) (d : ServerSide)
    (turns : List (List Bytes)) : Prop where
  joined : turns.map List.flatten = d.turns version
  offered : ∀ k input recvs,
    authenticate.run (s.hearing leftOffers (turns.take k) input recvs) =
      authenticate.run (s.hearing Socket.transfers (turns.take k) input recvs)
  answers : ∀ k input recvs,
    s.conn.written ++ (d.answers version s.client).take k <+:
      (finalState (authenticate.run
        (s.hearing Socket.transfers (turns.take k) input recvs))).conn.written
  ends : ∃ t, authenticate.run
      (s.hearing Socket.transfers turns s.conn.input s.conn.recvs) = .ok (d.result == 0) t ∧
    t.conn.written = s.conn.written ++ d.answers version s.client ∧
    t.conn.input = s.conn.input ∧
    t.client.challenge = encryptChallenge s.client.passwordMemory d.challenge ∧
    (d.result = 0 → t.client.width = d.serverInit.width ∧
      t.client.height = d.serverInit.height ∧ t.client.name = cString d.serverInit.name)

/-- The version is spoken with every server. -/
def Speaks (s : Session) (version : Bytes) : Prop :=
  ∀ d : ServerSide, ∃ turns, SpeaksTo s version d turns

private theorem not_speaksTo_33 {s : Session} (hsends : s.conn.sends = []) {d : ServerSide}
    {turns : List (List Bytes)} : ¬SpeaksTo s rfbProtocolVersion33 d turns := by
  intro h
  let t := s.hearing Socket.transfers (turns.take 2) [] []
  have hwhole : t.conn.WholeSends := by
    have hnil : t.conn.sends = [] := hsends
    simp [Socket.WholeSends, hnil]
  obtain ⟨bufs, msgs, htranscript⟩ := authenticate_transcript t hwhole
  obtain ⟨tail, hanswers⟩ := h.answers 2 [] []
  have hwritten := htranscript.written
  have hold : t.conn.written = s.conn.written := List.append_nil _
  rw [← hanswers, hold, List.append_assoc] at hwritten
  have hmsgs := (List.append_cancel_left hwritten).symm
  have hfollows := htranscript.follows
  rw [hmsgs] at hfollows
  simp only [ServerSide.answers, if_true, List.cons_append, List.nil_append, List.take_succ_cons,
    List.take_zero, List.length_cons, openingScript, List.forall₂_cons] at hfollows
  obtain ⟨-, hsecond, -⟩ := hfollows
  have hlength := congrArg List.length hsecond
  simp [encryptChallenge] at hlength

section

variable {s : Session} {version : Bytes} (d : ServerSide)

private theorem hearing_whole (s : Session) {schedule : List Bytes → List Transfer}
    (hschedule : ∀ turn, schedule [turn] = [.atMost turn.length]) (turns : List Bytes)
    (input : Bytes) (recvs : List Transfer) :
    s.hearing schedule (turns.map fun turn => [turn]) input recvs =
      s.underway s.client (turns.flatten ++ input) (Socket.transfers turns ++ recvs) [] := by
  have hpieces : (turns.map fun turn => [turn]).flatten = turns := by
    rw [← List.flatMap_def, List.flatMap_singleton']
  have hoffers : (turns.map fun turn => [turn]).flatMap schedule = Socket.transfers turns := by
    rw [List.flatMap_map, Socket.transfers, List.map_eq_flatMap]
    exact congrArg turns.flatMap (funext hschedule)
  rw [Session.hearing, hpieces, hoffers]

/-- The list of types, as it is sent in the versions that have one. -/
def ServerSide.list : Bytes := UInt8.ofNat d.types.length :: d.types

/-- The client once it has answered the challenge. -/
def ServerSide.challenged (version : Bytes) (c : VncClient) : VncClient :=
  c.opening version d.list d.challenge

/-- The answers up to the response. -/
def ServerSide.opens (version : Bytes) (c : VncClient) : List Bytes :=
  [version, [rfbSecurityTypeVncAuth], encryptChallenge c.passwordMemory d.challenge]

private theorem challenged_response {c : VncClient}
    (hc : c.challenge.length = rfbVncAuthChallengeLength) :
    (d.challenged version c).challenge = encryptChallenge c.passwordMemory d.challenge := by
  have hchallenge : c.challengedBy d.challenge = d.challenge := by
    rw [VncClient.challengedBy, List.drop_eq_nil_of_le, List.append_nil]
    exact Nat.le_of_eq (hc.trans d.challenge_length.symm)
  rw [ServerSide.challenged, VncClient.opening, hchallenge]
  rfl

private theorem openingWrites_eq {c : VncClient}
    (hc : c.challenge.length = rfbVncAuthChallengeLength) :
    c.openingWrites version d.list d.challenge = d.opens version c := by
  have hresponse : (c.opening version d.list d.challenge).challenge = _ :=
    @challenged_response version d _ hc
  rw [VncClient.openingWrites, hresponse]
  rfl

/-- What is left of the dialogue after the challenge. -/
def ServerSide.closingTurns : List Bytes :=
  store32 (htonl d.result) :: if d.result = 0 then [d.serverInit.bytes] else []

def ServerSide.closingAnswers : List Bytes := if d.result = 0 then [[rfbSharedFlagOn]] else []

theorem ServerSide.turns_listing (hversion : version ∈ listingVersions) :
    d.turns version = [version, d.list, d.challenge] ++ d.closingTurns := by
  have hnot : version ≠ rfbProtocolVersion33 := by
    revert version
    decide
  rw [ServerSide.turns, if_neg hnot]
  rfl

theorem ServerSide.answers_listing (hversion : version ∈ listingVersions) (c : VncClient) :
    d.answers version c = d.opens version c ++ d.closingAnswers := by
  have hnot : version ≠ rfbProtocolVersion33 := by
    revert version
    decide
  rw [ServerSide.answers, if_neg hnot]
  rfl

private theorem load_result (x : UInt32) : load32 (store32 (htonl x)) 0 = 0 ↔ x = 0 := by
  have h := load32_store32 [] [] (htonl x)
  rw [List.nil_append, List.append_nil] at h
  change load32 (store32 (htonl x)) 0 = _ at h
  rw [h, ← ntohl_eq_zero, ntohl_htonl]

/-- The client after the whole of an accepted handshake. -/
def ServerSide.initialized (version : Bytes) (c : VncClient) : VncClient :=
  if d.result = 0 then (d.challenged version c).withServerInit d.serverInit.bytes
  else d.challenged version c

private theorem closing_ends (hsends : s.conn.sends = []) (c : VncClient) (input : Bytes)
    (recvs : List Transfer) (written : List Bytes) :
    closing.run (s.underway c (d.closingTurns.flatten ++ input)
        (Socket.transfers d.closingTurns ++ recvs) written) =
      .ok (d.result == 0) (s.underway
        (if d.result = 0 then c.withServerInit d.serverInit.bytes else c) input recvs
          (written ++ d.closingAnswers)) := by
  have hlen : (store32 (htonl d.result)).length ≤ sizeofSecurityResult := Nat.le_refl _
  by_cases hresult : d.result = 0
  · have hinit : d.serverInit.bytes.length ≤ sizeofServerInit := by
      rw [ServerInit.bytes, List.length_append, d.serverInit.header_length]
      exact Nat.add_le_add_left d.name_length 24
    have hname : announcedNameLength d.serverInit.bytes ≤ rfbBufSize := by
      rw [ServerInit.bytes, d.serverInit.announces]
      exact d.name_length
    have hfirst : closing.run (s.underway c
        (store32 (htonl d.result) ++ (d.serverInit.bytes ++ input))
        (.atMost (store32 (htonl d.result)).length ::
          .atMost d.serverInit.bytes.length :: recvs) written) = _ :=
      closing_result hlen ((load_result d.result).mpr hresult) hsends
    rw [recvServerInit_piece hinit, if_pos hname] at hfirst
    simp only [ServerSide.closingTurns, ServerSide.closingAnswers, hresult, if_true,
      List.flatten_cons, List.flatten_nil, List.append_nil, List.append_assoc] at hfirst ⊢
    exact hfirst
  · have hrefused : closing.run (s.underway c (store32 (htonl d.result) ++ input)
        (.atMost (store32 (htonl d.result)).length :: recvs) written) = _ :=
      closing_refused hlen (mt (load_result d.result).mp hresult)
    simp only [ServerSide.closingTurns, ServerSide.closingAnswers, hresult, if_false,
      List.flatten_cons, List.flatten_nil, List.append_nil,
      beq_false_of_ne hresult] at hrefused ⊢
    exact hrefused

private theorem written_extends {x : ClientM Bool} (hx : Moves Session.Extends x) (s : Session)
    (c : VncClient) (input : Bytes) (recvs : List Transfer) (written : List Bytes) :
    s.conn.written ++ written <+:
      (finalState (x.run (s.underway c input recvs written))).conn.written :=
  hx (s.underway c input recvs written)

private theorem closing_taken (hsends : s.conn.sends = []) (c : VncClient) (k : Nat)
    (input : Bytes) (recvs : List Transfer) (written : List Bytes) :
    s.conn.written ++ (written ++ d.closingAnswers.take k) <+:
      (finalState (closing.run (s.underway c ((d.closingTurns.take k).flatten ++ input)
        (Socket.transfers (d.closingTurns.take k) ++ recvs) written))).conn.written := by
  by_cases hall : d.closingTurns.length ≤ k
  · rw [List.take_of_length_le hall, closing_ends d hsends]
    exact (List.prefix_append_right_inj _).mpr
      ((List.prefix_append_right_inj _).mpr (List.take_prefix _ _))
  · match k with
    | 0 =>
      rw [List.take_zero, List.append_nil]
      exact written_extends closing_moves s c _ _ written
    | k + 1 =>
      -- only the result has been taken, and it is zero
      have hresult : d.result = 0 := by
        by_contra hne
        simp [ServerSide.closingTurns, hne] at hall
      have hk : k = 0 := by
        simp only [ServerSide.closingTurns, hresult, if_true, List.length_cons,
          List.length_nil] at hall
        omega
      have hlen : (store32 (htonl d.result)).length ≤ sizeofSecurityResult := Nat.le_refl _
      have hrun : closing.run (s.underway c (store32 (htonl d.result) ++ input)
          (.atMost (store32 (htonl d.result)).length :: recvs) written) = _ :=
        closing_result hlen ((load_result d.result).mpr hresult) hsends
      simp only [hk, ServerSide.closingTurns, ServerSide.closingAnswers, hresult, if_true,
        List.take_succ_cons, List.take_zero, List.flatten_cons, List.flatten_nil,
        List.append_nil, Socket.transfers, List.map_cons, List.map_nil] at hrun ⊢
      rw [List.cons_append, List.nil_append, hrun]
      exact written_extends recvServerInit_moves s c _ _ _

private theorem authenticate_challenge (hsends : s.conn.sends = []) (hlogs : s.client.LogsVersion)
    (hc : s.client.challenge.length = rfbVncAuthChallengeLength)
    (hversion : version ∈ listingVersions) (input : Bytes)
    (recvs : List Transfer) :
    authenticate.run (s.underway s.client (version ++ (d.list ++ (d.challenge ++ input)))
        (.atMost version.length :: .atMost d.list.length :: .atMost d.challenge.length :: recvs)
        []) =
      closing.run (s.underway (d.challenged version s.client) input recvs
        (d.opens version s.client)) := by
  have haccepted : version ∈ acceptedVersions := by
    revert version
    decide
  have hlist : d.list.length ≤ sizeofSupportedSecurityTypes := Nat.succ_le_of_lt
    (Nat.lt_succ_of_lt d.types_length)
  rw [authenticate_opening hsends hlogs haccepted hlist (Nat.le_of_eq d.challenge_length),
    openingWrites_eq d hc]
  rfl

/-- The handshake with whole turns, on a connection that goes on in any way. -/
theorem authenticate_dialogue (hsends : s.conn.sends = []) (hlogs : s.client.LogsVersion)
    (hc : s.client.challenge.length = rfbVncAuthChallengeLength)
    (hversion : version ∈ listingVersions) (input : Bytes) (recvs : List Transfer) :
    authenticate.run (s.underway s.client ((d.turns version).flatten ++ input)
        (Socket.transfers (d.turns version) ++ recvs) []) =
      .ok (d.result == 0) (s.underway (d.initialized version s.client) input recvs
        (d.answers version s.client)) := by
  rw [d.turns_listing hversion, d.answers_listing hversion]
  simp only [List.cons_append, List.nil_append, List.flatten_cons, Socket.transfers,
    List.map_cons, List.append_assoc]
  rw [authenticate_challenge d hsends hlogs hc hversion]
  exact closing_ends d hsends _ _ _ _

private theorem answers_taken (hsends : s.conn.sends = []) (hlogs : s.client.LogsVersion)
    (hc : s.client.challenge.length = rfbVncAuthChallengeLength)
    (hversion : version ∈ listingVersions) (k : Nat) (input : Bytes) (recvs : List Transfer) :
    s.conn.written ++ (d.answers version s.client).take k <+:
      (finalState (authenticate.run (s.underway s.client
        (((d.turns version).take k).flatten ++ input)
        (Socket.transfers ((d.turns version).take k) ++ recvs) []))).conn.written := by
  have haccepted : version ∈ acceptedVersions := by
    revert version
    decide
  have hlist : d.list.length ≤ sizeofSupportedSecurityTypes := Nat.succ_le_of_lt
    (Nat.lt_succ_of_lt d.types_length)
  rw [d.turns_listing hversion, d.answers_listing hversion]
  simp only [ServerSide.opens, List.cons_append, List.nil_append]
  match k with
  | 0 => exact written_extends authenticate_moves s _ _ _ []
  | 1 =>
    simp only [List.take_succ_cons, List.take_zero, List.flatten_cons, List.flatten_nil,
      List.append_nil, Socket.transfers, List.map_cons, List.map_nil, List.cons_append]
    rw [authenticate_named hsends hlogs haccepted]
    exact written_extends afterVersion_moves s _ _ _ _
  | 2 =>
    simp only [List.take_succ_cons, List.take_zero, List.flatten_cons, List.flatten_nil,
      List.append_nil, Socket.transfers, List.map_cons, List.map_nil, List.cons_append,
      List.append_assoc]
    rw [authenticate_named hsends hlogs haccepted, afterVersion_listed hsends hlist]
    exact written_extends afterChoice_moves s _ _ _ _
  | k + 3 =>
    simp only [List.take_succ_cons, List.flatten_cons, Socket.transfers, List.map_cons,
      List.cons_append, List.append_assoc]
    rw [authenticate_challenge d hsends hlogs hc hversion]
    exact closing_taken d hsends _ k input recvs (d.opens version s.client)

private theorem speaksTo_listing (hsends : s.conn.sends = []) (hlogs : s.client.LogsVersion)
    (hc : s.client.challenge.length = rfbVncAuthChallengeLength)
    (hversion : version ∈ listingVersions) :
    SpeaksTo s version d ((d.turns version).map fun turn => [turn]) where
  joined := by
    rw [List.map_map]
    exact List.map_id'' (fun turn => List.append_nil turn) _
  offered := by
    intro k input recvs
    have hleft : ∀ turn, leftOffers [turn] = [.atMost turn.length] := by
      intro turn
      rw [leftOffers, leftOffers, List.flatten_singleton]
    rw [← List.map_take, hearing_whole s hleft, hearing_whole s fun _ => rfl]
  answers := by
    intro k input recvs
    rw [← List.map_take, hearing_whole s fun _ => rfl]
    exact answers_taken d hsends hlogs hc hversion k input recvs
  ends := by
    have hrun := authenticate_dialogue d hsends hlogs hc hversion s.conn.input s.conn.recvs
    rw [hearing_whole s fun _ => rfl]
    refine ⟨_, hrun, rfl, rfl, ?_, ?_⟩
    · rw [← @challenged_response version d _ hc, ServerSide.initialized]
      split <;> rfl
    · intro hresult
      have hname : cString ((d.serverInit.bytes.drop 24).take d.serverInit.name.length) =
          cString d.serverInit.name := by
        rw [ServerInit.bytes, ← d.serverInit.header_length, List.drop_left, List.take_length]
      rw [ServerSide.initialized, if_pos hresult]
      refine ⟨d.serverInit.load_width _, d.serverInit.load_height _, ?_⟩
      exact (congrArg (fun n => cString ((d.serverInit.bytes.drop 24).take n))
        (d.serverInit.announces _)).trans hname

end

/-- A server that offers only VNC authentication. -/
def plainServer : ServerSide where
  types := [rfbSecurityTypeVncAuth]
  challenge := List.replicate rfbVncAuthChallengeLength 7
  result := 0
  serverInit := namedScreen (ascii "desktop") (by decide)
  types_length := by decide
  offers_vncAuth := by decide
  challenge_length := rfl
  name_length := by decide

/-- On a connection that takes every message, each accepted version but 3.3 is spoken, as long as
the log call after the version has a defined behaviour. The member that holds the challenge is an
array of sixteen bytes. -/
theorem authenticate_speaks_iff {s : Session} (hsends : s.conn.sends = [])
    (hlogs : s.client.LogsVersion)
    (hc : s.client.challenge.length = rfbVncAuthChallengeLength) {version : Bytes}
    (hversion : version ∈ acceptedVersions) :
    Speaks s version ↔ version ≠ rfbProtocolVersion33 := by
  constructor
  · intro h heq
    obtain ⟨turns, hspeaks⟩ := h plainServer
    rw [heq] at hspeaks
    exact not_speaksTo_33 hsends hspeaks
  · intro hne d
    have hlisting : version ∈ listingVersions := by
      revert version
      decide
    exact ⟨_, speaksTo_listing d hsends hlogs hc hlisting⟩

theorem authenticate_speaks_38 : Speaks (handshakeSession []) rfbProtocolVersion38 :=
  (authenticate_speaks_iff rfl (handshakeSession_logsVersion []) rfl (by decide)).mpr (by decide)

/-- The type and the challenge of a 3.3 server are taken for a list, which is answered with a
choice. -/
theorem authenticate_not_speaks_33 :
    rfbProtocolVersion33 ∈ acceptedVersions ∧
      ¬∃ turns, SpeaksTo (handshakeSession []) rfbProtocolVersion33 plainServer turns := by
  refine ⟨by decide, ?_⟩
  rintro ⟨turns, h⟩
  exact not_speaksTo_33 rfl h

end Mrhc
