import Mathlib.Algebra.BigOperators.Group.List.Basic
import Mrhc.Client.D3desInjective
import Mrhc.Client.Underway

/-!
# Segmented handshakes

The handshake with a server of version 3.8 whose messages arrive in pieces: what `authenticate`
does with the first five of them, and which two segmentations have the same outcome.
-/

namespace Mrhc

/-- The server side of a handshake of version 3.8 with VNC authentication. -/
structure ServerHandshake where
  types : List UInt8
  challenge : Bytes
  result : Bytes
  serverInit : Bytes
  types_length : types.length < 256
  offers_vncAuth : rfbSecurityTypeVncAuth ∈ types
  challenge_length : challenge.length = rfbVncAuthChallengeLength
  result_length : result.length = sizeofSecurityResult
  serverInit_length : serverInit.length = 24 + announcedNameLength serverInit
  name_length : announcedNameLength serverInit ≤ rfbBufSize

def ServerHandshake.messages (h : ServerHandshake) : List Bytes :=
  [rfbProtocolVersion38, UInt8.ofNat h.types.length :: h.types, h.challenge, h.result,
    h.serverInit]

/-- A way of cutting each message into pieces that are not empty and no longer than what is
asked for when they arrive. After a version that is cut nothing is asked for. -/
structure Segmentation (h : ServerHandshake) where
  cuts : List (List Bytes)
  joined : cuts.map List.flatten = h.messages
  ne_nil : ∀ pieces ∈ cuts, [] ∉ pieces
  asked : cuts.flatten.getD 0 [] = rfbProtocolVersion38 →
    ∀ p ∈ cuts.flatten.zip handshakeAsks, p.1.length ≤ p.2

/-- The `i`-th piece that arrives. -/
def Segmentation.piece {h : ServerHandshake} (seg : Segmentation h) (i : Nat) : Bytes :=
  seg.cuts.flatten.getD i []

/-- The session in front of a server whose messages arrive in these pieces, ahead of whatever
follows on the connection. -/
def Session.opposite (s : Session) {h : ServerHandshake} (seg : Segmentation h) : Session :=
  s.underway s.client (h.messages.flatten ++ s.conn.input)
    (Socket.transfers seg.cuts.flatten ++ s.conn.recvs) []

/-- The members of the client and the bytes written agree. -/
structure SameMembers (t t' : Session) : Prop where
  written : t.conn.written.flatten = t'.conn.written.flatten
  version : t.client.version = t'.client.version
  securityTypes : t.client.securityTypes = t'.client.securityTypes
  challenge : t.client.challenge = t'.client.challenge
  width : t.client.width = t'.client.width
  height : t.client.height = t'.client.height
  name : t.client.name = t'.client.name

/-- Both runs return, with the same boolean, and leave the same members and bytes written. -/
def SameOutcome (r r' : EStateM.Result Stop Session Bool) : Prop :=
  ∃ b t t', r = .ok b t ∧ r' = .ok b t' ∧ SameMembers t t'

private theorem firstPiece_initial {h : ServerHandshake} (seg : Segmentation h) :
    seg.piece 0 <+: rfbProtocolVersion38 := by
  obtain ⟨cuts, joined, ne_nil, asked⟩ := seg
  obtain ⟨pieces, rest, rfl, hjoined, -⟩ := List.map_eq_cons_iff.mp joined
  rw [← hjoined]
  cases pieces with
  | nil => simp [rfbProtocolVersion38] at hjoined
  | cons piece pieces => exact List.prefix_append _ _

private theorem cut_version {version : Bytes} (hinitial : version <+: rfbProtocolVersion38)
    (hcut : version ≠ rfbProtocolVersion38) :
    formatComplete (cString version) = true ∧ acceptedVersion version = false := by
  have hall : ∀ k < 13, rfbProtocolVersion38.take k ≠ rfbProtocolVersion38 →
      formatComplete (cString (rfbProtocolVersion38.take k)) = true ∧
        acceptedVersion (rfbProtocolVersion38.take k) = false := by decide
  have htake := List.prefix_iff_eq_take.mp hinitial
  have hlen : version.length ≤ 12 := hinitial.length_le
  rw [htake] at hcut ⊢
  exact hall version.length (by omega) hcut

private theorem exists_five {l : List Bytes} (h : 5 ≤ l.length) :
    ∃ rest, l = [l.getD 0 [], l.getD 1 [], l.getD 2 [], l.getD 3 [], l.getD 4 []] ++ rest := by
  match l, h with
  | _ :: _ :: _ :: _ :: _ :: rest, _ => exact ⟨rest, rfl⟩

private theorem five_le_pieces {h : ServerHandshake} (seg : Segmentation h) :
    5 ≤ seg.cuts.flatten.length := by
  have hlength : seg.cuts.length = 5 := by
    rw [← List.length_map List.flatten, seg.joined]
    rfl
  have hmessage : ∀ message ∈ h.messages, message ≠ [] := by
    have hchallenge : 0 < h.challenge.length := by rw [h.challenge_length]; decide
    have hresult : 0 < h.result.length := by rw [h.result_length]; decide
    have hinit : 0 < h.serverInit.length := by rw [h.serverInit_length]; omega
    simp only [ServerHandshake.messages, List.forall_mem_cons, List.length_pos_iff] at *
    exact ⟨by decide, List.cons_ne_nil _ _, hchallenge, hresult, hinit, by simp⟩
  have hcut : ∀ pieces ∈ seg.cuts, 1 ≤ pieces.length := by
    intro pieces hpieces
    apply List.length_pos_iff.mpr
    intro hnil
    apply hmessage pieces.flatten
    · rw [← seg.joined]
      exact List.mem_map_of_mem hpieces
    · rw [hnil]
      rfl
  have hsum := List.length_le_sum_of_one_le (seg.cuts.map List.length) (by simpa using hcut)
  rwa [List.length_map, hlength, ← List.length_flatten] at hsum

private theorem opposite_pieces (s : Session) {h : ServerHandshake} (seg : Segmentation h) :
    ∃ input recvs, s.opposite seg =
      s.underway s.client
        (seg.piece 0 ++ (seg.piece 1 ++ (seg.piece 2 ++ (seg.piece 3 ++ (seg.piece 4 ++ input)))))
        (.atMost (seg.piece 0).length :: .atMost (seg.piece 1).length ::
          .atMost (seg.piece 2).length :: .atMost (seg.piece 3).length ::
          .atMost (seg.piece 4).length :: recvs) [] := by
  obtain ⟨rest, hrest⟩ := exists_five (five_le_pieces seg)
  have hflatten : h.messages.flatten = seg.cuts.flatten.flatten := by
    rw [← seg.joined, List.flatten_flatten]
  refine ⟨rest.flatten ++ s.conn.input, Socket.transfers rest ++ s.conn.recvs, ?_⟩
  rw [Session.opposite, hflatten, hrest]
  simp [Socket.transfers, Segmentation.piece]

private theorem piece_length_le {h : ServerHandshake} {seg : Segmentation h}
    (hversion : seg.piece 0 = rfbProtocolVersion38) :
    (seg.piece 1).length ≤ sizeofSupportedSecurityTypes ∧
      (seg.piece 2).length ≤ rfbVncAuthChallengeLength ∧
      (seg.piece 3).length ≤ sizeofSecurityResult ∧
      (seg.piece 4).length ≤ sizeofServerInit := by
  obtain ⟨rest, hrest⟩ := exists_five (five_le_pieces seg)
  have hasked := seg.asked hversion
  rw [hrest] at hasked
  simp only [handshakeAsks, List.cons_append, List.zip_cons_cons, List.forall_mem_cons] at hasked
  exact ⟨hasked.2.1, hasked.2.2.1, hasked.2.2.2.1, hasked.2.2.2.2.1⟩

/-! What `authenticate` does with the pieces. -/

section

variable (s : Session) {h : ServerHandshake} (seg : Segmentation h)

/-- The client after the first three pieces. -/
def Segmentation.opened (c : VncClient) : VncClient :=
  c.opening (seg.piece 0) (seg.piece 1) (seg.piece 2)

def Segmentation.openedWrites (c : VncClient) : List Bytes :=
  c.openingWrites (seg.piece 0) (seg.piece 1) (seg.piece 2)

private theorem opposite_rejected (hversion : seg.piece 0 ≠ rfbProtocolVersion38) :
    ∃ input recvs, authenticate.run (s.opposite seg) =
      .ok false (s.underway s.client input recvs []) := by
  obtain ⟨input, recvs, hs⟩ := opposite_pieces s seg
  obtain ⟨hformat, hrejected⟩ := cut_version (firstPiece_initial seg) hversion
  have hlen : (seg.piece 0).length ≤ sizeofProtocolVersion := (firstPiece_initial seg).length_le
  rw [hs, authenticate_eq]
  exact ⟨_, _, require_false (recvProtocolVersion_rejected hlen hformat hrejected)⟩

private theorem opposite_opened (hsends : s.conn.sends = []) (hlogs : s.client.LogsVersion)
    (hversion : seg.piece 0 = rfbProtocolVersion38) :
    ∃ input recvs, authenticate.run (s.opposite seg) =
      closing.run (s.underway (seg.opened s.client) (seg.piece 3 ++ (seg.piece 4 ++ input))
        (.atMost (seg.piece 3).length :: .atMost (seg.piece 4).length :: recvs)
        (seg.openedWrites s.client)) := by
  obtain ⟨input, recvs, hs⟩ := opposite_pieces s seg
  obtain ⟨htypes, hchallenge, -, -⟩ := piece_length_le hversion
  have haccepted : seg.piece 0 ∈ acceptedVersions := by
    rw [hversion]
    decide
  refine ⟨input, recvs, ?_⟩
  rw [hs, authenticate_opening hsends hlogs haccepted htypes hchallenge]
  rfl

private theorem opposite_refused (hsends : s.conn.sends = []) (hlogs : s.client.LogsVersion)
    (hversion : seg.piece 0 = rfbProtocolVersion38) (hresult : load32 (seg.piece 3) 0 ≠ 0) :
    ∃ input recvs, authenticate.run (s.opposite seg) =
      .ok false (s.underway (seg.opened s.client) input recvs (seg.openedWrites s.client)) := by
  obtain ⟨input, recvs, hrun⟩ := opposite_opened s seg hsends hlogs hversion
  obtain ⟨-, -, hlen, -⟩ := piece_length_le hversion
  exact ⟨_, _, hrun.trans (closing_refused hlen hresult)⟩

private theorem opposite_result (hsends : s.conn.sends = []) (hlogs : s.client.LogsVersion)
    (hversion : seg.piece 0 = rfbProtocolVersion38) (hresult : load32 (seg.piece 3) 0 = 0) :
    ∃ input recvs, authenticate.run (s.opposite seg) =
      if announcedNameLength (seg.piece 4) ≤ rfbBufSize then
        .ok true (s.underway ((seg.opened s.client).withServerInit (seg.piece 4)) input recvs
          (seg.openedWrites s.client ++ [[rfbSharedFlagOn]]))
      else .error .outOfBounds (s.underway { seg.opened s.client with
        width := ntohs (load16 (seg.piece 4) 0)
        height := ntohs (load16 (seg.piece 4) 2) } input recvs
          (seg.openedWrites s.client ++ [[rfbSharedFlagOn]])) := by
  obtain ⟨input, recvs, hrun⟩ := opposite_opened s seg hsends hlogs hversion
  obtain ⟨-, -, hlen, hinit⟩ := piece_length_le hversion
  refine ⟨input, recvs, ?_⟩
  rw [hrun, closing_result hlen hresult hsends, recvServerInit_piece hinit]

end

private theorem sameOutcome_ok {b b' : Bool} {t t' : Session} :
    SameOutcome (.ok b t) (.ok b' t') ↔ b = b' ∧ SameMembers t t' := by
  constructor
  · intro hsame
    obtain ⟨_, _, _, heq, heq', hmembers⟩ := hsame
    cases heq
    cases heq'
    exact ⟨rfl, hmembers⟩
  · intro hsame
    obtain ⟨rfl, hmembers⟩ := hsame
    exact ⟨b, t, t', rfl, rfl, hmembers⟩

private theorem SameOutcome.symm {r r' : EStateM.Result Stop Session Bool}
    (h : SameOutcome r r') : SameOutcome r' r := by
  obtain ⟨b, t, t', hr, hr', hmembers⟩ := h
  exact ⟨b, t', t, hr', hr, ⟨hmembers.written.symm, hmembers.version.symm,
    hmembers.securityTypes.symm, hmembers.challenge.symm, hmembers.width.symm,
    hmembers.height.symm, hmembers.name.symm⟩⟩

private theorem not_sameOutcome_error {e : Stop} {t : Session}
    {r : EStateM.Result Stop Session Bool} : ¬SameOutcome (.error e t) r := by
  intro hsame
  obtain ⟨_, _, _, heq, -⟩ := hsame
  cases heq

private theorem sameMembers_underway {s : Session} {c c' : VncClient} {input input' : Bytes}
    {recvs recvs' : List Transfer} {written written' : List Bytes} :
    SameMembers (s.underway c input recvs written) (s.underway c' input' recvs' written') ↔
      written.flatten = written'.flatten ∧ c.version = c'.version ∧
        c.securityTypes = c'.securityTypes ∧ c.challenge = c'.challenge ∧ c.width = c'.width ∧
        c.height = c'.height ∧ c.name = c'.name := by
  constructor
  · intro h
    refine ⟨?_, h.version, h.securityTypes, h.challenge, h.width, h.height, h.name⟩
    have hwritten := h.written
    simpa [Session.underway] using hwritten
  · intro h
    obtain ⟨hwritten, hversion, hsecurity, hchallenge, hwidth, hheight, hname⟩ := h
    refine ⟨?_, hversion, hsecurity, hchallenge, hwidth, hheight, hname⟩
    simpa [Session.underway] using hwritten

theorem encryptChallenge_injective (key : Bytes) {challenge challenge' : Bytes}
    (h : challenge.length = rfbVncAuthChallengeLength)
    (h' : challenge'.length = rfbVncAuthChallengeLength)
    (heq : encryptChallenge key challenge = encryptChallenge key challenge') :
    challenge = challenge' := by
  have hsplit : ∀ x : Bytes, x.length = 16 → x = x.take 8 ++ (x.drop 8).take 8 := by
    intro x hx
    rw [List.take_of_length_le (l := x.drop 8) (by rw [List.length_drop]; omega),
      List.take_append_drop]
  have hlen : rfbVncAuthChallengeLength = 16 := rfl
  have htake : ∀ x : Bytes, x.length = 16 → (x.take 8).length = 8 := by
    intro x hx
    rw [List.length_take, hx]
    rfl
  have hdrop : ∀ x : Bytes, x.length = 16 → ((x.drop 8).take 8).length = 8 := by
    intro x hx
    rw [List.length_take, List.length_drop, hx]
    rfl
  rw [hlen] at h h'
  simp only [encryptChallenge] at heq
  obtain ⟨hfirst, hsecond⟩ := List.append_inj heq (by rw [D3des.des_length, D3des.des_length])
  rw [hsplit challenge h, hsplit challenge' h',
    D3des.des_injective _ (htake _ h) (htake _ h') hfirst,
    D3des.des_injective _ (hdrop _ h) (hdrop _ h') hsecond]

/-- Two buffers from which `recv_server_init` sets the same members, without reading past
`name_string`. -/
structure ServerInitAlike (buf buf' : Bytes) : Prop where
  nameLength : announcedNameLength buf ≤ rfbBufSize
  nameLength' : announcedNameLength buf' ≤ rfbBufSize
  width : ntohs (load16 buf 0) = ntohs (load16 buf' 0)
  height : ntohs (load16 buf 2) = ntohs (load16 buf' 2)
  name : cString ((buf.drop 24).take (announcedNameLength buf)) =
    cString ((buf'.drop 24).take (announcedNameLength buf'))

/-- The first five pieces of two segmentations carry the same data: the version is cut in both, or
it is whole in both, the second and third pieces have the same security types and challenge, and
the fourth pieces both refuse or both accept with fifth pieces alike. -/
def ReadAlike (c : VncClient) {h : ServerHandshake} (seg seg' : Segmentation h) : Prop :=
  (seg.piece 0 ≠ rfbProtocolVersion38 ∧ seg'.piece 0 ≠ rfbProtocolVersion38) ∨
    (seg.piece 0 = rfbProtocolVersion38 ∧ seg'.piece 0 = rfbProtocolVersion38 ∧
      listedTypes (seg.piece 1) = listedTypes (seg'.piece 1) ∧
      c.challengedBy (seg.piece 2) = c.challengedBy (seg'.piece 2) ∧
      ((load32 (seg.piece 3) 0 ≠ 0 ∧ load32 (seg'.piece 3) 0 ≠ 0) ∨
        (load32 (seg.piece 3) 0 = 0 ∧ load32 (seg'.piece 3) 0 = 0 ∧
          ServerInitAlike (seg.piece 4) (seg'.piece 4))))

section

variable {s : Session} {h : ServerHandshake} {seg seg' : Segmentation h}

private theorem challengedBy_length {c : VncClient} {buf : Bytes}
    (hlen : c.challenge.length = rfbVncAuthChallengeLength)
    (hbuf : buf.length ≤ rfbVncAuthChallengeLength) :
    (c.challengedBy buf).length = rfbVncAuthChallengeLength := by
  rw [VncClient.challengedBy, List.length_append, List.length_drop]
  omega

private theorem opened_alike (hchallenge : s.client.challenge.length = rfbVncAuthChallengeLength)
    (hversion : seg.piece 0 = rfbProtocolVersion38)
    (hversion' : seg'.piece 0 = rfbProtocolVersion38) :
    ((seg.opened s.client).securityTypes = (seg'.opened s.client).securityTypes ∧
        (seg.opened s.client).challenge = (seg'.opened s.client).challenge) ↔
      listedTypes (seg.piece 1) = listedTypes (seg'.piece 1) ∧
        s.client.challengedBy (seg.piece 2) = s.client.challengedBy (seg'.piece 2) := by
  constructor
  · intro hsame
    obtain ⟨htypes, hresponse⟩ := hsame
    refine ⟨List.append_cancel_left htypes, ?_⟩
    exact encryptChallenge_injective _
      (challengedBy_length hchallenge (piece_length_le hversion).2.1)
      (challengedBy_length hchallenge (piece_length_le hversion').2.1) hresponse
  · intro hsame
    obtain ⟨htypes, hchallenged⟩ := hsame
    simp only [Segmentation.opened, VncClient.opening, VncClient.responding, htypes, hchallenged]
    exact ⟨trivial, rfl⟩

private theorem openedWrites_eq (hversion : seg.piece 0 = seg'.piece 0)
    (hresponse : (seg.opened s.client).challenge = (seg'.opened s.client).challenge) :
    seg.openedWrites s.client = seg'.openedWrites s.client := by
  simp only [Segmentation.opened] at hresponse
  rw [Segmentation.openedWrites, Segmentation.openedWrites, VncClient.openingWrites,
    VncClient.openingWrites, hresponse, hversion]

private theorem rejected_ne_opened (hsends : s.conn.sends = []) (hlogs : s.client.LogsVersion)
    (hversion : seg.piece 0 ≠ rfbProtocolVersion38)
    (hversion' : seg'.piece 0 = rfbProtocolVersion38) :
    ¬SameOutcome (authenticate.run (s.opposite seg)) (authenticate.run (s.opposite seg')) := by
  intro hsame
  obtain ⟨_, _, hrun⟩ := opposite_rejected s seg hversion
  rw [hrun] at hsame
  have hwritten : ([] : List Bytes).flatten ≠ (seg'.openedWrites s.client).flatten := by
    rw [Segmentation.openedWrites, VncClient.openingWrites, hversion']
    intro hnil
    simp [rfbProtocolVersion38] at hnil
  by_cases hresult : load32 (seg'.piece 3) 0 = 0
  · obtain ⟨_, _, hrun'⟩ := opposite_result s seg' hsends hlogs hversion' hresult
    rw [hrun'] at hsame
    split at hsame
    · exact absurd (sameOutcome_ok.mp hsame).1 Bool.false_ne_true
    · exact not_sameOutcome_error hsame.symm
  · obtain ⟨_, _, hrun'⟩ := opposite_refused s seg' hsends hlogs hversion' hresult
    rw [hrun'] at hsame
    exact hwritten (sameMembers_underway.mp (sameOutcome_ok.mp hsame).2).1

private theorem refused_ne_accepted (hsends : s.conn.sends = []) (hlogs : s.client.LogsVersion)
    (hversion : seg.piece 0 = rfbProtocolVersion38)
    (hversion' : seg'.piece 0 = rfbProtocolVersion38)
    (hresult : load32 (seg.piece 3) 0 ≠ 0) (hresult' : load32 (seg'.piece 3) 0 = 0) :
    ¬SameOutcome (authenticate.run (s.opposite seg)) (authenticate.run (s.opposite seg')) := by
  intro hsame
  obtain ⟨_, _, hrun⟩ := opposite_refused s seg hsends hlogs hversion hresult
  obtain ⟨_, _, hrun'⟩ := opposite_result s seg' hsends hlogs hversion' hresult'
  rw [hrun, hrun'] at hsame
  split at hsame
  · exact absurd (sameOutcome_ok.mp hsame).1 Bool.false_ne_true
  · exact not_sameOutcome_error hsame.symm

private theorem refused_same_iff (hsends : s.conn.sends = []) (hlogs : s.client.LogsVersion)
    (hchallenge : s.client.challenge.length = rfbVncAuthChallengeLength)
    (hversion : seg.piece 0 = rfbProtocolVersion38)
    (hversion' : seg'.piece 0 = rfbProtocolVersion38)
    (hresult : load32 (seg.piece 3) 0 ≠ 0) (hresult' : load32 (seg'.piece 3) 0 ≠ 0) :
    SameOutcome (authenticate.run (s.opposite seg)) (authenticate.run (s.opposite seg')) ↔
      listedTypes (seg.piece 1) = listedTypes (seg'.piece 1) ∧
        s.client.challengedBy (seg.piece 2) = s.client.challengedBy (seg'.piece 2) := by
  have heq := hversion.trans hversion'.symm
  obtain ⟨_, _, hrun⟩ := opposite_refused s seg hsends hlogs hversion hresult
  obtain ⟨_, _, hrun'⟩ := opposite_refused s seg' hsends hlogs hversion' hresult'
  rw [hrun, hrun', sameOutcome_ok, sameMembers_underway,
    ← opened_alike hchallenge hversion hversion']
  constructor
  · intro hsame
    exact ⟨hsame.2.2.2.1, hsame.2.2.2.2.1⟩
  · intro hsame
    exact ⟨rfl, congrArg _ (openedWrites_eq heq hsame.2), heq, hsame.1, hsame.2, rfl, rfl, rfl⟩

private theorem accepted_same_iff (hsends : s.conn.sends = []) (hlogs : s.client.LogsVersion)
    (hchallenge : s.client.challenge.length = rfbVncAuthChallengeLength)
    (hversion : seg.piece 0 = rfbProtocolVersion38)
    (hversion' : seg'.piece 0 = rfbProtocolVersion38)
    (hresult : load32 (seg.piece 3) 0 = 0) (hresult' : load32 (seg'.piece 3) 0 = 0) :
    SameOutcome (authenticate.run (s.opposite seg)) (authenticate.run (s.opposite seg')) ↔
      listedTypes (seg.piece 1) = listedTypes (seg'.piece 1) ∧
        s.client.challengedBy (seg.piece 2) = s.client.challengedBy (seg'.piece 2) ∧
        ServerInitAlike (seg.piece 4) (seg'.piece 4) := by
  have heq := hversion.trans hversion'.symm
  obtain ⟨_, _, hrun⟩ := opposite_result s seg hsends hlogs hversion hresult
  obtain ⟨_, _, hrun'⟩ := opposite_result s seg' hsends hlogs hversion' hresult'
  rw [hrun, hrun', ← and_assoc, ← opened_alike hchallenge hversion hversion']
  by_cases hname : announcedNameLength (seg.piece 4) ≤ rfbBufSize
  · by_cases hname' : announcedNameLength (seg'.piece 4) ≤ rfbBufSize
    · rw [if_pos hname, if_pos hname', sameOutcome_ok, sameMembers_underway]
      constructor
      · intro hsame
        obtain ⟨-, -, -, hsecurity, hresponse, hwidth, hheight, hnames⟩ := hsame
        exact ⟨⟨hsecurity, hresponse⟩, hname, hname', hwidth, hheight, hnames⟩
      · intro hsame
        obtain ⟨⟨hsecurity, hresponse⟩, halike⟩ := hsame
        rw [openedWrites_eq heq hresponse]
        exact ⟨rfl, rfl, heq, hsecurity, hresponse, halike.width, halike.height, halike.name⟩
    · rw [if_pos hname, if_neg hname']
      constructor
      · intro hsame
        exact absurd hsame.symm not_sameOutcome_error
      · intro hsame
        exact absurd hsame.2.nameLength' hname'
  · rw [if_neg hname]
    constructor
    · intro hsame
      exact absurd hsame not_sameOutcome_error
    · intro hsame
      exact absurd hsame.2.nameLength hname

end

/-- Two segmentations of a handshake have the same outcome exactly when the client reads the same
from their first five pieces, as long as the log call after the version has a defined behaviour. -/
theorem authenticate_segmentation (s : Session) (hsends : s.conn.sends = [])
    (hlogs : s.client.LogsVersion)
    (hchallenge : s.client.challenge.length = rfbVncAuthChallengeLength) {h : ServerHandshake}
    (seg seg' : Segmentation h) :
    SameOutcome (authenticate.run (s.opposite seg)) (authenticate.run (s.opposite seg')) ↔
      ReadAlike s.client seg seg' := by
  by_cases hversion : seg.piece 0 = rfbProtocolVersion38
  · by_cases hversion' : seg'.piece 0 = rfbProtocolVersion38
    · simp only [ReadAlike, hversion, hversion', ne_eq, not_true_eq_false, false_and, false_or,
        true_and]
      by_cases hresult : load32 (seg.piece 3) 0 = 0
      · by_cases hresult' : load32 (seg'.piece 3) 0 = 0
        · simp only [hresult, hresult', not_true_eq_false, false_and, false_or, true_and]
          exact accepted_same_iff hsends hlogs hchallenge hversion hversion' hresult hresult'
        · have hne := refused_ne_accepted hsends hlogs hversion' hversion hresult' hresult
          simp only [hresult, hresult', not_true_eq_false, false_and, and_false, or_false,
            iff_false]
          exact fun hsame => hne hsame.symm
      · by_cases hresult' : load32 (seg'.piece 3) 0 = 0
        · have hne := refused_ne_accepted hsends hlogs hversion hversion' hresult hresult'
          simp only [hresult, hresult', not_true_eq_false, false_and, and_false, or_false,
            iff_false]
          exact hne
        · simp only [hresult, hresult', not_false_eq_true, false_and, or_false, and_true]
          exact refused_same_iff hsends hlogs hchallenge hversion hversion' hresult hresult'
    · have hne := rejected_ne_opened hsends hlogs hversion' hversion
      simp only [ReadAlike, hversion, hversion', ne_eq, not_true_eq_false, false_and, and_false,
        or_false, iff_false]
      exact fun hsame => hne hsame.symm
  · by_cases hversion' : seg'.piece 0 = rfbProtocolVersion38
    · have hne := rejected_ne_opened hsends hlogs hversion hversion'
      simp only [ReadAlike, hversion, hversion', ne_eq, not_true_eq_false, false_and, and_false,
        or_false, iff_false]
      exact hne
    · obtain ⟨_, _, hrun⟩ := opposite_rejected s seg hversion
      obtain ⟨_, _, hrun'⟩ := opposite_rejected s seg' hversion'
      rw [hrun, hrun', sameOutcome_ok, sameMembers_underway]
      exact ⟨fun _ => Or.inl ⟨hversion, hversion'⟩,
        fun _ => ⟨rfl, rfl, rfl, rfl, rfl, rfl, rfl, rfl⟩⟩

/-- A server that accepts the password and announces a name with a terminating zero. -/
def namedServer : ServerHandshake where
  types := [2]
  challenge := List.replicate 16 7
  result := [0, 0, 0, 0]
  serverInit := [0, 1, 0, 1] ++ List.replicate 16 0 ++ [0, 0, 0, 2] ++ [0x41, 0]
  types_length := by decide
  offers_vncAuth := by decide
  challenge_length := by decide
  result_length := by decide
  serverInit_length := by decide
  name_length := by decide

def namedServerWhole : Segmentation namedServer where
  cuts := namedServer.messages.map fun message => [message]
  joined := by decide
  ne_nil := by decide
  asked := by decide

def namedServerCutName : Segmentation namedServer where
  cuts := (namedServer.messages.take 4).map (fun message => [message]) ++
    [[namedServer.serverInit.take 25, namedServer.serverInit.drop 25]]
  joined := by decide
  ne_nil := by decide
  asked := by decide

def namedServerCutVersion : Segmentation namedServer where
  cuts := [rfbProtocolVersion38.take 1, rfbProtocolVersion38.drop 1] ::
    (namedServer.messages.drop 1).map fun message => [message]
  joined := by decide
  ne_nil := by decide
  asked := by decide

theorem authenticate_segmentation_name :
    SameOutcome (authenticate.run ((handshakeSession []).opposite namedServerWhole))
      (authenticate.run ((handshakeSession []).opposite namedServerCutName)) := by
  apply (authenticate_segmentation (handshakeSession []) rfl (handshakeSession_logsVersion []) rfl
    namedServerWhole namedServerCutName).mpr
  have hinit : ServerInitAlike (namedServerWhole.piece 4) (namedServerCutName.piece 4) :=
    ⟨by decide, by decide, by decide, by decide, by decide⟩
  exact Or.inr ⟨by decide, by decide, by decide, by decide, Or.inr ⟨by decide, by decide, hinit⟩⟩

/-- A version that arrives in two pieces is refused, and accepted when it arrives in one. -/
theorem authenticate_cutVersion :
    (∃ t, authenticate.run ((handshakeSession []).opposite namedServerWhole) = .ok true t) ∧
      (∃ t, authenticate.run ((handshakeSession []).opposite namedServerCutVersion) =
        .ok false t) ∧
      ¬SameOutcome (authenticate.run ((handshakeSession []).opposite namedServerWhole))
        (authenticate.run ((handshakeSession []).opposite namedServerCutVersion)) := by
  obtain ⟨_, _, hwhole⟩ := opposite_result (handshakeSession []) namedServerWhole rfl
    (handshakeSession_logsVersion []) (by decide) (by decide)
  obtain ⟨_, _, hcut⟩ := opposite_rejected (handshakeSession []) namedServerCutVersion (by decide)
  rw [if_pos (by decide)] at hwhole
  refine ⟨⟨_, hwhole⟩, ⟨_, hcut⟩, ?_⟩
  rw [hwhole, hcut, sameOutcome_ok]
  exact fun hsame => absurd hsame.1 (by decide)

end Mrhc
