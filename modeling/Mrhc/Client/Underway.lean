import Mrhc.Client.Authentication
import Mrhc.Client.Frames

/-!
# Handshakes underway

A session in the middle of a handshake is described by its client, by what is left to receive and
by the messages written so far. Each step of `authenticate` takes it to the next one when the
expected message arrives in one piece and every send succeeds.
-/

namespace Mrhc

/-- The session with another client, after some receives and with these messages written. -/
def Session.underway (s : Session) (c : VncClient) (input : Bytes) (recvs : List Transfer)
    (written : List Bytes) : Session where
  client := c
  conn := { s.conn with input := input, recvs := recvs, written := s.conn.written ++ written }

/-- The challenge that a received buffer leaves in the client. -/
def VncClient.challengedBy (c : VncClient) (buf : Bytes) : Bytes :=
  buf ++ c.challenge.drop buf.length

/-- The client once its response is sent, from the buffers received until then. -/
def VncClient.opening (c : VncClient) (version types challenge : Bytes) : VncClient :=
  VncClient.responding { c with
    version := version
    securityTypes := c.securityTypes ++ listedTypes types
    challenge := c.challengedBy challenge }

/-- The bytes of the version, the security type and the response. -/
def VncClient.openingWrites (c : VncClient) (version types challenge : Bytes) : List Bytes :=
  [version, [rfbSecurityTypeVncAuth], (c.opening version types challenge).challenge]

section

variable {s : Session} {c : VncClient} {input : Bytes} {recvs : List Transfer}
  {written : List Bytes}

theorem received_piece {piece : Bytes} {n : Nat} (hn : piece.length ≤ n)
    (f : Bytes → Session → EStateM.Result Stop Session Bool) :
    (s.underway c (piece ++ input) (.atMost piece.length :: recvs) written).received n f =
      f piece (s.underway c input recvs written) :=
  Session.received_some (Socket.recv_piece _ piece input recvs n rfl rfl hn) f

theorem send_underway (hsends : s.conn.sends = []) {x : ClientM Bool} {message : Bytes}
    {f : VncClient → VncClient}
    (hrun : x.run (s.underway c input recvs written) =
      .ok ((s.underway c input recvs written).conn.send message).1
        (((s.underway c input recvs written).update f).sent message)) :
    x.run (s.underway c input recvs written) =
      .ok true (s.underway (f c) input recvs (written ++ [message])) := by
  have hsend : (s.underway c input recvs written).conn.send message =
      (true, (s.underway c input recvs (written ++ [message])).conn) := by
    rw [Socket.send_unscheduled (c := (s.underway c input recvs written).conn) hsends]
    simp [Session.underway]
  rw [hrun, Session.sent, Session.update_conn, hsend]
  rfl

variable {version types challenge : Bytes}

theorem recvProtocolVersion_piece (hversion : version ∈ acceptedVersions) :
    recvProtocolVersion.run
        (s.underway c (version ++ input) (.atMost version.length :: recvs) written) =
      .ok true (s.underway { c with version := version } input recvs written) := by
  obtain ⟨hformat, haccepted, hstring, hlength⟩ := accepted_version_steps hversion
  rw [recvProtocolVersion_run, received_piece (by omega)]
  simp only [hstring, hformat, haccepted, Bool.not_true, Bool.false_eq_true, if_false, if_true]
  rfl

theorem recvProtocolVersion_rejected (hlen : version.length ≤ sizeofProtocolVersion)
    (hformat : formatComplete (cString version) = true)
    (hrejected : acceptedVersion version = false) :
    recvProtocolVersion.run
        (s.underway c (version ++ input) (.atMost version.length :: recvs) written) =
      .ok false (s.underway c input recvs written) := by
  rw [recvProtocolVersion_run, received_piece hlen]
  simp only [hformat, hrejected, Bool.not_true, Bool.false_eq_true, if_false]

theorem sendProtocolVersion_underway (hsends : s.conn.sends = [])
    (hversion : c.version ∈ acceptedVersions) :
    sendProtocolVersion.run (s.underway c input recvs written) =
      logVersion.run (s.underway c input recvs (written ++ [c.version])) := by
  rw [sendProtocolVersion_run (s.underway c input recvs written) hversion]
  exact require_true (send_underway (f := id) hsends (send_match_run c.version _))

theorem sendProtocolVersion_logged (hsends : s.conn.sends = [])
    (hversion : c.version ∈ acceptedVersions) (hlogs : c.LogsVersion) :
    sendProtocolVersion.run (s.underway c input recvs written) =
      .ok true (s.underway c input recvs (written ++ [c.version])) := by
  rw [sendProtocolVersion_underway hsends hversion, logVersion_run _ hversion]
  exact if_pos hlogs

theorem recvSupportedSecurityTypes_piece
    (htypes : types.length ≤ sizeofSupportedSecurityTypes) :
    recvSupportedSecurityTypes.run
        (s.underway c (types ++ input) (.atMost types.length :: recvs) written) =
      .ok true (s.underway { c with securityTypes := c.securityTypes ++ listedTypes types }
        input recvs written) := by
  rw [recvSupportedSecurityTypes_run, received_piece htypes]
  rfl

theorem recvVncAuthChallenge_piece
    (hchallenge : challenge.length ≤ rfbVncAuthChallengeLength) :
    recvVncAuthChallenge.run
        (s.underway c (challenge ++ input) (.atMost challenge.length :: recvs) written) =
      .ok true (s.underway { c with challenge := c.challengedBy challenge }
        input recvs written) := by
  rw [recvVncAuthChallenge_run, received_piece hchallenge]
  rfl

/-- The first two messages, when the version is accepted. -/
theorem authenticate_named (hsends : s.conn.sends = []) (hlogs : c.LogsVersion)
    (hversion : version ∈ acceptedVersions) :
    authenticate.run (s.underway c (version ++ input) (.atMost version.length :: recvs) []) =
      afterVersion.run (s.underway { c with version := version } input recvs [version]) := by
  have hnamed : ({ c with version := version } : VncClient).LogsVersion := hlogs
  rw [authenticate_eq, require_true (recvProtocolVersion_piece hversion),
    require_true (sendProtocolVersion_logged hsends hversion hnamed)]
  rfl

/-- Without a defined log call the handshake goes no further. -/
theorem authenticate_unlogged (hsends : s.conn.sends = []) (hlogs : ¬c.LogsVersion)
    (hversion : version ∈ acceptedVersions) :
    ∃ t, authenticate.run (s.underway c (version ++ input) (.atMost version.length :: recvs) []) =
      .error .badFormat t := by
  let u := s.underway { c with version := version } input recvs [version]
  have hnamed : ¬u.client.LogsVersion := hlogs
  have hsent : sendProtocolVersion.run (s.underway { c with version := version } input recvs []) =
      .error .badFormat u := by
    rw [sendProtocolVersion_underway hsends hversion]
    exact (logVersion_run u hversion).trans (if_neg hnamed)
  exact ⟨u, (require_true (recvProtocolVersion_piece hversion)).trans (require_error hsent)⟩

theorem afterVersion_listed (hsends : s.conn.sends = [])
    (htypes : types.length ≤ sizeofSupportedSecurityTypes) :
    afterVersion.run (s.underway c (types ++ input) (.atMost types.length :: recvs) written) =
      afterChoice.run (s.underway { c with securityTypes := c.securityTypes ++ listedTypes types }
        input recvs (written ++ [[rfbSecurityTypeVncAuth]])) := by
  rw [afterVersion, require_true (recvSupportedSecurityTypes_piece htypes),
    require_true (send_underway (x := sendSecurityType) (f := id) hsends (send_match_run _ _))]
  rfl

theorem afterChoice_challenged (hsends : s.conn.sends = [])
    (hchallenge : challenge.length ≤ rfbVncAuthChallengeLength) :
    afterChoice.run
        (s.underway c (challenge ++ input) (.atMost challenge.length :: recvs) written) =
      closing.run (s.underway
        (VncClient.responding { c with challenge := c.challengedBy challenge }) input recvs
          (written ++ [(VncClient.responding
            { c with challenge := c.challengedBy challenge }).challenge])) := by
  rw [afterChoice, require_true (recvVncAuthChallenge_piece hchallenge),
    require_true (send_underway hsends (sendVncAuthResponse_run _))]
  rfl

/-- The first six messages, when the version is accepted. -/
theorem authenticate_opening (hsends : s.conn.sends = []) (hlogs : c.LogsVersion)
    (hversion : version ∈ acceptedVersions)
    (htypes : types.length ≤ sizeofSupportedSecurityTypes)
    (hchallenge : challenge.length ≤ rfbVncAuthChallengeLength) :
    authenticate.run (s.underway c (version ++ (types ++ (challenge ++ input)))
        (.atMost version.length :: .atMost types.length :: .atMost challenge.length :: recvs) []) =
      closing.run (s.underway (c.opening version types challenge) input recvs
        (c.openingWrites version types challenge)) := by
  rw [authenticate_named hsends hlogs hversion, afterVersion_listed hsends htypes,
    afterChoice_challenged hsends hchallenge]
  rfl

variable {result serverInit : Bytes}

theorem closing_refused (hlen : result.length ≤ sizeofSecurityResult)
    (hresult : load32 result 0 ≠ 0) :
    closing.run (s.underway c (result ++ input) (.atMost result.length :: recvs) written) =
      .ok false (s.underway c input recvs written) := by
  apply require_false
  rw [recvSecurityResult_run, received_piece hlen, beq_false_of_ne hresult]

theorem closing_result (hlen : result.length ≤ sizeofSecurityResult)
    (hresult : load32 result 0 = 0) (hsends : s.conn.sends = []) :
    closing.run (s.underway c (result ++ input) (.atMost result.length :: recvs) written) =
      recvServerInit.run (s.underway c input recvs (written ++ [[rfbSharedFlagOn]])) := by
  have hrun : recvSecurityResult.run
      (s.underway c (result ++ input) (.atMost result.length :: recvs) written) =
        .ok true (s.underway c input recvs written) := by
    rw [recvSecurityResult_run, received_piece hlen, hresult]
    rfl
  rw [closing, require_true hrun,
    require_true (send_underway (x := sendClientInit) (f := id) hsends (send_match_run _ _)),
    require_pure]
  rfl

theorem recvServerInit_piece (hlen : serverInit.length ≤ sizeofServerInit) :
    recvServerInit.run
        (s.underway c (serverInit ++ input) (.atMost serverInit.length :: recvs) written) =
      if announcedNameLength serverInit ≤ rfbBufSize then
        .ok true (s.underway (c.withServerInit serverInit) input recvs written)
      else .error .outOfBounds (s.underway { c with
        width := ntohs (load16 serverInit 0)
        height := ntohs (load16 serverInit 2) } input recvs written) := by
  rw [recvServerInit_run, received_piece hlen]
  rfl

end

end Mrhc
