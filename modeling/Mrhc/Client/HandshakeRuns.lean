import Mrhc.Client.Handshake
import Mrhc.Framework.Programs

/-!
# Runs of the handshake

One equation for each handshake message, and `authenticate` as their checked sequence.
-/

namespace Mrhc

/-- What a received version must look like after zero padding. -/
def acceptedVersion (buf : Bytes) : Bool :=
  let version := zeroPad sizeofProtocolVersion buf
  version = rfbProtocolVersion33 || version = rfbProtocolVersion37 ||
    version = rfbProtocolVersion38

def acceptedVersions : List Bytes :=
  [rfbProtocolVersion33, rfbProtocolVersion37, rfbProtocolVersion38]

/-- The security types that are taken from a received list. -/
def listedTypes (buf : Bytes) : List UInt8 :=
  (List.range (buf.getD 0 0).toNat).map fun i => buf.getD (1 + i) 0

/-- The length of the desktop name that a received `server_init_t` announces. -/
def announcedNameLength (buf : Bytes) : Nat := (ntohl (load32 buf 20)).toNat

/-- The members that `recv_server_init` sets. -/
def VncClient.withServerInit (c : VncClient) (buf : Bytes) : VncClient :=
  { c with
    width := ntohs (load16 buf 0)
    height := ntohs (load16 buf 2)
    name := cString ((buf.drop 24).take (announcedNameLength buf)) }

/-- The session after one `send`. -/
def Session.sent (s : Session) (message : Bytes) : Session := s.on (s.conn.send message).2

theorem send_match_run (message : Bytes) (s : Session) :
    (do if !(← send message) then return false
        return true : ClientM Bool).run s =
      .ok (s.conn.send message).1 (s.sent message) := by
  rw [EStateM.run_bind, send_run]
  cases hsend : (s.conn.send message).1 with
  | false => simp [Session.sent]
  | true => simp [Session.sent]

private theorem zeroPad_eq_iff {n : Nat} {buf text : Bytes} (hlen : buf.length ≤ n)
    (htext : text.length = n) (hzero : 0 ∉ text) : zeroPad n buf = text ↔ buf = text := by
  constructor
  · intro h
    by_cases hshort : buf.length = n
    · simpa [zeroPad, hshort] using h
    · exfalso
      apply hzero
      rw [← h, zeroPad]
      simp only [List.mem_append, List.mem_replicate]
      exact Or.inr ⟨by omega, trivial⟩
  · intro h
    simp [zeroPad, h, htext]

theorem acceptedVersion_iff {buf : Bytes} (hlen : buf.length ≤ sizeofProtocolVersion) :
    acceptedVersion buf = true ↔ buf ∈ acceptedVersions := by
  simp only [acceptedVersion, acceptedVersions, Bool.or_eq_true, decide_eq_true_eq, or_assoc,
    List.mem_cons, List.not_mem_nil, or_false]
  rw [zeroPad_eq_iff hlen rfl (by decide), zeroPad_eq_iff hlen rfl (by decide),
    zeroPad_eq_iff hlen rfl (by decide)]

theorem recvProtocolVersion_run (s : Session) :
    recvProtocolVersion.run s =
      s.received sizeofProtocolVersion fun buf t =>
        if !formatComplete (cString buf) then .error .badFormat t
        else if acceptedVersion buf then
          .ok true (t.update fun c => { c with version := cString buf })
        else .ok false t := by
  rcases hr : s.conn.recv sizeofProtocolVersion with ⟨_ | buf, c⟩
  · simp [recvProtocolVersion, Session.received_none hr, hr]
  · rw [Session.received_some hr]
    simp only [recvProtocolVersion, EStateM.run_bind, recv_run, hr, loggerDebug_run]
    by_cases hfmt : formatComplete (cString buf) = true
    · by_cases h33 : zeroPad sizeofProtocolVersion buf = rfbProtocolVersion33
      · simp [hfmt, acceptedVersion, h33]
      · by_cases h37 : zeroPad sizeofProtocolVersion buf = rfbProtocolVersion37
        · simp [hfmt, acceptedVersion, h37]
        · by_cases h38 : zeroPad sizeofProtocolVersion buf = rfbProtocolVersion38
          · simp [hfmt, acceptedVersion, h38]
          · simp [hfmt, acceptedVersion, h33, h37, h38]
    · simp [hfmt]

/-- The memory behind a version of twelve bytes reads no argument when it is logged as a format. -/
def Residue.LogsVersion (residue : Residue) : Prop :=
  formatComplete (cString residue.versionTail) = true

def VncClient.LogsVersion (c : VncClient) : Prop := formatComplete (cString c.versionTail) = true

instance (c : VncClient) : Decidable c.LogsVersion := inferInstanceAs (Decidable (_ = true))

theorem VncClient.new_logsVersion {residue : Residue} (h : residue.LogsVersion) (host : Bytes)
    (port : Int) (password : Bytes) : (VncClient.new host port password residue).LogsVersion :=
  h

theorem accepted_version_steps {version : Bytes} (h : version ∈ acceptedVersions) :
    formatComplete version = true ∧ acceptedVersion version = true ∧
      cString version = version ∧ version.length = sizeofProtocolVersion := by
  revert version
  decide

/-- What `send_protocol_version` does after its `send`. -/
def logVersion : ClientM Bool := do
  let c ← getClient
  loggerDebug (c.version ++ c.versionTail)
  return true

theorem logVersion_run (s : Session) (hversion : s.client.version ∈ acceptedVersions) :
    logVersion.run s = if s.client.LogsVersion then .ok true s else .error .badFormat s := by
  have hplain : ∀ version ∈ acceptedVersions, 0 ∉ version ∧ 0x25 ∉ version := by decide
  obtain ⟨hzero, hpercent⟩ := hplain s.client.version hversion
  have hcomplete : formatComplete (cString (s.client.version ++ s.client.versionTail)) =
      formatComplete (cString s.client.versionTail) := by
    rw [cString_append hzero, formatComplete_append hpercent]
  rw [logVersion, EStateM.run_bind, getClient_run]
  dsimp only
  rw [EStateM.run_bind, loggerDebug_run, hcomplete]
  by_cases hlogs : s.client.LogsVersion
  · have hformat : formatComplete (cString s.client.versionTail) = true := hlogs
    simp [hformat, hlogs]
  · have hformat : ¬formatComplete (cString s.client.versionTail) = true := hlogs
    simp [hformat, hlogs]

/-- An accepted version is sent back as it is, and then logged. -/
theorem sendProtocolVersion_run (s : Session) (hversion : s.client.version ∈ acceptedVersions) :
    sendProtocolVersion.run s =
      (require (do if !(← send s.client.version) then return false
                   return true) logVersion).run s := by
  obtain ⟨-, -, -, hlength⟩ := accepted_version_steps hversion
  have hfits : ¬sizeofProtocolVersion < s.client.version.length := by omega
  have hpad : zeroPad sizeofProtocolVersion s.client.version = s.client.version := by
    simp [zeroPad, hlength]
  rw [sendProtocolVersion, EStateM.run_bind, getClient_run]
  simp only [if_neg hfits, hpad]
  cases hsend : (s.conn.send s.client.version).1 with
  | false =>
    rw [require_false (by rw [send_match_run, hsend])]
    simp [hsend, Session.sent]
  | true =>
    rw [require_true (by rw [send_match_run, hsend])]
    simp [hsend, Session.sent, logVersion]

theorem recvSupportedSecurityTypes_run (s : Session) :
    recvSupportedSecurityTypes.run s =
      s.received sizeofSupportedSecurityTypes fun buf t => .ok true (t.update fun c =>
        { c with securityTypes := c.securityTypes ++ listedTypes buf }) := by
  rcases hr : s.conn.recv sizeofSupportedSecurityTypes with ⟨_ | buf, c⟩
  · simp [recvSupportedSecurityTypes, Session.received_none hr, hr]
  · rw [Session.received_some hr]
    simp only [recvSupportedSecurityTypes, EStateM.run_bind, recv_run, hr]
    rfl

theorem recvVncAuthChallenge_run (s : Session) :
    recvVncAuthChallenge.run s =
      s.received rfbVncAuthChallengeLength fun buf t => .ok true (t.update fun c =>
        { c with challenge := buf ++ c.challenge.drop buf.length }) := by
  rcases hr : s.conn.recv rfbVncAuthChallengeLength with ⟨_ | buf, c⟩
  · simp [recvVncAuthChallenge, Session.received_none hr, hr]
  · rw [Session.received_some hr]
    simp only [recvVncAuthChallenge, EStateM.run_bind, recv_run, hr]
    rfl

/-- The client after its challenge has been encrypted in place. -/
def VncClient.responding (c : VncClient) : VncClient :=
  { c with challenge := encryptChallenge c.passwordMemory c.challenge }

theorem sendVncAuthResponse_run (s : Session) :
    sendVncAuthResponse.run s =
      .ok (s.conn.send s.client.responding.challenge).1
        ((s.update VncClient.responding).sent s.client.responding.challenge) := by
  have hsend := send_match_run s.client.responding.challenge (s.update VncClient.responding)
  exact hsend

theorem recvSecurityResult_run (s : Session) :
    recvSecurityResult.run s =
      s.received sizeofSecurityResult fun buf t => .ok (load32 buf 0 == 0) t := by
  rcases hr : s.conn.recv sizeofSecurityResult with ⟨_ | buf, c⟩
  · simp [recvSecurityResult, Session.received_none hr, hr]
  · rw [Session.received_some hr]
    simp only [recvSecurityResult, EStateM.run_bind, recv_run, hr]
    by_cases hzero : load32 buf 0 = 0
    · simp [hzero, ntohl_eq_zero, rfbSecurityResultOk]
    · simp [hzero, ntohl_eq_zero, rfbSecurityResultOk]

theorem recvServerInit_run (s : Session) :
    recvServerInit.run s =
      s.received sizeofServerInit fun buf t =>
        if announcedNameLength buf ≤ rfbBufSize then .ok true (t.update (·.withServerInit buf))
        else .error .outOfBounds (t.update fun c =>
          { c with width := ntohs (load16 buf 0), height := ntohs (load16 buf 2) }) := by
  rcases hr : s.conn.recv sizeofServerInit with ⟨_ | buf, c⟩
  · simp [recvServerInit, Session.received_none hr, hr]
  · rw [Session.received_some hr]
    simp only [recvServerInit, EStateM.run_bind, recv_run, hr, modifyClient_run]
    by_cases hname : announcedNameLength buf ≤ rfbBufSize
    · have hfits : ¬ rfbBufSize < (ntohl (load32 buf 20)).toNat := Nat.not_lt.mpr hname
      simp only [hname, hfits, if_true, if_false]
      rfl
    · have hover : rfbBufSize < (ntohl (load32 buf 20)).toNat := Nat.lt_of_not_le hname
      simp only [hname, hover, if_true, if_false]
      rfl

/-- `authenticate` is the checked sequence of its nine messages. -/
theorem authenticate_eq :
    authenticate =
      require recvProtocolVersion (require sendProtocolVersion
        (require recvSupportedSecurityTypes (require sendSecurityType
          (require recvVncAuthChallenge (require sendVncAuthResponse
            (require recvSecurityResult (require sendClientInit
              (require recvServerInit (pure true))))))))) := rfl

end Mrhc
