import Mrhc.Client.D3desStandard
import Mrhc.Client.Dialogues
import Mrhc.Client.Response

/-!
# Handshakes with a standard server

A server that knows a password and judges the response by the Data Encryption Standard. The client
passes exactly when the two passwords make the same of the challenge, and it always does when they
agree in the low seven bits of their first eight characters.
-/

namespace Mrhc

/-- What the standard makes of the halves of a challenge under a password. -/
def standardResponse (password challenge : Bytes) : Des.Bits :=
  let key := D3des.keyBits (passwordKey password)
  Des.encrypt key (D3des.blockBits (challenge.take 8)) ++
    Des.encrypt key (D3des.blockBits (challenge.drop 8))

/-- The result that a server with this password gives to a response. -/
def verdict (password challenge response : Bytes) : UInt32 :=
  if D3des.blockBits response = standardResponse password challenge then 0 else 1

/-- The server sends the result that it gives to the client's response, the third message of a
client in these versions. -/
def ServerSide.Judges (d : ServerSide) (password version : Bytes) (c : VncClient) : Prop :=
  d.result = verdict password d.challenge ((d.answers version c).getD 2 [])

/-- Passwords that agree in the low seven bits of their first eight characters. -/
def Alike (password password' : Bytes) : Prop :=
  ∀ i < 8, (passwordKey password).getD i 0 &&& 0x7f = (passwordKey password').getD i 0 &&& 0x7f

/-- What `send_vnc_auth_response` makes of a challenge is what the standard makes of it. -/
theorem encryptChallenge_standard {key password challenge : Bytes}
    (hkey : D3des.deskey key .en0 = D3des.deskey (passwordKey password) .en0)
    (hchallenge : challenge.length = rfbVncAuthChallengeLength) :
    D3des.blockBits (encryptChallenge key challenge) = standardResponse password challenge := by
  have hhalf : (challenge.drop 8).take 8 = challenge.drop 8 := by
    apply List.take_of_length_le
    rw [List.length_drop, hchallenge]
    decide
  rw [encryptChallenge, hkey, hhalf, D3des.blockBits, List.flatMap_append]
  exact congrArg₂ (· ++ ·) (D3des.des_deskey _ .en0 _) (D3des.des_deskey _ .en0 _)

theorem standardResponse_of_alike {password password' challenge : Bytes}
    (hchallenge : challenge.length = rfbVncAuthChallengeLength) (h : Alike password password') :
    standardResponse password challenge = standardResponse password' challenge := by
  rw [← encryptChallenge_standard rfl hchallenge,
    ← encryptChallenge_standard (D3des.deskey_of_low_seven .en0 h) hchallenge]

section

variable {s : Session} {version : Bytes} (d : ServerSide)

theorem third_answer (hversion : version ∈ listingVersions) (c : VncClient) :
    (d.answers version c).getD 2 [] = encryptChallenge c.passwordMemory d.challenge := by
  rw [ServerSide.answers_listing d hversion]
  rfl

/-- With a password of at least seven characters, which fill the key, a server that judges by the
standard accepts exactly when the two passwords make the same of the challenge. -/
theorem ServerSide.Judges.accepts_iff {d : ServerSide} {c : VncClient} {password : Bytes}
    (hjudges : d.Judges password version c) (hversion : version ∈ listingVersions)
    (hlength : 7 ≤ c.password.length) :
    d.result = 0 ↔
      standardResponse c.password d.challenge = standardResponse password d.challenge := by
  have hstandard : D3des.blockBits (encryptChallenge c.passwordMemory d.challenge) =
      standardResponse c.password d.challenge :=
    encryptChallenge_standard (D3des.deskey_congr (passwordMemory_key c hlength) .en0)
      d.challenge_length
  rw [hjudges, third_answer d hversion, verdict, hstandard]
  split
  · simpa
  · simpa

/-- **Login at a standard server.** With a password of at least seven characters, which fill the
key, and a log call after the version that has a defined behaviour, `authenticate` passes every
server that judges by the standard exactly when the two passwords make the same of the challenge,
and so whenever they are alike. -/
theorem authenticate_standardServer (hsends : s.conn.sends = []) (hlogs : s.client.LogsVersion)
    (hc : s.client.challenge.length = rfbVncAuthChallengeLength)
    (hlength : 7 ≤ s.client.password.length) (hversion : version ∈ listingVersions)
    {password : Bytes} (hjudges : d.Judges password version s.client) (input : Bytes)
    (recvs : List Transfer) :
    ∃ b t, authenticate.run (s.underway s.client ((d.turns version).flatten ++ input)
        (Socket.transfers (d.turns version) ++ recvs) []) = .ok b t ∧
      (b = true ↔
        standardResponse s.client.password d.challenge = standardResponse password d.challenge) ∧
      (Alike s.client.password password → b = true) := by
  have hresult : (d.result == 0) = true ↔
      standardResponse s.client.password d.challenge = standardResponse password d.challenge :=
    beq_iff_eq.trans (hjudges.accepts_iff hversion hlength)
  refine ⟨_, _, authenticate_dialogue d hsends hlogs hc hversion input recvs, hresult, ?_⟩
  intro halike
  exact hresult.mpr (standardResponse_of_alike d.challenge_length halike)

end

/-- A server whose password goes on after the eighth character of the client's. -/
def standardServer : ServerSide :=
  { plainServer with
    result := verdict (ascii "testtestX") plainServer.challenge
      (encryptChallenge (handshakeSession []).client.passwordMemory plainServer.challenge) }

private theorem standardServer_judges :
    standardServer.Judges (ascii "testtestX") rfbProtocolVersion38
      (handshakeSession []).client := by
  rw [ServerSide.Judges, third_answer _ (by decide), standardServer]

theorem authenticate_standardServer_longer :
    ∃ t, authenticate.run ((handshakeSession []).underway (handshakeSession []).client
        ((standardServer.turns rfbProtocolVersion38).flatten ++ [])
        (Socket.transfers (standardServer.turns rfbProtocolVersion38) ++ []) []) = .ok true t := by
  have halike : Alike (ascii "testtest") (ascii "testtestX") := by
    unfold Alike
    decide
  obtain ⟨b, t, hrun, -, hpasses⟩ := authenticate_standardServer standardServer rfl
    (handshakeSession_logsVersion []) rfl (by decide) (by decide) standardServer_judges [] []
  rw [hpasses halike] at hrun
  exact ⟨t, hrun⟩

end Mrhc
