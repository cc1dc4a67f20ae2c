import Mrhc.Client.HandshakeRuns

/-!
# The response to a challenge

Which bytes of the password's memory the key schedule reads, and what `send_vnc_auth_response`
sends. Every read of `deskey` is at a place that its first table names.
-/

namespace Mrhc

namespace D3des

/-- The indexes of the key bytes that `deskey` reads. -/
def keyReads : List Nat := pc1.map (· >>> 3)

theorem mem_keyReads (i : Nat) : i ∈ keyReads ↔ i < 8 := by
  constructor
  · revert i
    decide
  · revert i
    decide

theorem deskey_congr {key key' : Bytes} (h : ∀ i ∈ keyReads, key.getD i 0 = key'.getD i 0)
    (edf : Mode) : deskey key edf = deskey key' edf := by
  have hbits : pc1m key = pc1m key' := by
    apply List.map_congr_left
    intro l hl
    rw [h (l >>> 3) (List.mem_map_of_mem hl)]
  simp only [deskey, hbits]

end D3des

/-- One step of the loop in `send_vnc_auth_response`: the block at `j` is encrypted in place. -/
def encryptBlock (knL : List UInt64) (challenge : Bytes) (j : Nat) : Bytes :=
  challenge.take j ++ D3des.des knL ((challenge.drop j).take 8) ++ challenge.drop (j + 8)

/-- The loop leaves the two halves of the challenge encrypted on their own. -/
theorem encryptBlocks_eq (key : Bytes) {challenge : Bytes}
    (h : challenge.length = rfbVncAuthChallengeLength) :
    [0, 8].foldl (encryptBlock (D3des.deskey key .en0)) challenge =
      encryptChallenge key challenge := by
  let first := D3des.des (D3des.deskey key .en0) (challenge.take 8)
  have hfirst : encryptBlock (D3des.deskey key .en0) challenge 0 = first ++ challenge.drop 8 := rfl
  have hlength : first.length = 8 := D3des.des_length _ _
  have hend : (first ++ challenge.drop 8).drop 16 = [] := by
    rw [List.drop_eq_nil_iff, List.length_append, List.length_drop, h, hlength]
    decide
  rw [List.foldl_cons, List.foldl_cons, List.foldl_nil, hfirst, encryptBlock,
    List.take_left' hlength, List.drop_left' hlength, hend, List.append_nil, encryptChallenge]

/-- The first eight bytes of a password, padded with zeros. -/
def passwordKey (password : Bytes) : Bytes := zeroPad 8 (password.take 8)

/-- The halves of a challenge, each encrypted under the key of a password. -/
def passwordResponse (password challenge : Bytes) : Bytes :=
  let knL := D3des.deskey (passwordKey password) .en0
  D3des.des knL (challenge.take 8) ++ D3des.des knL (challenge.drop 8)

/-- The response is determined by password and challenge: it is their encryption, no key byte
behind the terminating zero is read, and all clients send the same. -/
structure ResponseDetermined (password challenge : Bytes) : Prop where
  sent : ∀ s : Session, s.client.password = password → s.client.challenge = challenge →
    ∃ c, sendVncAuthResponse.run s =
      .ok (s.conn.send (passwordResponse password challenge)).1
        ((s.update fun _ => c).sent (passwordResponse password challenge))
  reads : ∀ i ∈ D3des.keyReads, i ≤ password.length
  same : ∀ s s' : Session, s.client.password = password → s'.client.password = password →
    s.client.challenge = challenge → s'.client.challenge = challenge → s.conn = s'.conn →
    (finalState (sendVncAuthResponse.run s)).conn = (finalState (sendVncAuthResponse.run s')).conn

/-- The memory of a password of seven characters or more begins with its key. -/
theorem passwordMemory_key (c : VncClient) (h : 7 ≤ c.password.length) :
    ∀ i ∈ D3des.keyReads, c.passwordMemory.getD i 0 = (passwordKey c.password).getD i 0 := by
  intro i hi
  have hlt := (D3des.mem_keyReads i).mp hi
  rw [VncClient.passwordMemory, List.getD_eq_getElem?_getD, List.getD_eq_getElem?_getD]
  by_cases hin : i < c.password.length
  · have htake : i < (c.password.take 8).length := by rw [List.length_take]; omega
    rw [passwordKey, zeroPad, List.getElem?_append_left hin, List.getElem?_append_left htake,
      List.getElem?_take_of_lt hlt]
  · -- the terminating zero is the last byte of the key
    have hseven : c.password.length = 7 := by omega
    have hkey : passwordKey c.password = c.password ++ [0] := by
      rw [passwordKey, zeroPad, List.take_of_length_le (by omega), hseven]
      rfl
    obtain rfl : i = c.password.length := by omega
    rw [hkey, List.getElem?_concat_length, List.getElem?_append_right (Nat.le_refl _), Nat.sub_self]
    rfl

private theorem responding_challenge {c : VncClient} (h : 7 ≤ c.password.length)
    (hchallenge : c.challenge.length = rfbVncAuthChallengeLength) :
    c.responding.challenge = passwordResponse c.password c.challenge := by
  have hkey := D3des.deskey_congr (passwordMemory_key c h) .en0
  have hhalf : (c.challenge.drop 8).take 8 = c.challenge.drop 8 := by
    rw [List.take_of_length_le]
    rw [List.length_drop, hchallenge]
    decide
  change encryptChallenge c.passwordMemory c.challenge = _
  rw [encryptChallenge, hkey, hhalf]
  rfl

private theorem sendVncAuthResponse_determined {s : Session} (h : 7 ≤ s.client.password.length)
    (hchallenge : s.client.challenge.length = rfbVncAuthChallengeLength) :
    sendVncAuthResponse.run s =
      .ok (s.conn.send (passwordResponse s.client.password s.client.challenge)).1
        ((s.update VncClient.responding).sent
          (passwordResponse s.client.password s.client.challenge)) := by
  rw [sendVncAuthResponse_run, responding_challenge h hchallenge]

/-- The response is determined by password and challenge exactly for the passwords of at least
seven characters: with the terminating zero they fill the key. -/
theorem responseDetermined_iff (password : Bytes) {challenge : Bytes}
    (hchallenge : challenge.length = rfbVncAuthChallengeLength) :
    ResponseDetermined password challenge ↔ 7 ≤ password.length := by
  constructor
  · intro h
    exact h.reads 7 (by decide)
  · intro h
    refine ⟨?_, ?_, ?_⟩
    · rintro s rfl rfl
      exact ⟨s.client.responding, sendVncAuthResponse_determined h hchallenge⟩
    · intro i hi
      have hlt := (D3des.mem_keyReads i).mp hi
      omega
    · rintro s s' rfl hpassword rfl hchallenge' hconn
      rw [sendVncAuthResponse_determined h hchallenge,
        sendVncAuthResponse_determined (s := s') (by rw [hpassword]; exact h)
          (by rw [hchallenge']; exact hchallenge), hpassword, hchallenge']
      simp only [finalState_ok, Session.sent, Session.on_conn, Session.update_conn, hconn]

theorem responseDetermined_seven :
    ResponseDetermined (ascii "passwor") (List.replicate 16 0) :=
  (responseDetermined_iff (ascii "passwor") (by decide)).mpr (by decide)

def shortPassword (b : UInt8) : Session where
  client := VncClient.new [] 5900 (ascii "vnc") { Residue.blank with passwordTail := [b] }
  conn := Socket.delivering []

/-- Two clients with the same short password and the same challenge send different responses. -/
theorem response_shortPassword :
    (shortPassword 0).client.password = (shortPassword 0xff).client.password ∧
      (shortPassword 0).client.challenge = (shortPassword 0xff).client.challenge ∧
      (finalState (sendVncAuthResponse.run (shortPassword 0))).conn ≠
        (finalState (sendVncAuthResponse.run (shortPassword 0xff))).conn ∧
      ¬ResponseDetermined (ascii "vnc") (shortPassword 0).client.challenge := by
  have hdiffer : (finalState (sendVncAuthResponse.run (shortPassword 0))).conn ≠
      (finalState (sendVncAuthResponse.run (shortPassword 0xff))).conn := by
    decide +kernel
  exact ⟨rfl, rfl, hdiffer, fun h => hdiffer (h.same _ _ rfl rfl rfl rfl rfl)⟩

end Mrhc
