import Mathlib.Data.List.Forall2
import Mathlib.Data.List.GetD
import Mrhc.Client.Underway

/-!
# The opening of a session

The six messages that a client writes until it is configured, and what has been received and
checked when each of them is written. A call that ends early ends between two of them.
-/

namespace Mrhc

def setPixelFormatMessage : Bytes :=
  [rfbMessageTypeSetPixelFormat, 0, 0, 0] ++ configuredFormat.bytes

def setEncodingsMessage : Bytes :=
  [rfbMessageTypeSetEncodings, 0] ++ store16 (htons 1) ++ store32 (htonl rfbEncodingRaw)

/-- What the six messages of an opening in this version are. The response has any content. -/
def openingScript (version : Bytes) : List (Bytes → Prop) :=
  [(· = version), (· = [rfbSecurityTypeVncAuth]), (·.length = rfbVncAuthChallengeLength),
    (· = [rfbSharedFlagOn]), (· = setPixelFormatMessage), (· = setEncodingsMessage)]

/-- From `s` to `t` these messages have been written, the first ones of the script, and these
buffers received. As many receives as messages have succeeded, up to all five; the version is the
one received and accepted, and after the third message the decoded security result is zero. -/
structure Transcript (s : Session) (bufs msgs : List Bytes) (t : Session) : Prop where
  written : t.conn.written = s.conn.written ++ msgs
  follows : List.Forall₂ (fun step message => step message)
    ((openingScript (bufs.getD 0 [])).take msgs.length) msgs
  receives : ∃ c, s.conn.stream.receives (handshakeAsks.take bufs.length) = some (bufs, c)
  before : min msgs.length 5 ≤ bufs.length
  accepted : 0 < msgs.length → bufs.getD 0 [] ∈ acceptedVersions
  authenticated : 4 ≤ msgs.length → load32 (bufs.getD 3 []) 0 = 0

/-- The opening is here after these receives and messages, and goes on. -/
structure Passing (s : Session) (bufs msgs : List Bytes) (t : Session) : Prop where
  written : t.conn.written = s.conn.written ++ msgs
  follows : List.Forall₂ (fun step message => step message)
    ((openingScript (bufs.getD 0 [])).take msgs.length) msgs
  receives : s.conn.stream.receives (handshakeAsks.take bufs.length) = some (bufs, t.conn.stream)
  sends : t.conn.WholeSends
  version : 0 < bufs.length → bufs.getD 0 [] ∈ acceptedVersions ∧
    t.client.version = bufs.getD 0 []
  authenticated : 4 ≤ bufs.length → load32 (bufs.getD 3 []) 0 = 0

/-- `r` receives and `m` messages of the opening have succeeded. -/
def PassingAt (s : Session) (r m : Nat) (t : Session) : Prop :=
  ∃ bufs msgs, bufs.length = r ∧ msgs.length = m ∧ Passing s bufs msgs t

/-- The opening has ended before its last message. -/
def EndsEarly (s t : Session) : Prop :=
  ∃ bufs msgs, msgs.length < 6 ∧ Transcript s bufs msgs t

/-- Wherever the opening stops, it has done so after the script so far. -/
theorem Passing.transcript {s t u : Session} {bufs msgs : List Bytes}
    (h : Passing s bufs msgs t) (hbefore : min msgs.length 5 ≤ bufs.length)
    (hwritten : u.conn.written = t.conn.written) : Transcript s bufs msgs u where
  written := hwritten.trans h.written
  follows := h.follows
  receives := ⟨_, h.receives⟩
  before := hbefore
  accepted := fun hpos => (h.version (by omega)).1
  authenticated := fun hlen => h.authenticated (by omega)

theorem passingAt_start {s : Session} (hsends : s.conn.WholeSends) : PassingAt s 0 0 s :=
  ⟨[], [], rfl, rfl, ⟨(List.append_nil _).symm, .nil, rfl, hsends, nofun, nofun⟩⟩

private theorem endsEarly_of_passingAt {s t u : Session} {r m : Nat} (h : PassingAt s r m t)
    (hm : m < 6) (hbefore : min m 5 ≤ r) (hwritten : u.conn.written = t.conn.written) :
    EndsEarly s u := by
  obtain ⟨bufs, msgs, rfl, rfl, hpassing⟩ := h
  exact ⟨bufs, msgs, hm, hpassing.transcript hbefore hwritten⟩

private theorem receives_snoc {c d e : Socket UInt8} {asks : List Nat} {n : Nat} {buf : Bytes}
    {bufs : List Bytes} (h : c.stream.receives asks = some (bufs, d.stream))
    (hrecv : d.recv n = (some buf, e)) :
    c.stream.receives (asks ++ [n]) = some (bufs ++ [buf], e.stream) := by
  have hstream := d.recv_stream n
  rw [hrecv] at hstream
  rw [Socket.receives_append, h, Option.bind_some]
  dsimp only
  rw [Socket.receives_cons hstream]
  rfl

private theorem recv_stage {s : Session} {r m n : Nat} {x : ClientM Bool}
    {f : Bytes → Session → EStateM.Result Stop Session Bool}
    (hrun : ∀ t, x.run t = t.received n f) (hask : handshakeAsks[r]? = some n) (hm : m < 6)
    (hbefore : min m 5 ≤ r) (hconn : ∀ buf t, (finalState (f buf t)).conn = t.conn)
    (hf : ∀ buf t u, buf.length ≤ n → f buf t = .ok true u →
      u.client.version = (if r = 0 then buf else t.client.version) ∧
        (r = 0 → buf ∈ acceptedVersions) ∧ (r = 3 → load32 buf 0 = 0)) :
    Stage x (PassingAt s r m) (PassingAt s (r + 1) m) (EndsEarly s) where
  passes := by
    intro t u ht hx
    obtain ⟨bufs, msgs, rfl, rfl, hpassing⟩ := ht
    have hsends := t.conn.recv_sends n
    have hwritten := t.conn.recv_written n
    rw [hrun] at hx
    rcases hr : t.conn.recv n with ⟨_ | buf, c⟩
    · simp [Session.received_none hr] at hx
    · rw [Session.received_some hr] at hx
      rw [hr] at hsends hwritten
      have hu := hconn buf (t.on c)
      rw [hx, finalState_ok, Session.on_conn] at hu
      obtain ⟨hversion, hfirst, hfourth⟩ := hf buf (t.on c) u (Socket.recv_length_le hr) hx
      have hhead : 0 < bufs.length → (bufs ++ [buf]).getD 0 [] = bufs.getD 0 [] := fun hpos =>
        List.getD_append _ _ _ _ hpos
      have hlast : bufs.length = 0 → bufs ++ [buf] = [buf] := fun hnil => by
        rw [List.length_eq_zero_iff.mp hnil, List.nil_append]
      refine ⟨bufs ++ [buf], msgs, by simp, rfl, ?_, ?_, ?_, ?_, ?_, ?_⟩
      · rw [hu, hwritten]
        exact hpassing.written
      · rcases Nat.eq_zero_or_pos bufs.length with hnil | hpos
        · -- nothing has been written before the first receive
          obtain rfl : msgs = [] := List.length_eq_zero_iff.mp (by omega)
          exact .nil
        · rw [hhead hpos]
          exact hpassing.follows
      · have htake : handshakeAsks.take (bufs ++ [buf]).length =
            handshakeAsks.take bufs.length ++ [n] := by
          rw [List.length_append, List.length_singleton, List.take_add_one, hask]
          rfl
        rw [htake, hu]
        exact receives_snoc hpassing.receives hr
      · rw [hu, Socket.WholeSends, hsends]
        exact hpassing.sends
      · intro _
        rcases Nat.eq_zero_or_pos bufs.length with hnil | hpos
        · rw [hlast hnil, hversion, if_pos hnil]
          exact ⟨hfirst hnil, rfl⟩
        · rw [hhead hpos, hversion, if_neg (Nat.ne_of_gt hpos)]
          exact hpassing.version hpos
      · intro hlen
        rw [List.length_append, List.length_singleton] at hlen
        rcases Nat.lt_or_ge 3 bufs.length with hmore | hless
        · rw [List.getD_append _ _ _ _ hmore]
          exact hpassing.authenticated hmore
        · have hthree : bufs.length = 3 := by omega
          rw [List.getD_append_right _ _ _ _ hless, hthree]
          exact hfourth hthree
  fails := by
    intro t ht _
    apply endsEarly_of_passingAt ht hm hbefore
    have hwritten := t.conn.recv_written n
    rw [hrun]
    rcases hr : t.conn.recv n with ⟨_ | buf, c⟩
    · rw [hr] at hwritten
      rw [Session.received_none hr]
      exact hwritten
    · rw [hr] at hwritten
      rw [Session.received_some hr, hconn]
      exact hwritten

private theorem send_stage {s : Session} {r m : Nat} {x : ClientM Bool}
    (f : VncClient → VncClient) (message : VncClient → Bytes)
    (hrun : ∀ t, PassingAt s r m t → x.run t =
      .ok (t.conn.send (message t.client)).1 ((t.update f).on (t.conn.send (message t.client)).2))
    (hm : m < 6) (hbefore : min (m + 1) 5 ≤ r)
    (hversion : ∀ c, (f c).version = c.version)
    (hmessage : ∀ c, ∀ step ∈ (openingScript c.version)[m]?, step (message c)) :
    Stage x (PassingAt s r m) (PassingAt s r (m + 1)) (EndsEarly s) where
  passes := by
    intro t u ht hx
    obtain ⟨bufs, msgs, rfl, rfl, hpassing⟩ := id ht
    obtain ⟨hsend, hwhole⟩ := Socket.send_of_whole hpassing.sends (message t.client)
    rw [hrun t ht, EStateM.Result.ok.injEq] at hx
    obtain ⟨htrue, rfl⟩ := hx
    have hsent := hsend.resolve_left (fun h => by rw [h] at htrue; cases htrue)
    have hpos : 0 < bufs.length := by omega
    obtain ⟨haccepted, hclient⟩ := hpassing.version hpos
    refine ⟨bufs, msgs ++ [message t.client], rfl, by simp, ?_, ?_, ?_, hwhole, ?_,
      hpassing.authenticated⟩
    · rw [Session.on_conn, hsent, hpassing.written, List.append_assoc]
    · have hget : (openingScript (bufs.getD 0 []))[msgs.length]? =
          some (openingScript (bufs.getD 0 []))[msgs.length] := List.getElem?_eq_getElem hm
      have hstep := hmessage t.client (openingScript (bufs.getD 0 []))[msgs.length]
        (by rw [hclient]; exact hget)
      rw [List.length_append, List.length_singleton, List.take_add_one, hget]
      exact List.rel_append hpassing.follows (.cons hstep .nil)
    · rw [hpassing.receives, Session.on_conn, Socket.send_stream]
    · exact fun _ => ⟨haccepted, (hversion t.client).trans hclient⟩
  fails := by
    intro t ht hnot
    obtain ⟨bufs, msgs, rfl, rfl, hpassing⟩ := id ht
    obtain ⟨hsend, -⟩ := Socket.send_of_whole hpassing.sends (message t.client)
    apply endsEarly_of_passingAt ht hm (by omega)
    rw [hrun t ht] at hnot ⊢
    cases hsend with
    | inl h => rw [finalState_ok, Session.on_conn, h]
    | inr h => exact absurd (by rw [h]) (hnot _)

section

variable (s : Session)

private theorem recvProtocolVersion_stage :
    Stage recvProtocolVersion (PassingAt s 0 0) (PassingAt s 1 0) (EndsEarly s) := by
  refine recv_stage recvProtocolVersion_run rfl (by decide) (by decide) ?_ ?_
  · intro buf t
    split
    · rfl
    · split <;> rfl
  · intro buf t u hlen hok
    split at hok
    · cases hok
    · split at hok
      · rename_i haccepted
        have hbuf := (acceptedVersion_iff hlen).mp haccepted
        cases hok
        exact ⟨(accepted_version_steps hbuf).2.2.1, fun _ => hbuf, nofun⟩
      · cases hok

private theorem sendProtocolVersion_stage :
    Stage sendProtocolVersion (PassingAt s 1 0) (PassingAt s 1 1) (EndsEarly s) := by
  have haccepted : ∀ {m t}, PassingAt s 1 m t → t.client.version ∈ acceptedVersions := by
    intro m t ht
    obtain ⟨bufs, msgs, hr, -, hpassing⟩ := ht
    obtain ⟨hbuf, hclient⟩ := hpassing.version (by omega)
    rwa [hclient]
  have hsend := send_stage (s := s) (r := 1) (m := 0) id VncClient.version
    (fun t _ => send_match_run t.client.version t) (by decide) (by decide) (fun _ => rfl)
    fun c step hstep => by
      cases hstep
      rfl
  have hlog : Stage logVersion (PassingAt s 1 1) (PassingAt s 1 1) (EndsEarly s) := by
    refine ⟨fun t u ht hok => ?_, fun t ht _ => ?_⟩
    · rw [logVersion_run t (haccepted ht)] at hok
      split at hok
      · cases hok
        exact ht
      · cases hok
    · apply endsEarly_of_passingAt ht (by decide) (by decide)
      rw [logVersion_run t (haccepted ht)]
      split <;> rfl
  exact (hsend.require hlog).congr fun t ht => sendProtocolVersion_run t (haccepted ht)

private theorem recvAny_stage {r m n : Nat} {x : ClientM Bool} {f : Bytes → VncClient → VncClient}
    (hrun : ∀ t, x.run t = t.received n fun buf t => .ok true (t.update (f buf)))
    (hask : handshakeAsks[r]? = some n) (hm : m < 6) (hbefore : min m 5 ≤ r) (hr : r ≠ 0)
    (hr' : r ≠ 3) (hversion : ∀ buf c, (f buf c).version = c.version) :
    Stage x (PassingAt s r m) (PassingAt s (r + 1) m) (EndsEarly s) := by
  refine recv_stage hrun hask hm hbefore (fun _ _ => rfl) ?_
  intro buf t u _ hok
  cases hok
  rw [if_neg hr]
  exact ⟨hversion buf t.client, fun h => absurd h hr, fun h => absurd h hr'⟩

private theorem sendSame_stage {r m : Nat} (message : Bytes) (hm : m < 6)
    (hbefore : min (m + 1) 5 ≤ r)
    (hmessage : ∀ version, ∀ step ∈ (openingScript version)[m]?, step message) :
    Stage (do if !(← send message) then return false
              return true) (PassingAt s r m) (PassingAt s r (m + 1)) (EndsEarly s) :=
  send_stage id (fun _ => message) (fun t _ => send_match_run message t) hm hbefore
    (fun _ => rfl) fun c => hmessage c.version

private theorem recvSecurityResult_stage :
    Stage recvSecurityResult (PassingAt s 3 3) (PassingAt s 4 3) (EndsEarly s) := by
  refine recv_stage recvSecurityResult_run rfl (by decide) (by decide) (fun _ _ => rfl) ?_
  intro buf t u _ hok
  simp only [EStateM.Result.ok.injEq, beq_iff_eq] at hok
  obtain ⟨hzero, rfl⟩ := hok
  exact ⟨rfl, nofun, fun _ => hzero⟩

private theorem recvServerInit_stage :
    Stage recvServerInit (PassingAt s 4 4) (PassingAt s 5 4) (EndsEarly s) := by
  refine recv_stage recvServerInit_run rfl (by decide) (by decide) ?_ ?_
  · intro buf t
    split <;> rfl
  · intro buf t u _ hok
    split at hok
    · cases hok
      exact ⟨rfl, nofun, nofun⟩
    · cases hok

private theorem sendVncAuthResponse_stage :
    Stage sendVncAuthResponse (PassingAt s 3 2) (PassingAt s 3 3) (EndsEarly s) := by
  refine send_stage VncClient.responding (fun c => c.responding.challenge)
    (fun t _ => sendVncAuthResponse_run t) (by decide) (by decide) (fun _ => rfl) ?_
  intro c step hstep
  cases hstep
  rfl

theorem authenticate_stage :
    Stage authenticate (PassingAt s 0 0) (PassingAt s 5 4) (EndsEarly s) := by
  rw [authenticate_eq]
  refine (recvProtocolVersion_stage s).require ?_
  refine (sendProtocolVersion_stage s).require ?_
  refine (recvAny_stage s recvSupportedSecurityTypes_run rfl (by decide) (by decide) (by decide)
    (by decide) fun _ _ => rfl).require ?_
  refine (sendSame_stage s [rfbSecurityTypeVncAuth] (by decide) (by decide) ?_).require ?_
  · intro version step hstep
    cases hstep
    rfl
  refine (recvAny_stage s recvVncAuthChallenge_run rfl (by decide) (by decide) (by decide)
    (by decide) fun _ _ => rfl).require ?_
  refine (sendVncAuthResponse_stage s).require ?_
  refine (recvSecurityResult_stage s).require ?_
  refine (sendSame_stage s [rfbSharedFlagOn] (by decide) (by decide) ?_).require ?_
  · intro version step hstep
    cases hstep
    rfl
  exact (recvServerInit_stage s).require (.pure fun _ => id)

/-- However it ends, `authenticate` has followed the script. -/
theorem authenticate_transcript (hsends : s.conn.WholeSends) :
    ∃ bufs msgs, Transcript s bufs msgs (finalState (authenticate.run s)) := by
  have hstart := passingAt_start hsends
  by_cases htrue : ∃ t, authenticate.run s = .ok true t
  · obtain ⟨t, ht⟩ := htrue
    obtain ⟨bufs, msgs, hr, hm, hpassing⟩ := (authenticate_stage s).passes s t hstart ht
    rw [ht]
    exact ⟨bufs, msgs, hpassing.transcript (by rw [hr, hm]; decide) rfl⟩
  · obtain ⟨bufs, msgs, -, htranscript⟩ :=
      (authenticate_stage s).fails s hstart fun t ht => htrue ⟨t, ht⟩
    exact ⟨bufs, msgs, htranscript⟩

theorem configure_stage :
    Stage configure (PassingAt s 5 4) (PassingAt s 5 6) (EndsEarly s) := by
  have hformat : Stage sendSetPixelFormat (PassingAt s 5 4) (PassingAt s 5 5) (EndsEarly s) := by
    refine send_stage VncClient.configured (fun _ => setPixelFormatMessage) ?_ (by decide)
      (by decide) (fun _ => rfl) ?_
    · exact fun t _ => send_match_run setPixelFormatMessage (t.update VncClient.configured)
    · intro c step hstep
      cases hstep
      rfl
  refine hformat.require ?_
  refine (sendSame_stage s setEncodingsMessage (by decide) (by decide) ?_).require
    (.pure fun _ => id)
  intro version step hstep
  cases hstep
  rfl

end

end Mrhc
