import Mrhc.Client.Opening
import Mrhc.Handler.Outcomes

/-!
# The opening of a session by the handler

`mrhc_spin` connects, authenticates and configures its client, and answers with the page of the
session at the end.
-/

namespace Mrhc

/-- The session in which the calls of `mrhc_spin` leave this object. -/
def Instance.spun (client : Instance) : Session := finalState (spinProgram.run client.session)

/-- `mrhc_spin` returns `true`. -/
def Spins (r : Request) (client : Instance) (w : World) : Prop :=
  ∃ client' w', (mrhcSpin client r).run w = .ok (true, client') w'

/-- What `mrhc_spin` writes are the first messages of the script, each after the receives and
sends that precede it have succeeded on an open connection, and it returns `true` exactly when it
has written all six. -/
structure FollowsScript (r : Request) (client : Instance) (w : World)
    (bufs msgs : List Bytes) : Prop where
  transcript : Transcript client.session bufs msgs client.spun
  connected : 0 < msgs.length → client.session.conn.connects = true
  session : ∀ b client' w', (mrhcSpin client r).run w = .ok (b, client') w' →
    client'.session = client.spun
  returns : Spins r client w ↔ msgs.length = 6

private theorem spun_session {r : Request} {client client' : Instance} {w w' : World} {b : Bool}
    (h : (mrhcSpin client r).run w = .ok (b, client') w') : client'.session = client.spun := by
  have houtcome := mrhcSpin_outcome r client w
  rw [h] at houtcome
  cases houtcome with
  | returned k results hrun => rw [Instance.spun, hrun, finalState_ok]

/-- The calls of an opening: the script up to a failure, or all of it. -/
theorem spinProgram_cases {s : Session} (hsends : s.conn.WholeSends) :
    ∃ bufs msgs, Transcript s bufs msgs (finalState (spinProgram.run s)) ∧
      (0 < msgs.length → s.conn.connects = true) ∧
      ((∃ t, spinProgram.run s = .ok true t) ↔ msgs.length = 6) := by
  have hstart := passingAt_start hsends
  have hconnect : initializeClient.run s = .ok s.conn.connects s := by
    have hrun : connectToServer.run s = .ok s.conn.connects s := rfl
    rw [initializeClient, bind_ok hrun]
    cases s.conn.connects <;> rfl
  have hstage := (authenticate_stage s).require (configure_stage s)
  cases hopen : s.conn.connects with
  | false =>
    rw [hopen] at hconnect
    rw [spinProgram, require_false hconnect]
    have hnone : Transcript s [] [] s :=
      ⟨(List.append_nil _).symm, .nil, ⟨_, rfl⟩, by decide, by simp, by simp⟩
    exact ⟨[], [], hnone, by simp, by simp⟩
  | true =>
    rw [hopen] at hconnect
    rw [spinProgram, require_true hconnect]
    by_cases htrue : ∃ t, (require authenticate configure).run s = .ok true t
    · obtain ⟨t, ht⟩ := htrue
      obtain ⟨bufs, msgs, hr, hm, hpassing⟩ := hstage.passes s t hstart ht
      rw [ht]
      refine ⟨bufs, msgs, ?_, fun _ => rfl, iff_of_true ⟨t, rfl⟩ hm⟩
      exact hpassing.transcript (by rw [hr, hm]; decide) rfl
    · obtain ⟨bufs, msgs, hm, htranscript⟩ :=
        hstage.fails s hstart fun t ht => htrue ⟨t, ht⟩
      exact ⟨bufs, msgs, htranscript, fun _ => rfl, iff_of_false htrue (Nat.ne_of_lt hm)⟩

/-- An object whose server accepts the password. -/
def acceptedInstance : Instance := ⟨handshakeSession acceptingServer, []⟩

private theorem hostless_not_follows {r : Request} (hhost : r.hostname = none) (w : World)
    (bufs msgs : List Bytes) : ¬FollowsScript r acceptedInstance w bufs msgs := by
  intro h
  have hspun : ∃ t, spinProgram.run acceptedInstance.session = .ok true t := by
    have hrun : returnsTrue (spinProgram.run acceptedInstance.session) = true := by
      decide +kernel
    exact returnsTrue_iff.mp hrun
  obtain ⟨bufs', msgs', htranscript, -, hall⟩ :=
    @spinProgram_cases acceptedInstance.session (by decide)
  have hsame : msgs = msgs' :=
    List.append_cancel_left (h.transcript.written.symm.trans htranscript.written)
  have hspins := h.returns.mpr (by rw [hsame]; exact hall.mp hspun)
  exact ((mrhcSpin_true_iff r acceptedInstance w).mp hspins).2 hhost

/-- The opening follows its script on every connection exactly when the request has a host
name. -/
theorem mrhcSpin_followsScript_iff (r : Request) :
    (∀ client w, client.session.conn.WholeSends → ∃ bufs msgs, FollowsScript r client w bufs msgs) ↔
      r.hostname ≠ none := by
  constructor
  · intro h hhost
    obtain ⟨bufs, msgs, hscript⟩ := h acceptedInstance ⟨none, Response.empty, []⟩ (by decide)
    exact hostless_not_follows hhost _ bufs msgs hscript
  · intro hhost client w hsends
    obtain ⟨bufs, msgs, htranscript, hconnected, hall⟩ := spinProgram_cases hsends
    refine ⟨bufs, msgs, htranscript, hconnected, fun b client' w' => spun_session, ?_⟩
    rw [← hall, Spins, mrhcSpin_true_iff]
    exact and_iff_left hhost

/-- A request that names no host writes all six messages, and `mrhc_spin` does not return. -/
theorem mrhcSpin_hostless :
    acceptedInstance.session.conn.WholeSends ∧
      ∀ bufs msgs, ¬FollowsScript { pageRequest none with hostname := none } acceptedInstance
        ⟨none, Response.empty, []⟩ bufs msgs :=
  ⟨by decide, hostless_not_follows rfl _⟩

end Mrhc
