import Mrhc.Client.Underway

/-!
# The choice of a security type

A server of version 3.7 or 3.8 lists the security types that it offers. The list is stored, and
the client answers with the same type whatever is in it.
-/

namespace Mrhc

/-- The versions in which the client chooses a security type. -/
def listingVersions : List Bytes := [rfbProtocolVersion37, rfbProtocolVersion38]

/-- The first receive returns this version and the second one this list of types as a whole, with
or without bytes that follow it. -/
def Session.Offered (s : Session) (version : Bytes) (types : List UInt8) : Prop :=
  ∃ later c, s.conn.stream.receives [sizeofProtocolVersion, sizeofSupportedSecurityTypes] =
    some ([version, UInt8.ofNat types.length :: (types ++ later)], c)

/-- Without the type of VNC authentication in the list `authenticate` returns `false` and has
written nothing but the version. -/
def Session.ChoosesOffered (s : Session) (version : Bytes) (types : List UInt8) : Prop :=
  rfbSecurityTypeVncAuth ∉ types →
    ∃ t sent, authenticate.run s = .ok false t ∧ sent <+: version ∧
      t.conn.written.flatten = s.conn.written.flatten ++ sent

private theorem of_receives_two {α : Type} {n m : Nat} {c d : Socket α} {first second : List α}
    (h : c.stream.receives [n, m] = some ([first, second], d)) :
    ∃ c₁ c₂, c.recv n = (some first, c₁) ∧ c₁.recv m = (some second, c₂) := by
  have hfirst := c.recv_stream n
  rcases hr : c.recv n with ⟨_ | buf, c₁⟩
  · rw [hr] at hfirst
    simp [Socket.receives, hfirst] at h
  · have hsecond := c₁.recv_stream m
    rw [hr] at hfirst
    rw [Socket.receives_cons hfirst] at h
    rcases hr' : c₁.recv m with ⟨_ | buf', c₂⟩
    · rw [hr'] at hsecond
      simp [Socket.receives, hsecond] at h
    · rw [hr'] at hsecond
      rw [Socket.receives_cons hsecond] at h
      simp only [Socket.receives, Option.map_some, Option.some.injEq, Prod.mk.injEq,
        List.cons.injEq, and_true] at h
      obtain ⟨⟨rfl, rfl⟩, -⟩ := h
      exact ⟨c₁, c₂, rfl, hr'⟩

/-- Whatever the second receive returns, the type of VNC authentication is sent after the
version. -/
theorem authenticate_selects {s : Session} {version types : Bytes} {c : Socket UInt8}
    (hversion : version ∈ acceptedVersions) (hsends : s.conn.sends = [])
    (hlogs : s.client.LogsVersion)
    (h : s.conn.stream.receives [sizeofProtocolVersion, sizeofSupportedSecurityTypes] =
      some ([version, types], c)) :
    s.conn.written ++ [version, [rfbSecurityTypeVncAuth]] <+:
      (finalState (authenticate.run s)).conn.written := by
  obtain ⟨hformat, haccepted, hstring, -⟩ := accepted_version_steps hversion
  obtain ⟨c₁, c₂, hr₁, hr₂⟩ := of_receives_two h
  let client₁ := { s.client with version := version }
  let client₂ := { client₁ with securityTypes := client₁.securityTypes ++ listedTypes types }
  have hlogged : client₁.LogsVersion := hlogs
  have hself : s.underway s.client s.conn.input s.conn.recvs [] = s := by
    simp [Session.underway]
  have hfirst : recvProtocolVersion.run s =
      .ok true (s.underway client₁ c₁.input c₁.recvs []) := by
    have hrecv := Socket.recv_of_same (d := s.conn) hr₁ rfl rfl
    rw [recvProtocolVersion_run, Session.received_some hrecv]
    simp [hstring, hformat, haccepted, Session.underway, Session.update, client₁, Session.on]
  have hsecond : recvSupportedSecurityTypes.run (s.underway client₁ c₁.input c₁.recvs [version]) =
      .ok true (s.underway client₂ c₂.input c₂.recvs [version]) := by
    have hrecv := Socket.recv_of_same
      (d := (s.underway client₁ c₁.input c₁.recvs [version]).conn) hr₂ rfl rfl
    rw [recvSupportedSecurityTypes_run, Session.received_some hrecv]
    rfl
  rw [authenticate_eq, require_true hfirst,
    require_true (sendProtocolVersion_logged hsends hversion hlogged), List.nil_append,
    require_true hsecond,
    require_true (send_underway (x := sendSecurityType) (f := id) hsends (send_match_run _ _))]
  exact afterChoice_moves (R := Session.Extends)
    (s.underway client₂ c₂.input c₂.recvs ([version] ++ [[rfbSecurityTypeVncAuth]]))

/-- On a connection that sends, every list without VNC authentication is answered with it, as long
as the log call after the version has a defined behaviour. -/
theorem not_choosesOffered {s : Session} {version : Bytes} {types : List UInt8}
    (hversion : version ∈ acceptedVersions) (hsends : s.conn.sends = [])
    (hlogs : s.client.LogsVersion) (hoffered : s.Offered version types)
    (hmissing : rfbSecurityTypeVncAuth ∉ types) :
    ¬s.ChoosesOffered version types := by
  intro h
  obtain ⟨later, c, hreceives⟩ := hoffered
  obtain ⟨tail, hselects⟩ := authenticate_selects hversion hsends hlogs hreceives
  obtain ⟨t, sent, hrun, hsent, hwritten⟩ := h hmissing
  rw [hrun, finalState_ok] at hselects
  -- the version and one more byte are longer than the version
  have hless := hsent.length_le
  rw [← hselects] at hwritten
  have hlength := congrArg List.length hwritten
  simp only [List.flatten_append, List.flatten_cons, List.length_append, List.length_cons,
    List.length_nil] at hlength
  omega

private theorem handshakeSession_offered {version : Bytes} (hversion : version ∈ acceptedVersions)
    {types : List UInt8} (hcount : types.length < 256) :
    (handshakeSession [version, UInt8.ofNat types.length :: (types ++ [])]).Offered version
      types := by
  have hversion' : version.length ≤ sizeofProtocolVersion :=
    Nat.le_of_eq (accepted_version_steps hversion).2.2.2
  have hlist : (UInt8.ofNat types.length :: (types ++ [])).length ≤
      sizeofSupportedSecurityTypes := by
    simp only [List.append_nil, List.length_cons, sizeofSupportedSecurityTypes, rfbBufSize]
    omega
  refine ⟨[], _, Socket.receives_transfers (.cons hversion' (.cons hlist .nil)) [] [] _ ?_ ?_⟩
  · exact (List.append_nil _).symm
  · exact (List.append_nil _).symm

/-- The client answers with a type that the server listed exactly when the server lists VNC
authentication: the list is never read. -/
theorem authenticate_choosesOffered_iff {version : Bytes} (hversion : version ∈ listingVersions)
    (types : List UInt8) (hcount : types.length < 256) :
    (∀ s : Session, s.Offered version types → s.ChoosesOffered version types) ↔
      rfbSecurityTypeVncAuth ∈ types := by
  have haccepted : version ∈ acceptedVersions := List.mem_cons_of_mem _ hversion
  constructor
  · intro h
    by_contra hmissing
    have hoffered := handshakeSession_offered haccepted hcount
    exact not_choosesOffered haccepted rfl (handshakeSession_logsVersion _) hoffered hmissing
      (h _ hoffered)
  · exact fun h s _ hmissing => absurd h hmissing

theorem authenticate_choosesOffered_vncAuth :
    (handshakeSession [rfbProtocolVersion38, [1, 2]]).Offered rfbProtocolVersion38 [2] ∧
      (handshakeSession [rfbProtocolVersion38, [1, 2]]).ChoosesOffered rfbProtocolVersion38 [2] :=
  have hoffered := @handshakeSession_offered rfbProtocolVersion38 (by decide) [2] (by decide)
  ⟨hoffered, (authenticate_choosesOffered_iff (by decide) [2] (by decide)).mpr (by decide)
    _ hoffered⟩

/-- A server that offers nothing but no authentication is answered with VNC authentication. -/
theorem authenticate_none_not_chosen :
    (handshakeSession [rfbProtocolVersion38, [1, 1]]).Offered rfbProtocolVersion38 [1] ∧
      ¬(handshakeSession [rfbProtocolVersion38, [1, 1]]).ChoosesOffered rfbProtocolVersion38 [1] :=
  have hoffered := @handshakeSession_offered rfbProtocolVersion38 (by decide) [1] (by decide)
  ⟨hoffered, not_choosesOffered (by decide) rfl (handshakeSession_logsVersion _) hoffered
    (by decide)⟩

end Mrhc
