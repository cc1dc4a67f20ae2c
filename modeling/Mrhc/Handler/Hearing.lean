import Mrhc.Handler.RemoteHost

/-!
# What the remote machine hears

What the remote machine learns of what a user does on the page. After the handshake and the settings
it receives for each click, key and look words of their own, but a click at the origin comes as a
look, and a key without a code does not come at all.
-/

namespace Mrhc

inductive MouseButton where
  | left
  | right
deriving DecidableEq, Repr

def MouseButton.number : MouseButton → UInt8
  | left => 0
  | right => 2

/-- What a user does to the remote machine: he looks at the screen, clicks on it or presses the key
of a code. -/
inductive Deed where
  | look
  | click (x y : UInt16) (button : MouseButton)
  | key (code : UInt32)
deriving DecidableEq, Repr

namespace Deed

def messages (w h : UInt16) : Deed → List ClientMessage
  | look => [.requestScreen w h]
  | click x y button =>
    [.pressButton button.number x y, .releaseButtons x y, .requestScreen w h]
  | key code => [.pressKey code, .releaseKey code]

/-- The first deed of a stream of messages. -/
def hear : List ClientMessage → Option (Deed × List ClientMessage)
  | .frameBufferUpdateRequest .. :: rest => some (look, rest)
  | .pointerEvent mask x y :: .pointerEvent .. :: .frameBufferUpdateRequest .. :: rest =>
    some (click x y (if mask = 1 then .left else .right), rest)
  | .keyEvent _ _ code :: .keyEvent .. :: rest => some (key code, rest)
  | _ => none

/-- The deeds of a session on a screen of this size. -/
def codec (w h : UInt16) : Codec Deed ClientMessage where
  encode := messages w h
  decode := hear
  encode_ne_nil := by
    intro deed
    cases deed with
    | look => exact List.cons_ne_nil _ _
    | click x y button => exact List.cons_ne_nil _ _
    | key code => exact List.cons_ne_nil _ _
  decode_encode := by
    intro deed rest
    cases deed with
    | look => rfl
    | click x y button =>
      cases button with
      | left => rfl
      | right => rfl
    | key code => rfl

end Deed

namespace UserAction

/-- What the user does with an action. -/
def deed (lib : Platform) : UserAction → Deed
  | click x y button => .click x y (if button = 0 then .left else .right)
  | press key => .key (convertKeyToCode lib key)
  | _ => .look

/-- The click is not at the origin, and the key has a code. -/
def Audible (lib : Platform) : UserAction → Prop
  | click x y _ => ¬(x = 0 ∧ y = 0)
  | press key => convertKeyToCode lib key ≠ 0
  | _ => True

/-- What is sent of an action. -/
def heard (lib : Platform) : UserAction → List Deed
  | click x y button =>
    if x = 0 ∧ y = 0 then [.look] else [.click x y (if button = 0 then .left else .right)]
  | press key =>
    if convertKeyToCode lib key = 0 then [] else [.key (convertKeyToCode lib key)]
  | _ => [.look]

theorem heard_eq_iff (lib : Platform) (a : UserAction) :
    a.heard lib = [a.deed lib] ↔ a.Audible lib := by
  cases a with
  | watch => exact iff_of_true rfl trivial
  | refresh time => exact iff_of_true rfl trivial
  | click x y button =>
    rw [heard, Audible]
    split
    · next horigin => exact iff_of_false (by simp [deed]) (not_not_intro horigin)
    · next horigin => exact iff_of_true rfl horigin
  | press key =>
    rw [heard, Audible]
    split
    · next hcode => exact iff_of_false (by simp) (not_not_intro hcode)
    · next hcode => exact iff_of_true rfl hcode

theorem length_heard (lib : Platform) (a : UserAction) : (a.heard lib).length ≤ 1 := by
  cases a with
  | watch => exact le_rfl
  | refresh time => exact le_rfl
  | click x y button =>
    rw [heard]
    split <;> exact le_rfl
  | press key =>
    rw [heard]
    split
    · exact Nat.zero_le 1
    · exact le_rfl

end UserAction

private theorem flatMap_eq_map_iff {α β : Type} {f : α → List β} {g : α → β}
    (hf : ∀ a, (f a).length ≤ 1) (l : List α) :
    l.flatMap f = l.map g ↔ ∀ a ∈ l, f a = [g a] := by
  have hlength : ∀ l : List α, (l.flatMap f).length ≤ l.length := by
    intro l
    induction l with
    | nil => exact le_rfl
    | cons a l ih =>
      have ha := hf a
      rw [List.flatMap_cons, List.length_append, List.length_cons]
      omega
  induction l with
  | nil => simp
  | cons a l ih =>
    rw [List.flatMap_cons, List.map_cons, List.forall_mem_cons]
    match ha : f a with
    | [] =>
      have hlost := hlength l
      refine iff_of_false (fun h => ?_) (fun h => List.cons_ne_nil _ _ h.1.symm)
      rw [List.nil_append] at h
      rw [h, List.length_cons, List.length_map] at hlost
      exact absurd hlost (Nat.not_succ_le_self _)
    | [b] =>
      rw [List.singleton_append, List.cons.injEq, List.cons.injEq]
      exact and_congr ⟨fun h => ⟨h, rfl⟩, And.left⟩ ih
    | b :: c :: rest =>
      have hmany := hf a
      rw [ha, List.length_cons, List.length_cons] at hmany
      omega

private theorem heard_eq_deeds_iff (lib : Platform) (actions : List UserAction) :
    actions.flatMap (·.heard lib) = actions.map (·.deed lib) ↔
      ∀ a ∈ actions, a.Audible lib := by
  rw [flatMap_eq_map_iff (UserAction.length_heard lib)]
  exact forall₂_congr fun a _ => a.heard_eq_iff lib

private theorem messages_heard (lib : Platform) {w h : UInt16} {a : UserAction}
    (ha : a.Possible w.toNat h.toNat) :
    a.messages lib w h = (Deed.codec w h).encodeAll (a.heard lib) := by
  cases a with
  | watch => rfl
  | refresh time => rfl
  | click x y button =>
    rw [UserAction.messages, UserAction.events, UserAction.heard]
    split
    · rfl
    · rcases ha.2.2 with rfl | rfl
      · rfl
      · rfl
  | press key =>
    rw [UserAction.messages, UserAction.events, UserAction.heard]
    split
    · rfl
    · rfl

private theorem sessionMessages_heard (lib : Platform) {w h : UInt16} {actions : List UserAction}
    (hpossible : ∀ a ∈ actions, a.Possible w.toNat h.toNat) :
    actions.flatMap (·.messages lib w h) =
      (Deed.codec w h).encodeAll (actions.flatMap (·.heard lib)) := by
  rw [Codec.encodeAll, List.flatMap_assoc]
  apply List.flatMap_congr
  intro a ha
  exact messages_heard lib (hpossible a ha)

/-- The bytes of the version, the choice, the response and the shared flag. -/
def handshakeLength : Nat := 30

/-- The number of messages of the settings. -/
def settingsCount : Nat := 2

/-- What can be heard of a session: its deeds, after the handshake and the settings. -/
def hearDeeds (w h : UInt16) (received : Bytes) : Option (List Deed) :=
  (ClientMessage.codec.decodeAll (received.drop handshakeLength)).bind fun messages =>
    (Deed.codec w h).decodeAll (messages.drop settingsCount)

private theorem handshake_length (d : ServerSide) {version : Bytes}
    (hversion : version ∈ listingVersions) (haccepts : d.result = 0) (c : VncClient) :
    (d.answers version c).flatten.length = handshakeLength := by
  have hlength : ∀ v ∈ listingVersions, v.length = 12 := by decide
  rw [d.answers_listing hversion, ServerSide.opens, ServerSide.closingAnswers, if_pos haccepts]
  simp [hlength version hversion, encryptChallenge, handshakeLength]

/-- **The user is heard.** In every run, what has been sent of a user's actions can be told from the
bytes that the remote machine has received, and these are his deeds, one for one, exactly when he
has not clicked at the origin or pressed a key without a code. -/
theorem serve_heard {lib : Platform} (hbox : lib.FillsBox) {before : List Visit}
    (hbefore : stateAfter (handleVisit lib) none before = some none) (u : UserSession lib) :
    ∃ client, stateAfter (handleVisit lib) none (before ++ u.requests) = some (some client) ∧
      hearDeeds u.server.serverInit.width u.server.serverInit.height
          client.session.conn.written.flatten =
        some (u.actions.flatMap (·.heard lib)) ∧
      (hearDeeds u.server.serverInit.width u.server.serverInit.height
          client.session.conn.written.flatten =
        some (u.actions.map (·.deed lib)) ↔ ∀ a ∈ u.actions, a.Audible lib) := by
  obtain ⟨client, -, hafter, hwritten⟩ := u.served hbox
  have hheard : hearDeeds u.server.serverInit.width u.server.serverInit.height
      client.session.conn.written.flatten = some (u.actions.flatMap (·.heard lib)) := by
    let messages := sessionMessages lib u.server.serverInit.width u.server.serverInit.height
      u.actions
    have hbytes : (client.session.conn.written.flatten).drop handshakeLength =
        ClientMessage.codec.encodeAll messages := by
      rw [hwritten, UserSession.received, List.flatten_append]
      rw [List.drop_left' (handshake_length u.server u.listing u.accepts _)]
      rfl
    have hdeeds : messages.drop settingsCount =
        (Deed.codec u.server.serverInit.width u.server.serverInit.height).encodeAll
          (u.actions.flatMap (·.heard lib)) := sessionMessages_heard lib u.possible
    rw [hearDeeds, hbytes, Codec.decodeAll_encodeAll, Option.bind_some, hdeeds,
      Codec.decodeAll_encodeAll]
  refine ⟨client, ?_, hheard, ?_⟩
  · rw [stateAfter_append hbefore]
    exact hafter
  · rw [hheard, Option.some.injEq]
    exact heard_eq_deeds_iff lib u.actions

theorem serve_heard_clicks :
    ∃ client, stateAfter (handleVisit bluePlatform) none ([] ++ clicking.requests) =
        some (some client) ∧
      hearDeeds 2 1 client.session.conn.written.flatten =
        some [.look, .click 1 0 .left, .click 1 0 .right, .look] := by
  have hbox : bluePlatform.FillsBox := fun _ _ _ _ _ _ => rfl
  have haudible : ∀ a ∈ clicking.actions, a.Audible bluePlatform := by
    simp [clicking, UserAction.Audible]
  obtain ⟨client, hafter, -, hdeeds⟩ := @serve_heard bluePlatform hbox [] rfl clicking
  exact ⟨client, hafter, hdeeds.mpr haudible⟩

end Mrhc
