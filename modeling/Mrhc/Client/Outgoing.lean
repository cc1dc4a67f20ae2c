import Mrhc.Client.ClientMessages
import Mrhc.Framework.Runs

/-!
# The stream of a client

The calls that the handler makes on a connected client, one after another. Each of them writes
the messages of its script up to the first send that fails, so that the stream is one of whole
messages, and an input event that is pressed is released by the message that follows.
-/

namespace Mrhc

/-- A call on a client that has been authenticated. -/
inductive ClientCall where
  | configure
  | operate (operation : VncOperation)
  | capture (operation : VncOperation)

def ClientCall.program (lib : Platform) : ClientCall → ClientM Bool
  | .configure => Mrhc.configure
  | .operate operation => Mrhc.operate lib operation
  | .capture operation => Mrhc.capture lib operation

abbrev CallResult := EStateM.Result Stop Session Bool

/-- The session in which a call has returned. -/
def CallResult.session? : CallResult → Option Session
  | .ok _ t => some t
  | .error _ _ => none

theorem finalState_of_session? {r : CallResult} {t : Session} (h : r.session? = some t) :
    finalState r = t := by
  cases r with
  | ok b u => exact Option.some.inj h
  | error reason u => cases h

/-- One call. Nothing follows a call that does not return. -/
def clientStep (lib : Platform) (s : Session) (call : ClientCall) : CallResult × Option Session :=
  let result := (call.program lib).run s
  (result, CallResult.session? result)

abbrev CallEntry := Entry Session ClientCall CallResult

/-- The session at the end of a run of calls. -/
def Session.after (s : Session) : List CallEntry → Session
  | [] => s
  | e :: run => (finalState e.output).after run

open ClientMessage in
/-- What a call writes to a server with a screen of this size when every send succeeds. -/
def ClientCall.script (lib : Platform) (width height : UInt16) : ClientCall → List ClientMessage
  | .configure => [requestFormat, requestEncodings]
  | .operate operation =>
    if operation.key ≠ [] then
      let keyCode := convertKeyToCode lib operation.key
      if keyCode = 0 then [] else [pressKey keyCode, releaseKey keyCode]
    else if operation.x = 0 ∧ operation.y = 0 then []
    else if 32 ≤ operation.button.toNat then []
    else
      [pressButton operation.button operation.x operation.y,
        releaseButtons operation.x operation.y]
  | .capture operation => if operation.key ≠ [] then [] else [requestScreen width height]

/-- The next message is this one, or its send failed and the call returned `false`. -/
def CallEntry.Releases (e : CallEntry) (m : ClientMessage) (rest : List ClientMessage) : Prop :=
  (∃ rest', rest = m :: rest') ∨
    rest = [] ∧ ∃ (c : Socket UInt8) (t : Session),
      c.send m.bytes = (false, t.conn) ∧ e.output = .ok false t

/-- A call has written these messages: the first ones of its script, and all of them if it has
returned `true`. Requests are for the whole screen, and what is pressed is released. -/
structure CallWrites (lib : Platform) (width height : UInt16) (e : CallEntry)
    (ms : List ClientMessage) : Prop where
  written : (finalState e.output).conn.written = e.before.conn.written ++ ms.map ClientMessage.bytes
  script : ms <+: e.input.script lib width height
  complete : ∀ t, e.output = .ok true t → ms = e.input.script lib width height
  requests : ∀ incremental x y w h, .frameBufferUpdateRequest incremental x y w h ∈ ms →
    incremental = 0 ∧ x = 0 ∧ y = 0 ∧ w = width ∧ h = height
  keys : ∀ past padding key rest, ms = past ++ .keyEvent 1 padding key :: rest →
    e.Releases (.keyEvent 0 padding key) rest
  pointers : ∀ operation, e.input = .operate operation → ∀ buttonMask x y rest,
    ms = .pointerEvent buttonMask x y :: rest → e.Releases (.pointerEvent 0 x y) rest

/-- A run of calls has written these messages, call by call, and its bytes are those of no other
messages. -/
structure RunWrites (lib : Platform) (s : Session) (run : List CallEntry)
    (calls : List (List ClientMessage)) : Prop where
  each : List.Forall₂ (CallWrites lib s.client.width s.client.height) run calls
  parse : ∀ ms, (s.after run).conn.written.flatten =
    s.conn.written.flatten ++ ClientMessage.codec.encodeAll ms ↔ ms = calls.flatten

section

variable {lib : Platform} {width height : UInt16}

open ClientMessage

private theorem script_operate (operation : VncOperation) :
    ClientCall.script lib width height (.operate operation) = [] ∨
      (∃ key, ClientCall.script lib width height (.operate operation) =
        [pressKey key, releaseKey key]) ∨
      ∃ button x y, ClientCall.script lib width height (.operate operation) =
        [pressButton button x y, releaseButtons x y] := by
  simp only [ClientCall.script]
  split
  · split
    · exact Or.inl rfl
    · exact Or.inr (Or.inl ⟨_, rfl⟩)
  · split
    · exact Or.inl rfl
    · split
      · exact Or.inl rfl
      · exact Or.inr (Or.inr ⟨_, _, _, rfl⟩)

private theorem script_requests {call : ClientCall} {incremental : UInt8} {x y w h : UInt16}
    (hm : .frameBufferUpdateRequest incremental x y w h ∈ call.script lib width height) :
    incremental = 0 ∧ x = 0 ∧ y = 0 ∧ w = width ∧ h = height := by
  cases call with
  | configure => simp [ClientCall.script, requestFormat, requestEncodings] at hm
  | operate operation =>
    rcases @script_operate lib width height operation with h | ⟨key, h⟩ | ⟨button, x, y, h⟩ <;>
      simp [h, pressKey, releaseKey, pressButton, releaseButtons] at hm
  | capture operation =>
    simp only [ClientCall.script] at hm
    split at hm
    · simp at hm
    · simpa [requestScreen, rfbIncrementalOff] using hm

private theorem script_keys {call : ClientCall} {past rest : List ClientMessage}
    {padding : UInt8 × UInt8} {key : UInt32}
    (hm : call.script lib width height = past ++ .keyEvent 1 padding key :: rest) :
    ∃ rest', rest = .keyEvent 0 padding key :: rest' := by
  have hmem : .keyEvent 1 padding key ∈ call.script lib width height := by simp [hm]
  cases call with
  | configure => simp [ClientCall.script, requestFormat, requestEncodings] at hmem
  | operate operation =>
    rcases @script_operate lib width height operation with h | ⟨key', h⟩ | ⟨button, x, y, h⟩
    · simp [h] at hmem
    · rw [h] at hm
      cases past with
      | nil =>
        simp only [pressKey, List.nil_append, List.cons.injEq, ClientMessage.keyEvent.injEq] at hm
        obtain ⟨⟨-, rfl, rfl⟩, rfl⟩ := hm
        exact ⟨[], rfl⟩
      | cons m past =>
        -- the second event is no press
        have hsecond : .keyEvent 1 padding key ∈ [releaseKey key'] := by
          simp [(List.cons.inj hm).2]
        simp [releaseKey, rfbKeyUp] at hsecond
    · simp [h, pressButton, releaseButtons] at hmem
  | capture operation =>
    simp only [ClientCall.script] at hmem
    split at hmem <;> simp [requestScreen] at hmem

private theorem script_pointers {operation : VncOperation} {rest : List ClientMessage}
    {buttonMask : UInt8} {x y : UInt16}
    (hm : ClientCall.script lib width height (.operate operation) =
      .pointerEvent buttonMask x y :: rest) :
    ∃ rest', rest = .pointerEvent 0 x y :: rest' := by
  rcases @script_operate lib width height operation with h | ⟨key, h⟩ | ⟨button, x', y', h⟩
  · simp [h] at hm
  · simp [h, pressKey] at hm
  · simp only [h, pressButton, releaseButtons, List.cons.injEq,
      ClientMessage.pointerEvent.injEq] at hm
    obtain ⟨⟨-, rfl, rfl⟩, rfl⟩ := hm
    exact ⟨[], rfl⟩

/-- A call that sends its script has sent all of it, or what precedes a send that failed. -/
private inductive SendsPart (s : Session) (script : List ClientMessage) :
    CallResult → List ClientMessage → Prop
  | all (c : Socket UInt8) (hwritten : c.written = s.conn.written ++ script.map bytes)
      (hsends : c.WholeSends) : SendsPart s script (.ok true (s.on c)) script
  | failed (sent : List ClientMessage) (next : ClientMessage) (rest : List ClientMessage)
      (c d : Socket UInt8) (hscript : script = sent ++ next :: rest)
      (hsend : c.send next.bytes = (false, d))
      (hwritten : d.written = s.conn.written ++ sent.map bytes) (hsends : d.WholeSends) :
      SendsPart s script (.ok false (s.on d)) sent

private theorem SendsPart.cons {s : Session} {m : ClientMessage} {ms sent : List ClientMessage}
    {r : CallResult} {c : Socket UInt8} (hc : c.written = s.conn.written ++ [m.bytes])
    (h : SendsPart (s.on c) ms r sent) : SendsPart s (m :: ms) r (m :: sent) := by
  have hwrites : ∀ l : List ClientMessage, c.written ++ l.map bytes =
      s.conn.written ++ (m :: l).map bytes := by
    intro l
    rw [hc, List.append_assoc]
    rfl
  cases h with
  | all d hwritten hsends => exact .all d (hwritten.trans (hwrites ms)) hsends
  | failed sent next rest d d' hscript hsend hwritten hsends =>
    exact .failed (m :: sent) next rest d d' (congrArg (m :: ·) hscript) hsend
      (hwritten.trans (hwrites sent)) hsends

def sendAll : List ClientMessage → ClientM Bool
  | [] => pure true
  | m :: ms => require (send m.bytes) (sendAll ms)

private theorem sendAll_part (script : List ClientMessage) (s : Session)
    (hsends : s.conn.WholeSends) : ∃ sent, SendsPart s script ((sendAll script).run s) sent := by
  induction script generalizing s with
  | nil => exact ⟨[], .all s.conn (List.append_nil _).symm hsends⟩
  | cons m ms ih =>
    obtain ⟨hsend, hwhole⟩ := Socket.send_of_whole hsends m.bytes
    rcases hsend with h | h
    · have hrun : (send m.bytes).run s =
          .ok false (s.on { s.conn with sends := s.conn.sends.tail }) := by
        rw [send_run, h]
      rw [h] at hwhole
      refine ⟨[], ?_⟩
      rw [sendAll, require_false hrun]
      exact .failed [] m ms s.conn _ rfl h (List.append_nil _).symm hwhole
    · have hrun : (send m.bytes).run s = .ok true (s.on { s.conn with
          sends := s.conn.sends.tail, written := s.conn.written ++ [m.bytes] }) := by
        rw [send_run, h]
      rw [h] at hwhole
      obtain ⟨sent, hpart⟩ := ih (s.on _) hwhole
      refine ⟨m :: sent, ?_⟩
      rw [sendAll, require_true hrun]
      exact .cons rfl hpart

private theorem SendsPart.releases {s : Session} {e : CallEntry}
    {script sent rest : List ClientMessage} {m m' : ClientMessage}
    (hpart : SendsPart s script e.output sent) (past : List ClientMessage)
    (hpairs : ∀ rest, script = past ++ m :: rest → ∃ rest', rest = m' :: rest')
    (hsent : sent = past ++ m :: rest) : e.Releases m' rest := by
  generalize houtput : e.output = r at hpart
  cases hpart with
  | all c hwritten hsends => exact Or.inl (hpairs rest hsent)
  | failed sent next later c d hscript hsend hwritten hsends =>
    rw [hsent, List.append_assoc, List.cons_append] at hscript
    obtain ⟨rest', hnext⟩ := hpairs _ hscript
    cases rest with
    | nil =>
      obtain rfl : next = m' := (List.cons.inj hnext).1
      exact Or.inr ⟨rfl, c, s.on d, hsend, houtput⟩
    | cons m'' rest =>
      obtain rfl : m'' = m' := (List.cons.inj hnext).1
      exact Or.inl ⟨rest, rfl⟩

private theorem SendsPart.writes {s : Session} {e : CallEntry} {sent : List ClientMessage}
    (hpart : SendsPart s (e.input.script lib width height) e.output sent)
    (hwritten : s.conn.written = e.before.conn.written) : CallWrites lib width height e sent := by
  have hfirst : sent <+: e.input.script lib width height := by
    generalize e.output = r at hpart
    cases hpart with
    | all => exact List.prefix_rfl
    | failed sent next rest c d hscript => exact ⟨next :: rest, hscript.symm⟩
  constructor
  · rw [← hwritten]
    generalize e.output = r at hpart
    cases hpart with
    | all c hall => exact hall
    | failed sent next rest c d hscript hsend hsent => exact hsent
  · exact hfirst
  · intro t ht
    rw [ht] at hpart
    cases hpart
    rfl
  · exact fun incremental x y w h hm => script_requests (hfirst.subset hm)
  · exact fun past padding key rest => hpart.releases past fun rest => script_keys
  · intro operation hoperate buttonMask x y rest
    refine hpart.releases [] fun rest hscript => ?_
    rw [hoperate] at hscript
    exact script_pointers hscript

private theorem callWrites_nil {e : CallEntry}
    (hwritten : (finalState e.output).conn.written = e.before.conn.written)
    (hoks : ∀ t, e.output ≠ .ok true t) : CallWrites lib width height e [] where
  written := hwritten.trans (List.append_nil _).symm
  script := List.nil_prefix
  complete := fun t ht => absurd ht (hoks t)
  requests := by simp
  keys := by simp
  pointers := by simp

private theorem callWrites_request {e : CallEntry}
    (hscript : e.input.script lib width height = [.requestScreen width height])
    (hcapture : ∀ operation, e.input ≠ .operate operation)
    (hwritten : (finalState e.output).conn.written =
      e.before.conn.written ++ [ClientMessage.requestScreen width height].map ClientMessage.bytes) :
    CallWrites lib width height e [.requestScreen width height] where
  written := hwritten
  script := hscript ▸ List.prefix_rfl
  complete := fun _ _ => hscript.symm
  requests := fun _ _ _ _ _ hm => script_requests (hscript ▸ hm)
  keys := fun _ _ _ _ hkeys => by
    obtain ⟨rest', hrest⟩ := script_keys (hscript.trans hkeys)
    exact Or.inl ⟨rest', hrest⟩
  pointers := fun operation hoperate => absurd hoperate (hcapture operation)

private theorem SendsPart.session {s t : Session} {script sent : List ClientMessage}
    {r : CallResult} (hpart : SendsPart s script r sent) (ht : CallResult.session? r = some t) :
    t.conn.WholeSends ∧ t.client = s.client := by
  cases hpart with
  | all c hwritten hsends =>
    cases ht
    exact ⟨hsends, rfl⟩
  | failed sent next rest c d hscript hsend hwritten hsends =>
    cases ht
    exact ⟨hsends, rfl⟩

end

/-- Nothing is written, and the size of the screen stays. -/
private structure Silent (s t : Session) : Prop where
  written : t.conn.written = s.conn.written
  sends : t.conn.sends = s.conn.sends
  width : t.client.width = s.client.width
  height : t.client.height = s.client.height

private instance : DrawFrame Silent where
  refl := fun _ => ⟨rfl, rfl, rfl, rfl⟩
  trans := fun _ _ _ h h' => ⟨h'.written.trans h.written, h'.sends.trans h.sends,
    h'.width.trans h.width, h'.height.trans h.height⟩
  recv := fun s n => ⟨s.conn.recv_written n, s.conn.recv_sends n, rfl, rfl⟩
  push := fun _ _ => ⟨rfl, rfl, rfl, rfl⟩
  draw := by
    intro s f hf
    obtain ⟨image, imageBuf, jpegBuf, hc⟩ := hf s.client
    refine ⟨rfl, rfl, ?_, ?_⟩ <;> rw [Session.update_client, hc]

section

variable (lib : Platform) (s : Session)

theorem configure_eq :
    configure.run s = (sendAll [.requestFormat, .requestEncodings]).run
      (s.update VncClient.configured) := by
  have hformat : sendSetPixelFormat =
      modifyClient VncClient.configured >>= fun _ => send setPixelFormatMessage :=
    congrArg (modifyClient VncClient.configured >>= ·) (funext fun _ => require_pure _)
  have hencodings : sendSetEncodings = send setEncodingsMessage := require_pure _
  change (require sendSetPixelFormat (require sendSetEncodings (pure true))).run s = _
  rw [hformat, hencodings, require, bind_assoc]
  simp only [sendAll, ← setPixelFormatMessage_bytes, ← setEncodingsMessage_bytes]
  rfl

theorem operate_sendAll (operation : VncOperation) :
    (operate lib operation).run s = (sendAll
        (ClientCall.script lib s.client.width s.client.height (.operate operation))).run s ∨
      (operation.key = [] ∧ ¬(operation.x = 0 ∧ operation.y = 0)) ∧
        32 ≤ operation.button.toNat ∧ (operate lib operation).run s = .error .badShift s := by
  by_cases hkey : operation.key = []
  · by_cases hpointer : operation.x = 0 ∧ operation.y = 0
    · left
      simp [operate, ClientCall.script, hkey, hpointer, sendAll]
    · by_cases hbutton : 32 ≤ operation.button.toNat
      · right
        exact ⟨⟨hkey, hpointer⟩, hbutton,
          by simp [operate, hkey, hpointer, sendPointerEvent, hbutton]⟩
      · left
        have hsend : sendPointerEvent operation.x operation.y operation.button =
            sendAll [.pressButton operation.button operation.x operation.y,
              .releaseButtons operation.x operation.y] := by
          simp only [sendPointerEvent, hbutton, if_false, pointerEvent_bytes]
          rfl
        have hscript : ClientCall.script lib s.client.width s.client.height (.operate operation) =
            [.pressButton operation.button operation.x operation.y,
              .releaseButtons operation.x operation.y] := by
          simp [ClientCall.script, hkey, hpointer, hbutton]
        have hoperate : operate lib operation =
            require (sendPointerEvent operation.x operation.y operation.button) (pure true) := by
          simp only [operate, hkey, hpointer, ne_eq, not_true_eq_false, if_false]
          rfl
        rw [hoperate, require_pure, hsend, hscript]
  · left
    have hoperate : operate lib operation =
        require (sendKeyEvent lib operation.key) (pure true) := if_pos hkey
    rw [hoperate, require_pure]
    by_cases hcode : convertKeyToCode lib operation.key = 0
    · simp [sendKeyEvent, ClientCall.script, hkey, hcode, sendAll]
    · simp only [sendKeyEvent, ClientCall.script, ne_eq, hkey, not_false_eq_true, hcode, if_true,
        if_false, keyEvent_bytes]
      rfl

theorem sendAll_all (hsends : s.conn.sends = []) (script : List ClientMessage) :
    (sendAll script).run s = .ok true (s.on { s.conn with
      written := s.conn.written ++ script.map ClientMessage.bytes }) := by
  induction script generalizing s with
  | nil => simp [sendAll, Session.on]
  | cons m ms ih =>
    have hsend := Socket.send_unscheduled hsends m.bytes
    have hrun : (send m.bytes).run s = .ok true (s.on { s.conn with
        written := s.conn.written ++ [m.bytes] }) := by
      rw [send_run, hsend]
    rw [sendAll, require_true hrun]
    have hrest := ih (s.on { s.conn with written := s.conn.written ++ [m.bytes] }) hsends
    refine hrest.trans ?_
    simp [Session.on]

/-- On a connection that takes every message, an operation writes its whole script, unless its
button is none that can be shifted by. -/
theorem operate_script (operation : VncOperation) (hsends : s.conn.sends = []) :
    (operate lib operation).run s = .ok true (s.on { s.conn with
        written := s.conn.written ++ (ClientCall.script lib s.client.width s.client.height
          (.operate operation)).map ClientMessage.bytes }) ∨
      32 ≤ operation.button.toNat ∧ (operate lib operation).run s = .error .badShift s := by
  rw [← sendAll_all s hsends]
  exact (operate_sendAll lib s operation).imp_right And.right

theorem capture_eq (operation : VncOperation) (hkey : operation.key = []) :
    (capture lib operation).run s =
      (require (sendAll [.requestScreen s.client.width s.client.height])
        (answered lib operation)).run
        (s.update fun c => { c with imageBuf := [], jpegBuf := [] }) := by
  have hrequest : sendFrameBufferUpdateRequest =
      getClient >>= fun c => send (frameBufferUpdateRequest c.width c.height) :=
    congrArg (getClient >>= ·) (funext fun _ => require_pure _)
  have hcapture : (capture lib operation).run s =
      (require sendFrameBufferUpdateRequest (answered lib operation)).run
        (s.update fun c => { c with imageBuf := [], jpegBuf := [] }) := by
    simp only [capture, hkey, ne_eq, not_true_eq_false, if_false]
    rfl
  rw [hcapture, hrequest, require, bind_assoc]
  simp only [sendAll, ← frameBufferUpdateRequest_bytes, require_pure]
  rfl

/-- What the step of a run gives: the messages of the call, and a session for the next one. -/
private def Steps (call : ClientCall) : Prop :=
  ∃ ms, CallWrites lib s.client.width s.client.height (entryOf (clientStep lib) s call) ms ∧
    ∀ t, (clientStep lib s call).2 = some t → t.conn.WholeSends ∧
      t.client.width = s.client.width ∧ t.client.height = s.client.height

private theorem steps_of_part {c : Session} {call : ClientCall} {sent : List ClientMessage}
    (hpart : SendsPart c (call.script lib s.client.width s.client.height)
      (clientStep lib s call).1 sent)
    (hwritten : c.conn.written = s.conn.written) (hwidth : c.client.width = s.client.width)
    (hheight : c.client.height = s.client.height) : Steps lib s call := by
  refine ⟨sent, SendsPart.writes (e := entryOf (clientStep lib) s call) hpart hwritten, ?_⟩
  intro t ht
  obtain ⟨hwhole, hclient⟩ := hpart.session ht
  rw [hclient]
  exact ⟨hwhole, hwidth, hheight⟩

private theorem configure_steps (hsends : s.conn.WholeSends) : Steps lib s .configure := by
  have houtput : (clientStep lib s .configure).1 =
      (sendAll (ClientCall.script lib s.client.width s.client.height .configure)).run
        (s.update VncClient.configured) := configure_eq s
  obtain ⟨sent, hpart⟩ := sendAll_part
    (ClientCall.script lib s.client.width s.client.height .configure)
    (s.update VncClient.configured) hsends
  rw [← houtput] at hpart
  exact steps_of_part lib s hpart rfl rfl rfl

private theorem operate_steps (operation : VncOperation) (hsends : s.conn.WholeSends) :
    Steps lib s (.operate operation) := by
  cases operate_sendAll lib s operation with
  | inl hall =>
    have houtput : (clientStep lib s (.operate operation)).1 = _ := hall
    obtain ⟨sent, hpart⟩ := sendAll_part
      (ClientCall.script lib s.client.width s.client.height (.operate operation)) s hsends
    rw [← houtput] at hpart
    exact steps_of_part lib s hpart rfl rfl rfl
  | inr hstop =>
    have houtput : clientStep lib s (.operate operation) = (.error .badShift s, none) := by
      rw [clientStep, ClientCall.program, hstop.2.2]
      rfl
    refine ⟨[], callWrites_nil ?_ ?_, ?_⟩
    · rw [entryOf, houtput]
      rfl
    · rw [entryOf, houtput]
      intro t ht
      cases ht
    · rw [houtput]
      intro t ht
      cases ht

private theorem capture_steps (operation : VncOperation) (hsends : s.conn.WholeSends) :
    Steps lib s (.capture operation) := by
  by_cases hkey : operation.key = []
  · let c := s.update fun c => { c with imageBuf := [], jpegBuf := [] }
    have hscript : ClientCall.script lib s.client.width s.client.height (.capture operation) =
        [.requestScreen s.client.width s.client.height] := by
      simp [ClientCall.script, hkey]
    have houtput : (clientStep lib s (.capture operation)).1 = (require
        (sendAll [.requestScreen s.client.width s.client.height]) (answered lib operation)).run c :=
      capture_eq lib s operation hkey
    obtain ⟨sent, hpart⟩ := sendAll_part [.requestScreen s.client.width s.client.height] c hsends
    generalize hsend : (sendAll [.requestScreen s.client.width s.client.height]).run c = r at hpart
    cases hpart with
    | failed sent next rest d d' hrest hfailed hwritten hwhole =>
      rw [require_false hsend] at houtput
      refine @steps_of_part lib s c _ sent ?_ rfl rfl rfl
      rw [houtput, hscript]
      exact .failed sent next rest d d' hrest hfailed hwritten hwhole
    | all d hwritten hwhole =>
      rw [require_true hsend] at houtput
      have hsilent : Silent (c.on d) (finalState (clientStep lib s (.capture operation)).1) := by
        rw [houtput]
        exact answered_moves lib operation (c.on d)
      refine ⟨_, callWrites_request hscript (fun _ => ClientCall.noConfusion)
        (hsilent.written.trans hwritten), ?_⟩
      intro t ht
      have hfinal : finalState (clientStep lib s (.capture operation)).1 = t :=
        finalState_of_session? ht
      rw [hfinal] at hsilent
      refine ⟨?_, hsilent.width, hsilent.height⟩
      rw [Socket.WholeSends, hsilent.sends]
      exact hwhole
  · have hrun : (clientStep lib s (.capture operation)).1 = .ok true s := by
      simp [clientStep, ClientCall.program, capture, hkey]
    have hscript :
        ClientCall.script lib s.client.width s.client.height (.capture operation) = [] := by
      simp [ClientCall.script, hkey]
    refine @steps_of_part lib s s _ [] ?_ rfl rfl rfl
    rw [hrun, hscript]
    exact .all s.conn (List.append_nil _).symm hsends

private theorem clientStep_steps (call : ClientCall) (hsends : s.conn.WholeSends) :
    Steps lib s call := by
  cases call with
  | configure => exact configure_steps lib s hsends
  | operate operation => exact operate_steps lib s operation hsends
  | capture operation => exact capture_steps lib s operation hsends

theorem clientStep_writes (call : ClientCall) (hsends : s.conn.WholeSends) :
    ∃ ms, CallWrites lib s.client.width s.client.height (entryOf (clientStep lib) s call) ms ∧
      ∀ t, (clientStep lib s call).2 = some t → t.conn.WholeSends ∧
        t.client.width = s.client.width ∧ t.client.height = s.client.height :=
  clientStep_steps lib s call hsends

end

private theorem calls_written (lib : Platform) (calls : List ClientCall) (s : Session)
    (hsends : s.conn.WholeSends) :
    ∃ writes, List.Forall₂ (CallWrites lib s.client.width s.client.height)
        (runFrom (clientStep lib) s calls) writes ∧
      (s.after (runFrom (clientStep lib) s calls)).conn.written =
        s.conn.written ++ writes.flatten.map ClientMessage.bytes := by
  induction calls generalizing s with
  | nil => exact ⟨[], .nil, (List.append_nil _).symm⟩
  | cons call calls ih =>
    obtain ⟨ms, hcall, hnext⟩ := clientStep_steps lib s call hsends
    rw [runFrom]
    cases hs : (clientStep lib s call).2 with
    | none =>
      refine ⟨[ms], .cons hcall .nil, ?_⟩
      rw [List.flatten_singleton]
      exact hcall.written
    | some t =>
      obtain ⟨hwhole, hwidth, hheight⟩ := hnext t hs
      obtain ⟨writes, hcalls, hwritten⟩ := ih t hwhole
      rw [hwidth, hheight] at hcalls
      have hfinal : finalState (entryOf (clientStep lib) s call).output = t :=
        finalState_of_session? hs
      refine ⟨ms :: writes, .cons hcall hcalls, ?_⟩
      rw [Session.after, hfinal, hwritten, ← hfinal, hcall.written, List.flatten_cons,
        List.map_append, List.append_assoc]
      rfl

/-- Whatever calls are made on a client, what they write is a stream of whole messages, in which
every request is for the whole screen and every press is followed by its release, unless the send
of the release failed and the call returned `false`. -/
theorem clientRun_writes (lib : Platform) (s : Session) (hsends : s.conn.WholeSends)
    (calls : List ClientCall) :
    ∃ writes, RunWrites lib s (runFrom (clientStep lib) s calls) writes := by
  obtain ⟨writes, hcalls, hwritten⟩ := calls_written lib calls s hsends
  refine ⟨writes, hcalls, ?_⟩
  intro ms
  have hbytes : (writes.flatten.map ClientMessage.bytes).flatten =
      ClientMessage.codec.encodeAll writes.flatten := rfl
  rw [hwritten, List.flatten_append, hbytes, List.append_right_inj,
    ClientMessage.codec.encodeAll_eq_iff]
  exact eq_comm

def failingSession : Session where
  client := VncClient.new [] 5900 [] .blank
  conn := { Socket.delivering [] with sends := [.whole, .whole, .whole, .error] }

theorem clientRun_writes_stuckKey :
    ∃ writes, RunWrites Platform.plain failingSession
      (runFrom (clientStep Platform.plain) failingSession
        [.configure, .operate ⟨0, 0, 0, keyEnter⟩, .capture ⟨1, 1, 0, []⟩]) writes :=
  clientRun_writes Platform.plain failingSession (by decide) _

end Mrhc
