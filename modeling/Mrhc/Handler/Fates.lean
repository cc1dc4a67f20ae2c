import Mrhc.Client.Receipts
import Mrhc.Framework.Coupling
import Mrhc.Handler.Answers
import Mrhc.Handler.InStep
import Mrhc.Handler.ViewerRuns

/-!
# The fate of a session

How the requests of a session are answered, up to the first one whose behaviour is undefined. An
open session is no more than the messages that its server has still to send and the sends that will
fail: every status can be told from them and from the memory behind the buffer of the pixels.
-/

namespace Mrhc

/-- The pointer event of the operation shifts by more than `int` has bits. -/
def VncOperation.Unshiftable (operation : VncOperation) : Prop :=
  operation.key = [] ∧ ¬(operation.x = 0 ∧ operation.y = 0) ∧ 32 ≤ operation.button.toNat

instance (operation : VncOperation) : Decidable operation.Unshiftable :=
  inferInstanceAs (Decidable (_ ∧ _))

/-- An open session, as far as its answers depend on it. -/
structure OpenSession where
  width : UInt16
  height : UInt16
  messages : List EncodedMessage
  inStep : ∀ m ∈ messages, m.InStep
  sends : List Transfer

namespace OpenSession

/-- The next message has been received. -/
def received (o : OpenSession) : OpenSession :=
  { o with
    messages := o.messages.tail
    inStep := fun m hm => o.inStep m (List.mem_of_mem_tail hm) }

/-- This many messages have been sent, or as many as passed. -/
def sent (o : OpenSession) (count : Nat) : OpenSession :=
  { o with sends := (Socket.sendsThrough count o.sends).2 }

def passes (o : OpenSession) (count : Nat) : Bool := (Socket.sendsThrough count o.sends).1

/-- The screen is requested and the next message received. Both components are `none` when the
behaviour is undefined. -/
def look (lib : Platform) (o : OpenSession) : Option Status × Option OpenSession :=
  if o.passes 1 then
    match (nextReceipt o.messages).fate lib (o.width.toNat * o.height.toNat) with
    | .shown => (some .ok, some (o.sent 1).received)
    | .refused => (some .unauthorized, some (o.sent 1).received)
    | .undefined => (none, none)
  else (some .unauthorized, some (o.sent 1))

/-- The number of messages that the events of an operation take. -/
def eventCount (lib : Platform) (o : OpenSession) (operation : VncOperation) : Nat :=
  (ClientCall.script lib o.width o.height (.operate operation)).length

/-- The events of the operation are sent, and without a key the screen is looked at. -/
def perform (lib : Platform) (o : OpenSession) (operation : VncOperation) :
    Option Status × Option OpenSession :=
  let count := o.eventCount lib operation
  if operation.Unshiftable then (none, none)
  else if o.passes count then
    if operation.key = [] then (o.sent count).look lib else (some .ok, some (o.sent count))
  else (some .unauthorized, some (o.sent count))

/-- What becomes of a request that is not a logout. -/
def request (lib : Platform) (o : OpenSession) (v : Visit) :
    Option Status × Option OpenSession :=
  if v.request.Addressed then
    match mrhcQuery v.request with
    | .error _ => (none, none)
    | .ok operation => o.perform (v.platform lib) operation
  else (some .declined, some o)

/-- The client has this session. -/
def Of (client : Instance) (o : OpenSession) : Prop :=
  Streaming client.session o.width o.height o.messages o.sends

end OpenSession

/-- The calls have this result, and leave this session. -/
inductive Agrees : EStateM.Result Stop Session Bool → Option Status × Option OpenSession → Prop where
  | returned {b : Bool} {t : Session} {o : OpenSession}
    (ht : Streaming t o.width o.height o.messages o.sends) :
    Agrees (.ok b t) (some (if b then .ok else .unauthorized), some o)
  | undefined (reason : Stop) (t : Session) : Agrees (.error reason t) (none, none)

section

variable {lib : Platform} {s : Session} {o : OpenSession} {operation : VncOperation}

private theorem capture_agrees (hs : Streaming s o.width o.height o.messages o.sends)
    (hkey : operation.key = []) : Agrees ((capture lib operation).run s) (o.look lib) := by
  have hcleared : Streaming (s.update fun c => { c with imageBuf := [], jpegBuf := [] })
      o.width o.height o.messages o.sends :=
    ⟨hs.format, hs.width, hs.height, hs.input, hs.recvs, hs.sends⟩
  obtain ⟨t, hrun, hclient, ht⟩ :=
    hcleared.sendAll [.requestScreen s.client.width s.client.height]
  have hpasses : (Socket.sendsThrough 1 o.sends).1 = o.passes 1 := rfl
  rw [List.length_singleton, hpasses] at hrun
  rw [capture_eq lib s operation hkey, OpenSession.look]
  cases hsent : o.passes 1 with
  | false =>
    rw [hsent] at hrun
    rw [require_false hrun]
    exact .returned (o := o.sent 1) (b := false) ht
  | true =>
    rw [hsent] at hrun
    rw [require_true hrun, if_pos rfl]
    have hanswered := ht.answered lib operation (congrArg VncClient.imageBuf hclient) o.inStep
    generalize (answered lib operation).run t = result at hanswered
    generalize (nextReceipt o.messages).fate lib _ = fate at hanswered ⊢
    cases hanswered with
    | shown hu => exact .returned (o := (o.sent 1).received) (b := true) hu
    | refused hu => exact .returned (o := (o.sent 1).received) (b := false) hu
    | undefined reason u => exact .undefined reason u

private theorem throwProgram_run {r : Request} (hquery : mrhcQuery r = .ok operation) :
    (throwProgram lib r operation).run s =
      (require (operate lib operation) (capture lib operation)).run s := by
  rw [throwProgram]
  split
  · next hnone =>
    obtain rfl : operation = VncOperation.zero := by
      simp only [mrhcQuery, hnone, Except.ok.injEq] at hquery
      exact hquery.symm
    rfl
  · rfl

private theorem throwProgram_agrees {r : Request} (hquery : mrhcQuery r = .ok operation)
    (hs : Streaming s o.width o.height o.messages o.sends) :
    Agrees ((throwProgram lib r operation).run s) (o.perform lib operation) := by
  rw [throwProgram_run hquery, OpenSession.perform]
  by_cases hshift : operation.Unshiftable
  · obtain ⟨hkey, hpointer, hbutton⟩ := hshift
    have hoperate : (operate lib operation).run s = .error .badShift s := by
      simp [operate, hkey, hpointer, sendPointerEvent, hbutton]
    rw [if_pos ⟨hkey, hpointer, hbutton⟩, require_error hoperate]
    exact .undefined _ s
  · have hoperate := (operate_sendAll lib s operation).resolve_right
      fun h => hshift ⟨h.1.1, h.1.2, h.2.1⟩
    obtain ⟨t, hrun, hclient, ht⟩ :=
      hs.sendAll (ClientCall.script lib s.client.width s.client.height (.operate operation))
    rw [hrun, hs.width, hs.height] at hoperate
    rw [hs.width, hs.height] at ht
    have hpasses : (Socket.sendsThrough (o.eventCount lib operation) o.sends).1 =
        o.passes (o.eventCount lib operation) := rfl
    change _ = EStateM.Result.ok (Socket.sendsThrough (o.eventCount lib operation) o.sends).1 t
      at hoperate
    rw [if_neg hshift]
    rw [hpasses] at hoperate
    cases hsent : o.passes (o.eventCount lib operation) with
    | false =>
      rw [hsent] at hoperate
      rw [require_false hoperate]
      exact .returned (o := o.sent _) (b := false) ht
    | true =>
      rw [hsent] at hoperate
      rw [require_true hoperate, if_pos rfl]
      by_cases hkey : operation.key = []
      · rw [if_pos hkey]
        exact capture_agrees (o := o.sent _) ht hkey
      · have hcapture : (capture lib operation).run t = .ok true t := by
          simp [capture, hkey]
        rw [if_neg hkey, hcapture]
        exact .returned (o := o.sent _) (b := true) ht

end

private theorem handleVisit_agrees {lib : Platform} {v : Visit} {client : Instance}
    {o : OpenSession} (hclient : o.Of client)
    (hstays : v.request.Addressed → mrhcConfirm v.request = true) :
    (handleVisit lib (some client) v).1.status = (o.request lib v).1 ∧
      Option.Rel (fun cache o => ∃ client, cache = some client ∧ OpenSession.Of client o)
        (handleVisit lib (some client) v).2 (o.request lib v).2 := by
  rw [OpenSession.request]
  by_cases haddressed : v.request.Addressed
  · have hconfirm := hstays haddressed
    rw [if_pos haddressed]
    cases hquery : mrhcQuery v.request with
    | error e =>
      obtain ⟨hstatus, hafter⟩ := handleVisit_badQuery lib client haddressed hconfirm hquery
      rw [hafter]
      exact ⟨hstatus, .none⟩
    | ok operation =>
      have hagrees : Agrees ((throwProgram (v.platform lib) v.request operation).run client.session)
          (o.perform (v.platform lib) operation) := throwProgram_agrees hquery hclient
      have hthrown := handleVisit_thrown lib client haddressed hconfirm hquery
      change _ = (o.perform (v.platform lib) operation).1 ∧
        Option.Rel _ _ (o.perform (v.platform lib) operation).2
      generalize (throwProgram (v.platform lib) v.request operation).run client.session = result
        at hagrees hthrown
      generalize o.perform (v.platform lib) operation = told at hagrees ⊢
      cases hagrees with
      | returned ht =>
        obtain ⟨client', answer, hsession, hvisit, hstatus, -⟩ := hthrown
        rw [hvisit]
        rw [← hsession] at ht
        exact ⟨hstatus, .some ⟨client', rfl, ht⟩⟩
      | undefined reason t =>
        rw [hthrown.2]
        exact ⟨hthrown.1, .none⟩
  · have hdeclined : handleVisit lib (some client) v =
        (⟨some .declined, Response.empty, []⟩, some (some client)) := by
      rw [handleVisit, mrhcHandler_declined haddressed]
    rw [if_neg haddressed, hdeclined]
    exact ⟨rfl, .some ⟨client, rfl, hclient⟩⟩

/-- After a login to a server that sends messages in step, and until somebody logs out, the statuses
of a run are the ones that the session tells, up to the first request whose behaviour is
undefined. -/
theorem serve_fates (lib : Platform) {before later : List Visit} {login : Visit}
    {client : Instance} {messages : List EncodedMessage}
    (hbefore : stateAfter (handleVisit lib) none before = some none)
    (hcached : (handleVisit lib none login).2 = some (some client))
    (hstreams : client.Streams messages) (hsteps : ∀ m ∈ messages, m.InStep)
    (hstays : ∀ v ∈ later, v.request.Addressed → mrhcConfirm v.request = true) :
    (serve lib (before ++ login :: later)).map (fun e => e.output.status) =
      (serve lib (before ++ [login])).map (fun e => e.output.status) ++
        (runFrom (OpenSession.request lib)
          ⟨client.session.client.width, client.session.client.height, messages, hsteps,
            client.session.conn.sends⟩ later).map Entry.output := by
  have hhandled := handleVisit_handled lib none login
  rw [hcached] at hhandled
  have hclient : Streaming client.session client.session.client.width client.session.client.height
      messages client.session.conn.sends :=
    ⟨handled_format hhandled hstreams.ready, rfl, rfl, hstreams.input, hstreams.whole, rfl⟩
  have hafter : stateAfter (handleVisit lib) none (before ++ [login]) = some (some client) := by
    rw [stateAfter_append hbefore, stateAfter, hcached]
    rfl
  have hsplit : before ++ login :: later = (before ++ [login]) ++ later := by
    rw [List.append_assoc]
    rfl
  rw [hsplit, serve, runFrom_append hafter, List.map_append]
  refine congrArg₂ (· ++ ·) rfl ?_
  refine runFrom_simulates (R := fun cache o => ∃ client, cache = some client ∧
    OpenSession.Of client o) (g := Answer.status) ?_ ⟨client, rfl, hclient⟩
  rintro v hv cache o ⟨client', rfl, hof⟩
  exact handleVisit_agrees hof (hstays v hv)

def brokenLogin (messages : List EncodedMessage) : Visit :=
  let login := acceptedLogin (messages.flatMap EncodedMessage.bytes) []
  { login with
    server := { login.server with sends := List.replicate 9 .whole ++ [.error] } }

private theorem resize_pixel_inStep : ∀ m ∈ [resizeMessage, pixelMessage], m.InStep := by
  simp only [List.forall_mem_cons, List.not_mem_nil, false_implies, implies_true, and_true]
  decide

def luckyStranger : Visit :=
  { stranger with residue := { Residue.blank with imageTail := fun _ => some 7 } }

theorem serve_fates_gone :
    (serve Platform.plain [brokenLogin [resizeMessage, pixelMessage], stranger, stranger,
        actionVisit (.press (ascii "Enter")), luckyStranger, stranger]).map
          (fun e => e.output.status) =
      [some .ok, some .unauthorized, some .ok, some .unauthorized, some .ok, none] := by
  have hlogin : ((handleVisit Platform.plain none
      (brokenLogin [resizeMessage, pixelMessage])).2.join.map fun client =>
        (decide client.Ready, client.session.conn.stream, client.session.conn.sends,
          client.session.client.width, client.session.client.height)) =
      some (true, Socket.delivering ([resizeMessage, pixelMessage].flatMap EncodedMessage.bytes),
        [.whole, .whole, .whole, .error], 1, 1) := by
    decide +kernel
  simp only [Option.map_eq_some_iff, Option.join_eq_some_iff, Prod.mk.injEq] at hlogin
  obtain ⟨client, hcached, hready, hstream, hsends, hwidth, hheight⟩ := hlogin
  have hfates := @serve_fates Platform.plain [] [stranger, stranger,
    actionVisit (.press (ascii "Enter")), luckyStranger, stranger] _ client _ rfl hcached
    ⟨of_decide_eq_true hready, congrArg Socket.input hstream, congrArg Socket.recvs hstream⟩
    resize_pixel_inStep (by decide)
  rw [hsends, hwidth, hheight] at hfates
  exact hfates.trans (by decide +kernel)

end Mrhc
