import Mrhc.Client.EncodedUpdates
import Mrhc.Handler.Owner

/-!
# Failed captures and the stream

A request that fails is answered with 401 while the client stays, wherever the failed capture has
left its stream. The next capture takes the byte that it finds there for a message type.
-/

namespace Mrhc

/-- The session in which a request receives its message, if it gets that far. -/
def throwReceives (lib : Platform) (r : Request) (operation : VncOperation) (s : Session) :
    Option Session :=
  if r.query = none then captureReceives operation s
  else
    match (operate lib operation).run s with
    | .ok true t => captureReceives operation t
    | _ => none

/-- The session in which a visit that finds this client receives a message. -/
def Visit.receives (lib : Platform) (v : Visit) (client : Instance) : Option Session :=
  if v.request.Addressed ∧ mrhcConfirm v.request = true then
    match mrhcQuery v.request with
    | .ok operation => throwReceives lib v.request operation client.session
    | .error _ => none
  else none

/-- A byte that this session receives for a message type is the first one of a message of the
stream. -/
def TypeStartsMessage (messages : List EncodedMessage) (s : Session) : Prop :=
  ∀ byte, s.conn.input.head? = some byte →
    ∃ past m later, messages = past ++ m :: later ∧
      s.conn.input = m.bytes ++ later.flatMap EncodedMessage.bytes

/-- One of the entries has dropped its client. -/
def Dropped (entries : List Served) : Prop := ∃ e ∈ entries, e.after = some none

/-- Until the client is dropped, every byte that is taken for a message type is the first one of a
message. -/
def StaysInStep (lib : Platform) (messages : List EncodedMessage) (entries : List Served) : Prop :=
  ∀ past e later, entries = past ++ e :: later → Dropped past ∨
    ∀ client s, e.before = some client → e.input.receives lib client = some s →
      TypeStartsMessage messages s

/-- The handshake of this client has succeeded, and its server goes on with these messages,
delivered whole. -/
structure Instance.Streams (client : Instance) (messages : List EncodedMessage) : Prop where
  ready : client.Ready
  input : client.session.conn.input = messages.flatMap EncodedMessage.bytes
  whole : client.session.conn.recvs = []

/-- The message that this request receives, if there is one, is in step. -/
def ReceivesInStep (lib : Platform) (messages : List EncodedMessage) (e : Served) : Prop :=
  ∀ client s past m later, e.before = some client → e.input.receives lib client = some s →
    messages = past ++ m :: later →
    s.conn.input = m.bytes ++ later.flatMap EncodedMessage.bytes → m.InStep

/-- What is left of the stream begins with a message. -/
private structure Following (messages : List EncodedMessage) (s : Session) : Prop where
  left : ∃ past later, messages = past ++ later ∧
    s.conn.input = later.flatMap EncodedMessage.bytes
  whole : s.conn.recvs = []
  format : s.client.pixelFormat = configuredFormat

private theorem Following.sameStream {messages : List EncodedMessage} {s t : Session}
    (h : Following messages s) (hst : s.SameStream t) : Following messages t := by
  have hstream := hst.stream
  simp only [Socket.stream, Socket.mk.injEq, true_and, and_true] at hstream
  obtain ⟨past, later, hsplit, hinput⟩ := h.left
  exact ⟨⟨past, later, hsplit, hstream.1.trans hinput⟩, hstream.2.trans h.whole,
    hst.format.trans h.format⟩

private theorem Following.typeStarts {messages : List EncodedMessage} {s : Session}
    (h : Following messages s) : TypeStartsMessage messages s := by
  intro byte hbyte
  obtain ⟨past, later, hsplit, hinput⟩ := h.left
  cases later with
  | nil =>
    rw [hinput] at hbyte
    cases hbyte
  | cons m later => exact ⟨past, m, later, hsplit, hinput⟩

private theorem Following.answered {lib : Platform} {operation : VncOperation}
    {messages : List EncodedMessage} {s t : Session} {b : Bool} (h : Following messages s)
    (hstep : ∀ past m later, messages = past ++ m :: later →
      s.conn.input = m.bytes ++ later.flatMap EncodedMessage.bytes → m.InStep)
    (hrun : (answered lib operation).run s = .ok b t) : Following messages t := by
  have hmoves : s.Receives t := (answered_moves lib operation).of_ok hrun
  refine ⟨?_, hmoves.whole h.whole, hmoves.format.trans h.format⟩
  obtain ⟨past, later, hsplit, hinput⟩ := h.left
  cases later with
  | nil =>
    -- nothing is left to be received
    have hempty := hmoves.input
    rw [hinput] at hempty
    exact ⟨past, [], hsplit, List.suffix_nil.mp hempty⟩
  | cons m later =>
    refine ⟨past ++ [m], later, by rw [hsplit, List.append_assoc]; rfl, ?_⟩
    exact answered_inStep (VncClient.bits_of_configured h.format) (hstep past m later hsplit hinput)
      h.whole hinput hrun

private theorem capture_following {lib : Platform} {operation : VncOperation}
    {messages : List EncodedMessage} {s t : Session} {b : Bool} (h : Following messages s)
    (hstep : ∀ u past m later, captureReceives operation s = some u →
      messages = past ++ m :: later →
      u.conn.input = m.bytes ++ later.flatMap EncodedMessage.bytes → m.InStep)
    (hrun : (capture lib operation).run s = .ok b t) : Following messages t := by
  cases hreceives : captureReceives operation s with
  | none =>
    have hsame := capture_receives_none lib hreceives
    rw [hrun] at hsame
    exact h.sameStream hsame
  | some u =>
    obtain ⟨hcapture, hsame⟩ := capture_receives lib hreceives
    rw [hcapture] at hrun
    exact (h.sameStream hsame).answered (fun past m later => hstep u past m later hreceives) hrun

private theorem throwProgram_following {lib : Platform} {r : Request} {operation : VncOperation}
    {messages : List EncodedMessage} {s t : Session} {b : Bool} (h : Following messages s)
    (hstep : ∀ u past m later, throwReceives lib r operation s = some u →
      messages = past ++ m :: later →
      u.conn.input = m.bytes ++ later.flatMap EncodedMessage.bytes → m.InStep)
    (hrun : (throwProgram lib r operation).run s = .ok b t) : Following messages t := by
  rw [throwReceives] at hstep
  rw [throwProgram] at hrun
  by_cases hquery : r.query = none
  · rw [if_pos hquery] at hstep hrun
    exact capture_following h hstep hrun
  · rw [if_neg hquery] at hstep hrun
    have hoperate := operate_moves (R := Session.SameStream) lib operation s
    rcases hop : (operate lib operation).run s with ⟨_ | _, u⟩ | ⟨reason, u⟩
    · rw [require_false hop] at hrun
      rw [hop] at hoperate
      cases hrun
      exact h.sameStream hoperate
    · rw [require_true hop] at hrun
      rw [hop] at hoperate hstep
      exact capture_following (h.sameStream hoperate) hstep hrun
    · rw [require_error hop] at hrun
      cases hrun

private theorem throwReceives_sameStream {lib : Platform} {r : Request}
    {operation : VncOperation} {s t : Session} (h : throwReceives lib r operation s = some t) :
    s.SameStream t := by
  rw [throwReceives] at h
  by_cases hquery : r.query = none
  · rw [if_pos hquery] at h
    exact (capture_receives lib h).2
  · rw [if_neg hquery] at h
    have hoperate := operate_moves (R := Session.SameStream) lib operation s
    rcases hop : (operate lib operation).run s with ⟨_ | _, u⟩ | ⟨reason, u⟩
    · rw [hop] at h
      cases h
    · rw [hop] at h hoperate
      exact trans_of Session.SameStream hoperate (capture_receives lib h).2
    · rw [hop] at h
      cases h

private theorem Visit.receives_sameStream {lib : Platform} {v : Visit} {client : Instance}
    {t : Session} (h : v.receives lib client = some t) : client.session.SameStream t := by
  rw [Visit.receives] at h
  split at h
  · split at h
    · exact throwReceives_sameStream h
    · cases h
  · cases h

/-- The client has been dropped, or is followed through the stream. -/
private def Tracked (messages : List EncodedMessage) (past : List Served)
    (cache : Option Instance) : Prop :=
  Dropped past ∨ ∃ client, cache = some client ∧ Following messages client.session

private theorem Dropped.append {past : List Served} (h : Dropped past) (e : Served) :
    Dropped (past ++ [e]) := by
  obtain ⟨e', he', hnone⟩ := h
  exact ⟨e', List.mem_append_left _ he', hnone⟩

private theorem handled_tracked {lib : Platform} {messages : List EncodedMessage}
    {past : List Served} {e : Served}
    (h : Handled lib e.input e.before e.output.status e.output.events e.after)
    (hstep : ReceivesInStep lib messages e) (htracked : Tracked messages past e.before)
    {cache : Option Instance} (hafter : e.after = some cache) :
    Tracked messages (past ++ [e]) cache := by
  cases htracked with
  | inl hdropped => exact Or.inl (hdropped.append e)
  | inr hfollowed =>
    obtain ⟨client, hclient, hfollowing⟩ := hfollowed
    have hreceives := fun s past m later => hstep client s past m later hclient
    rw [hclient, hafter] at h
    generalize e.output.status = status, e.output.events = events at h
    cases h with
    | declined => exact Or.inr ⟨client, rfl, hfollowing⟩
    | loggedOut => exact Or.inl ⟨e, List.mem_append_right _ List.mem_cons_self, hafter⟩
    | thrown haddressed hconfirm hquery hrun hreturned hcalls =>
      refine Or.inr ⟨_, rfl, throwProgram_following hfollowing ?_ hrun⟩
      intro u past' m later hu
      apply hreceives u past' m later
      rw [Visit.receives, if_pos ⟨haddressed, hconfirm⟩, hquery]
      exact hu

/-- The client of a login whose handshake succeeds has the requested format. -/
theorem handled_format {lib : Platform} {v : Visit} {status : Option Status}
    {events : List Event} {client : Instance}
    (h : Handled lib v none status events (some (some client))) (hready : client.Ready) :
    client.session.client.pixelFormat = configuredFormat := by
  cases h with
  | @spun credentials client b calls haddressed hcredentials hrun hready' hpage hcalls =>
    rw [hready'.mp hready, spinProgram] at hrun
    obtain ⟨s, -, hspin⟩ := of_require_true hrun
    obtain ⟨t, -, hconfigure⟩ := of_require_true hspin
    have hformat := configure_format t
    rwa [hconfigure] at hformat

/-- The session stays in step with its server when each message that a request receives is in
step. -/
theorem serve_staysInStep (lib : Platform) (visits : List Visit) {past later : List Served}
    {login : Served} {client : Instance} {messages : List EncodedMessage}
    (hserve : serve lib visits = past ++ login :: later) (hcreated : login.before = none)
    (hcached : login.after = some (some client)) (hstreams : client.Streams messages)
    (hsteps : ∀ e ∈ later, ReceivesInStep lib messages e) :
    StaysInStep lib messages later := by
  have hlogin : login ∈ serve lib visits := by
    rw [hserve]
    exact List.mem_append_right _ List.mem_cons_self
  have hhandled := serve_handled hlogin
  rw [hcreated, hcached] at hhandled
  have hfollowing : Following messages client.session :=
    ⟨⟨[], messages, rfl, hstreams.input⟩, hstreams.whole, handled_format hhandled hstreams.ready⟩
  obtain ⟨visits', hlater⟩ := runFrom_rest hserve hcached
  intro past' e later' hsplit
  have htracked : Tracked messages past' e.before := by
    apply runFrom_history (Tracked messages) _ _ (hlater.symm.trans hsplit)
    · exact Or.inr ⟨client, rfl, hfollowing⟩
    · intro past'' e' he' htracked cache hafter
      have hlater' : e' ∈ later := by
        rw [hlater]
        exact he'
      have hserved : e' ∈ serve lib visits := by
        rw [hserve]
        exact List.mem_append_right _ (List.mem_cons_of_mem _ hlater')
      exact handled_tracked (serve_handled hserved) (hsteps e' hlater') htracked hafter
  cases htracked with
  | inl hdropped => exact Or.inl hdropped
  | inr hfollowed =>
    obtain ⟨client', hclient', hfollowing'⟩ := hfollowed
    refine Or.inr fun c s hc hreceives => ?_
    obtain rfl : client' = c := Option.some.inj (hclient'.symm.trans hc)
    exact (hfollowing'.sameStream (Visit.receives_sameStream hreceives)).typeStarts

/-- What a run shows of an entry: whether it found a client, the one that it leaves, the status,
and what is left of the stream where it receives a message. -/
private structure Shown where
  found : Bool
  left : Option (Bool × Bytes × Bool)
  status : Option Status
  received : Option Bytes
deriving DecidableEq

private def shown (e : Served) : Shown where
  found := e.before.isSome
  left := e.after.join.map fun client =>
    (decide client.Ready, client.session.conn.input, client.session.conn.recvs.isEmpty)
  status := e.output.status
  received := e.before.bind fun client =>
    (e.input.receives Platform.plain client).map fun s => s.conn.input

private theorem streams_of_shown {e : Served} {messages : List EncodedMessage}
    {status : Option Status} {received : Option Bytes}
    (h : shown e = ⟨false, some (true, messages.flatMap EncodedMessage.bytes, true), status,
      received⟩) :
    e.before = none ∧ ∃ client, e.after = some (some client) ∧ client.Streams messages := by
  simp only [shown, Shown.mk.injEq, Option.isSome_eq_false_iff, Option.isNone_iff_eq_none,
    Option.map_eq_some_iff, Option.join_eq_some_iff, Prod.mk.injEq] at h
  obtain ⟨hbefore, ⟨client, hafter, hready, hinput, hrecvs⟩, -⟩ := h
  exact ⟨hbefore, client, hafter, of_decide_eq_true hready, hinput,
    List.isEmpty_iff.mp hrecvs⟩

/-- A rectangle with the pseudo-encoding for the size of the desktop, which has no payload. -/
def resizeMessage : EncodedMessage :=
  .frameBufferUpdate ⟨0, [⟨⟨0, 0, 1, 1, 0xffffff21⟩, [], by decide⟩], by decide⟩

/-- One raw rectangle of one pixel. -/
def pixelMessage : EncodedMessage :=
  .frameBufferUpdate ⟨0, [⟨⟨0, 0, 1, 1, 0⟩, [1, 2, 3, 4], by decide⟩], by decide⟩

/-- The login to a server that sends these messages, and two visitors after it. -/
def visitsOf (messages : List EncodedMessage) : List Visit :=
  [acceptedLogin (messages.flatMap EncodedMessage.bytes) [], stranger, stranger]

theorem serve_resize_staysInStep :
    ∃ e₁ e₂ e₃, serve Platform.plain (visitsOf [resizeMessage, pixelMessage]) = [e₁, e₂, e₃] ∧
      e₂.output.status = some .unauthorized ∧ e₃.output.status = some .ok ∧
      StaysInStep Platform.plain [resizeMessage, pixelMessage] [e₂, e₃] := by
  have hrun : (serve Platform.plain (visitsOf [resizeMessage, pixelMessage])).map shown =
      [⟨false, some (true, [resizeMessage, pixelMessage].flatMap EncodedMessage.bytes, true),
          some .ok, none⟩,
        ⟨true, some (true, pixelMessage.bytes, true), some .unauthorized,
          some (resizeMessage.bytes ++ pixelMessage.bytes)⟩,
        ⟨true, some (true, [], true), some .ok, some pixelMessage.bytes⟩] := by
    decide +kernel
  obtain ⟨e₁, e₂, e₃, hserve, he₁, he₂, he₃⟩ := eq_triple_of_map hrun
  obtain ⟨hbefore, client, hafter, hstreams⟩ := streams_of_shown he₁
  have hinStep : ∀ m ∈ [resizeMessage, pixelMessage], m.InStep := by
    simp only [List.forall_mem_cons, List.not_mem_nil, false_implies, implies_true, and_true]
    decide
  have hsplit : serve Platform.plain (visitsOf [resizeMessage, pixelMessage]) =
      [] ++ e₁ :: [e₂, e₃] := hserve
  simp only [shown, Shown.mk.injEq] at he₂ he₃
  refine ⟨e₁, e₂, e₃, hserve, he₂.2.2.1, he₃.2.2.1, ?_⟩
  apply serve_staysInStep Platform.plain _ hsplit hbefore hafter hstreams
  intro e _ _ s past m later _ _ hmessages _
  apply hinStep m
  rw [hmessages]
  exact List.mem_append_right _ List.mem_cons_self

def copyMessage : EncodedMessage :=
  .frameBufferUpdate ⟨0, [⟨⟨0, 0, 1, 1, 1⟩, [2, 0, 2, 0], by decide⟩], by decide⟩

/-- After a copied rectangle has been rejected the next request takes its payload for a bell. -/
theorem serve_copy_outOfStep :
    ∃ e₁ e₂ e₃ client, serve Platform.plain (visitsOf [copyMessage]) = [e₁, e₂, e₃] ∧
      e₁.before = none ∧ e₁.after = some (some client) ∧ client.Streams [copyMessage] ∧
      e₂.output.status = some .unauthorized ∧
      ¬StaysInStep Platform.plain [copyMessage] [e₂, e₃] := by
  have hrun : (serve Platform.plain (visitsOf [copyMessage])).map shown =
      [⟨false, some (true, [copyMessage].flatMap EncodedMessage.bytes, true), some .ok, none⟩,
        ⟨true, some (true, [2, 0, 2, 0], true), some .unauthorized, some copyMessage.bytes⟩,
        ⟨true, none, none, some [2, 0, 2, 0]⟩] := by
    decide +kernel
  obtain ⟨e₁, e₂, e₃, hserve, he₁, he₂, he₃⟩ := eq_triple_of_map hrun
  obtain ⟨hbefore, client, hafter, hstreams⟩ := streams_of_shown he₁
  simp only [shown, Shown.mk.injEq, Option.bind_eq_some_iff, Option.map_eq_some_iff,
    Option.join_eq_some_iff] at he₂ he₃
  obtain ⟨-, ⟨client₂, hkept, -⟩, hstatus, -⟩ := he₂
  obtain ⟨-, -, -, client₃, hbefore₃, s, hreceives, hinput⟩ := he₃
  refine ⟨e₁, e₂, e₃, client, hserve, hbefore, hafter, hstreams, hstatus, fun h => ?_⟩
  cases h [e₂] e₃ [] rfl with
  | inl hdropped =>
    obtain ⟨e, he, hnone⟩ := hdropped
    rw [List.mem_singleton.mp he, hkept] at hnone
    cases hnone
  | inr htyped =>
    obtain ⟨past, m, later, hmessages, hstart⟩ :=
      htyped client₃ s hbefore₃ hreceives 2 (by rw [hinput]; rfl)
    have hm : m ∈ [copyMessage] := by
      rw [hmessages]
      exact List.mem_append_right _ List.mem_cons_self
    rw [List.mem_singleton.mp hm, hinput] at hstart
    cases hstart

end Mrhc
