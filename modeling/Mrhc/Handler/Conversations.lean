import Mrhc.Client.Outgoing
import Mrhc.Handler.Answers
import Mrhc.Handler.Owner
import Mrhc.Handler.Spin

/-!
# The conversation of a session

Everything that a server receives in a session, over any run of requests: the opening, and then for
each request the first messages of what the request stands for, or all of them when it is answered
with success.
-/

namespace Mrhc

/-- The messages that a request stands for, on a screen of this size. -/
def Request.script (lib : Platform) (r : Request) (width height : UInt16) : List ClientMessage :=
  match mrhcQuery r with
  | .error _ => []
  | .ok operation =>
    ClientCall.script lib width height (.operate operation) ++
      ClientCall.script lib width height (.capture operation)

/-- The messages that are sent while an entry is served. -/
structure Served.Sends (lib : Platform) (width height : UInt16) (e : Served)
    (sent : List ClientMessage) : Prop where
  script : sent <+: e.input.request.script lib width height
  complete : e.output.status = some .ok → sent = e.input.request.script lib width height
  silent : e.output.events = [] → sent = []

/-- The session has been opened by this entry with these messages: the first of the opening, or all
six when the entry is answered with the page. -/
structure Served.Opens (login : Served) (opening : List Bytes) : Prop where
  created : ∃ credentials, .created credentials ∈ login.output.events
  follows : ∃ version, List.Forall₂ (fun step message => step message)
    ((openingScript version).take opening.length) opening
  complete : opening.length = 6 ↔ login.output.response.contentType = some (ascii "text/html")

/-- The conversation of a session after these entries. -/
structure Converses (lib : Platform) (past : List Served) (s : Session) (login : Served)
    (since : List Served) (opening : List Bytes) (sent : List (List ClientMessage)) : Prop where
  history : ∃ earlier, past = earlier ++ login :: since
  opens : login.Opens opening
  kept : ∀ e ∈ since, ∀ credentials, .created credentials ∉ e.output.events
  requests : List.Forall₂ (Served.Sends lib s.client.width s.client.height) since sent
  written : s.conn.written =
    login.input.server.written ++ (opening ++ sent.flatten.map ClientMessage.bytes)

/-! What the calls of a request write. -/

/-- From `s` to `t` the first messages of a script have been written, and all of them if the call
has returned `true`. -/
private structure Writes (s : Session) (script : List ClientMessage) (b : Bool) (t : Session)
    (sent : List ClientMessage) : Prop where
  written : t.conn.written = s.conn.written ++ sent.map ClientMessage.bytes
  first : sent <+: script
  complete : b = true → sent = script
  whole : t.conn.WholeSends
  width : t.client.width = s.client.width
  height : t.client.height = s.client.height

private theorem clientCall_writes {lib : Platform} {call : ClientCall} {s t : Session} {b : Bool}
    (hsends : s.conn.WholeSends) (h : (call.program lib).run s = .ok b t) :
    ∃ sent, Writes s (call.script lib s.client.width s.client.height) b t sent := by
  obtain ⟨sent, hwrites, hafter⟩ := clientStep_writes lib s call hsends
  have hstep : clientStep lib s call = (.ok b t, some t) := by
    rw [clientStep, h]
    rfl
  have hwritten := hwrites.written
  have hcomplete := hwrites.complete t
  rw [entryOf, hstep] at hwritten hcomplete
  obtain ⟨hwhole, hwidth, hheight⟩ := hafter t (by rw [hstep])
  refine ⟨sent, hwritten, hwrites.script, ?_, hwhole, hwidth, hheight⟩
  intro htrue
  exact hcomplete (by rw [htrue])

private theorem operateProgram_writes {lib : Platform} {r : Request} {operation : VncOperation}
    {s t : Session} {b : Bool} (hquery : mrhcQuery r = .ok operation) (hsends : s.conn.WholeSends)
    (h : (operateProgram lib r operation).run s = .ok b t) :
    ∃ sent, Writes s
      (ClientCall.script lib s.client.width s.client.height (.operate operation)) b t sent := by
  by_cases hnone : r.query = none
  · rw [operateProgram, if_pos hnone] at h
    cases h
    have hzero : operation = VncOperation.zero := by
      rw [mrhcQuery, hnone] at hquery
      exact (Except.ok.inj hquery).symm
    rw [hzero]
    exact ⟨[], (List.append_nil _).symm, List.nil_prefix, fun _ => rfl, hsends, rfl, rfl⟩
  · rw [operateProgram, if_neg hnone] at h
    exact @clientCall_writes lib (.operate operation) s t b hsends h

private theorem Writes.append {s t u : Session} {script script' : List ClientMessage}
    {b : Bool} {sent sent' : List ClientMessage} (h : Writes s script true t sent)
    (h' : Writes t script' b u sent') : Writes s (script ++ script') b u (sent ++ sent') where
  written := by rw [h'.written, h.written, List.map_append, List.append_assoc]
  first := by
    rw [h.complete rfl]
    exact (List.prefix_append_right_inj script).mpr h'.first
  complete := fun hb => congrArg₂ List.append (h.complete rfl) (h'.complete hb)
  whole := h'.whole
  width := h'.width.trans h.width
  height := h'.height.trans h.height

section

variable {lib : Platform} {v : Visit} {operation : VncOperation} {s t u : Session}

private theorem request_script {width height : UInt16}
    (hquery : mrhcQuery v.request = .ok operation) :
    v.request.script lib width height =
      ClientCall.script lib width height (.operate operation) ++
        ClientCall.script lib width height (.capture operation) := by
  rw [Request.script, hquery]

private theorem notOperated_writes (hquery : mrhcQuery v.request = .ok operation)
    (hsends : s.conn.WholeSends)
    (h : (operateProgram lib v.request operation).run s = .ok false t) :
    ∃ sent, Writes s (v.request.script lib s.client.width s.client.height) false t sent := by
  obtain ⟨sent, hsent⟩ := operateProgram_writes hquery hsends h
  rw [request_script hquery]
  exact ⟨sent, hsent.written, hsent.first.trans (List.prefix_append _ _), nofun, hsent.whole,
    hsent.width, hsent.height⟩

private theorem captured_writes {b : Bool} (hquery : mrhcQuery v.request = .ok operation)
    (hsends : s.conn.WholeSends)
    (hoperate : (operateProgram lib v.request operation).run s = .ok true t)
    (hcapture : (capture lib operation).run t = .ok b u) :
    ∃ sent, Writes s (v.request.script lib s.client.width s.client.height) b u sent := by
  obtain ⟨sent, hsent⟩ := operateProgram_writes hquery hsends hoperate
  obtain ⟨sent', hsent'⟩ := @clientCall_writes lib (.capture operation) t u b hsent.whole hcapture
  rw [hsent.width, hsent.height] at hsent'
  rw [request_script hquery]
  exact ⟨sent ++ sent', hsent.append hsent'⟩

end

/-! The opening. -/

private def KeepsWhole (s t : Session) : Prop := s.conn.WholeSends → t.conn.WholeSends

private instance : OpeningFrame KeepsWhole where
  refl := fun _ => id
  trans := fun _ _ _ h h' => h' ∘ h
  recv := by
    intro s n h
    rw [Session.on_conn, Socket.WholeSends, s.conn.recv_sends]
    exact h
  push := fun _ _ => id
  send := fun s message h => (Socket.send_of_whole h message).2
  set := fun _ _ _ => id

private theorem spinProgram_whole {s t : Session} {b : Bool} (hsends : s.conn.WholeSends)
    (h : spinProgram.run s = .ok b t) : t.conn.WholeSends := by
  have hmoves : Moves KeepsWhole spinProgram :=
    Moves.require initializeClient_moves (Moves.require authenticate_moves configure_moves)
  exact hmoves.of_ok h hsends

/-! The conversation. -/

/-- The client has had a conversation since it was created. -/
private def Conversed (lib : Platform) (past : List Served) (cache : Option Instance) : Prop :=
  ∀ client, cache = some client → client.session.conn.WholeSends ∧
    ∃ login since opening sent,
      Converses lib past client.session login since opening sent

private theorem opens_conversed {lib : Platform} {past : List Served} {e : Served}
    {credentials : Credentials} {client : Instance} {b : Bool}
    (hsends : e.input.server.WholeSends)
    (hcreated : .created credentials ∈ e.output.events)
    (hrun : spinProgram.run (Instance.new credentials e.input).session = .ok b client.session)
    (hpage : b = true ↔ e.output.response.contentType = some (ascii "text/html")) :
    Conversed lib (past ++ [e]) (some client) := by
  intro client' hclient
  cases hclient
  refine ⟨spinProgram_whole hsends hrun, e, [], ?_⟩
  obtain ⟨bufs, msgs, htranscript, -, hall⟩ :=
    @spinProgram_cases (Instance.new credentials e.input).session hsends
  rw [hrun, finalState_ok] at htranscript
  refine ⟨msgs, [], ⟨past, rfl⟩, ?_, fun e he => absurd he List.not_mem_nil, .nil, ?_⟩
  · refine ⟨⟨credentials, hcreated⟩, ⟨_, htranscript.follows⟩, ?_⟩
    have htrue : (∃ t, spinProgram.run (Instance.new credentials e.input).session = .ok true t) ↔
        b = true := by
      rw [hrun]
      simp
    exact hall.symm.trans (htrue.trans hpage)
  · rw [htranscript.written, List.flatten_nil, List.map_nil, List.append_nil]
    rfl

private theorem Converses.request {lib : Platform} {past since : List Served} {s t : Session}
    {login e : Served} {opening : List Bytes} {sent : List (List ClientMessage)}
    {ms : List ClientMessage} (h : Converses lib past s login since opening sent)
    (hsends : e.Sends lib s.client.width s.client.height ms)
    (hkept : ∀ credentials, .created credentials ∉ e.output.events)
    (hwritten : t.conn.written = s.conn.written ++ ms.map ClientMessage.bytes)
    (hwidth : t.client.width = s.client.width) (hheight : t.client.height = s.client.height) :
    Converses lib (past ++ [e]) t login (since ++ [e]) opening (sent ++ [ms]) where
  history := by
    obtain ⟨earlier, rfl⟩ := h.history
    exact ⟨earlier, by simp⟩
  opens := h.opens
  kept := by
    intro e' he'
    rcases List.mem_append.mp he' with he' | he'
    · exact h.kept e' he'
    · rw [List.mem_singleton.mp he']
      exact hkept
  requests := by
    rw [hwidth, hheight]
    exact List.rel_append h.requests (.cons hsends .nil)
  written := by
    rw [hwritten, h.written]
    simp

private theorem not_created (calls : List Call) (credentials : Credentials) :
    .created credentials ∉ calls.map Event.called := by
  simp

private theorem called_conversed {lib : Platform} {past : List Served} {e : Served}
    {client client' : Instance} {b : Bool} {sent : List ClientMessage} {calls : List Call}
    (hconversed : Conversed lib past (some client))
    (hwrites : Writes client.session
      (e.input.request.script lib client.session.client.width client.session.client.height) b
      client'.session sent)
    (hok : e.output.status = some .ok → b = true) (hcalls : calls ≠ [])
    (hevents : e.output.events = calls.map .called) :
    Conversed lib (past ++ [e]) (some client') := by
  intro client'' hclient
  cases hclient
  obtain ⟨-, login, since, opening, sents, hconverses⟩ := hconversed client rfl
  refine ⟨hwrites.whole, login, since ++ [e], opening, sents ++ [sent], ?_⟩
  refine hconverses.request ?_ ?_ hwrites.written hwrites.width hwrites.height
  · refine ⟨hwrites.first, fun h => hwrites.complete (hok h), fun hnone => ?_⟩
    rw [hevents] at hnone
    exact absurd (List.map_eq_nil_iff.mp hnone) hcalls
  · rw [hevents]
    exact not_created calls

private theorem throwCalls_ne_nil (r : Request) (operation : VncOperation) :
    throwCalls r operation ≠ [] := by
  rw [throwCalls]
  split
  · exact List.cons_ne_nil _ _
  · exact List.cons_ne_nil _ _

private theorem answered_conversed {lib : Platform} {e : Served}
    (h : Answered lib e.input e.before e.output e.after) (hserver : e.input.server.WholeSends)
    {past : List Served} (hconversed : Conversed lib past e.before) {cache : Option Instance}
    (hafter : e.after = some cache) : Conversed lib (past ++ [e]) cache := by
  generalize houtput : e.output = answer at h
  generalize hbefore : e.before = before at h hconversed
  rw [hafter] at h
  cases h with
  | declined =>
    intro client hclient
    obtain ⟨hwhole, login, since, opening, sent, hconverses⟩ := hconversed client hclient
    refine ⟨hwhole, login, since ++ [e], opening, sent ++ [[]], ?_⟩
    refine hconverses.request ?_ ?_ (List.append_nil _).symm rfl rfl
    · refine ⟨List.nil_prefix, ?_, fun _ => rfl⟩
      rw [houtput]
      exact nofun
    · rw [houtput]
      exact not_created []
  | refused => exact fun client hclient => absurd hclient (Option.some_ne_none client).symm
  | opened _ _ hrun =>
    refine opens_conversed hserver ?_ hrun ?_
    · rw [houtput]
      exact List.mem_cons_self
    · rw [houtput]
      exact iff_of_true rfl rfl
  | failed k _ _ hrun =>
    refine opens_conversed hserver ?_ hrun ?_
    · rw [houtput]
      exact List.mem_cons_self
    · rw [houtput]
      exact iff_of_false Bool.false_ne_true nofun
  | loggedOut => exact fun client hclient => absurd hclient (Option.some_ne_none client).symm
  | @shown operation client client' _ _ hquery hrun =>
    rw [throwProgram_eq] at hrun
    obtain ⟨s, hoperate, hcapture⟩ := of_require_true hrun
    obtain ⟨sent, hwrites⟩ :=
      captured_writes hquery (hconversed client rfl).1 hoperate hcapture
    exact called_conversed hconversed hwrites (fun _ => rfl) (throwCalls_ne_nil _ operation)
      (by rw [houtput])
  | @notOperated operation client client' _ _ hquery hrun =>
    obtain ⟨sent, hwrites⟩ := notOperated_writes hquery (hconversed client rfl).1 hrun
    refine @called_conversed lib past e client client' false sent [.operate operation] hconversed
      hwrites ?_ nofun ?_
    · rw [houtput]
      exact nofun
    · rw [houtput]
      rfl
  | @notCaptured operation client client' s _ _ hquery hoperate hrun =>
    obtain ⟨sent, hwrites⟩ := captured_writes hquery (hconversed client rfl).1 hoperate hrun
    refine called_conversed hconversed hwrites ?_ (throwCalls_ne_nil _ operation) (by rw [houtput])
    rw [houtput]
    exact nofun

/-- After every request, all that the server of the open session has received is the opening and
what the requests since then stand for, in their order. -/
theorem serve_converses {lib : Platform} {visits : List Visit}
    (hservers : ∀ v ∈ visits, v.server.WholeSends) {past rest : List Served} {e : Served}
    (h : serve lib visits = past ++ e :: rest) {client : Instance}
    (hafter : e.after = some (some client)) :
    ∃ login since opening sent,
      Converses lib (past ++ [e]) client.session login since opening sent := by
  have hstep : ∀ past', ∀ e' ∈ serve lib visits, Conversed lib past' e'.before →
      ∀ cache, e'.after = some cache → Conversed lib (past' ++ [e']) cache := by
    intro past' e' he' hconversed cache hcache
    exact answered_conversed (serve_answered he') (hservers _ (input_mem_of_mem_runFrom he'))
      hconversed
      hcache
  have hstart : Conversed lib [] none := by
    intro client hnone
    cases hnone
  have hbefore := runFrom_history (Conversed lib) hstart hstep h
  have he : e ∈ serve lib visits := by
    rw [h]
    exact List.mem_append_right _ List.mem_cons_self
  exact (hstep past e he hbefore _ hafter client rfl).2

theorem serve_converses_stranger :
    ∃ e₁ e₂ client login since opening sent,
      serve Platform.plain [acceptedLogin pixelUpdateBytes [], stranger] = [e₁, e₂] ∧
        e₂.after = some (some client) ∧
        Converses Platform.plain [e₁, e₂] client.session login since opening sent := by
  have hrun : (serve Platform.plain [acceptedLogin pixelUpdateBytes [], stranger]).map
      (fun e => e.after.map Option.isSome) = [some true, some true] := by
    decide +kernel
  obtain ⟨e₁, e₂, hserve, -, hopen⟩ := eq_pair_of_map hrun
  obtain ⟨cache, hafter, hsome⟩ := Option.map_eq_some_iff.mp hopen
  obtain ⟨client, rfl⟩ := Option.isSome_iff_exists.mp hsome
  have hservers : ∀ v ∈ [acceptedLogin pixelUpdateBytes [], stranger], v.server.WholeSends := by
    decide
  obtain ⟨login, since, opening, sent, hconverses⟩ :=
    @serve_converses Platform.plain _ hservers [e₁] [] e₂ hserve client hafter
  exact ⟨e₁, e₂, client, login, since, opening, sent, hserve, hafter, hconverses⟩

end Mrhc
