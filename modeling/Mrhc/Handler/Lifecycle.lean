import Mrhc.Handler.ObjectRuns
import Mrhc.Handler.Owner

/-!
# The life of a client

Which requests create, use and delete the `vnc_client` objects, over whole runs.
-/

namespace Mrhc

/-- The form of the request has a field of this name, or cannot be parsed. -/
def Request.LogsOut (r : Request) : Prop :=
  r.formNames = none ∨ ∃ names, r.formNames = some names ∧ ∃ name ∈ names,
    cString name = ascii "logout"

def ObjectEvent.client : ObjectEvent → Pointer
  | .created client _ => client
  | .called client _ => client
  | .deleted client => client

/-- All that has been done with the objects in these entries. -/
def trace (entries : List ServedObjects) : List ObjectEvent :=
  entries.flatMap fun e => e.output.events

/-- The client has been created in these entries and has not been deleted. -/
def Alive (entries : List ServedObjects) (client : Pointer) : Prop :=
  (∃ credentials, .created client credentials ∈ trace entries) ∧ .deleted client ∉ trace entries

/-- No object has been deleted in these entries. -/
def NoDeletion (entries : List ServedObjects) : Prop := ∀ client, .deleted client ∉ trace entries

/-- The client has been created in one of these entries, with no deletion since. -/
def CreatedSince (entries : List ServedObjects) (client : Pointer) : Prop :=
  ∃ past f later credentials, entries = past ++ f :: later ∧
    .created client credentials ∈ f.output.events ∧ NoDeletion (f :: later)

/-- The lifecycle of the clients in one entry of a run, after the entries `past`. -/
structure Lifecycle (past : List ServedObjects) (e : ServedObjects) : Prop where
  owned : ∀ m, e.after = some m → ∀ client, Alive (past ++ [e]) client ↔ m.clientCache = some client
  safe : ∀ client, e.output.result ≠ .error (.dangling client)
  once : ∀ client, .deleted client ∈ trace past → ∀ event ∈ e.output.events, event.client ≠ client
  last : ∀ client, .deleted client ∈ e.output.events → e.output.events = [.deleted client]
  declined : e.output.status = some .declined →
    e.after = some e.before ∧ e.output.response = Response.empty ∧ e.output.events = []
  deletes : ∀ client, .deleted client ∈ e.output.events ↔
    e.before.clientCache = some client ∧ e.input.request.Addressed ∧ e.input.request.LogsOut
  driven : ∀ client call, .called client call ∈ e.output.events → call.opens = false →
    CreatedSince past client ∧ NoDeletion [e]

theorem mrhcConfirm_false_iff (r : Request) : mrhcConfirm r = false ↔ r.LogsOut := by
  rw [mrhcConfirm, Request.LogsOut]
  cases r.formNames with
  | none => simp
  | some names => simp

/-- All that one request can do with the objects. -/
inductive Acts (v : Visit) (m : Memory) : List ObjectEvent → Option Memory → Prop where
  | nothing {after : Option Memory} (hafter : ∀ m', after = some m' → m' = m)
    (hkept : m.clientCache ≠ none → v.request.Addressed → ¬v.request.LogsOut) :
    Acts v m [] after
  | creates {credentials : Credentials} {calls : List Call} {after : Option Memory}
    (hcache : m.clientCache = none) (hcalls : ∀ call ∈ calls, call.opens = true)
    (hafter : ∀ m', after = some m' →
      ∃ object, m' = ⟨m.objects.create object, some m.objects.next⟩) :
    Acts v m (.created m.objects.next credentials :: calls.map (.called m.objects.next)) after
  | deletes {client : Pointer} (hcache : m.clientCache = some client)
    (haddressed : v.request.Addressed) (hlogout : v.request.LogsOut) :
    Acts v m [.deleted client] (some ⟨m.objects.delete client, none⟩)
  | uses {client : Pointer} {calls : List Call} {after : Option Memory}
    (hcache : m.clientCache = some client) (hkept : ¬v.request.LogsOut)
    (hafter : ∀ m', after = some m' →
      ∃ object, m' = ⟨m.objects.put client object, some client⟩) :
    Acts v m (calls.map (.called client)) after

private theorem map_at_called (client : Pointer) (calls : List Call) :
    (calls.map Event.called).map (Event.at client) = calls.map (.called client) := by
  rw [List.map_map]
  rfl

private theorem acts_without {lib : Platform} {v : Visit} {m : Memory} {status : Option Status}
    {events : List Event} {after : Option (Option Instance)} (hcache : m.clientCache = none)
    (h : Handled lib v none status events after) :
    Acts v m (events.map (Event.at m.pointer) ++ (after.map m.deletion).getD [])
      (after.map m.follow) := by
  have hkept : m.clientCache ≠ none → v.request.Addressed → ¬v.request.LogsOut :=
    fun hnot => absurd hcache hnot
  have hopens : ∀ calls : List Call, (∀ call ∈ calls, call.opens = true) →
      ∀ call ∈ Call.initializeClient :: calls, call.opens = true := by
    intro calls hcalls
    exact List.forall_mem_cons.mpr ⟨rfl, hcalls⟩
  cases h with
  | declined =>
    simp only [Option.map_some, Option.getD_some, Memory.deletion_of_none hcache,
      Memory.follow_nothing hcache]
    exact .nothing (fun m' hm' => (Option.some.inj hm').symm) hkept
  | refused =>
    simp only [Option.map_some, Option.getD_some, Memory.deletion_of_none hcache,
      Memory.follow_nothing hcache]
    exact .nothing (fun m' hm' => (Option.some.inj hm').symm) hkept
  | unreadable => exact .nothing (by simp) hkept
  | @spun credentials client b calls haddressed hcredentials hrun hready hpage hcalls =>
    simp only [Option.map_some, Option.getD_some, Memory.deletion_kept, List.append_nil,
      Memory.follow_create hcache, Memory.pointer_of_none hcache, List.map_cons, map_at_called]
    exact .creates hcache (hopens calls hcalls) fun m' hm' => ⟨client, (Option.some.inj hm').symm⟩
  | @spinStopped credentials calls haddressed hcredentials hrun hcalls =>
    simp only [Option.map_none, Option.getD_none, Memory.pointer_of_none hcache, List.append_nil,
      List.map_cons, map_at_called]
    exact .creates hcache (hopens calls hcalls) (by simp)

private theorem acts_with {lib : Platform} {v : Visit} {m : Memory} {client : Pointer}
    {object : Instance} {status : Option Status} {events : List Event}
    {after : Option (Option Instance)} (hm : m.Owned) (hcache : m.clientCache = some client)
    (hcached : m.cached = some object) (h : Handled lib v (some object) status events after) :
    Acts v m (events.map (Event.at m.pointer) ++ (after.map m.deletion).getD [])
      (after.map m.follow) := by
  have hkept : mrhcConfirm v.request = true → ¬v.request.LogsOut := by
    intro hconfirm hlogout
    rw [(mrhcConfirm_false_iff v.request).mpr hlogout] at hconfirm
    cases hconfirm
  cases h with
  | declined _ haddressed =>
    have hsame : m.follow (some object) = m := by rw [← hcached, hm.follow_self]
    simp only [Option.map_some, Option.getD_some, Memory.deletion_kept, hsame]
    exact .nothing (fun m' hm' => (Option.some.inj hm').symm) fun _ h => absurd h haddressed
  | loggedOut _ haddressed hconfirm =>
    simp only [Option.map_some, Option.getD_some, Memory.follow_delete hcache,
      Memory.deletion_of_some hcache]
    exact .deletes hcache haddressed ((mrhcConfirm_false_iff v.request).mp hconfirm)
  | badQuery _ haddressed hconfirm hquery =>
    exact .nothing (by simp) fun _ _ => hkept hconfirm
  | @thrown operation _ client' b call calls haddressed hconfirm hquery hrun hreturned hcalls =>
    simp only [Option.map_some, Option.getD_some, Memory.deletion_kept, Memory.follow_put hcache,
      Memory.pointer_of_some hcache, List.append_nil, map_at_called]
    exact .uses hcache (hkept hconfirm) fun m' hm' => ⟨client', (Option.some.inj hm').symm⟩
  | @throwStopped operation _ call calls haddressed hconfirm hquery hrun hcalls =>
    simp only [Option.map_none, Option.getD_none, Memory.pointer_of_some hcache, List.append_nil,
      map_at_called]
    exact .uses hcache (hkept hconfirm) (by simp)

theorem handleObjects_acts (lib : Platform) (v : Visit) {m : Memory} (hm : m.Owned) :
    Acts v m (handleObjects lib m v).1.events (handleObjects lib m v).2 := by
  have hrefines := handleObjects_refines lib v hm
  have hhandled := handleVisit_handled lib m.cached v
  rw [hrefines.events, hrefines.after]
  cases hcache : m.clientCache with
  | none =>
    have hcached := hm.cached_none.mpr hcache
    rw [hcached] at hhandled ⊢
    exact acts_without hcache hhandled
  | some client =>
    obtain ⟨object, -, hcached⟩ := hm.cached_some hcache
    rw [hcached] at hhandled ⊢
    exact acts_with hm hcache hcached hhandled

/-- The memory and what has been done with the objects agree. -/
private structure Recorded (past : List ServedObjects) (m : Memory) : Prop where
  owned : m.Owned
  created : ∀ client, (∃ credentials, .created client credentials ∈ trace past) ↔
    client < m.objects.next
  deleted : ∀ client, .deleted client ∈ trace past ↔
    client < m.objects.next ∧ m.objects.get client = none
  since : ∀ client, m.clientCache = some client → CreatedSince past client

private theorem trace_append (past : List ServedObjects) (e : ServedObjects) :
    trace (past ++ [e]) = trace past ++ e.output.events := by
  simp [trace]

private theorem noDeletion_append {entries : List ServedObjects} {e : ServedObjects}
    (h : NoDeletion entries) (he : NoDeletion [e]) : NoDeletion (entries ++ [e]) := by
  intro client hclient
  rw [trace_append] at hclient
  cases List.mem_append.mp hclient with
  | inl hmem => exact h client hmem
  | inr hmem => exact he client (by simpa [trace] using hmem)

private theorem CreatedSince.append {past : List ServedObjects} {client : Pointer}
    (h : CreatedSince past client) {e : ServedObjects} (he : NoDeletion [e]) :
    CreatedSince (past ++ [e]) client := by
  obtain ⟨past', f, later, credentials, rfl, hcreated, hno⟩ := h
  exact ⟨past', f, later ++ [e], credentials, by simp, hcreated, noDeletion_append hno he⟩

private theorem Recorded.start : Recorded [] Memory.start where
  owned := by
    intro client
    simp [Memory.start]
  created := by
    intro client
    simp [trace, Memory.start]
  deleted := by
    intro client
    simp [trace, Memory.start]
  since := by
    intro client hclient
    cases hclient

private theorem Recorded.step {past : List ServedObjects} {m m' : Memory} {e : ServedObjects}
    (h : Recorded past m) (hacts : Acts e.input m e.output.events (some m')) :
    Recorded (past ++ [e]) m' := by
  have htrace := trace_append past e
  have hno : NoDeletion [e] ↔ ∀ client, .deleted client ∉ e.output.events := by
    simp [NoDeletion, trace]
  generalize hevents : e.output.events = events at hacts htrace hno
  cases hacts with
  | nothing hafter hkept =>
    rw [List.append_nil] at htrace
    obtain rfl := hafter m' rfl
    exact ⟨h.owned, by rw [htrace]; exact h.created, by rw [htrace]; exact h.deleted,
      fun client hclient => (h.since client hclient).append (hno.mpr (by simp))⟩
  | @creates credentials calls _ hcache hcalls hafter =>
    obtain ⟨object, rfl⟩ := hafter m' rfl
    refine ⟨?_, ?_, ?_, ?_⟩
    · have howned := h.owned.follow (some object)
      rwa [Memory.follow_create hcache] at howned
    · intro q
      have hcreated := h.created q
      simp only [htrace, List.mem_append, List.mem_cons, List.mem_map, reduceCtorEq,
        ObjectEvent.created.injEq, and_false, exists_false, or_false, exists_or, Heap.next_create,
        hcreated, exists_and_left, exists_eq, and_true]
      exact Nat.lt_succ_iff_lt_or_eq.symm
    · intro q
      have hdeleted := h.deleted q
      simp only [htrace, List.mem_append, List.mem_cons, List.mem_map, reduceCtorEq, and_false,
        exists_false, or_false, Heap.next_create, Heap.get_create, hdeleted]
      by_cases hq : q = m.objects.next
      · simp [hq]
      · rw [if_neg hq]
        have hlt : q < m.objects.next + 1 ↔ q < m.objects.next := by omega
        rw [hlt]
    · intro q hq
      cases hq
      refine ⟨past, e, [], credentials, rfl, ?_, hno.mpr (by simp)⟩
      rw [hevents]
      exact List.mem_cons_self
  | @deletes client hcache haddressed hlogout =>
    obtain ⟨object, hobject, -⟩ := h.owned.cached_some hcache
    have hlive : client < m.objects.next := Heap.lt_next_of_get hobject
    refine ⟨?_, ?_, ?_, ?_⟩
    · have howned := h.owned.follow none
      rwa [Memory.follow_delete hcache] at howned
    · intro q
      have hcreated := h.created q
      simp only [htrace, List.mem_append, List.mem_singleton, reduceCtorEq, or_false, hcreated,
        Heap.next_delete]
    · intro q
      have hdeleted := h.deleted q
      simp only [htrace, List.mem_append, List.mem_singleton, ObjectEvent.deleted.injEq, hdeleted,
        Heap.next_delete, Heap.get_delete]
      by_cases hq : q = client
      · simp [hq, hlive]
      · simp [hq]
    · intro q hq
      cases hq
  | @uses client calls _ hcache hkept hafter =>
    obtain ⟨object', rfl⟩ := hafter m' rfl
    obtain ⟨object, hobject, -⟩ := h.owned.cached_some hcache
    refine ⟨?_, ?_, ?_, ?_⟩
    · have howned := h.owned.follow (some object')
      rwa [Memory.follow_put hcache] at howned
    · intro q
      have hcreated := h.created q
      simp only [htrace, List.mem_append, List.mem_map, reduceCtorEq, and_false, exists_false,
        or_false, hcreated, Heap.next_put]
    · intro q
      have hdeleted := h.deleted q
      simp only [htrace, List.mem_append, List.mem_map, reduceCtorEq, and_false, exists_false,
        or_false, hdeleted, Heap.next_put, Heap.get_put hobject]
      by_cases hq : q = client
      · simp [hq, hobject]
      · simp [hq]
    · intro q hq
      cases hq
      exact (h.since client hcache).append (hno.mpr (by simp))

private theorem Recorded.alive_iff {past : List ServedObjects} {m : Memory}
    (h : Recorded past m) (client : Pointer) : Alive past client ↔ m.clientCache = some client := by
  rw [Alive, h.created, h.deleted, ← h.owned client]
  cases hget : m.objects.get client with
  | none => simp
  | some object => simp [Heap.lt_next_of_get hget]

private theorem Recorded.untouched {past : List ServedObjects} {m : Memory} {v : Visit}
    {events : List ObjectEvent} {after : Option Memory} (h : Recorded past m)
    (hacts : Acts v m events after) {client : Pointer} (hdeleted : .deleted client ∈ trace past) :
    ∀ event ∈ events, event.client ≠ client := by
  obtain ⟨hlt, hdead⟩ := (h.deleted client).mp hdeleted
  have hcached : ∀ p, m.clientCache = some p → p ≠ client := by
    intro p hp hsame
    obtain ⟨object, hobject, -⟩ := h.owned.cached_some hp
    rw [hsame, hdead] at hobject
    cases hobject
  intro event hevent
  cases hacts with
  | nothing => cases hevent
  | creates hcache hcalls hafter =>
    have hnext : event.client = m.objects.next := by
      cases hevent with
      | head => rfl
      | tail _ hcall =>
        obtain ⟨call, -, rfl⟩ := List.mem_map.mp hcall
        rfl
    rw [hnext]
    exact (Nat.ne_of_lt hlt).symm
  | deletes hcache haddressed hlogout =>
    rw [List.mem_singleton.mp hevent]
    exact hcached _ hcache
  | uses hcache hkept hafter =>
    obtain ⟨call, -, rfl⟩ := List.mem_map.mp hevent
    exact hcached _ hcache

private theorem acts_deletes_iff {v : Visit} {m : Memory} {events : List ObjectEvent}
    {after : Option Memory} (h : Acts v m events after) (client : Pointer) :
    .deleted client ∈ events ↔
      m.clientCache = some client ∧ v.request.Addressed ∧ v.request.LogsOut := by
  cases h with
  | nothing hafter hkept =>
    refine iff_of_false (by simp) fun h => ?_
    exact hkept (by simp [h.1]) h.2.1 h.2.2
  | creates hcache hcalls hafter =>
    refine iff_of_false (by simp) fun h => ?_
    rw [hcache] at h
    cases h.1
  | deletes hcache haddressed hlogout =>
    rw [List.mem_singleton, ObjectEvent.deleted.injEq, hcache, Option.some.injEq]
    constructor
    · intro hsame
      exact ⟨hsame.symm, haddressed, hlogout⟩
    · intro h
      exact h.1.symm
  | uses hcache hkept hafter => exact iff_of_false (by simp) fun h => hkept h.2.2

private theorem acts_last {v : Visit} {m : Memory} {events : List ObjectEvent}
    {after : Option Memory} (h : Acts v m events after) {client : Pointer}
    (hdeleted : .deleted client ∈ events) : events = [.deleted client] := by
  cases h with
  | nothing => cases hdeleted
  | creates => simp at hdeleted
  | deletes => rw [List.mem_singleton.mp hdeleted]
  | uses => simp at hdeleted

private theorem acts_driven {v : Visit} {m : Memory} {events : List ObjectEvent}
    {after : Option Memory} (h : Acts v m events after) {client : Pointer} {call : Call}
    (hcall : .called client call ∈ events) (hopens : call.opens = false) :
    m.clientCache = some client ∧ ∀ q, .deleted q ∉ events := by
  cases h with
  | nothing => cases hcall
  | @creates credentials calls _ hcache hcalls hafter =>
    simp only [List.mem_cons, reduceCtorEq, List.mem_map, false_or] at hcall
    obtain ⟨call', hmem, hsame⟩ := hcall
    cases hsame
    rw [hcalls call hmem] at hopens
    cases hopens
  | deletes => simp at hcall
  | @uses client' calls _ hcache hkept hafter =>
    obtain ⟨call', -, hsame⟩ := List.mem_map.mp hcall
    cases hsame
    exact ⟨hcache, by simp⟩

private theorem not_addressed_of_declined {lib : Platform} {v : Visit} {cache : Option Instance}
    {status : Option Status} {events : List Event} {after : Option (Option Instance)}
    (h : Handled lib v cache status events after) (hstatus : status = some .declined) :
    ¬v.request.Addressed := by
  cases h with
  | declined _ haddressed => exact haddressed
  | @thrown operation client client' b =>
    cases b with
    | true => cases hstatus
    | false => cases hstatus
  | _ => cases hstatus

private theorem handleObjects_declined {lib : Platform} {v : Visit} {m : Memory} (hm : m.Owned)
    (h : (handleObjects lib m v).1.status = some .declined) :
    (handleObjects lib m v).2 = some m ∧
      (handleObjects lib m v).1.response = Response.empty ∧
      (handleObjects lib m v).1.events = [] := by
  have hrefines := handleObjects_refines lib v hm
  have haddressed : ¬v.request.Addressed :=
    not_addressed_of_declined (handleVisit_handled lib m.cached v) (hrefines.status.symm.trans h)
  have hdeclined : handleVisit lib m.cached v =
      (⟨some .declined, Response.empty, []⟩, some m.cached) := by
    rw [handleVisit, mrhcHandler_declined haddressed]
  rw [hdeclined] at hrefines
  refine ⟨?_, hrefines.response, ?_⟩
  · rw [hrefines.after, Option.map_some, hm.follow_self]
  · rw [hrefines.events, Option.map_some, Option.getD_some, hm.deletion_self]
    rfl

/-- The clients have this lifecycle in every run. -/
theorem serveObjects_lifecycle (lib : Platform) (visits : List Visit)
    (past later : List ServedObjects) (e : ServedObjects)
    (h : serveObjects lib visits = past ++ e :: later) : Lifecycle past e := by
  have hstep : ∀ e ∈ serveObjects lib visits,
      e.output = (handleObjects lib e.before e.input).1 ∧
        e.after = (handleObjects lib e.before e.input).2 := by
    intro e he
    have hentry := mem_runFrom he
    rw [hentry]
    exact ⟨rfl, rfl⟩
  have hrecorded : Recorded past e.before := by
    apply runFrom_history Recorded Recorded.start _ h
    intro past' e' he' hrecorded m' hafter
    obtain ⟨houtput, hstate⟩ := hstep e' he'
    have hacts := handleObjects_acts lib e'.input hrecorded.owned
    rw [← houtput, ← hstate, hafter] at hacts
    exact hrecorded.step hacts
  obtain ⟨houtput, hstate⟩ := hstep e (by rw [h]; simp)
  have hacts := handleObjects_acts lib e.input hrecorded.owned
  rw [← houtput, ← hstate] at hacts
  refine ⟨?_, ?_, ?_, ?_, ?_, ?_, ?_⟩
  · intro m' hafter client
    rw [hafter] at hacts
    exact (hrecorded.step hacts).alive_iff client
  · rw [houtput]
    exact (handleObjects_refines lib e.input hrecorded.owned).safe
  · intro client hdeleted
    exact hrecorded.untouched hacts hdeleted
  · intro client hdeleted
    exact acts_last hacts hdeleted
  · intro hdeclined
    rw [houtput] at hdeclined ⊢
    rw [hstate]
    exact handleObjects_declined hrecorded.owned hdeclined
  · exact acts_deletes_iff hacts
  · intro client call hcall hopens
    obtain ⟨hcache, hno⟩ := acts_driven hacts hcall hopens
    exact ⟨hrecorded.since client hcache, by simpa [NoDeletion, trace] using hno⟩

/-- A request with these fields in its form. -/
def formVisit (names : List Bytes) : Visit where
  request := { pageRequest none with formNames := some names }
  server := Socket.delivering []
  residue := .blank

theorem serveObjects_lifecycle_logout :
    ∃ e₁ e₂, serveObjects Platform.plain
        [acceptedLogin [] [], formVisit [ascii "logout", ascii "submit"]] = [e₁, e₂] ∧
      e₁.output.events = [.created 0 testCredentials, .called 0 .initializeClient,
        .called 0 .authenticate, .called 0 .configure] ∧
      e₂.output.events = [.deleted 0] ∧ Lifecycle [e₁] e₂ := by
  have hrun : (serveObjects Platform.plain
      [acceptedLogin [] [], formVisit [ascii "logout", ascii "submit"]]).map
        (fun e => e.output.events) =
      [[.created 0 testCredentials, .called 0 .initializeClient, .called 0 .authenticate,
        .called 0 .configure], [.deleted 0]] := by
    decide +kernel
  obtain ⟨e₁, e₂, hserve, he₁, he₂⟩ := eq_pair_of_map hrun
  exact ⟨e₁, e₂, hserve, he₁, he₂, serveObjects_lifecycle _ _ [e₁] [] e₂ hserve⟩

end Mrhc
