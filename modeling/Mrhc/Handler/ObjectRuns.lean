import Mrhc.Handler.ObjectCalls

/-!
# The objects behind the cache

On a process whose only object is the cached one, the handler with pointers does to this object
what the handler does to the value in its cache.
-/

namespace Mrhc

namespace Memory

/-- The cached object as a value. -/
def cached (m : Memory) : Option Instance := m.clientCache.bind m.objects.get

/-- The objects that are there are the cached one, or there are none. -/
def Owned (m : Memory) : Prop :=
  ∀ client, (m.objects.get client).isSome = true ↔ m.clientCache = some client

/-- The pointer that a request works on: the cached one, or the next. -/
def pointer (m : Memory) : Pointer := m.clientCache.getD m.objects.next

/-- The memory after a request that leaves this value in the cache. -/
def follow (m : Memory) (after : Option Instance) : Memory :=
  match m.clientCache, after with
  | none, none => m
  | none, some object => ⟨m.objects.create object, some m.objects.next⟩
  | some client, none => ⟨m.objects.delete client, none⟩
  | some client, some object => ⟨m.objects.put client object, some client⟩

/-- The deletion by a request that leaves this value in the cache. -/
def deletion (m : Memory) (after : Option Instance) : List ObjectEvent :=
  match m.clientCache, after with
  | some client, none => [.deleted client]
  | _, _ => []

/-- The handler with pointers has this result when the one with values has that one. -/
inductive Follows (m : Memory) :
    EStateM.Result Stop World Status → EStateM.Result Fault Process Status → Prop where
  | returned {status : Status} {w : World} :
    Follows m (.ok status w) (.ok status
      ⟨m.follow w.clientCache, w.response,
        w.events.map (Event.at m.pointer) ++ m.deletion w.clientCache⟩)
  | stopped {reason : Stop} {w : World} {q : Process} (hresponse : q.response = w.response)
    (hevents : q.events = w.events.map (Event.at m.pointer)) :
    Follows m (.error reason w) (.error (.stopped reason) q)

variable {m : Memory}

section

variable (hcache : m.clientCache = none)

include hcache

theorem pointer_of_none : m.pointer = m.objects.next := by rw [pointer, hcache, Option.getD_none]

theorem follow_nothing : m.follow none = m := by simp only [follow, hcache]

theorem follow_create (object : Instance) :
    m.follow (some object) = ⟨m.objects.create object, some m.objects.next⟩ := by
  simp only [follow, hcache]

theorem deletion_of_none (after : Option Instance) : m.deletion after = [] := by
  simp only [deletion, hcache]

end

section

variable {client : Pointer} (hcache : m.clientCache = some client)

include hcache

theorem pointer_of_some : m.pointer = client := by rw [pointer, hcache, Option.getD_some]

theorem follow_put (object : Instance) :
    m.follow (some object) = ⟨m.objects.put client object, some client⟩ := by
  simp only [follow, hcache]

theorem follow_delete : m.follow none = ⟨m.objects.delete client, none⟩ := by
  simp only [follow, hcache]

theorem deletion_of_some : m.deletion none = [.deleted client] := by
  simp only [deletion, hcache]

end

@[simp] theorem deletion_kept (object : Instance) : m.deletion (some object) = [] := by
  cases hcache : m.clientCache <;> simp only [deletion, hcache]

theorem Follows.quiet (status : Status) (cache : Option Instance) (response : Response) :
    m.Follows (.ok status ⟨cache, response, []⟩)
      (.ok status ⟨m.follow cache, response, m.deletion cache⟩) := .returned

theorem Follows.kept (status : Status) (object : Instance) (response : Response)
    (events : List Event) :
    m.Follows (.ok status ⟨some object, response, events⟩)
      (.ok status ⟨m.follow (some object), response, events.map (Event.at m.pointer)⟩) := by
  have hreturned : m.Follows (.ok status ⟨some object, response, events⟩)
      (.ok status ⟨m.follow (some object), response,
        events.map (Event.at m.pointer) ++ m.deletion (some object)⟩) := .returned
  rwa [deletion_kept, List.append_nil] at hreturned

theorem Owned.cached_none (h : m.Owned) : m.cached = none ↔ m.clientCache = none := by
  cases hcache : m.clientCache with
  | none => simp [cached, hcache]
  | some client =>
    have hlive := (h client).mpr hcache
    simp only [cached, hcache, Option.bind_some, reduceCtorEq, iff_false]
    intro hnone
    rw [hnone] at hlive
    cases hlive

theorem Owned.cached_some (h : m.Owned) {client : Pointer} (hcache : m.clientCache = some client) :
    ∃ object, m.objects.get client = some object ∧ m.cached = some object := by
  obtain ⟨object, hobject⟩ := Option.isSome_iff_exists.mp ((h client).mpr hcache)
  exact ⟨object, hobject, by rw [cached, hcache, Option.bind_some, hobject]⟩

/-- A request leaves the objects owned by the cache. -/
theorem Owned.follow (h : m.Owned) (after : Option Instance) : (m.follow after).Owned := by
  intro q
  have hiff := h q
  cases hcache : m.clientCache with
  | none =>
    rw [hcache] at hiff
    have hdead : (m.objects.get q).isSome = false := by simpa using hiff
    cases after with
    | none =>
      rw [follow_nothing hcache, hdead, hcache]
      simp
    | some object =>
      rw [follow_create hcache, Heap.get_create, Option.some.injEq]
      by_cases hq : q = m.objects.next
      · simp [hq]
      · simp [hq, hdead, Ne.symm hq]
  | some client =>
    obtain ⟨object, hobject, -⟩ := h.cached_some hcache
    rw [hcache, Option.some.injEq] at hiff
    cases after with
    | none =>
      rw [follow_delete hcache, Heap.get_delete]
      by_cases hq : q = client
      · simp [hq]
      · simp [hq, hiff, Ne.symm hq]
    | some object' =>
      rw [follow_put hcache, Heap.get_put hobject, Option.some.injEq]
      by_cases hq : q = client
      · simp [hq]
      · simp [hq, hiff]

/-- Nothing has been done with the objects. -/
theorem Owned.follow_self (h : m.Owned) : m.follow m.cached = m := by
  cases hcache : m.clientCache with
  | none => rw [h.cached_none.mpr hcache, follow_nothing hcache]
  | some client =>
    obtain ⟨object, hobject, hcached⟩ := h.cached_some hcache
    rw [hcached, follow_put hcache, Heap.put_get hobject, ← hcache]

theorem Owned.deletion_self (h : m.Owned) : m.deletion m.cached = [] := by
  cases hcache : m.clientCache with
  | none => exact deletion_of_none hcache _
  | some client =>
    obtain ⟨object, hobject, hcached⟩ := h.cached_some hcache
    rw [hcached, deletion_kept]

theorem Owned.follow_cached (h : m.Owned) (after : Option Instance) :
    (m.follow after).cached = after := by
  cases hcache : m.clientCache with
  | none =>
    cases after with
    | none => rw [follow_nothing hcache, h.cached_none.mpr hcache]
    | some object =>
      rw [follow_create hcache, cached, Option.bind_some, Heap.get_create, if_pos rfl]
  | some client =>
    obtain ⟨object, hobject, -⟩ := h.cached_some hcache
    cases after with
    | none => rw [follow_delete hcache, cached, Option.bind_none]
    | some object' =>
      rw [follow_put hcache, cached, Option.bind_some, Heap.get_put hobject, if_pos rfl]

end Memory

namespace Process

/-- What follows `mrhc_spin`: the client is kept whether or not it spins. -/
private def keepClient (r : Request) (client : Pointer) (spun : Bool) : ProcessM Status := do
  if !spun then
    answer (apWrite (← answer (lift (mrhcError r (ascii "failed to mrhc, please try again.")))))
  setCache (some client)
  return .ok

/-- The path of a request that creates a client. -/
private def createPath (v : Visit) (credentials : Credentials) : ProcessM Status := do
  let client ← newVncClient credentials v
  let spun ← mrhcSpin (some client) v.request
  keepClient v.request client spun

/-- The path of a request that finds no client. -/
private def loginPath (lib : Platform) (v : Visit) : ProcessM Status := do
  let (ret, credentials) ← answer (lift (apGetVncParamByBasicAuthComponents lib v.request))
  if ret = .einval then
    answer askForCredentials
    return .unauthorized
  if ret = .success then createPath v credentials
  else
    answer (apWrite (← answer (lift (mrhcError v.request (ascii "fatal error")))))
    return .ok

/-- The path of a request that finds a client. -/
private def cachedPath (lib : Platform) (v : Visit) (client : Pointer) : ProcessM Status := do
  if !mrhcConfirm v.request then
    deleteVncClient client
    setCache none
    answer askForCredentials
    return .unauthorized
  let thrown ← mrhcThrow (v.platform lib) (some client) v.request
  if !thrown then
    answer askForCredentials
    return .unauthorized
  return .ok

private theorem mrhcHandler_declined {lib : Platform} {v : Visit} {p : Process}
    (h : ¬v.request.Addressed) : (mrhcHandler lib v).run p = .ok .declined p := by
  by_cases hhandler : cString v.request.handler = ascii "mrhc"
  · have hheader : v.request.headerOnly = true := by
      by_contra hfalse
      exact h ⟨hhandler, (Bool.not_eq_true _).mp hfalse⟩
    simp [mrhcHandler, hhandler, hheader]
  · simp [mrhcHandler, hhandler]

private theorem mrhcHandler_addressed {lib : Platform} {v : Visit} {p : Process}
    (h : v.request.Addressed) :
    (mrhcHandler lib v).run p =
      (match p.memory.clientCache with
        | none => loginPath lib v
        | some client => cachedPath lib v client).run p := by
  obtain ⟨hhandler, hheader⟩ := h
  have hcache : getCache.run p = .ok p.memory.clientCache p := rfl
  simp only [mrhcHandler, hhandler, hheader, ne_eq, not_true_eq_false, if_false,
    Bool.false_eq_true]
  rw [bind_ok hcache]
  cases hclient : p.memory.clientCache with
  | none => rfl
  | some client =>
    rw [if_neg (by simp)]
    cases hconfirm : mrhcConfirm v.request with
    | false =>
      simp only [cachedPath, hconfirm, Bool.not_false, if_true]
      rw [bind_ok hcache, hclient]
    | true =>
      simp only [cachedPath, hconfirm, Bool.not_true, Bool.false_eq_true, if_false]
      rw [bind_ok hcache, hclient]

private theorem keepClient_follows {m : Memory} {client : Pointer} {object : Instance}
    {p : Process} {w : World} (r : Request) (spun : Bool)
    (hmemory : { p.memory with clientCache := some client } = m.follow (some object))
    (hresponse : p.response = w.response)
    (hevents : p.events = w.events.map (Event.at m.pointer)) :
    m.Follows ((Mrhc.keepClient r spun object).run w) ((keepClient r client spun).run p) := by
  have hkept : ∀ response, m.Follows (.ok .ok ⟨some object, response, w.events⟩)
      (.ok .ok ⟨{ p.memory with clientCache := some client }, response, p.events⟩) := by
    intro response
    rw [hmemory, hevents]
    exact .kept .ok object response w.events
  cases spun with
  | true =>
    have hrun : (Mrhc.keepClient r true object).run w =
        .ok .ok ⟨some object, w.response, w.events⟩ := rfl
    have hrun' : (keepClient r client true).run p =
        .ok .ok ⟨{ p.memory with clientCache := some client }, p.response, p.events⟩ := rfl
    rw [hrun, hrun', hresponse]
    exact hkept w.response
  | false =>
    cases hpage : mrhcError r (ascii "failed to mrhc, please try again.") with
    | error reason =>
      have hrun : (Mrhc.keepClient r false object).run w = .error reason w := by
        simp only [Mrhc.keepClient, hpage]
        rfl
      have hrun' : (keepClient r client false).run p = .error (.stopped reason) p := by
        simp only [keepClient, hpage]
        rfl
      rw [hrun, hrun']
      exact .stopped hresponse hevents
    | ok page =>
      have hrun : (Mrhc.keepClient r false object).run w =
          .ok .ok ⟨some object, { w.response with body := w.response.body ++ page }, w.events⟩ := by
        simp only [Mrhc.keepClient, hpage]
        rfl
      have hrun' : (keepClient r client false).run p =
          .ok .ok ⟨{ p.memory with clientCache := some client },
            { p.response with body := p.response.body ++ page }, p.events⟩ := by
        simp only [keepClient, hpage]
        rfl
      rw [hrun, hrun', hresponse]
      exact hkept _

private theorem createPath_follows {v : Visit} {m : Memory} (hcache : m.clientCache = none)
    (credentials : Credentials) :
    m.Follows ((Mrhc.createPath v credentials).run ⟨none, Response.empty, []⟩)
      ((createPath v credentials).run ⟨m, Response.empty, []⟩) := by
  let client := m.objects.next
  let object := Instance.new credentials v
  let w : World := ⟨none, Response.empty, [.created credentials]⟩
  let p : Process :=
    ⟨⟨m.objects.create object, none⟩, Response.empty, [.created client credentials]⟩
  have hpointer : m.pointer = client := Memory.pointer_of_none hcache
  have hnew : (Mrhc.newVncClient credentials v).run ⟨none, Response.empty, []⟩ = .ok object w :=
    rfl
  have hnew' : (newVncClient credentials v).run ⟨m, Response.empty, []⟩ = .ok client p := by
    simp only [p, ← hcache]
    rfl
  have hshows : p.Shows client object w := by
    refine ⟨?_, rfl, rfl⟩
    rw [Heap.get_create, if_pos rfl]
  have hspin := mrhcSpin_follows v.request hshows
  rw [Mrhc.createPath, createPath, bind_ok hnew, bind_ok hnew']
  generalize hx : (Mrhc.mrhcSpin object v.request).run w = x at hspin
  generalize hy : (mrhcSpin (some client) v.request).run p = y at hspin
  cases hspin with
  | stopped hresponse hevents =>
    rw [bind_error hx, bind_error hy]
    rw [← hpointer] at hevents
    exact .stopped hresponse hevents
  | @returned spun object' w' =>
    rw [bind_ok hx, bind_ok hy]
    apply keepClient_follows
    · simp only [Process.showing, Memory.follow_create hcache, p, client, Heap.create_put]
    · rfl
    · rw [hpointer]
      rfl

private theorem loginPath_follows {lib : Platform} {v : Visit} {m : Memory}
    (hcache : m.clientCache = none) :
    m.Follows ((Mrhc.loginPath lib v).run ⟨none, Response.empty, []⟩)
      ((loginPath lib v).run ⟨m, Response.empty, []⟩) := by
  rw [Mrhc.loginPath, loginPath]
  cases hret : apGetVncParamByBasicAuthComponents lib v.request with
  | error reason =>
    rw [bind_error (lift_error rfl), bind_error (answer_lift_error rfl)]
    exact .stopped rfl rfl
  | ok result =>
    obtain ⟨status, credentials⟩ := result
    rw [bind_ok (lift_ok rfl), bind_ok (answer_lift_ok rfl)]
    cases status with
    | einval =>
      have hquiet := Memory.Follows.quiet (m := m) .unauthorized none
        ⟨some (ascii "Basic real=\"\""), none, []⟩
      rw [Memory.follow_nothing hcache, Memory.deletion_of_none hcache] at hquiet
      exact hquiet
    | success => exact createPath_follows hcache credentials

private theorem cachedPath_follows {lib : Platform} {v : Visit} {m : Memory} {client : Pointer}
    {object : Instance} (hcache : m.clientCache = some client)
    (hobject : m.objects.get client = some object) :
    m.Follows ((Mrhc.cachedPath lib v object).run ⟨some object, Response.empty, []⟩)
      ((cachedPath lib v client).run ⟨m, Response.empty, []⟩) := by
  let w : World := ⟨some object, Response.empty, []⟩
  let p : Process := ⟨m, Response.empty, []⟩
  have hpointer : m.pointer = client := Memory.pointer_of_some hcache
  have hshows : p.Shows client object w := ⟨hobject, rfl, rfl⟩
  rw [Mrhc.cachedPath, cachedPath]
  cases hconfirm : mrhcConfirm v.request with
  | false =>
    have hdelete : (deleteVncClient client).run p =
        .ok () ⟨⟨m.objects.delete client, m.clientCache⟩, Response.empty, [.deleted client]⟩ := by
      rw [deleteVncClient, bind_ok (deref_run hshows)]
      rfl
    have hquiet := Memory.Follows.quiet (m := m) .unauthorized none
      ⟨some (ascii "Basic real=\"\""), none, []⟩
    rw [Memory.follow_delete hcache, Memory.deletion_of_some hcache] at hquiet
    simp only [Bool.not_false, if_true]
    rw [bind_ok hdelete]
    exact hquiet
  | true =>
    simp only [Bool.not_true, Bool.false_eq_true, if_false]
    have hthrow := mrhcThrow_follows (v.platform lib) v.request hshows
    generalize hx : (Mrhc.mrhcThrow (v.platform lib) object v.request).run w = x at hthrow
    generalize hy : (mrhcThrow (v.platform lib) (some client) v.request).run p = y at hthrow
    cases hthrow with
    | stopped hresponse hevents =>
      rw [bind_error hx, bind_error hy]
      rw [← hpointer] at hevents
      exact .stopped hresponse hevents
    | @returned thrown object' w' =>
      rw [bind_ok hx, bind_ok hy]
      have hkept : ∀ status response, m.Follows (.ok status ⟨some object', response, w'.events⟩)
          (.ok status ⟨m.follow (some object'), response, w'.events.map (Event.at m.pointer)⟩) :=
        fun status response => .kept status object' response w'.events
      simp only [Memory.follow_put hcache, hpointer] at hkept
      have hshown : p.showing client object' w' =
          ⟨⟨m.objects.put client object', some client⟩, w'.response,
            w'.events.map (Event.at client)⟩ := by
        rw [← hcache]
        rfl
      rw [hshown]
      cases thrown with
      | true => exact hkept .ok w'.response
      | false => exact hkept .unauthorized _

/-- The handler with pointers follows the handler with values. -/
theorem mrhcHandler_follows (lib : Platform) (v : Visit) {m : Memory} (hm : m.Owned) :
    m.Follows ((Mrhc.mrhcHandler lib v).run ⟨m.cached, Response.empty, []⟩)
      ((mrhcHandler lib v).run ⟨m, Response.empty, []⟩) := by
  by_cases haddressed : v.request.Addressed
  · rw [Mrhc.mrhcHandler_addressed haddressed, mrhcHandler_addressed haddressed]
    cases hcache : m.clientCache with
    | none =>
      rw [hm.cached_none.mpr hcache]
      exact loginPath_follows hcache
    | some client =>
      obtain ⟨object, hobject, hcached⟩ := hm.cached_some hcache
      rw [hcached]
      exact cachedPath_follows hcache hobject
  · rw [Mrhc.mrhcHandler_declined haddressed, mrhcHandler_declined haddressed]
    have hquiet := Memory.Follows.quiet (m := m) .declined m.cached Response.empty
    rwa [hm.follow_self, hm.deletion_self] at hquiet

end Process

/-- The status of a request that has returned. -/
def ObjectAnswer.status (a : ObjectAnswer) : Option Status := a.result.toOption

/-- The value that an event is about. -/
def ObjectEvent.value : ObjectEvent → Option Event
  | .created _ credentials => some (.created credentials)
  | .called _ call => some (.called call)
  | .deleted _ => none

/-- What is left of an answer when its objects are values. -/
def ObjectAnswer.value (a : ObjectAnswer) : Answer where
  status := a.status
  response := a.response
  events := a.events.filterMap ObjectEvent.value

/-- A request that finds its client at a pointer does what one does that finds it as a value. -/
structure Refines (m : Memory) (seen : Answer × Option (Option Instance))
    (o : ObjectAnswer × Option Memory) : Prop where
  status : o.1.status = seen.1.status
  safe : ∀ client, o.1.result ≠ .error (.dangling client)
  response : o.1.response = seen.1.response
  events : o.1.events = seen.1.events.map (Event.at m.pointer) ++
    (seen.2.map m.deletion).getD []
  after : o.2 = seen.2.map m.follow

theorem handleObjects_refines (lib : Platform) (v : Visit) {m : Memory} (hm : m.Owned) :
    Refines m (handleVisit lib m.cached v) (handleObjects lib m v) := by
  have hfollows := Process.mrhcHandler_follows lib v hm
  rw [handleVisit, handleObjects]
  generalize (mrhcHandler lib v).run ⟨m.cached, Response.empty, []⟩ = x at hfollows ⊢
  generalize (Process.mrhcHandler lib v).run ⟨m, Response.empty, []⟩ = y at hfollows ⊢
  cases hfollows with
  | returned => exact ⟨rfl, by simp, rfl, rfl, rfl⟩
  | stopped hresponse hevents => exact ⟨rfl, by simp, hresponse, by simpa using hevents, rfl⟩

private theorem filterMap_value (client : Pointer) (events : List Event) :
    (events.map (Event.at client)).filterMap ObjectEvent.value = events := by
  induction events with
  | nil => rfl
  | cons event events ih =>
    cases event with
    | created credentials => simpa [Event.at, ObjectEvent.value] using ih
    | called call => simpa [Event.at, ObjectEvent.value] using ih

private theorem deletion_value (m : Memory) (after : Option (Option Instance)) :
    ((after.map m.deletion).getD []).filterMap ObjectEvent.value = [] := by
  cases after with
  | none => rfl
  | some cache =>
    rw [Option.map_some, Option.getD_some]
    cases cache with
    | some object => simp
    | none =>
      cases hcache : m.clientCache with
      | none => simp [Memory.deletion_of_none hcache]
      | some client => simp [Memory.deletion_of_some hcache, ObjectEvent.value]

private theorem handleVisit_cached (lib : Platform) (m : Memory) (v : Visit) (hm : m.Owned) :
    handleVisit lib m.cached v =
      ((handleObjects lib m v).1.value, (handleObjects lib m v).2.map Memory.cached) := by
  have hrefines := handleObjects_refines lib v hm
  have hevents : (handleObjects lib m v).1.events.filterMap ObjectEvent.value =
      (handleVisit lib m.cached v).1.events := by
    rw [hrefines.events, List.filterMap_append, filterMap_value, deletion_value, List.append_nil]
  have hcached : (handleObjects lib m v).2.map Memory.cached = (handleVisit lib m.cached v).2 := by
    rw [hrefines.after, Option.map_map]
    have hid : Memory.cached ∘ m.follow = id := funext hm.follow_cached
    rw [hid, Option.map_id]
    rfl
  rw [ObjectAnswer.value, hrefines.status, hrefines.response, hevents, hcached]

/-- The run on the objects is seen as the run on the values. -/
theorem serveObjects_serve (lib : Platform) (visits : List Visit) :
    (serveObjects lib visits).map (Entry.map Memory.cached ObjectAnswer.value) =
      serve lib visits := by
  apply runFrom_map (fun m v => handleVisit_cached lib m v)
  · intro m v hm m' hm'
    rw [(handleObjects_refines lib v hm).after] at hm'
    obtain ⟨after, -, rfl⟩ := Option.map_eq_some_iff.mp hm'
    exact hm.follow after
  · intro client
    simp [Memory.start]

end Mrhc
