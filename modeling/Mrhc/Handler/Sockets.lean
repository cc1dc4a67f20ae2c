import Mrhc.Framework.Descriptors
import Mrhc.Handler.Answers
import Mrhc.Handler.Lifecycle

/-!
# The descriptors of the process

Which descriptors are open, over whole runs. The first request opens the log file, which stays open.
`connect_to_server` opens a socket for its client, and the destructor closes what `sockfd` says.
-/

namespace Mrhc

/-- What a descriptor of the process refers to. -/
inductive File where
  | other
  | logfile
  | socket (client : Pointer)
deriving DecidableEq, Repr

/-- The descriptors of the process, `sockfd` of each client, and whether `logger::instance` is
there. -/
structure Sockets where
  table : Descriptors File
  sockfd : Pointer → Int
  logger : Bool

/-- `logfile.open`, of a file that can be opened or not. -/
def openLogfile (limit : Nat) (opens : Bool) (t : Descriptors File) : Descriptors File :=
  match t.lowest limit with
  | none => t
  | some fd => if opens then t.insert fd .logfile else t

namespace Sockets

def setSockfd (k : Sockets) (client : Pointer) (fd : Int) : Sockets :=
  { k with sockfd := Function.update k.sockfd client fd }

@[simp] theorem setSockfd_self (k : Sockets) (client : Pointer) (fd : Int) :
    (k.setSockfd client fd).sockfd client = fd := by
  simp [setSockfd]

/-- The file is opened together with the instance, and not tried again. -/
def getLogger (limit : Nat) (opens : Bool) (k : Sockets) : Sockets :=
  if k.logger then k else { k with table := openLogfile limit opens k.table, logger := true }

/-- `this->sockfd = socket(AF_INET, SOCK_STREAM, 0)` -/
def socket (limit : Nat) (k : Sockets) (client : Pointer) : Sockets :=
  match k.table.lowest limit with
  | none => k.setSockfd client (-1)
  | some fd => { k with table := k.table.insert fd (.socket client) }.setSockfd client fd

/-- What is done with an object does this to the descriptors. The constructor sets `sockfd` to zero
and opens nothing. -/
def step (limit : Nat) (k : Sockets) : ObjectEvent → Sockets
  | .created client _ => k.setSockfd client 0
  | .called client .initializeClient => k.socket limit client
  | .called _ _ => k
  | .deleted client => { k with table := k.table.close (k.sockfd client) }

def after (limit : Nat) (k : Sockets) (events : List ObjectEvent) : Sockets :=
  events.foldl (step limit) k

/-- A request is logged before anything else is done. -/
def request (limit : Nat) (opens : Bool) (k : Sockets) (events : List ObjectEvent) : Sockets :=
  (k.getLogger limit opens).after limit events

theorem getLogger_logger (limit : Nat) (opens : Bool) (k : Sockets) :
    (k.getLogger limit opens).logger = true := by
  rw [getLogger]
  split
  · next hlogger => exact hlogger
  · rfl

theorem getLogger_of_logger {k : Sockets} (hlogger : k.logger = true) (limit : Nat)
    (opens : Bool) : k.getLogger limit opens = k :=
  if_pos hlogger

theorem step_logger (limit : Nat) (k : Sockets) (event : ObjectEvent) :
    (k.step limit event).logger = k.logger := by
  cases event with
  | created => rfl
  | called client call =>
    cases call with
    | initializeClient =>
      rw [step, socket]
      split <;> rfl
    | _ => rfl
  | deleted => rfl

theorem after_logger (limit : Nat) (k : Sockets) (events : List ObjectEvent) :
    (k.after limit events).logger = k.logger := by
  induction events generalizing k with
  | nil => rfl
  | cons event events ih =>
    rw [after, List.foldl_cons]
    exact (ih _).trans (step_logger limit k event)

theorem request_logger (limit : Nat) (opens : Bool) (k : Sockets) (events : List ObjectEvent) :
    (k.request limit opens events).logger = true := by
  rw [request, after_logger]
  exact getLogger_logger limit opens k

end Sockets

/-- Beside these files nothing is open but the socket of the cached client, if it has one. -/
inductive SocketOf (files : Descriptors File) (k : Sockets) : Option Pointer → Prop where
  | closed (htable : k.table = files) : SocketOf files k none
  | failed {client : Pointer} (hsockfd : k.sockfd client = -1) (htable : k.table = files) :
    SocketOf files k (some client)
  | opened {client : Pointer} {fd : Nat} (hsockfd : k.sockfd client = fd)
    (hfree : files.file fd = none) (htable : k.table = files.insert fd (.socket client)) :
    SocketOf files k (some client)

/-- The objects that a request that returns has created, called and deleted. -/
private inductive Handles (m : Memory) : List ObjectEvent → Memory → Prop where
  | nothing : Handles m [] m
  | creates {credentials : Credentials} {calls : List Call} {object : Instance}
    (hcache : m.clientCache = none) (hcalls : Call.initializeClient ∉ calls) :
    Handles m
      (.created m.objects.next credentials :: .called m.objects.next .initializeClient ::
        calls.map (.called m.objects.next))
      ⟨m.objects.create object, some m.objects.next⟩
  | deletes {client : Pointer} (hcache : m.clientCache = some client) :
    Handles m [.deleted client] ⟨m.objects.delete client, none⟩
  | uses {client : Pointer} {calls : List Call} {object : Instance}
    (hcache : m.clientCache = some client) (hcalls : Call.initializeClient ∉ calls) :
    Handles m (calls.map (.called client)) ⟨m.objects.put client object, some client⟩

private theorem calls_at (client : Pointer) (calls : List Call) :
    (calls.map Event.called).map (Event.at client) = calls.map (.called client) := by
  rw [List.map_map]
  rfl

private theorem answered_without {lib : Platform} {v : Visit} {m : Memory} {answer : Answer}
    {cache : Option Instance} (hcache : m.clientCache = none)
    (h : Answered lib v none answer (some cache)) :
    Handles m (answer.events.map (Event.at m.pointer) ++ m.deletion cache) (m.follow cache) := by
  have hspun : ∀ {credentials : Credentials} {client : Instance} {calls : List Call},
      Call.initializeClient ∉ calls →
      Handles m
        ((Event.created credentials :: (Call.initializeClient :: calls).map .called).map
          (Event.at m.pointer) ++ m.deletion (some client)) (m.follow (some client)) := by
    intro credentials client calls hcalls
    rw [Memory.deletion_kept, List.append_nil, Memory.follow_create hcache,
      Memory.pointer_of_none hcache, List.map_cons, calls_at]
    exact .creates hcache hcalls
  have hnothing : Handles m (([] : List Event).map (Event.at m.pointer) ++ m.deletion none)
      (m.follow none) := by
    rw [Memory.deletion_of_none hcache, Memory.follow_nothing hcache]
    exact .nothing
  cases h with
  | declined => exact hnothing
  | refused => exact hnothing
  | opened => exact hspun (by decide)
  | failed k =>
    have hcalls : Call.initializeClient ∉ [Call.authenticate, Call.configure].take k := by
      intro hmem
      exact absurd (List.mem_of_mem_take hmem) (by decide)
    exact hspun hcalls

private theorem answered_with {lib : Platform} {v : Visit} {m : Memory} {client : Pointer}
    {object : Instance} {answer : Answer} {cache : Option Instance} (hm : m.Owned)
    (hcache : m.clientCache = some client) (hcached : m.cached = some object)
    (h : Answered lib v (some object) answer (some cache)) :
    Handles m (answer.events.map (Event.at m.pointer) ++ m.deletion cache) (m.follow cache) := by
  have hused : ∀ {calls : List Call} {object' : Instance}, Call.initializeClient ∉ calls →
      Handles m ((calls.map Event.called).map (Event.at m.pointer) ++ m.deletion (some object'))
        (m.follow (some object')) := by
    intro calls object' hcalls
    rw [Memory.deletion_kept, List.append_nil, Memory.follow_put hcache,
      Memory.pointer_of_some hcache, calls_at]
    exact .uses hcache hcalls
  have hthrown : ∀ (r : Request) (operation : VncOperation),
      Call.initializeClient ∉ throwCalls r operation := by
    intro r operation
    rw [throwCalls]
    split
    · simp
    · simp
  cases h with
  | declined =>
    rw [← hcached, hm.follow_self, hcached, Memory.deletion_kept]
    exact .nothing
  | loggedOut =>
    rw [Memory.follow_delete hcache, Memory.deletion_of_some hcache]
    exact .deletes hcache
  | shown => exact hused (hthrown _ _)
  | @notOperated operation => exact @hused [.operate operation] _ (by simp)
  | notCaptured => exact hused (hthrown _ _)

private theorem handleObjects_handles (lib : Platform) (v : Visit) {m m' : Memory} (hm : m.Owned)
    (hafter : (handleObjects lib m v).2 = some m') :
    Handles m (handleObjects lib m v).1.events m' := by
  have hrefines := handleObjects_refines lib v hm
  have hanswered := handleVisit_answered lib m.cached v
  rw [hrefines.events]
  rw [hrefines.after] at hafter
  obtain ⟨cache, hcache', rfl⟩ := Option.map_eq_some_iff.mp hafter
  rw [hcache'] at hanswered ⊢
  cases hcache : m.clientCache with
  | none =>
    rw [hm.cached_none.mpr hcache] at hanswered ⊢
    exact answered_without hcache hanswered
  | some client =>
    obtain ⟨object, -, hcached⟩ := hm.cached_some hcache
    rw [hcached] at hanswered
    have hhandles := answered_with hm hcache hcached hanswered
    rw [hcached]
    exact hhandles

section

variable {limit : Nat} {files : Descriptors File} {k : Sockets}

private theorem after_calls {calls : List Call} (client : Pointer)
    (hcalls : Call.initializeClient ∉ calls) :
    k.after limit (calls.map (.called client)) = k := by
  induction calls with
  | nil => rfl
  | cons call calls ih =>
    have hstep : k.step limit (.called client call) = k := by
      cases call with
      | initializeClient => exact absurd List.mem_cons_self hcalls
      | _ => rfl
    rw [List.map_cons, Sockets.after, List.foldl_cons, hstep]
    exact ih fun hmem => hcalls (List.mem_cons_of_mem call hmem)

private theorem socketOf_socket (htable : k.table = files) (client : Pointer) :
    SocketOf files (k.socket limit client) (some client) := by
  cases hlowest : k.table.lowest limit with
  | none =>
    simp only [Sockets.socket, hlowest]
    exact .failed (Sockets.setSockfd_self k client (-1)) htable
  | some fd =>
    simp only [Sockets.socket, hlowest]
    refine .opened (Sockets.setSockfd_self _ client fd) ?_ ?_
    · rw [← htable]
      exact Descriptors.free_of_lowest hlowest
    · rw [← htable]
      rfl

private theorem socketOf_deleted {client : Pointer} (h : SocketOf files k (some client)) :
    SocketOf files (k.step limit (.deleted client)) none := by
  cases h with
  | failed hsockfd htable =>
    refine .closed ?_
    rw [Sockets.step, hsockfd, Descriptors.close_negative (by decide), htable]
  | opened hsockfd hfree htable =>
    refine .closed ?_
    rw [Sockets.step, hsockfd, htable, Descriptors.close_insert hfree]

private theorem socketOf_handled {m m' : Memory} {events : List ObjectEvent}
    (hhandles : Handles m events m') (h : SocketOf files k m.clientCache) :
    SocketOf files (k.after limit events) m'.clientCache := by
  cases hhandles with
  | nothing => exact h
  | @creates credentials calls object hcache hcalls =>
    rw [hcache] at h
    cases h with
    | closed htable =>
      have hcreated : k.after limit
          (.created m.objects.next credentials :: .called m.objects.next .initializeClient ::
            calls.map (.called m.objects.next)) =
          (k.setSockfd m.objects.next 0).socket limit m.objects.next := after_calls _ hcalls
      rw [hcreated]
      exact @socketOf_socket limit files (k.setSockfd m.objects.next 0) htable m.objects.next
  | deletes hcache =>
    rw [hcache] at h
    exact @socketOf_deleted limit files k _ h
  | uses hcache hcalls =>
    rw [after_calls _ hcalls]
    rw [hcache] at h
    exact h

private theorem socketOf_request {opens : Bool} {m m' : Memory} {events : List ObjectEvent}
    (hhandles : Handles m events m')
    (h : SocketOf files (k.getLogger limit opens) m.clientCache) :
    SocketOf files ((k.request limit opens events).getLogger limit opens) m'.clientCache := by
  rw [Sockets.getLogger_of_logger (Sockets.request_logger limit opens k events)]
  exact socketOf_handled hhandles h

end

/-- The descriptors after these entries of a process that has started with these files. -/
def socketsAfter (limit : Nat) (opens : Bool) (files : Descriptors File)
    (entries : List ServedObjects) : Sockets :=
  entries.foldl (fun k e => k.request limit opens e.output.events) ⟨files, fun _ => 0, false⟩

private theorem socketsAfter_append (limit : Nat) (opens : Bool) (files : Descriptors File)
    (past : List ServedObjects) (e : ServedObjects) :
    socketsAfter limit opens files (past ++ [e]) =
      (socketsAfter limit opens files past).request limit opens e.output.events := by
  rw [socketsAfter, List.foldl_append]
  rfl

/-- No descriptor leaks and none is closed that is not the client's own: after every request the
process has the files that it had at its start, the log file that its first request has opened, and
at most the socket of the cached client. -/
theorem serveObjects_sockets {lib : Platform} {limit : Nat} {opens : Bool}
    {files : Descriptors File} {visits : List Visit} {past later : List ServedObjects}
    {e : ServedObjects} (h : serveObjects lib visits = past ++ e :: later) {m : Memory}
    (hafter : e.after = some m) :
    SocketOf (openLogfile limit opens files) (socketsAfter limit opens files (past ++ [e]))
      m.clientCache := by
  let open' := fun (past' : List ServedObjects) (cache : Option Pointer) =>
    SocketOf (openLogfile limit opens files)
      ((socketsAfter limit opens files past').getLogger limit opens) cache
  have hstep : ∀ past', ∀ e' ∈ serveObjects lib visits,
      (e'.before.Owned ∧ open' past' e'.before.clientCache) →
      ∀ m', e'.after = some m' → m'.Owned ∧ open' (past' ++ [e']) m'.clientCache := by
    intro past' e' he' hinv m' hm'
    obtain ⟨howned, hsockets⟩ := hinv
    have hentry := mem_runFrom he'
    have hstate : (handleObjects lib e'.before e'.input).2 = some m' := by
      rw [hentry] at hm'
      exact hm'
    have hevents : e'.output.events = (handleObjects lib e'.before e'.input).1.events := by
      rw [hentry]
      rfl
    constructor
    · have hrefines := (handleObjects_refines lib e'.input howned).after
      rw [hstate] at hrefines
      obtain ⟨cache, -, rfl⟩ := Option.map_eq_some_iff.mp hrefines.symm
      exact howned.follow cache
    · have hhandles := handleObjects_handles lib e'.input howned hstate
      simp only [open']
      rw [socketsAfter_append, hevents]
      exact socketOf_request hhandles hsockets
  have hstart : Memory.start.Owned ∧ open' [] Memory.start.clientCache :=
    ⟨fun client => by simp [Memory.start], .closed rfl⟩
  have he : e ∈ serveObjects lib visits := by
    rw [h]
    exact List.mem_append_right _ List.mem_cons_self
  have hopen := (hstep past e he (runFrom_history (fun past' (m' : Memory) =>
    m'.Owned ∧ open' past' m'.clientCache) hstart hstep h) m hafter).2
  simp only [open'] at hopen
  rw [socketsAfter_append, Sockets.getLogger_of_logger (Sockets.request_logger ..)] at hopen
  rw [socketsAfter_append]
  exact hopen

def standardFiles : Descriptors File := ⟨fun fd => if fd < 3 then some .other else none⟩

theorem serveObjects_sockets_logout :
    ∃ e₁ e₂ m, serveObjects Platform.plain [acceptedLogin [] [], formVisit [ascii "logout"]] =
        [e₁, e₂] ∧ e₂.after = some m ∧ m.clientCache = none ∧
      (socketsAfter 8 true standardFiles [e₁, e₂]).table = standardFiles.insert 3 .logfile := by
  have hrun : (serveObjects Platform.plain
      [acceptedLogin [] [], formVisit [ascii "logout"]]).map
        (fun e => e.after.map Memory.clientCache) = [some (some 0), some none] := by
    decide +kernel
  obtain ⟨e₁, e₂, hserve, -, hcache⟩ := eq_pair_of_map hrun
  obtain ⟨m, hafter, hnone⟩ := Option.map_eq_some_iff.mp hcache
  have hsockets :=
    @serveObjects_sockets Platform.plain 8 true standardFiles _ [e₁] [] e₂ hserve m hafter
  rw [hnone] at hsockets
  refine ⟨e₁, e₂, m, hserve, hafter, hnone, ?_⟩
  cases hsockets with
  | closed htable => exact htable

end Mrhc
