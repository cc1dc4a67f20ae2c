import Mrhc.Client.Authentication
import Mrhc.Handler.Requests

/-!
# The owner of the cached client

Whose credentials the cached client was created with, and which requests drive it.
-/

namespace Mrhc

/-- One request in a run of the process. -/
abbrev Served := Entry (Option Instance) Visit Answer

def Event.creation : Event → Option Credentials
  | .created credentials => some credentials
  | .called _ => none

/-- The credentials of the last client that was created. -/
def lastCreated (entries : List Served) : Option Credentials :=
  (entries.flatMap fun e => e.output.events).reverse.findSome? Event.creation

/-- A request that gets to `operate` or `capture` when there is a client: it is addressed to the
handler, does not log out and has no query or a readable one. -/
def Request.Drives (r : Request) : Prop :=
  r.Addressed ∧ mrhcConfirm r = true ∧ ∃ operation, mrhcQuery r = .ok operation

/-- `operate` and `capture` are called only for requests with the credentials that the client was
created with. -/
def OwnerDrives (lib : Platform) (entries : List Served) : Prop :=
  ∀ past e rest call, entries = past ++ e :: rest → .called call ∈ e.output.events →
    call.opens = false →
    ∃ credentials, lastCreated past = some credentials ∧
      e.input.request.credentials lib = some credentials

private theorem lastCreated_append (past : List Served) (e : Served) :
    lastCreated (past ++ [e]) =
      (e.output.events.reverse.findSome? Event.creation).or (lastCreated past) := by
  simp [lastCreated, List.findSome?_append]

private theorem creation_calls (calls : List Call) :
    (calls.map Event.called).reverse.findSome? Event.creation = none := by
  simp [Event.creation]

/-- The cached client is the last one that was created. -/
private def CacheOwned (past : List Served) (cache : Option Instance) : Prop :=
  ∀ client, cache = some client → lastCreated past = some client.session.credentials

private theorem spinProgram_keepsCredentials : KeepsCredentials spinProgram :=
  Keeps.require initializeClient_keepsCredentials
    (Keeps.require authenticate_keepsCredentials configure_keepsCredentials)

private theorem throwProgram_keepsCredentials (lib : Platform) (r : Request)
    (operation : VncOperation) : KeepsCredentials (throwProgram lib r operation) :=
  Keeps.ite (capture_keepsCredentials lib operation)
    (Keeps.require (operate_keepsCredentials lib operation)
      (capture_keepsCredentials lib operation))

private theorem handled_cacheOwned {lib : Platform} {v : Visit} {cache : Option Instance}
    {status : Option Status} {events : List Event} {after : Option (Option Instance)}
    {past : List Served} {e : Served} (h : Handled lib v cache status events after)
    (hevents : e.output.events = events) (howned : CacheOwned past cache)
    {cache' : Option Instance} (hafter : after = some cache') :
    CacheOwned (past ++ [e]) cache' := by
  intro client' hclient'
  subst hclient'
  rw [lastCreated_append, hevents]
  cases h with
  | declined =>
    cases hafter
    exact howned client' rfl
  | @spun credentials client b calls haddressed hcredentials hrun hready hpage hcalls =>
    cases hafter
    have hkept := spinProgram_keepsCredentials _ _ _ hrun
    have hcreation := creation_calls (.initializeClient :: calls)
    rw [List.map_cons] at hcreation
    rw [List.reverse_cons, List.findSome?_append, hcreation, hkept]
    rfl
  | thrown haddressed hconfirm hquery hrun hreturned hcalls =>
    cases hafter
    have hkept := throwProgram_keepsCredentials _ _ _ _ _ _ hrun
    rw [creation_calls, hkept]
    exact howned _ rfl
  | refused => cases hafter
  | unreadable => cases hafter
  | spinStopped => cases hafter
  | loggedOut => cases hafter
  | badQuery => cases hafter
  | throwStopped => cases hafter

private theorem serve_cacheOwned {lib : Platform} {visits : List Visit}
    {past rest : List Served} {e : Served} (h : serve lib visits = past ++ e :: rest) :
    CacheOwned past e.before := by
  apply runFrom_history CacheOwned _ _ h
  · intro client hnone
    cases hnone
  · intro past' e' he' howned cache' hafter
    exact handled_cacheOwned (serve_handled he') rfl howned hafter

private theorem no_drive_of_opens {calls : List Call} (h : ∀ call ∈ calls, call.opens = true)
    (credentials : Credentials) :
    ¬∃ call, .called call ∈ Event.created credentials :: .called .initializeClient ::
      calls.map Event.called ∧ call.opens = false := by
  intro hdrive
  obtain ⟨call, hcall, hopens⟩ := hdrive
  simp only [List.mem_cons, List.mem_map, reduceCtorEq, false_or, Event.called.injEq] at hcall
  cases hcall with
  | inl hinit =>
    rw [hinit] at hopens
    cases hopens
  | inr hmem =>
    obtain ⟨call', hcall', rfl⟩ := hmem
    rw [h call' hcall'] at hopens
    cases hopens

private theorem drive_of_calls {call : Call} {calls : List Call}
    (h : ∀ c ∈ call :: calls, c.opens = false) :
    ∃ c, .called c ∈ (call :: calls).map Event.called ∧ c.opens = false :=
  ⟨call, List.mem_map_of_mem List.mem_cons_self, h call List.mem_cons_self⟩

/-- The requests that drive a client are those that find one and get to its calls. -/
theorem handled_drives_iff {lib : Platform} {v : Visit} {cache : Option Instance}
    {status : Option Status} {events : List Event} {after : Option (Option Instance)}
    (h : Handled lib v cache status events after) :
    (∃ call, .called call ∈ events ∧ call.opens = false) ↔
      cache ≠ none ∧ v.request.Drives := by
  have hnil : ¬∃ call, Event.called call ∈ [] ∧ call.opens = false := by simp
  cases h with
  | declined cache haddressed => exact iff_of_false hnil fun h => haddressed h.2.1
  | refused => exact iff_of_false hnil fun h => h.1 rfl
  | unreadable => exact iff_of_false hnil fun h => h.1 rfl
  | spun haddressed hcredentials hrun hready hpage hcalls =>
    exact iff_of_false (no_drive_of_opens hcalls _) fun h => h.1 rfl
  | spinStopped haddressed hcredentials hrun hcalls =>
    exact iff_of_false (no_drive_of_opens hcalls _) fun h => h.1 rfl
  | loggedOut client haddressed hconfirm =>
    apply iff_of_false hnil
    intro h
    rw [h.2.2.1] at hconfirm
    cases hconfirm
  | badQuery client haddressed hconfirm hquery =>
    apply iff_of_false hnil
    intro h
    obtain ⟨operation, hoperation⟩ := h.2.2.2
    rw [hoperation] at hquery
    cases hquery
  | thrown haddressed hconfirm hquery hrun hreturned hcalls =>
    exact iff_of_true (drive_of_calls hcalls) ⟨nofun, haddressed, hconfirm, _, hquery⟩
  | throwStopped haddressed hconfirm hquery hrun hcalls =>
    exact iff_of_true (drive_of_calls hcalls) ⟨nofun, haddressed, hconfirm, _, hquery⟩

/-- Only the owner drives the cached client exactly when every request that finds a client and
gets to its calls happens to carry the destination and the password that the client holds. -/
theorem serve_ownerDrives_iff (lib : Platform) (visits : List Visit) :
    OwnerDrives lib (serve lib visits) ↔
      ∀ e ∈ serve lib visits, ∀ client, e.before = some client → e.input.request.Drives →
        e.input.request.credentials lib = some client.session.credentials := by
  constructor
  · intro h e he client hclient hdrives
    obtain ⟨past, rest, hsplit⟩ := List.append_of_mem he
    obtain ⟨call, hcall, hopens⟩ := (handled_drives_iff (serve_handled he)).mpr
      ⟨by simp [hclient], hdrives⟩
    obtain ⟨credentials, hlast, hcredentials⟩ := h past e rest call hsplit hcall hopens
    have howned := serve_cacheOwned hsplit client hclient
    rw [hcredentials, ← hlast, howned]
  · intro h past e rest call hsplit hcall hopens
    have he : e ∈ serve lib visits := by
      rw [hsplit]
      exact List.mem_append_right _ List.mem_cons_self
    obtain ⟨hbefore, hdrives⟩ := (handled_drives_iff (serve_handled he)).mp ⟨call, hcall, hopens⟩
    obtain ⟨client, hclient⟩ := Option.ne_none_iff_exists'.mp hbefore
    exact ⟨client.session.credentials, serve_cacheOwned hsplit client hclient,
      h e he client hclient hdrives⟩

def testCredentials : Credentials := ⟨ascii "127.0.0.1", 5900, ascii "testtest"⟩

/-- The header with these credentials. -/
def testHeader : Bytes := ascii "Basic MTI3LjAuMC4xOjU5MDA6dGVzdHRlc3Q="

/-- A login while the server accepts it and goes on with these bytes. -/
def acceptedLogin (later : Bytes) (recvs : List Transfer) : Visit where
  request := pageRequest (some testHeader)
  server := { Socket.delivering (acceptingServer.flatten ++ later) with
    recvs := Socket.transfers acceptingServer ++ recvs }
  residue := .blank

/-- A visitor without credentials. -/
def stranger : Visit := ⟨pageRequest none, Socket.delivering [], .blank⟩

/-- One raw rectangle of one pixel. -/
def pixelUpdateBytes : Bytes :=
  [0, 0, 0, 1] ++ [0, 0, 0, 0, 0, 1, 0, 1, 0, 0, 0, 0] ++ [1, 2, 3, 4]

/-- A visitor without credentials gets the image of the screen that another user has logged in
to. -/
theorem serve_stranger_captures :
    ∃ e₁ e₂, serve Platform.plain [acceptedLogin pixelUpdateBytes [], stranger] = [e₁, e₂] ∧
      e₂.input.request.credentials Platform.plain = none ∧
      e₂.output.events = [.called (.capture VncOperation.zero)] ∧
      e₂.output.response.contentType = some (ascii "image/jpeg") ∧
      ¬OwnerDrives Platform.plain [e₁, e₂] := by
  have hrun : (serve Platform.plain [acceptedLogin pixelUpdateBytes [], stranger]).map
      (fun e => (e.input.request.credentials Platform.plain, e.output.events,
        e.output.response.contentType)) =
      [(some testCredentials,
          [.created testCredentials, .called .initializeClient, .called .authenticate,
            .called .configure], some (ascii "text/html")),
        (none, [.called (.capture VncOperation.zero)], some (ascii "image/jpeg"))] := by
    decide +kernel
  obtain ⟨e₁, e₂, hserve, -, he₂⟩ := eq_pair_of_map hrun
  simp only [Prod.mk.injEq] at he₂
  obtain ⟨hnone, hevents, hcontent⟩ := he₂
  refine ⟨e₁, e₂, hserve, hnone, hevents, hcontent, fun h => ?_⟩
  obtain ⟨credentials, -, hcredentials⟩ := h [e₁] e₂ [] (.capture VncOperation.zero) rfl
    (by rw [hevents]; exact List.mem_singleton_self _) rfl
  rw [hnone] at hcredentials
  cases hcredentials

end Mrhc
