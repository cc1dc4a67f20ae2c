import Mrhc.Handler.Owner

/-!
# Ready clients

A client that stays in the cache although its handshake has failed.
-/

namespace Mrhc

/-- In every state that is reached the cached client has been initialized, authenticated and
configured with success, and only such a client is driven. -/
def CacheReady (entries : List Served) : Prop :=
  ∀ e ∈ entries, (∀ client, e.after = some (some client) → client.Ready) ∧
    ((∃ call, .called call ∈ e.output.events ∧ call.opens = false) →
      ∃ client, e.before = some client ∧ client.Ready)

/-- The request logs in with these credentials when no client is cached. -/
def Request.LogsIn (r : Request) (lib : Platform) (credentials : Credentials) : Prop :=
  r.Addressed ∧ r.credentials lib = some credentials

/-- The handshake that this visit starts returns `false` in one of its phases. -/
def Visit.HandshakeFails (v : Visit) (credentials : Credentials) : Prop :=
  ∃ s, spinProgram.run (Instance.new credentials v).session = .ok false s

private def AllReady (cache : Option Instance) : Prop :=
  ∀ client, cache = some client → client.Ready

private theorem handled_ready {lib : Platform} {v : Visit} {cache : Option Instance}
    {status : Option Status} {events : List Event} {after : Option (Option Instance)}
    (h : Handled lib v cache status events after) (hready : AllReady cache)
    (hfails : cache = none → ∀ credentials, v.request.LogsIn lib credentials →
      v.request.hostname ≠ none → ¬v.HandshakeFails credentials)
    {cache' : Option Instance} (hafter : after = some cache') : AllReady cache' := by
  intro client' hclient'
  subst hclient'
  cases h with
  | declined =>
    cases hafter
    exact hready client' rfl
  | @spun credentials client b calls haddressed hcredentials hrun hready' hpage hcalls =>
    cases hafter
    apply hready'.mpr
    cases b with
    | true => rfl
    | false =>
      exact absurd ⟨_, hrun⟩ (hfails rfl credentials ⟨haddressed, hcredentials⟩ (hpage rfl))
  | thrown haddressed hconfirm hquery hrun hreturned hcalls =>
    cases hafter
    exact (hready _ rfl).trans hreturned
  | refused => cases hafter
  | unreadable => cases hafter
  | spinStopped => cases hafter
  | loggedOut => cases hafter
  | badQuery => cases hafter
  | throwStopped => cases hafter

private theorem handled_failed {lib : Platform} {v : Visit} {status : Option Status}
    {events : List Event} {after : Option (Option Instance)} {credentials : Credentials}
    (h : Handled lib v none status events after) (hlogin : v.request.LogsIn lib credentials)
    (hhost : v.request.hostname ≠ none) (hfails : v.HandshakeFails credentials) :
    ∃ client, after = some (some client) ∧ ¬client.Ready := by
  obtain ⟨haddressed, hcredentials⟩ := hlogin
  obtain ⟨s, hs⟩ := hfails
  cases h with
  | declined cache hdeclined => exact absurd haddressed hdeclined
  | refused _ hnone => rw [hcredentials] at hnone; cases hnone
  | unreadable _ hnone => rw [hcredentials] at hnone; cases hnone
  | @spun credentials' client b calls _ hcredentials' hrun hready hpage hcalls =>
    rw [hcredentials, Option.some.injEq] at hcredentials'
    subst hcredentials'
    rw [hs] at hrun
    cases hrun
    exact ⟨client, rfl, by simp [hready]⟩
  | spinStopped _ hcredentials' hrun hcalls =>
    rw [hcredentials, Option.some.injEq] at hcredentials'
    subst hcredentials'
    exact absurd hs (hrun hhost s)

/-- The cached client is always ready exactly when no handshake that a request with a host name
starts returns `false`. -/
theorem serve_cacheReady_iff (lib : Platform) (visits : List Visit) :
    CacheReady (serve lib visits) ↔
      ∀ e ∈ serve lib visits, e.before = none → ∀ credentials,
        e.input.request.LogsIn lib credentials → e.input.request.hostname ≠ none →
          ¬e.input.HandshakeFails credentials := by
  constructor
  · intro h e he hbefore credentials hlogin hhost hfails
    have hhandled := serve_handled he
    rw [hbefore] at hhandled
    obtain ⟨client, hafter, hnot⟩ := handled_failed hhandled hlogin hhost hfails
    exact hnot ((h e he).1 client hafter)
  · intro h e he
    have hbefore : AllReady e.before := by
      apply runFrom_invariant AllReady _ _ he
      · intro client hnone
        cases hnone
      · intro e' he' hready cache' hafter
        exact handled_ready (serve_handled he') hready (h e' he') hafter
    constructor
    · intro client hafter
      exact handled_ready (serve_handled he) hbefore (h e he) hafter client rfl
    · intro hdrive
      obtain ⟨hsome, -⟩ := (handled_drives_iff (serve_handled he)).mp hdrive
      obtain ⟨client, hclient⟩ := Option.ne_none_iff_exists'.mp hsome
      exact ⟨client, hclient, hbefore client hclient⟩

def refusedLogin : Visit where
  request := pageRequest (some testHeader)
  server := { Socket.delivering [] with connects := false, sends := [.error] }
  residue := .blank

/-- After a refused connection the next visitor drives a client that has never been connected. -/
theorem serve_refused_driven :
    ∃ e₁ e₂, serve Platform.plain [refusedLogin, stranger] = [e₁, e₂] ∧
      (e₂.before.map fun client => client.returned) = some [(.initializeClient, false)] ∧
      .called (.capture VncOperation.zero) ∈ e₂.output.events ∧ ¬CacheReady [e₁, e₂] := by
  have hrun : (serve Platform.plain [refusedLogin, stranger]).map
      (fun e => (e.before.map fun client => client.returned, e.output.events.getLast?)) =
      [(none, some (.called .initializeClient)),
        (some [(.initializeClient, false)], some (.called (.capture VncOperation.zero)))] := by
    decide +kernel
  obtain ⟨e₁, e₂, hserve, -, he₂⟩ := eq_pair_of_map hrun
  simp only [Prod.mk.injEq] at he₂
  obtain ⟨hreturned, hlast⟩ := he₂
  have hmem := List.mem_of_getLast? hlast
  refine ⟨e₁, e₂, hserve, hreturned, hmem, fun h => ?_⟩
  obtain ⟨client, hclient, hready⟩ := (h e₂ (by simp)).2 ⟨_, hmem, rfl⟩
  rw [hclient, Option.map_some, Option.some.injEq] at hreturned
  rw [Instance.Ready, hreturned] at hready
  exact absurd hready (by decide)

end Mrhc
