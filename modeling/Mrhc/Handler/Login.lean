import Mrhc.Handler.ReadyClient

/-!
# Logging in again

Which answers that ask for credentials leave the way to a new login open.
-/

namespace Mrhc

/-- Every answer that asks for credentials leaves no client, and the next request that carries
well-formed credentials creates a client with exactly these and begins to connect it. -/
def OpensLogin (lib : Platform) (entries : List Served) : Prop :=
  ∀ past e, ∀ later : List Served, entries = past ++ e :: later →
    e.output.status = some .unauthorized →
    e.after = some none ∧
      ∀ between f rest credentials, later = between ++ f :: rest →
        (∀ g ∈ between, ∀ c, ¬g.input.request.LogsIn lib c) →
        f.input.request.LogsIn lib credentials →
        ∃ events, f.output.events = .created credentials :: .called .initializeClient :: events

/-- The operation or the capture of this request returns `false` on the cached client. -/
def Request.ThrowFails (r : Request) (lib : Platform) (client : Instance) : Prop :=
  r.Addressed ∧ mrhcConfirm r = true ∧ ∃ operation s, mrhcQuery r = .ok operation ∧
    (throwProgram lib r operation).run client.session = .ok false s

section

variable {lib : Platform} {v : Visit} {cache : Option Instance} {events : List Event}
  {after : Option (Option Instance)}

private theorem handled_unauthorized (h : Handled lib v cache (some .unauthorized) events after)
    (hfails : ∀ client, cache = some client → ¬v.request.ThrowFails (v.platform lib) client) :
    after = some none := by
  generalize hstatus : some Status.unauthorized = status at h
  cases h with
  | declined => cases hstatus
  | refused => rfl
  | unreadable => cases hstatus
  | spun => cases hstatus
  | spinStopped => cases hstatus
  | loggedOut => rfl
  | badQuery => cases hstatus
  | @thrown operation client client' b call calls haddressed hconfirm hquery hrun _ _ =>
    cases b with
    | true => cases hstatus
    | false =>
      exact absurd ⟨haddressed, hconfirm, operation, _, hquery, hrun⟩ (hfails client rfl)
  | throwStopped => cases hstatus

private theorem handled_throwFails {client : Instance} {status : Option Status}
    (h : Handled lib v (some client) status events after)
    (hfails : v.request.ThrowFails (v.platform lib) client) :
    status = some .unauthorized ∧ after ≠ some none := by
  obtain ⟨haddressed, hconfirm, operation, s, hquery, hrun⟩ := hfails
  cases h with
  | declined cache hdeclined => exact absurd haddressed hdeclined
  | loggedOut _ _ hlogout => rw [hconfirm] at hlogout; cases hlogout
  | badQuery _ _ _ hbad => rw [hquery] at hbad; cases hbad
  | @thrown operation' _ client' b call calls _ _ hquery' hrun' _ _ =>
    rw [hquery, Except.ok.injEq] at hquery'
    subst hquery'
    rw [hrun] at hrun'
    cases hrun'
    exact ⟨rfl, nofun⟩
  | throwStopped _ _ hquery' hrun' _ =>
    rw [hquery, Except.ok.injEq] at hquery'
    subst hquery'
    exact absurd hrun (hrun' s)

private theorem handled_none {status : Option Status} (h : Handled lib v none status events after)
    (hlogin : ∀ c, ¬v.request.LogsIn lib c) {cache' : Option Instance}
    (hafter : after = some cache') : cache' = none := by
  cases h with
  | declined => cases hafter; rfl
  | refused => cases hafter; rfl
  | unreadable => cases hafter
  | spun haddressed hcredentials => exact absurd ⟨haddressed, hcredentials⟩ (hlogin _)
  | spinStopped => cases hafter

private theorem handled_login {status : Option Status} {credentials : Credentials}
    (h : Handled lib v none status events after) (hlogin : v.request.LogsIn lib credentials) :
    ∃ rest, events = .created credentials :: .called .initializeClient :: rest := by
  obtain ⟨haddressed, hcredentials⟩ := hlogin
  cases h with
  | declined cache hdeclined => exact absurd haddressed hdeclined
  | refused _ hnone => rw [hcredentials] at hnone; cases hnone
  | unreadable _ hnone => rw [hcredentials] at hnone; cases hnone
  | spun _ hcredentials' =>
    rw [hcredentials, Option.some.injEq] at hcredentials'
    exact ⟨_, by rw [hcredentials']⟩
  | spinStopped _ hcredentials' =>
    rw [hcredentials, Option.some.injEq] at hcredentials'
    exact ⟨_, by rw [hcredentials']⟩

end

private theorem runFrom_none {lib : Platform} {visits : List Visit} {between rest : List Served}
    {f : Served} (h : runFrom (handleVisit lib) none visits = between ++ f :: rest)
    (hbetween : ∀ g ∈ between, ∀ c, ¬g.input.request.LogsIn lib c) : f.before = none := by
  have hhistory := runFrom_history
    (fun past cache => (∀ g ∈ past, ∀ c, ¬g.input.request.LogsIn lib c) → cache = none)
    (fun _ => rfl) ?_ h
  · exact hhistory hbetween
  · intro past e he hinv cache' hafter hpast
    have hbefore := hinv fun g hg => hpast g (List.mem_append_left _ hg)
    have hhandled := handleVisit_handled lib e.before e.input
    rw [mem_runFrom he] at hafter
    rw [hbefore] at hhandled hafter
    exact handled_none hhandled (hpast e (List.mem_append_right _ (List.mem_singleton_self e)))
      hafter

/-- Every request for credentials opens the way to a new login exactly when no operation and no
capture on a cached client returns `false`. -/
theorem serve_opensLogin_iff (lib : Platform) (visits : List Visit) :
    OpensLogin lib (serve lib visits) ↔
      ∀ e ∈ serve lib visits, ∀ client, e.before = some client →
        ¬e.input.request.ThrowFails (e.input.platform lib) client := by
  constructor
  · intro h e he client hclient hfails
    obtain ⟨past, later, hsplit⟩ := List.append_of_mem he
    have hhandled := serve_handled he
    rw [hclient] at hhandled
    obtain ⟨hstatus, hafter⟩ := handled_throwFails hhandled hfails
    exact hafter (h past e later hsplit hstatus).1
  · intro h past e later hsplit hstatus
    have he : e ∈ serve lib visits := by
      rw [hsplit]
      exact List.mem_append_right _ List.mem_cons_self
    have hhandled := serve_handled he
    rw [hstatus] at hhandled
    have hafter := handled_unauthorized hhandled (h e he)
    refine ⟨hafter, ?_⟩
    intro between f rest credentials hlater hbetween hlogin
    obtain ⟨visits', hrest⟩ := runFrom_rest hsplit hafter
    rw [hlater] at hrest
    have hf : f ∈ serve lib visits := by
      rw [hsplit, hlater]
      simp
    have hlogged := serve_handled hf
    rw [runFrom_none hrest.symm hbetween] at hlogged
    exact handled_login hlogged hlogin

/-- After a failed capture the client stays, and a visitor who is asked for credentials and sends
them is asked again. -/
theorem serve_failed_keeps :
    ∃ e₁ e₂ e₃, serve Platform.plain
        [acceptedLogin [] [.error, .error], stranger, acceptedLogin [] []] = [e₁, e₂, e₃] ∧
      e₂.output.status = some .unauthorized ∧
      e₃.input.request.LogsIn Platform.plain testCredentials ∧
      e₃.output.status = some .unauthorized ∧
      e₃.output.events = [.called (.capture VncOperation.zero)] ∧
      ¬OpensLogin Platform.plain [e₁, e₂, e₃] := by
  have hrun : (serve Platform.plain
        [acceptedLogin [] [.error, .error], stranger, acceptedLogin [] []]).map
      (fun e => (decide e.input.request.Addressed, e.input.request.credentials Platform.plain,
        e.output.status, e.output.events)) =
      [(true, some testCredentials, some .ok,
          [.created testCredentials, .called .initializeClient, .called .authenticate,
            .called .configure]),
        (true, none, some .unauthorized, [.called (.capture VncOperation.zero)]),
        (true, some testCredentials, some .unauthorized,
          [.called (.capture VncOperation.zero)])] := by
    decide +kernel
  obtain ⟨e₁, e₂, e₃, hserve, -, he₂, he₃⟩ := eq_triple_of_map hrun
  simp only [Prod.mk.injEq, decide_eq_true_eq] at he₂ he₃
  obtain ⟨-, -, hstatus₂, -⟩ := he₂
  obtain ⟨haddressed, hcredentials, hstatus₃, hevents⟩ := he₃
  refine ⟨e₁, e₂, e₃, hserve, hstatus₂, ⟨haddressed, hcredentials⟩, hstatus₃, hevents, fun h => ?_⟩
  obtain ⟨-, hnext⟩ := h [e₁] e₂ [e₃] rfl hstatus₂
  obtain ⟨events, hcreated⟩ := hnext [] e₃ [] testCredentials rfl (by simp)
    ⟨haddressed, hcredentials⟩
  rw [hevents] at hcreated
  cases hcreated

end Mrhc
