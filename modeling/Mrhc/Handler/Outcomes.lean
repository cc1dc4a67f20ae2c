import Mrhc.Handler.Handler

/-!
# Outcomes of the calls on a client

What `mrhc_spin` and `mrhc_throw` can have done to their object when they end.
-/

namespace Mrhc

/-- What `mrhc_spin` does on the connection. -/
def spinProgram : ClientM Bool := require initializeClient (require authenticate configure)

/-- What `mrhc_throw` does on the connection. -/
def throwProgram (lib : Platform) (r : Request) (operation : VncOperation) : ClientM Bool :=
  if r.query = none then capture lib operation
  else require (operate lib operation) (capture lib operation)

/-- The handshake of this object has been completed with success. -/
def Instance.Ready (client : Instance) : Prop :=
  [(Call.initializeClient, true), (Call.authenticate, true), (Call.configure, true)] <+:
    client.returned

instance (client : Instance) : Decidable client.Ready :=
  inferInstanceAs (Decidable (_ <+: client.returned))

/-- The calls that open a connection. -/
def Call.opens : Call → Bool
  | .initializeClient | .authenticate | .configure => true
  | .operate _ | .capture _ => false

section

variable {w : World}

def World.logged (w : World) (event : Event) : World := { w with events := w.events ++ [event] }

theorem callClient_ok {call : Call} {body : ClientM Bool} {client : Instance} {b : Bool}
    {s : Session} (h : body.run client.session = .ok b s) :
    (callClient call body client).run w =
      .ok (b, client.after call b s) (w.logged (.called call)) := by
  have hlog : (log (.called call)).run w = .ok () (w.logged (.called call)) := rfl
  rw [callClient, bind_ok hlog]
  simp only [h, EStateM.run_pure]

theorem callClient_error {call : Call} {body : ClientM Bool} {client : Instance} {e : Stop}
    {s : Session} (h : body.run client.session = .error e s) :
    (callClient call body client).run w = .error e (w.logged (.called call)) := by
  have hlog : (log (.called call)).run w = .ok () (w.logged (.called call)) := rfl
  rw [callClient, bind_ok hlog]
  simp only [h]
  rfl

/-- Make a call and go on with `rest` only if it returned `true`. -/
def checkedCall (call : Call) (body : ClientM Bool) (rest : Instance → HandlerM (Bool × Instance))
    (client : Instance) : HandlerM (Bool × Instance) := do
  let (result, client) ← callClient call body client
  if !result then return (false, client)
  rest client

section

variable {call : Call} {body : ClientM Bool} {client : Instance} {s : Session}
  (rest : Instance → HandlerM (Bool × Instance))

theorem checkedCall_true (h : body.run client.session = .ok true s) :
    (checkedCall call body rest client).run w =
      (rest (client.after call true s)).run (w.logged (.called call)) := by
  rw [checkedCall, bind_ok (callClient_ok h)]
  rfl

theorem checkedCall_false (h : body.run client.session = .ok false s) :
    (checkedCall call body rest client).run w =
      .ok (false, client.after call false s) (w.logged (.called call)) := by
  rw [checkedCall, bind_ok (callClient_ok h)]
  rfl

theorem checkedCall_error {e : Stop} (h : body.run client.session = .error e s) :
    (checkedCall call body rest client).run w = .error e (w.logged (.called call)) := by
  rw [checkedCall, bind_error (callClient_error h)]

end

@[simp] theorem World.logged_events (event : Event) :
    (w.logged event).events = w.events ++ [event] := rfl

theorem lift_ok {α : Type} {x : Except Stop α} {a : α} (h : x = .ok a) :
    (lift x).run w = .ok a w := by
  rw [h]
  rfl

theorem lift_error {α : Type} {x : Except Stop α} {e : Stop} (h : x = .error e) :
    (lift x).run w = .error e w := by
  rw [h]
  rfl

end

/-- What a sequence of checked calls has done when it ends, from the world `w`: it has made the
first of the `calls`, at least one, and all of them with the result `true` exactly when it
returned `true`. -/
inductive Outcome (calls : List Call) (program : ClientM Bool) (client : Instance) (w : World) :
    EStateM.Result Stop World (Bool × Instance) → Prop where
  | returned (k : Nat) (results : List (Call × Bool)) {b : Bool} {client' : Instance} {w' : World}
    (hrun : program.run client.session = .ok b client'.session)
    (hreturned : client'.returned = client.returned ++ results)
    (hmade : results.map Prod.fst = calls.take (k + 1))
    (htrue : b = true ↔ results = calls.map fun call => (call, true))
    (hevents : w'.events = w.events ++ (calls.take (k + 1)).map .called) :
    Outcome calls program client w (.ok (b, client') w')
  | stopped (k : Nat) {e : Stop} {w' : World}
    (hrun : ∀ s, program.run client.session ≠ .ok false s)
    (hevents : w'.events = w.events ++ (calls.take (k + 1)).map .called) :
    Outcome calls program client w (.error e w')

section

variable {calls : List Call} {program body : ClientM Bool} {client : Instance} {w : World}

/-- A checked call in front of a sequence. -/
theorem Outcome.checked {call : Call} {rest : Instance → HandlerM (Bool × Instance)}
    (h : ∀ s, Outcome calls program (client.after call true s) (w.logged (.called call))
      ((rest (client.after call true s)).run (w.logged (.called call)))) :
    Outcome (call :: calls) (require body program) client w
      ((checkedCall call body rest client).run w) := by
  cases hbody : body.run client.session with
  | error e s =>
    rw [checkedCall_error rest hbody]
    exact .stopped 0 (by simp [require_error hbody]) rfl
  | ok b s =>
    cases b with
    | false =>
      rw [checkedCall_false rest hbody]
      exact .returned 0 [(call, false)] (require_false hbody) rfl rfl (by simp) rfl
    | true =>
      have hprogram : (require body program).run client.session = program.run s :=
        require_true hbody
      have hrest := h s
      rw [checkedCall_true rest hbody]
      generalize (rest (client.after call true s)).run (w.logged (.called call)) = result at hrest ⊢
      cases hrest with
      | returned k results hrun hreturned hmade htrue hevents =>
        refine .returned (k + 1) ((call, true) :: results) (hprogram.trans hrun) ?_ ?_ ?_ ?_
        · simp [hreturned, Instance.after]
        · simp [hmade]
        · simp [htrue]
        · simp [hevents]
      | stopped k hrun hevents =>
        refine .stopped (k + 1) ?_ (by simp [hevents])
        rw [hprogram]
        exact hrun

/-- The end of a sequence of calls writes the answer. -/
theorem Outcome.answered {x : HandlerM (Bool × Instance)} {w' : World}
    (h : x.run w = .ok (true, client) w') (hevents : w'.events = w.events) :
    Outcome [] (pure true) client w (x.run w) := by
  rw [h]
  exact .returned 0 [] rfl (by simp) rfl (by simp) (by simp [hevents])

theorem Outcome.unanswered {x : HandlerM (Bool × Instance)} {e : Stop} {w' : World}
    (h : x.run w = .error e w') (hevents : w'.events = w.events) :
    Outcome [] (pure true) client w (x.run w) := by
  rw [h]
  exact .stopped 0 (by simp) (by simp [hevents])

end

/-- The page that `mrhc_spin` answers with at its end. -/
def spinPage (r : Request) (client : Instance) : HandlerM (Bool × Instance) := do
  setContentType (ascii "text/html")
  apWrite (← lift (mrhcHtml r client.session.client))
  return (true, client)

private theorem spinPage_outcome (r : Request) (client : Instance) (w : World) :
    Outcome [] (pure true) client w ((spinPage r client).run w) := by
  have htype : (setContentType (ascii "text/html")).run w =
      .ok () { w with response := { w.response with contentType := some (ascii "text/html") } } :=
    rfl
  cases hpage : mrhcHtml r client.session.client with
  | ok page =>
    apply Outcome.answered
    · rw [spinPage, bind_ok htype, bind_ok (lift_ok hpage)]
      rfl
    · rfl
  | error e =>
    apply Outcome.unanswered
    · rw [spinPage, bind_ok htype, bind_error (lift_error hpage)]
    · rfl

/-- `mrhc_spin` makes its calls one after the other, each when the one before has returned
`true`. -/
theorem mrhcSpin_eq (r : Request) (client : Instance) :
    mrhcSpin client r =
      checkedCall .initializeClient initializeClient
        (checkedCall .authenticate authenticate
          (checkedCall .configure configure (spinPage r))) client := rfl

/-- The calls of `mrhc_spin`. -/
def spinCalls : List Call := [.initializeClient, .authenticate, .configure]

theorem mrhcSpin_outcome (r : Request) (client : Instance) (w : World) :
    Outcome spinCalls spinProgram client w ((mrhcSpin client r).run w) := by
  have hprogram : spinProgram =
      require initializeClient (require authenticate (require configure (pure true))) := by
    rw [require_pure]
    rfl
  rw [hprogram, mrhcSpin_eq]
  apply Outcome.checked
  intro _
  apply Outcome.checked
  intro _
  apply Outcome.checked
  intro _
  exact spinPage_outcome r _ _

private theorem checkedCall_true_iff {call : Call} {body : ClientM Bool}
    {rest : Instance → HandlerM (Bool × Instance)} {client : Instance} {w : World}
    {P : Session → Prop}
    (hrest : ∀ s, (∃ client' w', (rest (client.after call true s)).run (w.logged (.called call)) =
      .ok (true, client') w') ↔ P s) :
    (∃ client' w', (checkedCall call body rest client).run w = .ok (true, client') w') ↔
      ∃ s, body.run client.session = .ok true s ∧ P s := by
  rcases hbody : body.run client.session with ⟨_ | _, s⟩ | ⟨e, s⟩
  · rw [checkedCall_false rest hbody]
    simp
  · rw [checkedCall_true rest hbody, hrest s]
    simp
  · rw [checkedCall_error rest hbody]
    simp

private theorem spinPage_true_iff (r : Request) (client : Instance) (w : World) :
    (∃ client' w', (spinPage r client).run w = .ok (true, client') w') ↔ r.hostname ≠ none := by
  have htype : (setContentType (ascii "text/html")).run w =
      .ok () { w with response := { w.response with contentType := some (ascii "text/html") } } :=
    rfl
  cases hhost : r.hostname with
  | none =>
    have hpage : mrhcHtml r client.session.client = .error .logicError := by
      rw [mrhcHtml, Request.location, hhost]
      rfl
    rw [spinPage, bind_ok htype, bind_error (lift_error hpage)]
    simp
  | some hostname =>
    have hlocation : r.location = .ok (cString hostname, cString r.unparsedUri) := by
      rw [Request.location, hhost]
    obtain ⟨page, hpage⟩ : ∃ page, mrhcHtml r client.session.client = .ok page := by
      rw [mrhcHtml, hlocation]
      exact ⟨_, rfl⟩
    rw [spinPage, bind_ok htype, bind_ok (lift_ok hpage)]
    simp only [ne_eq, reduceCtorEq, not_false_eq_true, iff_true]
    exact ⟨client, _, rfl⟩

/-- `mrhc_spin` returns `true` exactly when its calls do and its page can be built. -/
theorem mrhcSpin_true_iff (r : Request) (client : Instance) (w : World) :
    (∃ client' w', (mrhcSpin client r).run w = .ok (true, client') w') ↔
      (∃ s, spinProgram.run client.session = .ok true s) ∧ r.hostname ≠ none := by
  have hcalls : (∃ s, spinProgram.run client.session = .ok true s) ↔
      ∃ s₁, initializeClient.run client.session = .ok true s₁ ∧
        ∃ s₂, authenticate.run s₁ = .ok true s₂ ∧ ∃ s₃, configure.run s₂ = .ok true s₃ := by
    simp only [spinProgram, require_true_iff]
  rw [mrhcSpin_eq, hcalls, checkedCall_true_iff fun s₁ => checkedCall_true_iff fun s₂ =>
    checkedCall_true_iff fun s₃ => spinPage_true_iff r _ _]
  simp only [Instance.after, exists_and_right, ← and_assoc]

/-- A fresh object is ready when its calls have returned `true`. -/
theorem ready_iff_of_spin {client client' : Instance} {results : List (Call × Bool)} {b : Bool}
    {k : Nat} (hfresh : client.returned = [])
    (hreturned : client'.returned = client.returned ++ results)
    (hmade : results.map Prod.fst = spinCalls.take (k + 1))
    (htrue : b = true ↔ results = spinCalls.map fun call => (call, true)) :
    client'.Ready ↔ b = true := by
  have hlength : results.length ≤ 3 := by
    rw [← List.length_map Prod.fst, hmade, List.length_take]
    exact Nat.min_le_right _ _
  rw [htrue, Instance.Ready, hreturned, hfresh, List.nil_append]
  constructor
  · intro hready
    exact (hready.eq_of_length_le hlength).symm
  · intro hall
    rw [hall]
    exact List.prefix_rfl

/-- The image that `mrhc_throw` answers with at its end. -/
def throwImage (client : Instance) : HandlerM (Bool × Instance) := do
  setContentType (ascii "image/jpeg")
  apWrite client.session.client.jpegBuf
  return (true, client)

/-- The calls of `mrhc_throw`. -/
def throwCalls (r : Request) (operation : VncOperation) : List Call :=
  if r.query = none then [.capture operation] else [.operate operation, .capture operation]

theorem mrhcThrow_badQuery {lib : Platform} {r : Request} {client : Instance} {e : Stop} {w : World}
    (h : mrhcQuery r = .error e) : (mrhcThrow lib client r).run w = .error e w := by
  have hquery : r.query ≠ none := by
    intro hnone
    simp [mrhcQuery, hnone] at h
  rw [mrhcThrow, if_neg hquery, bind_error (lift_error h)]

private theorem throwCapture_outcome (lib : Platform) (operation : VncOperation) (client : Instance)
    (w : World) :
    Outcome [.capture operation] (capture lib operation) client w
      ((throwCapture lib operation client).run w) := by
  have hthrow : throwCapture lib operation client =
      checkedCall (.capture operation) (capture lib operation) throwImage client := rfl
  have hcapture : Outcome [.capture operation] (require (capture lib operation) (pure true)) client
      w ((throwCapture lib operation client).run w) := by
    rw [hthrow]
    apply Outcome.checked
    intro _
    exact Outcome.answered rfl rfl
  rwa [require_pure] at hcapture

theorem mrhcThrow_outcome (lib : Platform) {r : Request} {operation : VncOperation}
    (client : Instance) (hoperation : mrhcQuery r = .ok operation) (w : World) :
    Outcome (throwCalls r operation) (throwProgram lib r operation) client w
      ((mrhcThrow lib client r).run w) := by
  by_cases hquery : r.query = none
  · obtain rfl : operation = VncOperation.zero := by
      simp only [mrhcQuery, hquery, Except.ok.injEq] at hoperation
      exact hoperation.symm
    rw [mrhcThrow, throwCalls, throwProgram, if_pos hquery, if_pos hquery, if_pos hquery]
    exact throwCapture_outcome lib VncOperation.zero client w
  · rw [mrhcThrow, throwCalls, throwProgram, if_neg hquery, if_neg hquery, if_neg hquery,
      bind_ok (lift_ok hoperation)]
    have hthrow : (do
        let (operated, client) ← callClient (.operate operation) (operate lib operation) client
        if !operated then return (false, client)
        throwCapture lib operation client) =
        checkedCall (.operate operation) (operate lib operation) (throwCapture lib operation)
          client := rfl
    rw [hthrow]
    apply Outcome.checked
    intro _
    exact throwCapture_outcome lib operation _ _

private theorem throwCapture_true_iff (lib : Platform) (operation : VncOperation)
    (client : Instance) (w : World) :
    (∃ client' w', (throwCapture lib operation client).run w = .ok (true, client') w') ↔
      ∃ s, (capture lib operation).run client.session = .ok true s := by
  have hthrow : throwCapture lib operation client =
      checkedCall (.capture operation) (capture lib operation) throwImage client := rfl
  rw [hthrow, checkedCall_true_iff fun s => iff_true_intro ⟨client.after _ true s, _, rfl⟩]
  simp

/-- `mrhc_throw` returns `true` exactly when its calls do. -/
theorem mrhcThrow_true_iff (lib : Platform) {r : Request} {operation : VncOperation}
    (client : Instance) (hoperation : mrhcQuery r = .ok operation) (w : World) :
    (∃ client' w', (mrhcThrow lib client r).run w = .ok (true, client') w') ↔
      ∃ s, (throwProgram lib r operation).run client.session = .ok true s := by
  by_cases hquery : r.query = none
  · obtain rfl : operation = VncOperation.zero := by
      simp only [mrhcQuery, hquery, Except.ok.injEq] at hoperation
      exact hoperation.symm
    rw [mrhcThrow, throwProgram, if_pos hquery, if_pos hquery]
    exact throwCapture_true_iff lib VncOperation.zero client w
  · rw [mrhcThrow, throwProgram, if_neg hquery, if_neg hquery, bind_ok (lift_ok hoperation),
      require_true_iff]
    exact checkedCall_true_iff fun s => throwCapture_true_iff lib operation _ _

end Mrhc
