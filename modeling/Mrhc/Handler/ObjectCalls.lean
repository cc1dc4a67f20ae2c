import Mrhc.Handler.Objects

/-!
# Calls on an object

What the calls do to the object at their pointer is what they do to its value.
-/

namespace Mrhc

/-- An event on the object at this pointer. -/
def Event.at (client : Pointer) : Event → ObjectEvent
  | .created credentials => .created client credentials
  | .called call => .called client call

namespace Process

/-- The object at this pointer and the answer so far are those of the world. -/
structure Shows (p : Process) (client : Pointer) (object : Instance) (w : World) : Prop where
  object : p.memory.objects.get client = some object
  response : p.response = w.response
  events : p.events = w.events.map (Event.at client)

/-- The process with another object at the pointer and the answer of the world. -/
def showing (p : Process) (client : Pointer) (object : Instance) (w : World) : Process where
  memory := { p.memory with objects := p.memory.objects.put client object }
  response := w.response
  events := w.events.map (Event.at client)

/-- The calls on an object have this result when those on its value have that one. -/
inductive Follows (client : Pointer) (p : Process) :
    EStateM.Result Stop World (Bool × Instance) → EStateM.Result Fault Process Bool → Prop where
  | returned {b : Bool} {object : Instance} {w : World} :
    Follows client p (.ok (b, object) w) (.ok b (p.showing client object w))
  | stopped {reason : Stop} {w : World} {q : Process} (hresponse : q.response = w.response)
    (hevents : q.events = w.events.map (Event.at client)) :
    Follows client p (.error reason w) (.error (.stopped reason) q)

section

variable {p : Process} {client : Pointer} {object : Instance} {w : World}

theorem Shows.showing (h : p.Shows client object w) (object' : Instance) (w' : World) :
    (p.showing client object' w').Shows client object' w' where
  object := by
    have hput := Heap.get_put h.object object' client
    rwa [if_pos rfl] at hput
  response := rfl
  events := rfl

@[simp] theorem showing_showing (object object' : Instance) (w w' : World) :
    (p.showing client object w).showing client object' w' = p.showing client object' w' := by
  simp only [Process.showing, Heap.put_put]

/-- Nothing but the response has changed. -/
theorem Shows.answered (h : p.Shows client object w) {b : Bool} {w' : World} {q : Process}
    (hevents : w'.events = w.events) (hq : q = { p with response := w'.response }) :
    Follows client p (.ok (b, object) w') (.ok b q) := by
  have hshown : p.showing client object w' = q := by
    rw [hq, Process.showing, Heap.put_get h.object, hevents, ← h.events]
  rw [← hshown]
  exact .returned

theorem deref_run (h : p.Shows client object w) : (deref client).run p = .ok object p := by
  simp only [deref, EStateM.run, h.object]

theorem answer_lift_ok {α : Type} {x : Except Stop α} {a : α} (h : x = .ok a) :
    (answer (lift x)).run p = .ok a p := by
  rw [h]
  rfl

theorem answer_lift_error {α : Type} {x : Except Stop α} {reason : Stop} (h : x = .error reason) :
    (answer (lift x)).run p = .error (.stopped reason) p := by
  rw [h]
  rfl

theorem callClient_follows {call : Call} {body : ClientM Bool} (h : p.Shows client object w) :
    Follows client p ((Mrhc.callClient call body object).run w)
      ((callClient call body client).run p) := by
  let logged : Process := { p with events := p.events ++ [.called client call] }
  have hlog : (log (.called client call)).run p = .ok () logged := rfl
  have hevents : logged.events = (w.logged (.called call)).events.map (Event.at client) := by
    simp [logged, h.events, Event.at]
  rw [callClient, bind_ok (deref_run h), bind_ok hlog]
  cases hbody : body.run object.session with
  | error reason s =>
    rw [callClient_error hbody]
    exact .stopped h.response hevents
  | ok b s =>
    let object' := object.after call b s
    have hreturned : Follows client p (.ok (b, object') (w.logged (.called call)))
        (.ok b (p.showing client object' (w.logged (.called call)))) := .returned
    have hshown : p.showing client object' (w.logged (.called call)) =
        ⟨{ p.memory with objects := p.memory.objects.put client object' }, p.response,
          logged.events⟩ := by
      rw [Process.showing, hevents, h.response]
      rfl
    rw [hshown] at hreturned
    rw [callClient_ok hbody]
    exact hreturned

theorem checkedCall_follows {call : Call} {body : ClientM Bool} {rest : ProcessM Bool}
    {rest' : Instance → HandlerM (Bool × Instance)}
    (hrest : ∀ p object w, p.Shows client object w →
      Follows client p ((rest' object).run w) (rest.run p))
    (h : p.Shows client object w) :
    Follows client p ((checkedCall call body rest' object).run w)
      ((require (callClient call body client) rest).run p) := by
  have hcall : Follows client p ((Mrhc.callClient call body object).run w)
      ((callClient call body client).run p) := callClient_follows h
  generalize hx : (callClient call body client).run p = x at hcall
  cases hbody : body.run object.session with
  | error reason s =>
    rw [callClient_error hbody] at hcall
    rw [checkedCall_error rest' hbody]
    cases hcall with
    | stopped hresponse hevents =>
      rw [require_error hx]
      exact .stopped hresponse hevents
  | ok b s =>
    rw [callClient_ok hbody] at hcall
    cases b with
    | false =>
      rw [checkedCall_false rest' hbody]
      cases hcall
      rw [require_false hx]
      exact .returned
    | true =>
      rw [checkedCall_true rest' hbody]
      cases hcall
      rw [require_true hx]
      have hnext := hrest _ _ _ (h.showing (object.after call true s) (w.logged (.called call)))
      generalize (rest' (object.after call true s)).run (w.logged (.called call)) = y at hnext ⊢
      generalize rest.run (p.showing client (object.after call true s)
        (w.logged (.called call))) = z at hnext ⊢
      cases hnext with
      | @returned b object' w' =>
        rw [showing_showing]
        exact .returned
      | stopped hresponse hevents => exact .stopped hresponse hevents

/-- The end of `mrhc_spin`. -/
private def spinEnd (client : Pointer) (r : Request) : ProcessM Bool := do
  let object ← deref client
  answer (setContentType (ascii "text/html"))
  answer (apWrite (← answer (lift (mrhcHtml r object.session.client))))
  return true

private theorem spinEnd_follows (r : Request) (h : p.Shows client object w) :
    Follows client p ((spinPage r object).run w) ((spinEnd client r).run p) := by
  have htype' : (answer (setContentType (ascii "text/html"))).run p = .ok ()
      { p with response := { p.response with contentType := some (ascii "text/html") } } := rfl
  have htype : (setContentType (ascii "text/html")).run w = .ok ()
      { w with response := { w.response with contentType := some (ascii "text/html") } } := rfl
  rw [spinEnd, bind_ok (deref_run h), bind_ok htype', spinPage, bind_ok htype]
  cases hpage : mrhcHtml r object.session.client with
  | error reason =>
    rw [bind_error (lift_error rfl), bind_error (answer_lift_error rfl), h.response]
    exact .stopped rfl h.events
  | ok page =>
    rw [bind_ok (lift_ok rfl), bind_ok (answer_lift_ok rfl)]
    exact h.answered rfl (by rw [h.response])

theorem mrhcSpin_follows (r : Request) (h : p.Shows client object w) :
    Follows client p ((Mrhc.mrhcSpin object r).run w) ((mrhcSpin (some client) r).run p) := by
  have hspin' : mrhcSpin (some client) r =
      require (callClient .initializeClient initializeClient client)
        (require (callClient .authenticate authenticate client)
          (require (callClient .configure configure client) (spinEnd client r))) := rfl
  rw [mrhcSpin_eq, hspin']
  apply checkedCall_follows _ h
  intro p₁ object₁ w₁ h₁
  apply checkedCall_follows _ h₁
  intro p₂ object₂ w₂ h₂
  apply checkedCall_follows _ h₂
  intro p₃ object₃ w₃ h₃
  exact spinEnd_follows r h₃

/-- The end of `mrhc_throw`. -/
private def throwEnd (client : Pointer) : ProcessM Bool := do
  let object ← deref client
  answer (setContentType (ascii "image/jpeg"))
  answer (apWrite object.session.client.jpegBuf)
  return true

private theorem throwEnd_follows (h : p.Shows client object w) :
    Follows client p ((throwImage object).run w) ((throwEnd client).run p) := by
  have htype : (answer (setContentType (ascii "image/jpeg"))).run p = .ok ()
      { p with response := { p.response with contentType := some (ascii "image/jpeg") } } := rfl
  rw [throwEnd, bind_ok (deref_run h), bind_ok htype]
  exact h.answered rfl (by rw [h.response])

private theorem throwCapture_follows (lib : Platform) (operation : VncOperation)
    (h : p.Shows client object w) :
    Follows client p ((Mrhc.throwCapture lib operation object).run w)
      ((throwCapture lib operation client).run p) := by
  have hthrow : Mrhc.throwCapture lib operation object =
      checkedCall (.capture operation) (capture lib operation) throwImage object := rfl
  have hthrow' : throwCapture lib operation client =
      require (callClient (.capture operation) (capture lib operation) client)
        (throwEnd client) := rfl
  rw [hthrow, hthrow']
  apply checkedCall_follows _ h
  intro _ _ _ h'
  exact throwEnd_follows h'

theorem mrhcThrow_follows (lib : Platform) (r : Request) (h : p.Shows client object w) :
    Follows client p ((Mrhc.mrhcThrow lib object r).run w)
      ((mrhcThrow lib (some client) r).run p) := by
  by_cases hquery : r.query = none
  · rw [Mrhc.mrhcThrow, mrhcThrow, if_pos hquery]
    simp only [if_pos hquery]
    exact throwCapture_follows lib VncOperation.zero h
  · rw [Mrhc.mrhcThrow, mrhcThrow, if_neg hquery]
    simp only [if_neg hquery]
    cases hoperation : mrhcQuery r with
    | error reason =>
      rw [bind_error (lift_error rfl), bind_error (answer_lift_error rfl)]
      exact .stopped h.response h.events
    | ok operation =>
      rw [bind_ok (lift_ok rfl), bind_ok (answer_lift_ok rfl)]
      have hcapture : ∀ p object w, p.Shows client object w →
          Follows client p ((Mrhc.throwCapture lib operation object).run w)
            ((throwCapture lib operation client).run p) :=
        fun _ _ _ h' => throwCapture_follows lib operation h'
      exact checkedCall_follows hcapture h

end

end Process

end Mrhc
