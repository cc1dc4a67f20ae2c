import Mrhc.Framework.Heap
import Mrhc.Handler.Requests

/-!
# The handler and its objects

`mrhc_handler` with `client_cache` as the pointer that it is and the `vnc_client` objects on a
heap. Every access goes through a pointer and fails when no object is there.
-/

namespace Mrhc

abbrev Pointer := Nat

/-- What ends a request before it returns: a stop in the code, or an access through a pointer to an
object that is not there. -/
inductive Fault where
  | stopped (reason : Stop)
  | dangling (client : Pointer)
deriving DecidableEq, Repr

/-- What is done with the object at a pointer. -/
inductive ObjectEvent where
  | created (client : Pointer) (credentials : Credentials)
  | called (client : Pointer) (call : Call)
  | deleted (client : Pointer)
deriving DecidableEq, Repr

/-- The objects of the process and `client_cache`, `none` for a null pointer. -/
structure Memory where
  objects : Heap Instance
  clientCache : Option Pointer

/-- The process while it handles a request. -/
structure Process where
  memory : Memory
  response : Response
  events : List ObjectEvent

abbrev ProcessM := EStateM Fault Process

namespace Process

def getCache : ProcessM (Option Pointer) := fun p => .ok p.memory.clientCache p

def setCache (cache : Option Pointer) : ProcessM Unit := fun p =>
  .ok () { p with memory := { p.memory with clientCache := cache } }

def log (event : ObjectEvent) : ProcessM Unit := fun p =>
  .ok () { p with events := p.events ++ [event] }

/-- An action that reads and writes the response and nothing else. -/
def answer {α : Type} (x : HandlerM α) : ProcessM α := fun p =>
  match x.run ⟨none, p.response, []⟩ with
  | .ok a w => .ok a { p with response := w.response }
  | .error reason w => .error (.stopped reason) { p with response := w.response }

/-- The object at a pointer. -/
def deref (client : Pointer) : ProcessM Instance := fun p =>
  match p.memory.objects.get client with
  | some object => .ok object p
  | none => .error (.dangling client) p

def putObject (client : Pointer) (object : Instance) : ProcessM Unit := fun p =>
  .ok () { p with memory := { p.memory with objects := p.memory.objects.put client object } }

/-- `new vnc_client(..)` -/
def newVncClient (credentials : Credentials) (v : Visit) : ProcessM Pointer := do
  let client ← fun p =>
    .ok p.memory.objects.next
      { p with memory :=
        { p.memory with objects := p.memory.objects.create (Instance.new credentials v) } }
  log (.created client credentials)
  return client

/-- `delete client`: the object goes, and its connection with it. -/
def deleteVncClient (client : Pointer) : ProcessM Unit := do
  let _ ← deref client
  log (.deleted client)
  fun p =>
    .ok () { p with memory := { p.memory with objects := p.memory.objects.delete client } }

/-- A call of a member function. -/
def callClient (call : Call) (body : ClientM Bool) (client : Pointer) : ProcessM Bool := do
  let object ← deref client
  log (.called client call)
  match body.run object.session with
  | .ok result s =>
    putObject client (object.after call result s)
    return result
  | .error reason _ => throw (.stopped reason)

def mrhcSpin (client : Option Pointer) (r : Request) : ProcessM Bool := do
  match client with
  | none => return false
  | some client =>
    if !(← callClient .initializeClient initializeClient client) then return false
    if !(← callClient .authenticate authenticate client) then return false
    if !(← callClient .configure configure client) then return false
    let object ← deref client
    answer (setContentType (ascii "text/html"))
    answer (apWrite (← answer (lift (mrhcHtml r object.session.client))))
    return true

/-- The part of `mrhc_throw` after the operation. -/
def throwCapture (lib : Platform) (operation : VncOperation) (client : Pointer) :
    ProcessM Bool := do
  if !(← callClient (.capture operation) (capture lib operation) client) then return false
  let object ← deref client
  answer (setContentType (ascii "image/jpeg"))
  answer (apWrite object.session.client.jpegBuf)
  return true

def mrhcThrow (lib : Platform) (client : Option Pointer) (r : Request) : ProcessM Bool := do
  match client with
  | none => return false
  | some client =>
    if r.query = none then throwCapture lib VncOperation.zero client
    else
      let operation ← answer (lift (mrhcQuery r))
      if !(← callClient (.operate operation) (operate lib operation) client) then return false
      throwCapture lib operation client

def mrhcHandler (lib : Platform) (v : Visit) : ProcessM Status := do
  let r := v.request
  if cString r.handler ≠ ascii "mrhc" then return .declined
  if r.headerOnly then return .declined
  if (← getCache) = none then
    let (ret, credentials) ← answer (lift (apGetVncParamByBasicAuthComponents lib r))
    if ret = .einval then
      answer askForCredentials
      return .unauthorized
    if ret = .success then
      let client ← newVncClient credentials v
      if !(← mrhcSpin (some client) r) then
        answer (apWrite
          (← answer (lift (mrhcError r (ascii "failed to mrhc, please try again.")))))
      setCache (some client)
      return .ok
    answer (apWrite (← answer (lift (mrhcError r (ascii "fatal error")))))
    return .ok
  if !mrhcConfirm r then
    match ← getCache with
    | none => pure ()
    | some client =>
      deleteVncClient client
      setCache none
    answer askForCredentials
    return .unauthorized
  if !(← mrhcThrow (v.platform lib) (← getCache) r) then
    answer askForCredentials
    return .unauthorized
  return .ok

end Process

/-- What is seen of one request, with all that it did on the objects. -/
structure ObjectAnswer where
  result : Except Fault Status
  response : Response
  events : List ObjectEvent

/-- One request in the process. -/
def handleObjects (lib : Platform) (m : Memory) (v : Visit) : ObjectAnswer × Option Memory :=
  match (Process.mrhcHandler lib v).run ⟨m, Response.empty, []⟩ with
  | .ok status p => (⟨.ok status, p.response, p.events⟩, some p.memory)
  | .error fault p => (⟨.error fault, p.response, p.events⟩, none)

/-- The process at its start. -/
def Memory.start : Memory := ⟨Heap.empty, none⟩

/-- One request in a run of the process with its objects. -/
abbrev ServedObjects := Entry Memory Visit ObjectAnswer

/-- The requests that the process answers, one after another, from its start. -/
def serveObjects (lib : Platform) (visits : List Visit) : List ServedObjects :=
  runFrom (handleObjects lib) Memory.start visits

end Mrhc
