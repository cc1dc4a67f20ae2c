import Mrhc.Handler.Pages

/-!
# The handler

`mrhc_handler` with the functions that it calls, over the process-wide `client_cache`. A
`vnc_client` object carries the calls that have returned on it, and a request the calls that it
has made; the code reads neither.
-/

namespace Mrhc

/-- The member functions that the handler calls. -/
inductive Call where
  | initializeClient
  | authenticate
  | configure
  | operate (operation : VncOperation)
  | capture (operation : VncOperation)
deriving DecidableEq, Repr

/-- A `vnc_client` object with the results of the calls that have returned on it. -/
structure Instance where
  session : Session
  returned : List (Call × Bool)

inductive Event where
  | created (credentials : Credentials)
  | called (call : Call)
deriving DecidableEq, Repr

inductive Status where
  | declined
  | ok
  | unauthorized
deriving DecidableEq, Repr

/-- What has been set in the `request_rec` and written to it. -/
structure Response where
  wwwAuthenticate : Option Bytes
  contentType : Option Bytes
  body : Bytes
deriving DecidableEq, Repr

def Response.empty : Response := ⟨none, none, []⟩

/-- The process while it handles a request. -/
structure World where
  clientCache : Option Instance
  response : Response
  events : List Event

abbrev HandlerM := EStateM Stop World

/-- A request, the peer that a connection would reach while it is handled, and the memory that lies
behind the members of a client meanwhile. -/
structure Visit where
  request : Request
  server : Socket UInt8
  residue : Residue

/-- The external functions while the request is handled. -/
def Visit.platform (lib : Platform) (v : Visit) : Platform :=
  { lib with imageTail := v.residue.imageTail }

theorem Visit.platform_fillsBox {lib : Platform} (hbox : lib.FillsBox) (v : Visit) :
    (v.platform lib).FillsBox :=
  hbox

def lift {α : Type} : Except Stop α → HandlerM α
  | .ok a => pure a
  | .error e => throw e

def getCache : HandlerM (Option Instance) := fun w => .ok w.clientCache w

def setCache (cache : Option Instance) : HandlerM Unit := fun w =>
  .ok () { w with clientCache := cache }

def log (event : Event) : HandlerM Unit := fun w =>
  .ok () { w with events := w.events ++ [event] }

def respond (f : Response → Response) : HandlerM Unit := fun w =>
  .ok () { w with response := f w.response }

/-- `apr_table_set(r->err_headers_out, "WWW-Authenticate", ..)` -/
def askForCredentials : HandlerM Unit :=
  respond fun response => { response with wwwAuthenticate := some (ascii "Basic real=\"\"") }

def setContentType (contentType : Bytes) : HandlerM Unit :=
  respond fun response => { response with contentType := some contentType }

/-- `ap_rputs` and `ap_rwrite` -/
def apWrite (text : Bytes) : HandlerM Unit :=
  respond fun response => { response with body := response.body ++ text }

/-- A fresh object before any call on it. -/
def Instance.new (credentials : Credentials) (v : Visit) : Instance where
  session :=
    { client := VncClient.new credentials.host credentials.port credentials.password v.residue
      conn := v.server }
  returned := []

def newVncClient (credentials : Credentials) (v : Visit) : HandlerM Instance := do
  log (.created credentials)
  return Instance.new credentials v

/-- The object after a call that has returned. -/
def Instance.after (client : Instance) (call : Call) (result : Bool) (s : Session) : Instance where
  session := s
  returned := client.returned ++ [(call, result)]

/-- A call of a member function. -/
def callClient (call : Call) (body : ClientM Bool) (client : Instance) :
    HandlerM (Bool × Instance) := do
  log (.called call)
  match body.run client.session with
  | .ok result s => return (result, client.after call result s)
  | .error reason _ => throw reason

def mrhcSpin (client : Instance) (r : Request) : HandlerM (Bool × Instance) := do
  let (initialized, client) ← callClient .initializeClient initializeClient client
  if !initialized then return (false, client)
  let (authenticated, client) ← callClient .authenticate authenticate client
  if !authenticated then return (false, client)
  let (configured, client) ← callClient .configure configure client
  if !configured then return (false, client)
  setContentType (ascii "text/html")
  apWrite (← lift (mrhcHtml r client.session.client))
  return (true, client)

/-- The pairs are popped from the end of the form. -/
def mrhcConfirm (r : Request) : Bool :=
  match r.formNames with
  | none => false
  | some names => names.reverse.all fun name => cString name ≠ ascii "logout"

/-- The part of `mrhc_throw` after the operation. -/
def throwCapture (lib : Platform) (operation : VncOperation) (client : Instance) :
    HandlerM (Bool × Instance) := do
  let (captured, client) ← callClient (.capture operation) (capture lib operation) client
  if !captured then return (false, client)
  setContentType (ascii "image/jpeg")
  apWrite client.session.client.jpegBuf
  return (true, client)

def mrhcThrow (lib : Platform) (client : Instance) (r : Request) :
    HandlerM (Bool × Instance) := do
  if r.query = none then throwCapture lib VncOperation.zero client
  else
    let operation ← lift (mrhcQuery r)
    let (operated, client) ← callClient (.operate operation) (operate lib operation) client
    if !operated then return (false, client)
    throwCapture lib operation client

def mrhcHandler (lib : Platform) (v : Visit) : HandlerM Status := do
  let r := v.request
  if cString r.handler ≠ ascii "mrhc" then return .declined
  if r.headerOnly then return .declined
  match ← getCache with
  | none =>
    let (ret, credentials) ← lift (apGetVncParamByBasicAuthComponents lib r)
    if ret = .einval then
      askForCredentials
      return .unauthorized
    if ret = .success then
      let client ← newVncClient credentials v
      let (spun, client) ← mrhcSpin client r
      if !spun then apWrite (← lift (mrhcError r (ascii "failed to mrhc, please try again.")))
      setCache (some client)
      return .ok
    apWrite (← lift (mrhcError r (ascii "fatal error")))
    return .ok
  | some client =>
    if !mrhcConfirm r then
      setCache none
      askForCredentials
      return .unauthorized
    let (thrown, client) ← mrhcThrow (v.platform lib) client r
    setCache (some client)
    if !thrown then
      askForCredentials
      return .unauthorized
    return .ok

end Mrhc
