import Mrhc.Client.Members

/-!
# Requests

The parts of `request_rec` that the handler reads, and how it takes credentials and operations
out of them.
-/

namespace Mrhc

/-- The parts of a `request_rec`. `proxyreq` is `PROXYREQ_PROXY == r->proxyreq`, and `formNames`
the names of the pairs that `ap_parse_form_data` returns, `none` when it fails. -/
structure Request where
  handler : Bytes
  headerOnly : Bool
  proxyreq : Bool
  authorization : Option Bytes
  proxyAuthorization : Option Bytes
  hostname : Option Bytes
  unparsedUri : Bytes
  query : Option Bytes
  formNames : Option (List Bytes)
deriving DecidableEq, Repr

inductive AprStatus where
  | success
  | einval
deriving DecidableEq, Repr

def splitString (s delim : Bytes) : List Bytes := s.splitOnP (· ∈ delim)

/-- `v[i]` of a vector of strings. -/
def paramAt (v : List Bytes) (i : Nat) : Except Stop Bytes :=
  match v[i]? with
  | some s => .ok s
  | none => .error .outOfBounds

/-- A string copied into a zeroed buffer of `BUF_SIZE` that is read back as a C string. -/
def copyParam (s : Bytes) : Except Stop Bytes :=
  if s.length < bufSize then .ok s else .error .outOfBounds

def isspace (b : UInt8) : Bool := b = 0x20 || (0x09 ≤ b && b ≤ 0x0d)

def isdigit (b : UInt8) : Bool := 0x30 ≤ b && b ≤ 0x39

/-- The optional sign of a number and the text after it. -/
def signOf : Bytes → Bool × Bytes
  | 0x2d :: s => (true, s)
  | 0x2b :: s => (false, s)
  | s => (false, s)

/-- `std::stoi` in base ten. -/
def stoi (s : Bytes) : Except Stop Int :=
  let (negative, s) := signOf ((cString s).dropWhile isspace)
  let digits := s.takeWhile isdigit
  let magnitude : Int := digits.foldl (fun n d => 10 * n + (d.toNat - 0x30 : Nat)) 0
  let value := if negative then -magnitude else magnitude
  if digits = [] then .error .invalidArgument
  else if value < -2147483648 ∨ 2147483647 < value then .error .outOfRange
  else .ok value

def apGetVncParamByBasicAuthComponents (lib : Platform) (r : Request) :
    Except Stop (AprStatus × Credentials) := do
  match if r.proxyreq then r.proxyAuthorization else r.authorization with
  | none => return (.einval, ⟨[], 0, []⟩)
  | some credentials =>
    let (word, credentials) := lib.apGetword (cString credentials) 0x20
    if lib.apCstrCasecmp word (ascii "Basic") ≠ 0 then return (.einval, ⟨[], 0, []⟩)
    let credentials := credentials.dropWhile fun b => b = 0x20 || b = 0x09
    let decoded := cString (lib.apPbase64decode credentials)
    -- `LOGGER_DEBUG(decoded)`
    if !formatComplete decoded then throw .badFormat
    let vncParams := splitString decoded (ascii ":")
    let host ← copyParam (← paramAt vncParams 0)
    match stoi (← paramAt vncParams 1) with
    | .error .invalidArgument => return (.einval, ⟨host, 0, []⟩)
    | .error e => throw e
    | .ok port =>
      let password ← copyParam (← paramAt vncParams 2)
      return (.success, ⟨host, port, password⟩)

/-- The credentials that a request carries, when they are well formed. -/
def Request.credentials (r : Request) (lib : Platform) : Option Credentials :=
  match apGetVncParamByBasicAuthComponents lib r with
  | .ok (.success, credentials) => some credentials
  | _ => none

/-- `vnc_operation_t{}` -/
def VncOperation.zero : VncOperation := ⟨0, 0, 0, []⟩

/-- The body of the loop of `mrhc_query`. -/
def queryParam (op : VncOperation) (param : Bytes) : Except Stop VncOperation := do
  let params := splitString param (ascii "=")
  let name ← paramAt params 0
  let op ← if name = ascii "x" then do
      pure { op with x := UInt16.ofInt (← stoi (← paramAt params 1)) } else pure op
  let op ← if name = ascii "y" then do
      pure { op with y := UInt16.ofInt (← stoi (← paramAt params 1)) } else pure op
  let op ← if name = ascii "b" then do
      pure { op with button := UInt8.ofInt (← stoi (← paramAt params 1)) } else pure op
  if name = ascii "k" then do
    let key ← paramAt params 1
    pure { op with key := if key = [] then keySpace else key }
  else pure op

def mrhcQuery (r : Request) : Except Stop VncOperation :=
  match r.query with
  | none => .ok VncOperation.zero
  | some query => (splitString (cString query) (ascii "&")).foldlM queryParam VncOperation.zero

example : stoi (ascii " -17x") = .ok (-17) := by decide

/-- A request for the page. -/
def pageRequest (authorization : Option Bytes) : Request where
  handler := ascii "mrhc"
  headerOnly := false
  proxyreq := false
  authorization := authorization
  proxyAuthorization := none
  hostname := some (ascii "localhost")
  unparsedUri := ascii "/mrhc"
  query := none
  formNames := some []

end Mrhc
