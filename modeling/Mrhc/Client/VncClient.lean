import Mrhc.Framework.Socket
import Mrhc.Client.Platform
import Mrhc.Client.Protocol

/-!
# The client object

The members of `vnc_client`, the ways in which a call can fail to return, and the primitive
actions that the member functions are written with.
-/

namespace Mrhc

/-- `vnc_operation_t` -/
structure VncOperation where
  x : UInt16
  y : UInt16
  button : UInt8
  key : Bytes
deriving DecidableEq, Repr

/-- What happens to stand in memory where the code reads beyond what it has written: behind the
terminating zero of `password.c_str()`, behind the `protocol_version` that is logged as a C string,
and at the indices of `image_buf` behind its elements, where a read may fault. -/
structure Residue where
  passwordTail : Bytes
  versionTail : Bytes
  imageTail : Nat → Option UInt32

def Residue.blank : Residue := ⟨[], [], fun _ => none⟩

/-- The data members of `vnc_client` but the descriptor number, and the memory that is read behind
its password and its version. -/
structure VncClient where
  host : Bytes
  port : Int
  password : Bytes
  passwordTail : Bytes
  versionTail : Bytes
  version : Bytes
  securityTypes : List UInt8
  challenge : Bytes
  width : UInt16
  height : UInt16
  pixelFormat : PixelFormat
  name : Bytes
  image : Mat
  imageBuf : List UInt32
  jpegBuf : Bytes

/-- The constructor. -/
def VncClient.new (host : Bytes) (port : Int) (password : Bytes) (residue : Residue) :
    VncClient where
  host := host
  port := port
  password := password
  passwordTail := residue.passwordTail
  versionTail := residue.versionTail
  version := []
  securityTypes := []
  challenge := List.replicate rfbVncAuthChallengeLength 0
  width := 0
  height := 0
  pixelFormat := PixelFormat.zero
  name := []
  image := ⟨0, 0, fun _ _ => ⟨0, 0, 0⟩⟩
  imageBuf := []
  jpegBuf := []

/-- The client with the pixel format that `configure` sets. -/
def VncClient.configured (c : VncClient) : VncClient := { c with pixelFormat := configuredFormat }

theorem VncClient.bits_of_configured {c : VncClient} (h : c.pixelFormat = configuredFormat) :
    c.pixelFormat.bitsPerPixel = 0x20 := by
  rw [h]
  rfl

/-- A client and its socket. -/
structure Session where
  client : VncClient
  conn : Socket UInt8

/-- The session with another state of its socket. -/
def Session.on (s : Session) (conn : Socket UInt8) : Session := { s with conn := conn }

/-- The session with other members of its client. -/
def Session.update (s : Session) (f : VncClient → VncClient) : Session :=
  { s with client := f s.client }

/-- The ways in which a call has no result here: a loop that never ends, an exception that nothing
catches, and undefined behaviour. What a process does after undefined behaviour is left open. -/
inductive Stop where
  | endless
  | outOfBounds
  | signedOverflow
  | badShift
  | badFormat
  | invalidArgument
  | outOfRange
  | logicError
deriving DecidableEq, Repr

abbrev ClientM := EStateM Stop Session

/-- `recv` on the client's socket, `none` for a negative result. -/
def recv (n : Nat) : ClientM (Option Bytes) := fun s =>
  .ok (s.conn.recv n).1 (s.on (s.conn.recv n).2)

/-- `send` on the client's socket, `false` for a negative result. -/
def send (message : Bytes) : ClientM Bool := fun s =>
  .ok (s.conn.send message).1 (s.on (s.conn.send message).2)

def getClient : ClientM VncClient := fun s => .ok s.client s

def modifyClient (f : VncClient → VncClient) : ClientM Unit := fun s =>
  .ok () (s.update f)

def stop {α : Type} (reason : Stop) : ClientM α := fun s => .error reason s

/-- What may stand in a directive before its conversion and reads no argument: flags, the digits and
the point of a width and a precision, and length modifiers. -/
def isFormatModifier (b : UInt8) : Bool :=
  (ascii "-+ #'I.hlLqjzZt").contains b || (0x30 ≤ b && b ≤ 0x39)

/-- The rest of a format needs no argument, when `directive` has been read after a percent sign or
is `none` outside of a directive: only `%%` and `%m` are there, or the format ends in a directive,
for which `vasprintf` fails. The behaviour of any other directive is undefined when no argument
follows. -/
def formatCompleteFrom : Option Bytes → Bytes → Bool
  | _, [] => true
  | none, b :: bs =>
    if b = 0x25 then formatCompleteFrom (some []) bs else formatCompleteFrom none bs
  | some directive, b :: bs =>
    if b = 0x25 ∧ directive = [] then formatCompleteFrom none bs
    else if b = 0x6d then formatCompleteFrom none bs
    else if isFormatModifier b then formatCompleteFrom (some (directive ++ [b])) bs
    else false

def formatComplete (format : Bytes) : Bool := formatCompleteFrom none format

theorem formatComplete_append {text : Bytes} (h : 0x25 ∉ text) (format : Bytes) :
    formatComplete (text ++ format) = formatComplete format := by
  induction text with
  | nil => rfl
  | cons b text ih =>
    rw [List.mem_cons, not_or] at h
    rw [List.cons_append, formatComplete, formatCompleteFrom, if_neg (Ne.symm h.1)]
    exact ih h.2

/-- `LOGGER_DEBUG(buf)`: the variadic overload of `logger::logn` with a buffer as its only
argument, which is the format. Log calls with a format of their own are left out. -/
def loggerDebug (buf : Bytes) : ClientM Unit :=
  if formatComplete (cString buf) then pure () else stop .badFormat

@[simp] theorem Session.on_conn (s : Session) (c : Socket UInt8) : (s.on c).conn = c := rfl

@[simp] theorem Session.on_client (s : Session) (c : Socket UInt8) : (s.on c).client = s.client :=
  rfl

@[simp] theorem Session.on_on (s : Session) (c d : Socket UInt8) : (s.on c).on d = s.on d := rfl

@[simp] theorem Session.update_conn (s : Session) (f : VncClient → VncClient) :
    (s.update f).conn = s.conn := rfl

@[simp] theorem Session.update_client (s : Session) (f : VncClient → VncClient) :
    (s.update f).client = f s.client := rfl

@[simp] theorem recv_run (n : Nat) (s : Session) :
    (recv n).run s = .ok (s.conn.recv n).1 (s.on (s.conn.recv n).2) := rfl

@[simp] theorem send_run (message : Bytes) (s : Session) :
    (send message).run s = .ok (s.conn.send message).1 (s.on (s.conn.send message).2) := rfl

@[simp] theorem getClient_run (s : Session) : getClient.run s = .ok s.client s := rfl

@[simp] theorem modifyClient_run (f : VncClient → VncClient) (s : Session) :
    (modifyClient f).run s = .ok () (s.update f) := rfl

@[simp] theorem stop_run {α : Type} (reason : Stop) (s : Session) :
    (stop reason : ClientM α).run s = .error reason s := rfl

/-- What a receive function does after its `recv`: it fails on a negative result and goes on with
the bytes received otherwise. -/
def Session.received (s : Session) (n : Nat)
    (f : Bytes → Session → EStateM.Result Stop Session Bool) :
    EStateM.Result Stop Session Bool :=
  match s.conn.recv n with
  | (none, c) => .ok false (s.on c)
  | (some buf, c) => f buf (s.on c)

theorem Session.received_none {s : Session} {n : Nat} {c : Socket UInt8}
    (h : s.conn.recv n = (none, c)) (f : Bytes → Session → EStateM.Result Stop Session Bool) :
    s.received n f = .ok false (s.on c) := by
  rw [Session.received, h]

theorem Session.received_some {s : Session} {n : Nat} {buf : Bytes} {c : Socket UInt8}
    (h : s.conn.recv n = (some buf, c)) (f : Bytes → Session → EStateM.Result Stop Session Bool) :
    s.received n f = f buf (s.on c) := by
  rw [Session.received, h]

theorem recv_match_run (n : Nat) (f : Bytes → ClientM Bool) (s : Session) :
    (do match ← recv n with
        | none => return false
        | some buf => f buf : ClientM Bool).run s = s.received n fun buf t => (f buf).run t := by
  rw [EStateM.run_bind, recv_run, Session.received]
  rcases s.conn.recv n with ⟨_ | buf, c⟩ <;> rfl

theorem loggerDebug_run (buf : Bytes) (s : Session) :
    (loggerDebug buf).run s =
      if formatComplete (cString buf) then .ok () s else .error .badFormat s := by
  unfold loggerDebug
  split <;> rfl

end Mrhc
