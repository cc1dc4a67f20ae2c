import Mrhc.Framework.Split
import Mrhc.Handler.Base64
import Mrhc.Handler.Decimal

/-!
# Credentials

What `ap_get_vnc_param_by_basic_auth_components` makes of the header field: it splits the decoded
text at every colon and takes the first three pieces as host, port and password.
-/

namespace Mrhc

/-- The header field that the function looks at. -/
def Request.authHeader (r : Request) : Option Bytes :=
  if r.proxyreq then r.proxyAuthorization else r.authorization

/-- What the Basic credentials of a request decode to, if it has any. -/
def Request.decoded (r : Request) (lib : Platform) : Option Bytes :=
  match r.authHeader with
  | none => none
  | some credentials =>
    let (word, credentials) := lib.apGetword (cString credentials) 0x20
    if lib.apCstrCasecmp word (ascii "Basic") ≠ 0 then none
    else
      let credentials := credentials.dropWhile fun b => b = 0x20 || b = 0x09
      some (cString (lib.apPbase64decode credentials))

/-- The function once it has decoded the credentials. -/
def decodedParam (decoded : Bytes) : Except Stop (AprStatus × Credentials) := do
  if !formatComplete decoded then throw .badFormat
  let vncParams := splitString decoded (ascii ":")
  let host ← copyParam (← paramAt vncParams 0)
  match stoi (← paramAt vncParams 1) with
  | .error .invalidArgument => return (.einval, ⟨host, 0, []⟩)
  | .error e => throw e
  | .ok port =>
    let password ← copyParam (← paramAt vncParams 2)
    return (.success, ⟨host, port, password⟩)

theorem apGetVncParamByBasicAuthComponents_eq (lib : Platform) (r : Request) :
    apGetVncParamByBasicAuthComponents lib r =
      match r.decoded lib with
      | none => .ok (.einval, ⟨[], 0, []⟩)
      | some decoded => decodedParam decoded := by
  rw [apGetVncParamByBasicAuthComponents, Request.decoded, Request.authHeader]
  generalize (if r.proxyreq = true then r.proxyAuthorization else r.authorization) = header
  cases header with
  | none => rfl
  | some credentials =>
    dsimp only
    by_cases hbasic :
        lib.apCstrCasecmp (lib.apGetword (cString credentials) 0x20).1 (ascii "Basic") = 0
    · rw [if_neg (not_not.mpr hbasic), if_neg (not_not.mpr hbasic)]
      rfl
    · rw [if_pos hbasic, if_pos hbasic]
      rfl

/-- Decoded credentials that the function gets through: they are complete as a format, the host
fits its buffer, and behind it there is something that is no number, or a port in the range of `int`
and a password that fits its buffer. -/
structure SafeCredentials (decoded : Bytes) : Prop where
  format : formatComplete decoded = true
  host : ∀ host, (splitString decoded (ascii ":"))[0]? = some host → host.length < bufSize
  port : ∃ port, (splitString decoded (ascii ":"))[1]? = some port ∧
    ((¬∃ t : IntText, cString port = t.text) ∨
      (∃ t : IntText, cString port = t.text ∧ InInt t.value) ∧
        ∃ password, (splitString decoded (ascii ":"))[2]? = some password ∧
          password.length < bufSize)

/-- The function has returned a status, and the buffers of its caller end with a zero. -/
def HandlesCredentials (result : Except Stop (AprStatus × Credentials)) : Prop :=
  ∃ status credentials, result = .ok (status, credentials) ∧
    credentials.host.length < bufSize ∧ credentials.password.length < bufSize

/-- What the function does with the pieces of the decoded text. -/
private def takePieces : List Bytes → Except Stop (AprStatus × Credentials)
  | host :: port :: rest =>
    if host.length < bufSize then
      match stoi port with
      | .error .invalidArgument => .ok (.einval, ⟨host, 0, []⟩)
      | .error e => .error e
      | .ok n =>
        match rest with
        | password :: _ =>
          if password.length < bufSize then .ok (.success, ⟨host, n, password⟩)
          else .error .outOfBounds
        | [] => .error .outOfBounds
    else .error .outOfBounds
  | _ => .error .outOfBounds

private theorem decodedParam_eq (decoded : Bytes) :
    decodedParam decoded =
      if formatComplete decoded then takePieces (splitString decoded (ascii ":"))
      else .error .badFormat := by
  rw [decodedParam]
  by_cases hformat : formatComplete decoded = true
  · simp only [hformat, Bool.not_true, Bool.false_eq_true, if_false, if_true]
    generalize splitString decoded (ascii ":") = pieces
    rcases pieces with _ | ⟨host, _ | ⟨port, rest⟩⟩
    · rfl
    · by_cases hhost : host.length < bufSize
      · simp [takePieces, paramAt, copyParam, hhost, bind, Except.bind]
      · simp [takePieces, paramAt, copyParam, hhost, bind, Except.bind]
    · by_cases hhost : host.length < bufSize
      · simp only [takePieces, paramAt, copyParam, hhost, bind, Except.bind, if_true,
          List.getElem?_cons_zero, List.getElem?_cons_succ]
        cases stoi port with
        | error e => cases e <;> rfl
        | ok n =>
          cases rest with
          | nil => rfl
          | cons password rest =>
            by_cases hpassword : password.length < bufSize
            · simp [hpassword, pure, Except.pure]
            · simp [hpassword]
      · simp [takePieces, paramAt, copyParam, hhost, bind, Except.bind]
  · simp only [hformat, Bool.not_false, if_true]
    rfl

private theorem bufSize_pos : 0 < bufSize := by decide

private theorem handles_ok {status : AprStatus} {c : Credentials} :
    HandlesCredentials (.ok (status, c)) ↔
      c.host.length < bufSize ∧ c.password.length < bufSize := by
  constructor
  · rintro ⟨status, credentials, heq, h⟩
    cases heq
    exact h
  · exact fun h => ⟨status, c, rfl, h⟩

private theorem not_handles_error (e : Stop) : ¬HandlesCredentials (.error e) := by
  rintro ⟨status, credentials, heq, -⟩
  cases heq

private theorem handles_takePieces (pieces : List Bytes) :
    HandlesCredentials (takePieces pieces) ↔
      (∀ host, pieces[0]? = some host → host.length < bufSize) ∧
        ∃ port, pieces[1]? = some port ∧ (stoi port = .error .invalidArgument ∨
          (∃ n, stoi port = .ok n) ∧
            ∃ password, pieces[2]? = some password ∧ password.length < bufSize) := by
  rcases pieces with _ | ⟨host, _ | ⟨port, rest⟩⟩
  · simp [takePieces, not_handles_error]
  · simp [takePieces, not_handles_error]
  · by_cases hhost : host.length < bufSize
    · cases hstoi : stoi port with
      | error e =>
        cases e <;> simp [takePieces, hhost, hstoi, handles_ok, not_handles_error, bufSize_pos]
      | ok n =>
        cases rest with
        | nil => simp [takePieces, hhost, hstoi, not_handles_error]
        | cons password rest =>
          by_cases hpassword : password.length < bufSize
          · simp [takePieces, hhost, hstoi, hpassword, handles_ok]
          · simp [takePieces, hhost, hstoi, hpassword, not_handles_error]
    · simp [takePieces, hhost, not_handles_error]

theorem handles_decodedParam (decoded : Bytes) :
    HandlesCredentials (decodedParam decoded) ↔ SafeCredentials decoded := by
  have hpieces := handles_takePieces (splitString decoded (ascii ":"))
  simp only [stoi_reads_iff, stoi_invalid_iff] at hpieces
  rw [decodedParam_eq]
  by_cases hformat : formatComplete decoded = true
  · rw [if_pos hformat, hpieces]
    exact ⟨fun h => ⟨hformat, h.1, h.2⟩, fun h => ⟨h.host, h.port⟩⟩
  · rw [if_neg hformat]
    exact ⟨fun h => absurd h (not_handles_error _), fun h => absurd h.format hformat⟩

/-- The function handles a header field exactly when what it decodes to is safe. -/
theorem handlesCredentials_iff (lib : Platform) (r : Request) :
    HandlesCredentials (apGetVncParamByBasicAuthComponents lib r) ↔
      ∀ decoded ∈ r.decoded lib, SafeCredentials decoded := by
  rw [apGetVncParamByBasicAuthComponents_eq]
  cases r.decoded lib with
  | none => simp [handles_ok, bufSize_pos]
  | some decoded => simpa using handles_decodedParam decoded

/-- Credentials without a colon have no second piece, and a port may be out of range. -/
theorem handlesCredentials_malformed :
    ¬HandlesCredentials (apGetVncParamByBasicAuthComponents Platform.plain
        (pageRequest (some (ascii "Basic YQ==")))) ∧
      ¬HandlesCredentials (apGetVncParamByBasicAuthComponents Platform.plain
        (pageRequest (some (ascii "Basic YTo5OTk5OTk5OTk5OmE=")))) := by
  have hcolon : apGetVncParamByBasicAuthComponents Platform.plain
      (pageRequest (some (ascii "Basic YQ=="))) = .error .outOfBounds := by
    decide +kernel
  have hrange : apGetVncParamByBasicAuthComponents Platform.plain
      (pageRequest (some (ascii "Basic YTo5OTk5OTk5OTk5OmE="))) = .error .outOfRange := by
    decide +kernel
  rw [hcolon, hrange]
  exact ⟨not_handles_error _, not_handles_error _⟩

/-! The text that a browser encodes when it asks for a user name and a password, and the user name
is the destination. -/

/-- The functions that take the header field apart do what is documented. -/
structure Platform.ReadsBasic (lib : Platform) : Prop where
  getword : ∀ line stop, lib.apGetword line stop = getword line stop
  casecmp : ∀ a b, a.map lowercase = b.map lowercase → lib.apCstrCasecmp a b = 0
  decode : ∀ message, lib.apPbase64decode (base64encode message) = message

theorem Platform.plain_readsBasic : Platform.plain.ReadsBasic where
  getword := fun _ _ => rfl
  casecmp := fun _ _ h => if_pos h
  decode := base64decode_encode

def Credentials.text (c : Credentials) : Bytes :=
  c.host ++ ascii ":" ++ decimalInt c.port ++ ascii ":" ++ c.password

/-- The header field with the credentials. -/
def Credentials.header (c : Credentials) : Bytes := ascii "Basic " ++ base64encode c.text

/-- Credentials that are a destination and a password. -/
structure Credentials.WellFormed (c : Credentials) : Prop where
  host_colon : 0x3a ∉ c.host
  host_zero : 0 ∉ c.host
  host_length : c.host.length < bufSize
  port_range : InInt c.port
  password_zero : 0 ∉ c.password
  password_length : c.password.length < bufSize

private theorem decimalInt_plain (n : Int) : ∀ b ∈ decimalInt n, b ≠ 0 ∧ b ≠ 0x3a := by
  have hdigit : ∀ b ∈ decimal n.natAbs, b ≠ 0 ∧ b ≠ 0x3a := by
    intro b hb
    have hb := isdigit_of_mem_decimal hb
    refine ⟨(digit_plain hb).1, ?_⟩
    rintro rfl
    exact absurd hb (by decide)
  unfold decimalInt
  split
  · intro b hb
    cases List.mem_append.mp hb with
    | inl hsign =>
      rw [List.mem_singleton.mp hsign]
      decide
    | inr hb => exact hdigit b hb
  · exact hdigit

private theorem dropWhile_plain {text : Bytes} (htext : ∀ b ∈ text, 0x20 < b) {p : UInt8 → Bool}
    (hp : ∀ b, 0x20 < b → ¬p b = true) : text.dropWhile p = text := by
  cases text with
  | nil => rfl
  | cons b text => exact List.dropWhile_cons_of_neg (hp b (htext b List.mem_cons_self))

private theorem getword_basic {text : Bytes} (htext : ∀ b ∈ text, 0x20 < b) :
    getword (ascii "Basic " ++ text) 0x20 = (ascii "Basic", text) := by
  have hspace : text.dropWhile (fun b => decide (b = 0x20)) = text := by
    apply dropWhile_plain htext
    intro b hb
    rw [decide_eq_true_eq]
    rintro rfl
    exact absurd hb (by decide)
  rw [Prod.ext_iff]
  exact ⟨rfl, hspace⟩

section

variable {c : Credentials} (hc : c.WellFormed)

include hc

private theorem text_zero : 0 ∉ c.text := by
  have hport : 0 ∉ decimalInt c.port := fun h => (decimalInt_plain c.port 0 h).1 rfl
  have hcolon : (0 : UInt8) ∉ ascii ":" := by decide
  simp only [Credentials.text, List.mem_append, not_or]
  exact ⟨⟨⟨⟨hc.host_zero, hcolon⟩, hport⟩, hcolon⟩, hc.password_zero⟩

private theorem decoded_header {lib : Platform} (hlib : lib.ReadsBasic) {r : Request}
    (hr : r.authHeader = some c.header) : r.decoded lib = some c.text := by
  have hplain := base64encode_plain c.text
  have hzero : cString c.header = c.header := by
    apply cString_eq_self
    rw [Credentials.header, List.mem_append, not_or]
    exact ⟨by decide, fun h => absurd (hplain 0 h) (by decide)⟩
  have hword : getword c.header 0x20 = (ascii "Basic", base64encode c.text) :=
    getword_basic hplain
  have hspace : (base64encode c.text).dropWhile (fun b => b = 0x20 || b = 0x09) =
      base64encode c.text := by
    apply dropWhile_plain hplain
    rintro b hb
    simp only [Bool.or_eq_true, decide_eq_true_eq]
    rintro (rfl | rfl)
    · exact absurd hb (by decide)
    · exact absurd hb (by decide)
  simp only [Request.decoded, hr, hzero, hlib.getword, hword]
  rw [if_neg (not_not.mpr (hlib.casecmp _ _ rfl)), hspace, hlib.decode,
    cString_eq_self (text_zero hc)]

private theorem splitString_text :
    splitString c.text (ascii ":") =
      c.host :: decimalInt c.port :: splitString c.password (ascii ":") := by
  have hcolon : ∀ b : UInt8, b ≠ 0x3a → decide (b ∈ ascii ":") = false := by
    intro b hb
    rw [decide_eq_false_iff_not]
    exact fun h => hb (List.mem_singleton.mp h)
  have hhost : ∀ b ∈ c.host, decide (b ∈ ascii ":") = false :=
    fun b hb => hcolon b fun h => hc.host_colon (h ▸ hb)
  have hport : ∀ b ∈ decimalInt c.port, decide (b ∈ ascii ":") = false :=
    fun b hb => hcolon b (decimalInt_plain c.port b hb).2
  have htext : c.text = c.host ++ 0x3a :: (decimalInt c.port ++ 0x3a :: c.password) := by
    simp only [Credentials.text, List.append_assoc]
    rfl
  rw [htext, splitString, List.splitOnP_append_cons_of_forall_mem hhost 0x3a rfl,
    List.splitOnP_append_cons_of_forall_mem hport 0x3a rfl, splitString]

private theorem decodedParam_text :
    decodedParam c.text =
      if formatComplete c.text then
        .ok (.success, { c with password := c.password.takeWhile (· ≠ 0x3a) })
      else .error .badFormat := by
  have hpassword := splitOnP_head (· ∈ ascii ":") c.password
  have hlength : (c.password.takeWhile (· ≠ 0x3a)).length < bufSize :=
    Nat.lt_of_le_of_lt (List.takeWhile_sublist _).length_le hc.password_length
  have hfirst : (fun b : UInt8 => !decide (b ∈ ascii ":")) = fun b => decide (b ≠ 0x3a) := by
    funext b
    rw [← decide_not]
    exact decide_eq_decide.mpr (not_congr List.mem_singleton)
  rw [hfirst] at hpassword
  rw [decodedParam_eq, splitString_text hc, splitString]
  cases hsplit : c.password.splitOnP (· ∈ ascii ":") with
  | nil => exact absurd hsplit (List.splitOnP_ne_nil _ _)
  | cons password rest =>
    rw [hsplit, List.head?_cons, Option.some.injEq] at hpassword
    rw [hpassword]
    simp only [takePieces, hc.host_length, stoi_decimalInt hc.port_range, hlength, if_true]

/-- The password is taken up to its first colon. -/
theorem apGetVncParamByBasicAuthComponents_header {lib : Platform} (hlib : lib.ReadsBasic)
    {r : Request} (hr : r.authHeader = some c.header) :
    apGetVncParamByBasicAuthComponents lib r =
      if formatComplete c.text then
        .ok (.success, { c with password := c.password.takeWhile (· ≠ 0x3a) })
      else .error .badFormat := by
  rw [apGetVncParamByBasicAuthComponents_eq, decoded_header hc hlib hr]
  exact decodedParam_text hc

/-- A header field with credentials gives these credentials back exactly when the password has no
colon and the text is complete as a format. -/
theorem credentials_roundTrip_iff (lib : Platform) (hlib : lib.ReadsBasic) (r : Request)
    (hr : r.authHeader = some c.header) :
    apGetVncParamByBasicAuthComponents lib r = .ok (.success, c) ↔
      0x3a ∉ c.password ∧ formatComplete c.text = true := by
  rw [apGetVncParamByBasicAuthComponents_header hc hlib hr]
  by_cases hformat : formatComplete c.text = true
  · have hself : c.password.takeWhile (· ≠ 0x3a) = c.password ↔ 0x3a ∉ c.password := by
      rw [List.takeWhile_eq_self_iff]
      constructor
      · exact fun h hmem => of_decide_eq_true (h 0x3a hmem) rfl
      · exact fun h b hb => decide_eq_true fun heq => h (heq ▸ hb)
    have heq : ∀ password, { c with password := password } = c ↔ password = c.password := by
      intro password
      exact ⟨congrArg Credentials.password, fun h => h ▸ rfl⟩
    rw [if_pos hformat, Except.ok.injEq, Prod.mk.injEq, heq, hself]
    exact ⟨fun h => ⟨h.2, hformat⟩, fun h => ⟨rfl, h.1⟩⟩
  · rw [if_neg hformat]
    exact ⟨nofun, fun h => absurd h.2 hformat⟩

end

def destinationWith (password : Bytes) : Credentials := ⟨ascii "127.0.0.1", 5900, password⟩

theorem destinationWith_wellFormed {password : Bytes} (hzero : 0 ∉ password)
    (hlength : password.length < bufSize) : (destinationWith password).WellFormed where
  host_colon := (by decide : 0x3a ∉ ascii "127.0.0.1")
  host_zero := (by decide : 0 ∉ ascii "127.0.0.1")
  host_length := (by decide : (ascii "127.0.0.1").length < bufSize)
  port_range := (by decide : InInt 5900)
  password_zero := hzero
  password_length := hlength

private theorem destinationWith_text (password : Bytes) :
    (destinationWith password).text = ascii "127.0.0.1:5900:" ++ password := by
  have hport : decimalInt 5900 = ascii "5900" := by
    rw [decimalInt, if_neg (by decide), decimal_eq]
    rfl
  change ascii "127.0.0.1" ++ ascii ":" ++ decimalInt 5900 ++ ascii ":" ++ password = _
  rw [hport]
  rfl

theorem formatComplete_destinationWith {password : Bytes} (h : 0x25 ∉ password) :
    formatComplete (destinationWith password).text = true := by
  have hcomplete : ∀ text : Bytes, 0x25 ∉ text → formatComplete text = true := by
    intro text htext
    induction text with
    | nil => rfl
    | cons b text ih =>
      rw [List.mem_cons, not_or] at htext
      rw [formatComplete.eq_def]
      exact (if_neg (Ne.symm htext.1)).trans (ih htext.2)
  apply hcomplete
  rw [destinationWith_text, List.mem_append, not_or]
  exact ⟨by decide, h⟩

def requestWith (password : Bytes) : Request :=
  pageRequest (some (destinationWith password).header)

theorem requestWith_authHeader (password : Bytes) :
    (requestWith password).authHeader = some (destinationWith password).header := rfl

theorem credentials_roundTrip_plain :
    apGetVncParamByBasicAuthComponents Platform.plain (requestWith (ascii "vnc pass")) =
      .ok (.success, destinationWith (ascii "vnc pass")) := by
  have hgood : (destinationWith (ascii "vnc pass")).WellFormed :=
    destinationWith_wellFormed (by decide) (by decide)
  exact (credentials_roundTrip_iff hgood Platform.plain Platform.plain_readsBasic _
    (requestWith_authHeader _)).mpr ⟨by decide, formatComplete_destinationWith (by decide)⟩

/-- A password with a colon is cut off there. -/
theorem credentials_colonPassword :
    (destinationWith (ascii "vnc:pass")).WellFormed ∧
      apGetVncParamByBasicAuthComponents Platform.plain (requestWith (ascii "vnc:pass")) =
        .ok (.success, destinationWith (ascii "vnc")) ∧
      apGetVncParamByBasicAuthComponents Platform.plain (requestWith (ascii "vnc:pass")) ≠
        .ok (.success, destinationWith (ascii "vnc:pass")) := by
  have hgood : (destinationWith (ascii "vnc:pass")).WellFormed :=
    destinationWith_wellFormed (by decide) (by decide)
  have hrun := apGetVncParamByBasicAuthComponents_header hgood Platform.plain_readsBasic
    (requestWith_authHeader _)
  rw [if_pos (formatComplete_destinationWith (by decide))] at hrun
  refine ⟨hgood, hrun, ?_⟩
  rw [hrun]
  intro h
  have hpassword : ascii "vnc" = ascii "vnc:pass" :=
    congrArg Credentials.password (Prod.mk.inj (Except.ok.inj h)).2
  exact absurd hpassword (by decide)

end Mrhc
