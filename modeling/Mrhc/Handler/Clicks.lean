import Mrhc.Client.Outgoing
import Mrhc.Framework.Split
import Mrhc.Handler.Decimal
import Mrhc.Handler.Pages
import Mrhc.Handler.Query

/-!
# Clicks

The page of a session has a script that requests the image anew when it is clicked, at an address
that ends in the position of the click. What reaches the host then depends on the path of the page.
-/

namespace Mrhc

/-- A part of the expression by which the script builds an address. -/
inductive ScriptTerm where
  | text (s : Bytes)
  | offsetX
  | offsetY

def ScriptTerm.source : ScriptTerm → Bytes
  | .text s => ascii "'" ++ s ++ ascii "'"
  | .offsetX => ascii "e.offsetX"
  | .offsetY => ascii "e.offsetY"

/-- The value when a position is clicked. -/
def ScriptTerm.value (x y : UInt16) : ScriptTerm → Bytes
  | .text s => s
  | .offsetX => decimal x.toNat
  | .offsetY => decimal y.toNat

/-- The address that is requested after a click with this button. -/
def clickAddress (hostname path : Bytes) (button : UInt8) : List ScriptTerm :=
  [.text (ascii "http://" ++ hostname ++ path ++ ascii "?x="), .offsetX, .text (ascii "&y="),
    .offsetY, .text (ascii "&b=" ++ decimal button.toNat)]

/-- The script of a page requests this address. -/
def Requests (page : Bytes) (address : List ScriptTerm) : Prop :=
  ascii ".attr('src', " ++ (ascii " + ").intercalate (address.map ScriptTerm.source) ++ ascii ");"
    <:+: page

/-- The path and the parameters of a click. -/
def clickUri (path : Bytes) (x y : UInt16) (button : UInt8) : Bytes :=
  path ++ ascii "?x=" ++ decimal x.toNat ++ ascii "&y=" ++ decimal y.toNat ++ ascii "&b=" ++
    decimal button.toNat

/-- What httpd takes as the query: everything after the first question mark. -/
def uriQuery (uri : Bytes) : Option Bytes :=
  match uri.dropWhile (· ≠ 0x3f) with
  | [] => none
  | _ :: query => some query

/-- A click on the page reaches the host where it was made: the page requests an address, and
when that is handled one press and one release are written. -/
structure ClickArrives (lib : Platform) (path page : Bytes) (s : Session) (x y : UInt16)
    (button : UInt8) : Prop where
  requests : ∃ hostname, Requests page (clickAddress hostname path button) ∧
    (clickAddress hostname path button).flatMap (ScriptTerm.value x y) =
      ascii "http://" ++ hostname ++ clickUri path x y button
  arrives : ∀ r : Request, r.query = uriQuery (clickUri path x y button) →
    ∃ operation t, mrhcQuery r = .ok operation ∧ (operate lib operation).run s = .ok true t ∧
      t.conn.written = s.conn.written ++
        [pointerEvent (UInt8.ofNat (2 ^ button.toNat)) x y, pointerEvent 0 x y]

/-- The parameters of a path's own query. The script continues the last one. -/
def ownParams (query : Bytes) : List Bytes := splitString (query ++ ascii "?x") (ascii "&")

/-- A path keeps a click: it is not at the origin, and when the path has a query of its own, each
of its parameters can be read, none is a key, and the last `x` is that of the click. -/
structure KeepsClick (path : Bytes) (x y : UInt16) : Prop where
  pointer : ¬(x = 0 ∧ y = 0)
  readable : ∀ query ∈ uriQuery path, ∀ param ∈ ownParams query,
    ReadableParam param ∧ paramName param ≠ ascii "k"
  column : ∀ query ∈ uriQuery path, UInt16.ofInt (lastNumber (ascii "x") (ownParams query)) = x

private theorem requests_line (hostname path close : Bytes) (button : UInt8)
    (hclose : close = ascii "?x=" ++ ascii "'" ++ ascii " + " ++ ascii "e.offsetX" ++ ascii " + " ++
      (ascii "'" ++ ascii "&y=" ++ ascii "'") ++ ascii " + " ++ ascii "e.offsetY" ++ ascii " + " ++
      (ascii "'" ++ (ascii "&b=" ++ decimal button.toNat) ++ ascii "'") ++ ascii ");" ++ ascii " ") :
    Requests [ascii "      $('#mrhc').attr('src', 'http://", hostname, path, close].flatten
      (clickAddress hostname path button) := by
  have hopen : ascii "      $('#mrhc').attr('src', 'http://" =
      ascii "      $('#mrhc')" ++ (ascii ".attr('src', " ++ (ascii "'" ++ ascii "http://")) := by
    decide
  refine ⟨ascii "      $('#mrhc')", ascii " ", ?_⟩
  rw [hopen, hclose]
  simp only [clickAddress, List.map_cons, List.map_nil, ScriptTerm.source, List.intercalate,
    List.intersperse, List.flatten_cons, List.flatten_nil, List.append_assoc, List.append_nil]

/-- The page of a session requests the address of a click with either button. -/
theorem mrhcHtml_requests {r : Request} {client : VncClient} {page : Bytes}
    (hpage : mrhcHtml r client = .ok page) {button : UInt8} (hbutton : button = 0 ∨ button = 2) :
    ∃ hostname, Requests page (clickAddress hostname (cString r.unparsedUri) button) := by
  cases hhost : r.hostname with
  | none =>
    simp only [mrhcHtml, Request.location, hhost] at hpage
    cases hpage
  | some hostname =>
    simp only [mrhcHtml, Request.location, hhost] at hpage
    cases hpage
    refine ⟨cString hostname, ?_⟩
    rcases hbutton with rfl | rfl
    · have hline := requests_line (cString hostname) (cString r.unparsedUri)
        (ascii "?x=' + e.offsetX + '&y=' + e.offsetY + '&b=0'); ") 0 (by decide)
      refine List.IsInfix.trans ?_ (flatten_slice _ 33 4)
      exact hline
    · have hline := requests_line (cString hostname) (cString r.unparsedUri)
        (ascii "?x=' + e.offsetX + '&y=' + e.offsetY + '&b=2'); ") 2 (by decide)
      refine List.IsInfix.trans ?_ (flatten_slice _ 40 4)
      exact hline

/-! Parameters. -/

private theorem digits_clean {n : Nat} {d : UInt8} (h : d ∈ decimal n) :
    d ∉ ascii "&" ∧ d ∉ ascii "=" := by
  have hdigit := isdigit_of_mem_decimal h
  constructor <;>
  · intro hmem
    obtain rfl := List.mem_singleton.mp hmem
    exact absurd hdigit (by decide)

private theorem pieces_append {text : Bytes} (param : Bytes) (h : ∀ d ∈ text, d ∉ ascii "=") :
    paramPieces (param ++ 0x3d :: text) = paramPieces param ++ [text] := by
  have htext : text.splitOnP (· ∈ ascii "=") = [text] :=
    List.splitOnP_eq_singleton fun d hd => decide_eq_false (h d hd)
  rw [paramPieces, splitString, List.splitOnP_append_cons _ _ (by decide), htext]
  rfl

private theorem param_numeral {name : Bytes} (hname : name ∈ numberNames) {n : Nat}
    (hn : n < 2147483648) :
    paramName (name ++ 0x3d :: decimal n) = name ∧
      paramNumber (name ++ 0x3d :: decimal n) = some (n : Int) := by
  have hpieces : paramPieces (name ++ 0x3d :: decimal n) = [name, decimal n] := by
    have hone : paramPieces name = [name] := by
      revert name
      decide
    rw [pieces_append name fun d hd => (digits_clean hd).2, hone]
    rfl
  constructor
  · rw [paramName, hpieces]
    rfl
  · rw [paramNumber, paramInt, paramText, hpieces]
    exact congrArg Except.toOption (stoi_decimal hn)

private theorem numeral_readable {name : Bytes} (hname : name ∈ numberNames) {n : Nat}
    (hn : n < 2147483648) : ReadableParam (name ++ 0x3d :: decimal n) := by
  obtain ⟨hparam, hnumber⟩ := param_numeral hname hn
  refine ⟨fun _ => by simp [hnumber], fun hkey => ?_⟩
  rw [hparam] at hkey
  rw [hkey] at hname
  exact absurd hname (by decide)

private theorem continued_param (own : Bytes) {text : Bytes} (h : ∀ d ∈ text, d ∉ ascii "=") :
    paramName (own ++ ascii "?x" ++ 0x3d :: text) = paramName (own ++ ascii "?x") ∧
      (paramName (own ++ ascii "?x") ∈ ascii "k" :: numberNames →
        paramText (own ++ ascii "?x" ++ 0x3d :: text) = paramText (own ++ ascii "?x")) := by
  have hpieces := pieces_append (own ++ ascii "?x") h
  constructor
  · have hne : paramPieces (own ++ ascii "?x") ≠ [] := List.splitOnP_ne_nil _ _
    rw [paramName, paramName, hpieces]
    cases hlist : paramPieces (own ++ ascii "?x") with
    | nil => exact absurd hlist hne
    | cons name rest => rfl
  · intro hname
    by_cases hown : 0x3d ∈ own
    · obtain ⟨s, t, rfl⟩ := List.append_of_mem hown
      have hsplit : paramPieces (s ++ 0x3d :: t ++ ascii "?x") =
          paramPieces s ++ paramPieces (t ++ ascii "?x") := by
        rw [List.append_assoc]
        exact List.splitOnP_append_cons s (t ++ ascii "?x") (by decide)
      have hs : paramPieces s ≠ [] := List.splitOnP_ne_nil _ _
      have ht : paramPieces (t ++ ascii "?x") ≠ [] := List.splitOnP_ne_nil _ _
      have hlength : 1 < (paramPieces (s ++ 0x3d :: t ++ ascii "?x")).length := by
        rw [hsplit, List.length_append]
        have hs' := List.length_pos_iff.mpr hs
        have ht' := List.length_pos_iff.mpr ht
        omega
      rw [paramText, paramText, hpieces, List.getElem?_append_left hlength]
    · -- the name has a question mark in it
      have hclean : ∀ d ∈ own ++ ascii "?x", decide (d ∈ ascii "=") = false := by
        intro d hd
        apply decide_eq_false
        intro heq
        obtain rfl := List.mem_singleton.mp heq
        cases List.mem_append.mp hd with
        | inl hmem => exact hown hmem
        | inr hmem => exact absurd hmem (by decide)
      have hone : paramPieces (own ++ ascii "?x") = [own ++ ascii "?x"] :=
        List.splitOnP_eq_singleton hclean
      rw [paramName, hone] at hname
      have hlength : ∀ name ∈ ascii "k" :: numberNames, name.length = 1 := by decide
      have hlong := hlength _ hname
      simp [ascii] at hlong

/-! The operation of a click. -/

private theorem continued_readable (own : Bytes) {text : Bytes} (h : ∀ d ∈ text, d ∉ ascii "=") :
    ReadableParam (own ++ ascii "?x" ++ 0x3d :: text) ↔ ReadableParam (own ++ ascii "?x") := by
  obtain ⟨hname, htext⟩ := continued_param own h
  rw [ReadableParam, ReadableParam, hname]
  refine and_congr (imp_congr_right fun hnumber => ?_) (imp_congr_right fun hkey => ?_)
  · rw [paramNumber, paramNumber, paramInt, paramInt, htext (List.mem_cons_of_mem _ hnumber)]
  · rw [htext (by rw [hkey]; exact List.mem_cons_self)]

private theorem continued_number (params : List Bytes) (own : Bytes) {text : Bytes}
    (h : ∀ d ∈ text, d ∉ ascii "=") {name : Bytes} (hname : name ∈ numberNames) :
    lastNumber name (params ++ [own ++ ascii "?x" ++ 0x3d :: text]) =
      lastNumber name (params ++ [own ++ ascii "?x"]) := by
  obtain ⟨hparam, htext⟩ := continued_param own h
  rw [lastNumber, lastNumber, lastWith_concat, lastWith_concat, hparam]
  by_cases hlast : paramName (own ++ ascii "?x") = name
  · rw [hlast] at htext
    simp only [hlast, decide_true, if_true, Option.bind_some, paramNumber, paramInt,
      htext (List.mem_cons_of_mem _ hname)]
  · simp only [hlast, decide_false, Bool.false_eq_true, if_false]

section

variable {lib : Platform} {s : Session} {x y : UInt16} {button : UInt8}

/-- What an operation is to write for a click. -/
def clickMessages (x y : UInt16) (button : UInt8) : List ClientMessage :=
  [.pressButton button x y, .releaseButtons x y]

private theorem clickMessages_bytes :
    (clickMessages x y button).map ClientMessage.bytes =
      [pointerEvent (UInt8.ofNat (2 ^ button.toNat)) x y, pointerEvent 0 x y] := by
  rw [pointerEvent_bytes, pointerEvent_bytes, ← Nat.one_shiftLeft]
  rfl

private theorem script_click_iff {operation : VncOperation} (hbutton : operation.button = button)
    (hshift : button.toNat < 32) (width height : UInt16) :
    ClientCall.script lib width height (.operate operation) = clickMessages x y button ↔
      operation.key = [] ∧ ¬(x = 0 ∧ y = 0) ∧ operation.x = x ∧ operation.y = y := by
  by_cases hkey : operation.key = []
  · by_cases hpointer : operation.x = 0 ∧ operation.y = 0
    · have hscript : ClientCall.script lib width height (.operate operation) = [] := by
        simp [ClientCall.script, hkey, hpointer]
      rw [hscript]
      refine iff_of_false (by simp [clickMessages]) ?_
      rintro ⟨-, hne, rfl, rfl⟩
      exact hne hpointer
    · have hscript : ClientCall.script lib width height (.operate operation) =
          clickMessages operation.x operation.y button := by
        simp [ClientCall.script, hkey, hpointer, clickMessages, hbutton, hshift]
      rw [hscript]
      constructor
      · intro h
        simp only [clickMessages, ClientMessage.releaseButtons, List.cons.injEq,
          ClientMessage.pointerEvent.injEq] at h
        obtain ⟨-, ⟨-, hx, hy⟩, -⟩ := h
        exact ⟨hkey, by rwa [← hx, ← hy], hx, hy⟩
      · rintro ⟨-, -, rfl, rfl⟩
        rfl
  · refine iff_of_false ?_ fun h => hkey h.1
    simp only [ClientCall.script, ne_eq, hkey, not_false_eq_true, if_true]
    split <;> simp [clickMessages, ClientMessage.pressKey, ClientMessage.pressButton]

private theorem operate_clicks_iff {operation : VncOperation} (hsends : s.conn.sends = [])
    (hbutton : operation.button = button) (hshift : button.toNat < 32) :
    (∃ t, (operate lib operation).run s = .ok true t ∧ t.conn.written = s.conn.written ++
        [pointerEvent (UInt8.ofNat (2 ^ button.toNat)) x y, pointerEvent 0 x y]) ↔
      operation.key = [] ∧ ¬(x = 0 ∧ y = 0) ∧ operation.x = x ∧ operation.y = y := by
  rw [← script_click_iff hbutton hshift s.client.width s.client.height, ← clickMessages_bytes]
  cases operate_script lib s operation hsends with
  | inl hrun =>
    constructor
    · rintro ⟨t, ht, hwritten⟩
      rw [hrun, EStateM.Result.ok.injEq] at ht
      obtain ⟨-, rfl⟩ := ht
      have hbytes := List.append_cancel_left hwritten
      exact List.map_injective_iff.mpr (fun _ _ => ClientMessage.codec.encode_injective) hbytes
    · intro hscript
      rw [hscript] at hrun
      exact ⟨_, hrun, rfl⟩
  | inr hstop =>
    rw [hbutton] at hstop
    exact absurd hstop.1 (Nat.not_le.mpr hshift)

/-- The parameters that end the query of every click. -/
def clickEnd (y : UInt16) (button : UInt8) : List Bytes :=
  [ascii "y" ++ 0x3d :: decimal y.toNat, ascii "b" ++ 0x3d :: decimal button.toNat]

private theorem lastWith_clickEnd {name : Bytes} (hy : name ≠ ascii "y") (hb : name ≠ ascii "b")
    (front : List Bytes) :
    lastWith (fun param => paramName param = name) (front ++ clickEnd y button) =
      lastWith (fun param => paramName param = name) front := by
  have hy' := (@param_numeral (ascii "y") (by decide) y.toNat (by have := y.toNat_lt; omega)).1
  have hb' := (@param_numeral (ascii "b") (by decide) button.toNat
    (by have := button.toNat_lt; omega)).1
  rw [lastWith_append, clickEnd]
  simp [lastWith, hy', hb', Ne.symm hy, Ne.symm hb]

private theorem clickEnd_readable {param : Bytes} (h : param ∈ clickEnd y button) :
    ReadableParam param := by
  simp only [clickEnd, List.mem_cons, List.not_mem_nil, or_false] at h
  rcases h with rfl | rfl
  · exact numeral_readable (by decide) (by have := y.toNat_lt; omega)
  · exact numeral_readable (by decide) (by have := button.toNat_lt; omega)

/-- The operation of these parameters and the end of a click. -/
private def clickOperation (front : List Bytes) (y : UInt16) (button : UInt8) : VncOperation :=
  (front ++ clickEnd y button).foldl VncOperation.withParam VncOperation.zero

private theorem clickOperation_x (front : List Bytes) :
    (clickOperation front y button).x = UInt16.ofInt (lastNumber (ascii "x") front) := by
  rw [clickOperation, foldl_withParam_x, lastNumber, lastWith_clickEnd (by decide) (by decide)]
  rfl

private theorem clickOperation_y (front : List Bytes) : (clickOperation front y button).y = y := by
  obtain ⟨hname, hnumber⟩ := @param_numeral (ascii "y") (by decide) y.toNat
    (by have := y.toNat_lt; omega)
  have hother := (@param_numeral (ascii "b") (by decide) button.toNat
    (by have := button.toNat_lt; omega)).1
  have hlast : lastNumber (ascii "y") (front ++ clickEnd y button) = y.toNat := by
    rw [lastNumber, lastWith_append, clickEnd]
    simp +decide [lastWith, hname, hother, hnumber]
  rw [clickOperation, foldl_withParam_y, hlast, uint16_ofInt_toNat]

private theorem clickOperation_button (front : List Bytes) :
    (clickOperation front y button).button = button := by
  obtain ⟨hname, hnumber⟩ := @param_numeral (ascii "b") (by decide) button.toNat
    (by have := button.toNat_lt; omega)
  have hlast : lastNumber (ascii "b") (front ++ clickEnd y button) = button.toNat := by
    rw [lastNumber, lastWith_append, clickEnd]
    simp [lastWith, hname, hnumber]
  rw [clickOperation, foldl_withParam_button, hlast, uint8_ofInt_toNat]

private theorem clickOperation_key {front : List Bytes}
    (hreadable : ∀ param ∈ front, ReadableParam param) :
    (clickOperation front y button).key = [] ↔ ∀ param ∈ front, paramName param ≠ ascii "k" := by
  rw [clickOperation, foldl_withParam_key, lastWith_clickEnd (by decide) (by decide),
    ← foldl_withParam_key]
  exact foldl_withParam_key_eq_nil_iff hreadable

private theorem arrives_iff_front {query : Bytes} {front : List Bytes}
    (hparams : queryParams query = front ++ clickEnd y button) (hsends : s.conn.sends = [])
    (hshift : button.toNat < 32) :
    (∀ r : Request, r.query = some query → ∃ operation t, mrhcQuery r = .ok operation ∧
        (operate lib operation).run s = .ok true t ∧ t.conn.written = s.conn.written ++
          [pointerEvent (UInt8.ofNat (2 ^ button.toNat)) x y, pointerEvent 0 x y]) ↔
      ¬(x = 0 ∧ y = 0) ∧ (∀ param ∈ front, ReadableParam param ∧ paramName param ≠ ascii "k") ∧
        UInt16.ofInt (lastNumber (ascii "x") front) = x := by
  have hbutton : (clickOperation front y button).button = button := clickOperation_button front
  have hclicks : (∃ t, (operate lib (clickOperation front y button)).run s = .ok true t ∧
      t.conn.written = s.conn.written ++
        [pointerEvent (UInt8.ofNat (2 ^ button.toNat)) x y, pointerEvent 0 x y]) ↔ _ :=
    operate_clicks_iff hsends hbutton hshift
  rw [clickOperation_x, clickOperation_y] at hclicks
  have hquery : (∀ param ∈ front, ReadableParam param) → ∀ r : Request, r.query = some query →
      mrhcQuery r = .ok (clickOperation front y button) := by
    intro hfront r hr
    rw [clickOperation, ← hparams]
    apply mrhcQuery_ok hr
    intro param hparam
    rw [hparams, List.mem_append] at hparam
    exact hparam.elim (hfront param) clickEnd_readable
  constructor
  · intro h
    obtain ⟨operation, t, hoperation, hrun, hwritten⟩ :=
      h (imageRequest query) rfl
    have hreadable : ∀ param ∈ front, ReadableParam param := by
      intro param hparam
      apply (mrhcQuery_params hoperation).1
      show param ∈ queryParams query
      rw [hparams]
      exact List.mem_append_left _ hparam
    rw [hquery hreadable _ rfl] at hoperation
    cases hoperation
    obtain ⟨hkey, hpointer, hx, -⟩ := hclicks.mp ⟨t, hrun, hwritten⟩
    have hnames := (clickOperation_key hreadable).mp hkey
    exact ⟨hpointer, fun param hparam => ⟨hreadable param hparam, hnames param hparam⟩, hx⟩
  · rintro ⟨hpointer, hfront, hx⟩ r hr
    have hreadable := fun param hparam => (hfront param hparam).1
    have hkey : (clickOperation front y button).key = [] :=
      (clickOperation_key hreadable).mpr fun param hparam => (hfront param hparam).2
    obtain ⟨t, hrun, hwritten⟩ := hclicks.mpr ⟨hkey, hpointer, hx, rfl⟩
    exact ⟨_, t, hquery hreadable r hr, hrun, hwritten⟩

/-- The end of a click's address, as text. -/
private def clickTail (y : UInt16) (button : UInt8) : Bytes :=
  0x26 :: ((ascii "y" ++ 0x3d :: decimal y.toNat) ++ 0x26 ::
    (ascii "b" ++ 0x3d :: decimal button.toNat))

private theorem clickUri_eq (path : Bytes) : clickUri path x y button =
    path ++ (ascii "?x" ++ 0x3d :: decimal x.toNat ++ clickTail y button) := by
  simp [clickUri, clickTail, ascii]

theorem uriQuery_append_none {path : Bytes} (h : uriQuery path = none) (text : Bytes) :
    uriQuery (path ++ 0x3f :: text) = some text := by
  rw [uriQuery] at h ⊢
  cases hpath : path.dropWhile (· ≠ 0x3f) with
  | nil =>
    rw [List.dropWhile_append, hpath]
    rfl
  | cons mark query =>
    rw [hpath] at h
    cases h

private theorem uriQuery_append_some {path query : Bytes} (h : uriQuery path = some query)
    (text : Bytes) : uriQuery (path ++ text) = some (query ++ text) := by
  rw [uriQuery] at h ⊢
  cases hpath : path.dropWhile (· ≠ 0x3f) with
  | nil =>
    rw [hpath] at h
    cases h
  | cons mark rest =>
    rw [hpath] at h
    cases h
    rw [List.dropWhile_append, hpath]
    rfl

private theorem mem_of_uriQuery {path query : Bytes} (h : uriQuery path = some query) {d : UInt8}
    (hd : d ∈ query) : d ∈ path := by
  rw [uriQuery] at h
  cases hpath : path.dropWhile (· ≠ 0x3f) with
  | nil =>
    rw [hpath] at h
    cases h
  | cons mark rest =>
    rw [hpath] at h
    cases h
    exact (List.dropWhile_sublist _).subset (hpath ▸ List.mem_cons_of_mem _ hd)

private theorem zero_notMem_numeral {name : Bytes} (hname : 0 ∉ name) (n : Nat) :
    0 ∉ name ++ 0x3d :: decimal n := by
  intro h
  simp only [List.mem_append, List.mem_cons] at h
  rcases h with h | h | h
  · exact hname h
  · exact absurd h (by decide)
  · exact absurd (isdigit_of_mem_decimal h) (by decide)

private theorem numeral_clean {name : Bytes} (hname : name.any (· ∈ ascii "&") = false) (n : Nat) :
    (name ++ 0x3d :: decimal n).any (· ∈ ascii "&") = false := by
  have hdigits : (decimal n).any (· ∈ ascii "&") = false := by
    rw [List.any_eq_false]
    exact fun d hd => by simpa using (digits_clean hd).1
  rw [List.any_append, List.any_cons, hname, hdigits]
  decide

private theorem queryParams_click {query : Bytes} (hzero : 0 ∉ query) :
    queryParams (query ++ clickTail y button) =
      splitString query (ascii "&") ++ clickEnd y button := by
  have htail : 0 ∉ clickTail y button := by
    have hy := zero_notMem_numeral (show 0 ∉ ascii "y" by decide) y.toNat
    have hb := zero_notMem_numeral (show 0 ∉ ascii "b" by decide) button.toNat
    intro h
    simp only [clickTail, List.mem_cons, List.mem_append] at h hy hb
    simp_all
  have hstring : cString (query ++ clickTail y button) = query ++ clickTail y button := by
    apply cString_eq_self
    rw [List.mem_append, not_or]
    exact ⟨hzero, htail⟩
  have hclean : ∀ (name : Bytes) n, name.any (· ∈ ascii "&") = false →
      (name ++ 0x3d :: decimal n).splitOnP (· ∈ ascii "&") = [name ++ 0x3d :: decimal n] :=
    fun name n hname => splitOnP_of_any (numeral_clean hname n)
  rw [queryParams, hstring, splitString, splitString, clickTail,
    List.splitOnP_append_cons _ _ (by decide), List.splitOnP_append_cons _ _ (by decide),
    hclean _ _ (by decide), hclean _ _ (by decide)]
  rfl

/-- The part of a click that its path decides. -/
private def Arrives (lib : Platform) (s : Session) (path : Bytes) (x y : UInt16) (button : UInt8) :
    Prop :=
  ∀ r : Request, r.query = uriQuery (clickUri path x y button) →
    ∃ operation t, mrhcQuery r = .ok operation ∧ (operate lib operation).run s = .ok true t ∧
      t.conn.written = s.conn.written ++
        [pointerEvent (UInt8.ofNat (2 ^ button.toNat)) x y, pointerEvent 0 x y]

private theorem arrives_plain {path : Bytes} (hplain : uriQuery path = none)
    (hsends : s.conn.sends = []) (hshift : button.toNat < 32) :
    Arrives lib s path x y button ↔ ¬(x = 0 ∧ y = 0) := by
  have hx : x.toNat < 2147483648 := by have := x.toNat_lt; omega
  obtain ⟨hname, hnumber⟩ := @param_numeral (ascii "x") (by decide) x.toNat hx
  have hquery : uriQuery (clickUri path x y button) =
      some (ascii "x" ++ 0x3d :: decimal x.toNat ++ clickTail y button) := by
    rw [clickUri_eq]
    exact uriQuery_append_none hplain _
  have hparams : queryParams (ascii "x" ++ 0x3d :: decimal x.toNat ++ clickTail y button) =
      [ascii "x" ++ 0x3d :: decimal x.toNat] ++ clickEnd y button := by
    rw [queryParams_click (zero_notMem_numeral (by decide) _), splitString,
      splitOnP_of_any (numeral_clean (by decide) _)]
  rw [Arrives, hquery, arrives_iff_front hparams hsends hshift]
  refine and_iff_left ⟨?_, ?_⟩
  · intro param hparam
    obtain rfl := List.mem_singleton.mp hparam
    exact ⟨numeral_readable (by decide) hx, by rw [hname]; decide⟩
  · simp [lastNumber, lastWith, hname, hnumber, uint16_ofInt_toNat]

private theorem arrives_own {path query : Bytes} (hpath : 0 ∉ path)
    (hown : uriQuery path = some query) (hsends : s.conn.sends = [])
    (hshift : button.toNat < 32) :
    Arrives lib s path x y button ↔ ¬(x = 0 ∧ y = 0) ∧
      (∀ param ∈ ownParams query, ReadableParam param ∧ paramName param ≠ ascii "k") ∧
      UInt16.ofInt (lastNumber (ascii "x") (ownParams query)) = x := by
  let text := ascii "?x" ++ 0x3d :: decimal x.toNat
  have hquery : uriQuery (clickUri path x y button) =
      some (query ++ text ++ clickTail y button) := by
    rw [clickUri_eq, uriQuery_append_some hown, ← List.append_assoc]
  have hzero : 0 ∉ query ++ text := by
    intro h
    exact (List.mem_append.mp h).elim (fun h => hpath (mem_of_uriQuery hown h))
      (zero_notMem_numeral (by decide) _)
  obtain ⟨pieces, last, hsplit⟩ := splitOnP_append_piece (· ∈ ascii "&") query
  have hown' : ownParams query = pieces ++ [last ++ ascii "?x"] := hsplit _ (by decide)
  have hparams : queryParams (query ++ text ++ clickTail y button) =
      pieces ++ [last ++ ascii "?x" ++ 0x3d :: decimal x.toNat] ++ clickEnd y button := by
    rw [queryParams_click hzero, splitString, hsplit _ (numeral_clean (by decide) _),
      List.append_assoc last]
  have hclean : ∀ d ∈ decimal x.toNat, d ∉ ascii "=" := fun d hd => (digits_clean hd).2
  rw [Arrives, hquery, arrives_iff_front hparams hsends hshift, hown',
    continued_number pieces last hclean (by decide)]
  refine and_congr_right fun _ => and_congr_left fun _ => ?_
  simp only [List.mem_append, List.mem_singleton, or_imp, forall_and, forall_eq]
  rw [continued_readable last hclean, (continued_param last hclean).1]

end

/-- On a connection that takes every message, the clicks that reach the host from the page of a
session are those that its path keeps. -/
theorem mrhcHtml_clickArrives_iff (lib : Platform) {r : Request} {s : Session} {page : Bytes}
    (hpage : mrhcHtml r s.client = .ok page) (hsends : s.conn.sends = []) (x y : UInt16)
    {button : UInt8} (hbutton : button = 0 ∨ button = 2) :
    ClickArrives lib (cString r.unparsedUri) page s x y button ↔
      KeepsClick (cString r.unparsedUri) x y := by
  have hshift : button.toNat < 32 := by rcases hbutton with rfl | rfl <;> decide
  have hpath : 0 ∉ cString r.unparsedUri := fun h =>
    absurd (List.mem_takeWhile_imp h) (by decide)
  obtain ⟨hostname, hrequests⟩ := mrhcHtml_requests hpage hbutton
  have haddress : ∃ hostname, Requests page
      (clickAddress hostname (cString r.unparsedUri) button) ∧
      (clickAddress hostname (cString r.unparsedUri) button).flatMap (ScriptTerm.value x y) =
        ascii "http://" ++ hostname ++ clickUri (cString r.unparsedUri) x y button :=
    ⟨hostname, hrequests, by simp [clickAddress, ScriptTerm.value, clickUri]⟩
  have harrives : ClickArrives lib (cString r.unparsedUri) page s x y button ↔
      Arrives lib s (cString r.unparsedUri) x y button :=
    ⟨ClickArrives.arrives, fun h => ⟨haddress, h⟩⟩
  rw [harrives]
  cases hquery : uriQuery (cString r.unparsedUri) with
  | none =>
    rw [arrives_plain hquery hsends hshift]
    constructor
    · exact fun h => ⟨h, by simp [hquery], by simp [hquery]⟩
    · exact KeepsClick.pointer
  | some query =>
    rw [arrives_own hpath hquery hsends hshift]
    constructor
    · rintro ⟨hpointer, hreadable, hcolumn⟩
      exact ⟨hpointer, by simpa [hquery] using hreadable, by simpa [hquery] using hcolumn⟩
    · intro h
      exact ⟨h.pointer, h.readable query (by simp [hquery]), h.column query (by simp [hquery])⟩

/-- A client with a screen of two pixels in a row. -/
def rowScreen : Session where
  client := { VncClient.new [] 5900 [] .blank with width := 2, height := 1 }
  conn := Socket.delivering []

theorem mrhcHtml_clickArrives_second :
    ∃ page, mrhcHtml (pageRequest none) rowScreen.client = .ok page ∧
      ClickArrives Platform.plain (cString (pageRequest none).unparsedUri) page rowScreen 1 0 2 :=
  ⟨_, rfl, (mrhcHtml_clickArrives_iff Platform.plain rfl rfl 1 0 (Or.inr rfl)).mpr
    ⟨by decide, by decide, by decide⟩⟩

def queryRequest : Request := { pageRequest none with unparsedUri := ascii "/mrhc?a=1" }

/-- The click on the first pixel is dropped, and so is the click on the second one from the page
with a query, whose column is not read. -/
theorem mrhcHtml_click_lost :
    (∃ page, mrhcHtml (pageRequest none) rowScreen.client = .ok page ∧
      ¬ClickArrives Platform.plain (cString (pageRequest none).unparsedUri) page rowScreen 0 0 0) ∧
    ∃ page, mrhcHtml queryRequest rowScreen.client = .ok page ∧
      ¬ClickArrives Platform.plain (cString queryRequest.unparsedUri) page rowScreen 1 0 0 := by
  refine ⟨⟨_, rfl, fun h => ?_⟩, ⟨_, rfl, fun h => ?_⟩⟩
  · have hkeeps := (mrhcHtml_clickArrives_iff Platform.plain rfl rfl 0 0 (Or.inl rfl)).mp h
    exact hkeeps.pointer (by decide)
  · have hkeeps := (mrhcHtml_clickArrives_iff Platform.plain rfl rfl 1 0 (Or.inl rfl)).mp h
    have hquery : uriQuery (cString queryRequest.unparsedUri) = some (ascii "a=1") := by decide
    exact absurd (hkeeps.column _ hquery) (by decide)

end Mrhc
