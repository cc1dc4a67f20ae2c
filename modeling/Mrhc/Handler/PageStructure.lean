import Mathlib.Tactic.MkIffOfInductiveProp
import Mrhc.Framework.Markup
import Mrhc.Handler.Decimal
import Mrhc.Handler.Pages

/-!
# The structure of the pages

The pages are texts with the host name and the path of the request inserted, between single
quotes but as they are. In which requests this leaves the tags and the script of the pages alone.
-/

namespace Mrhc

/-- The page of a session up to the first path. -/
def htmlHead : Bytes := List.flatten [
  ascii "<html>                                                                  ",
  ascii "  <head>                                                                ",
  ascii "    <link rel='shortcut icon' ",
  ascii "href='https://user-images.githubusercontent.com/562105/",
  ascii "83327371-2c590300-a2b6-11ea-90cf-07a5a586f5ae.png'> ",
  ascii "  </head>                                                               ",
  ascii "  <body>                                                                ",
  ascii "    <form action='"]

def htmlForm : Bytes := List.flatten [
  ascii "' method='post'>                          ",
  ascii "      <input type='hidden' name='logout' value='1'>                     ",
  ascii "      <input type='submit' value='logout'>                              ",
  ascii "    </form>                                                             ",
  ascii "    <image id='mrhc' src='http://"]

/-- From the image to the first string of the script. -/
def htmlScript : Bytes := List.flatten [
  ascii "'> ",
  ascii "  </body>                                                               ",
  ascii "  <script src='https://ajax.googleapis.com/ajax/libs/jquery/3.4.1/jquery.min.js'>",
  ascii "</script> ",
  ascii "  <script type=text/javascript>                                         ",
  ascii "    let fetchLatestImage = () => \x7b                                      ",
  ascii "      $('#mrhc').attr('src', 'http://"]

/-- What follows the location in each of the first three strings of the script. -/
def htmlCalls : List Bytes := [
  List.flatten [
    ascii "?t=' + Date.now()); ",
    ascii "    \x7d;                                                                  ",
    ascii "    let timer = setInterval(fetchLatestImage, 5000);                    ",
    ascii "    $('#mrhc').on('click', (e) => \x7b                                     ",
    ascii "      $('#mrhc').attr('src', 'http://"],
  List.flatten [
    ascii "?x=' + e.offsetX + '&y=' + e.offsetY + '&b=0'); ",
    ascii "      clearInterval(timer);                                             ",
    ascii "      timer = setInterval(fetchLatestImage, 5000);                      ",
    ascii "    \x7d).on('contextmenu', (e) => \x7b                                       ",
    ascii "      $('#mrhc').attr('src', 'http://"],
  List.flatten [
    ascii "?x=' + e.offsetX + '&y=' + e.offsetY + '&b=2'); ",
    ascii "      clearInterval(timer);                                             ",
    ascii "      timer = setInterval(fetchLatestImage, 5000);                      ",
    ascii "      return false;                                                     ",
    ascii "    \x7d);                                                                 ",
    ascii "    $(window).on('keydown', (e) => \x7b                                    ",
    ascii "      $.ajax(                                                           ",
    ascii "        \x7b                                                               ",
    ascii "          type: 'GET',                                                  ",
    ascii "          url: 'http://"]]

/-- What follows the location in the last string, up to the end of the script. -/
def htmlKey : Bytes := List.flatten [
  ascii "?k=' + e.key,             ",
  ascii "        \x7d                                                               ",
  ascii "      );                                                                ",
  ascii "    \x7d);                                                                 "]

def htmlEnd : Bytes := List.flatten [
  ascii "  </script>                                                             ",
  ascii "</html>"]

def htmlParts (hostname path : Bytes) (client : VncClient) : List PagePart := [
  .fixed htmlHead, .inserted path,
  .fixed htmlForm, .inserted hostname, .inserted path,
  .fixed (ascii "' width='"), .fixed (decimal client.width.toNat),
  .fixed (ascii "' height='"), .fixed (decimal client.height.toNat),
  .fixed htmlScript] ++
  (inFront hostname path htmlCalls ++
    [.inserted hostname, .inserted path, .fixed htmlKey, .fixed htmlEnd])

/-- The page of a failure up to its path. -/
def errorHead : Bytes := List.flatten [
  ascii "<html>                                                                  ",
  ascii "  <body>                                                                ",
  ascii "    <form action='"]

/-- The page of a failure behind its path. -/
def errorRest (message : Bytes) : Bytes := List.flatten [
  ascii "' method='post'>                          ",
  ascii "      <input type='hidden' name='logout' value='1'>                     ",
  ascii "      <input type='submit' value='retry'>                               ",
  ascii "    </form>                                                             ",
  ascii "    <p>", message, ascii "</p>                                              ",
  ascii "  </body>                                                               ",
  ascii "</html>"]

def errorParts (path message : Bytes) : List PagePart :=
  [.fixed errorHead, .inserted path, .fixed (errorRest message)]

def Request.htmlParts (r : Request) (client : VncClient) : Except Stop (List PagePart) :=
  r.location.map fun (hostname, path) => Mrhc.htmlParts hostname path client

def Request.errorParts (r : Request) (message : Bytes) : Except Stop (List PagePart) :=
  r.location.map fun (_, path) => Mrhc.errorParts path message

/-- The pages that two requests get for the same client and with the same message differ only
inside what is inserted, and nothing that is inserted leaves its quotes. -/
structure PagesAlike (r r' : Request) (client : VncClient) (message : Bytes) : Prop where
  html : ∃ page page', r.htmlParts client = .ok page ∧ r'.htmlParts client = .ok page' ∧
    mrhcHtml r client = .ok (pageBytes page) ∧ mrhcHtml r' client = .ok (pageBytes page') ∧
    SameStructure page page'
  error : ∃ page page', r.errorParts message = .ok page ∧ r'.errorParts message = .ok page' ∧
    mrhcError r message = .ok (pageBytes page) ∧ mrhcError r' message = .ok (pageBytes page') ∧
    SameStructure page page'

/-- How far the script of the page is escaped at its end, `none` when a location ends it: the host
name and the path are read there four times. -/
def scriptMode (hostname path : Bytes) : Option ScriptMode :=
  ScriptMode.plain.afterTimes 4 (hostname ++ path)

/-- The location stays within every pair of quotes that it is inserted between. -/
structure Harmless (hostname path : Bytes) : Prop where
  hostname_quote : 0x27 ∉ hostname
  path_quote : 0x27 ∉ path
  script : scriptMode hostname path ≠ none

/-- httpd takes no line break into a host name or a path. -/
def WithoutLines (hostname path : Bytes) : Prop := 0x0a ∉ hostname ++ path ∧ 0x0d ∉ hostname ++ path

section

variable {hostname path : Bytes}

/-- The page is the concatenation of its parts. -/
theorem mrhcHtml_parts (r : Request) (client : VncClient) :
    mrhcHtml r client = (r.htmlParts client).map pageBytes := by
  rw [mrhcHtml, Request.htmlParts]
  cases r.location with
  | error e => rfl
  | ok location =>
    simp only [bind, Except.bind, pure, Except.pure, Except.map, pageBytes, htmlParts, inFront,
      htmlCalls, htmlHead, htmlForm, htmlScript, htmlKey, htmlEnd, decimal, List.map_cons,
      List.map_nil, List.flatMap_cons, List.flatMap_nil, List.cons_append, List.nil_append,
      PagePart.bytes, List.flatten_cons, List.flatten_nil, List.append_assoc, List.append_nil]

theorem mrhcError_parts (r : Request) (message : Bytes) :
    mrhcError r message = (r.errorParts message).map pageBytes := by
  rw [mrhcError, Request.errorParts]
  cases r.location with
  | error e => rfl
  | ok location =>
    simp only [bind, Except.bind, pure, Except.pure, Except.map, pageBytes, errorParts, errorHead,
      errorRest, List.map_cons, List.map_nil, PagePart.bytes, List.flatten_cons, List.flatten_nil,
      List.append_assoc, List.append_nil]

/-- Where the fixed texts leave off. -/
@[mk_iff]
structure TextsRun : Prop where
  head : Markup.data.run htmlHead = .singleQuoted (ascii "form")
  form : (Markup.singleQuoted (ascii "form")).run htmlForm = .singleQuoted (ascii "image")
  width : (Markup.singleQuoted (ascii "image")).run (ascii "' width='") =
    .singleQuoted (ascii "image")
  height : (Markup.singleQuoted (ascii "image")).run (ascii "' height='") =
    .singleQuoted (ascii "image")
  script : (Markup.singleQuoted (ascii "image")).run htmlScript = inString .plain
  error : Markup.data.run errorHead = .singleQuoted (ascii "form")

private theorem textsRun : TextsRun := by
  rw [textsRun_iff, htmlHead, htmlForm, htmlScript, errorHead]
  repeat rw [ascii_ofList]
  decide +kernel

/-- How the rest of the page is read when the script is escaped in this way. -/
def endRead (m : ScriptMode) : List (Markup × UInt8) := (Markup.script ⟨m, []⟩ .code).read htmlEnd

def opensNoDelimiter (text : Bytes) : Bool := text.all fun b => b ≠ 0x3c ∧ b ≠ 0x2d

/-- What is in the texts of the script. -/
@[mk_iff]
structure ScriptTexts : Prop where
  calls : ∀ text ∈ htmlCalls, text.head? = some 0x3f ∧ opensNoDelimiter text.tail ∧
    Literal.string.run text.tail = .string
  key : htmlKey.head? = some 0x3f ∧ opensNoDelimiter htmlKey.tail ∧
    Literal.string.run htmlKey.tail = .code
  escaped : endRead .escaped = endRead .plain
  doubleEscaped : endRead .doubleEscaped ≠ endRead .plain

private theorem scriptTexts : ScriptTexts := by
  simp only [scriptTexts_iff, htmlCalls, htmlKey, endRead, htmlEnd]
  repeat rw [ascii_ofList]
  decide +kernel

private theorem of_opensNoDelimiter {text : Bytes} (h : opensNoDelimiter text) :
    ∀ b ∈ text, b ≠ 0x3c ∧ b ≠ 0x2d := by
  simpa [opensNoDelimiter] using h

private theorem endRead_eq_iff (m m' : ScriptMode) :
    endRead m = endRead m' ↔ (m = .doubleEscaped ↔ m' = .doubleEscaped) := by
  have hescaped := scriptTexts.escaped
  have hdouble := scriptTexts.doubleEscaped
  cases m <;> cases m' <;> simp [hescaped, hdouble, Ne.symm hdouble]

private theorem neutral_question : Neutral 0x3f := ⟨by decide, by decide, by decide⟩

private theorem eq_cons_tail {text : Bytes} {b : UInt8} (h : text.head? = some b) :
    text = b :: text.tail := by
  cases text with
  | nil => cases h
  | cons c text =>
    cases h
    rfl

private theorem htmlCalls_eq : htmlCalls = (htmlCalls.map List.tail).map (0x3f :: ·) := by
  rw [List.map_map]
  conv_lhs => rw [← List.map_id htmlCalls]
  exact List.map_congr_left fun text htext => eq_cons_tail (scriptTexts.calls text htext).1

private theorem htmlCalls_between : ∀ text ∈ htmlCalls.map List.tail, BetweenStrings text := by
  intro tail htail
  obtain ⟨text, htext, rfl⟩ := List.mem_map.mp htail
  obtain ⟨-, hbytes, hstring⟩ := scriptTexts.calls text htext
  exact ⟨of_opensNoDelimiter hbytes, hstring⟩

private theorem stringBytes_location (hlines : WithoutLines hostname path)
    (hhost : 0x27 ∉ hostname) (hpath : 0x27 ∉ path) : StringBytes (hostname ++ path) := by
  intro b hb
  refine ⟨?_, ?_, ?_⟩
  · rintro rfl
    exact (List.mem_append.mp hb).elim hhost hpath
  · rintro rfl
    exact hlines.1 hb
  · rintro rfl
    exact hlines.2 hb

private theorem quote_notMem_decimal (n : Nat) : 0x27 ∉ decimal n := by
  intro h
  exact absurd (isdigit_of_mem_decimal h) (by decide)

private theorem run_size (client : VncClient) :
    (((((Markup.singleQuoted (ascii "image")).run (ascii "' width='")).run
      (decimal client.width.toNat)).run (ascii "' height='")).run
        (decimal client.height.toNat)).run htmlScript = inString .plain := by
  rw [textsRun.width, run_singleQuoted _ (quote_notMem_decimal _), textsRun.height,
    run_singleQuoted _ (quote_notMem_decimal _), textsRun.script]

/-- The strings of the script and the rest of the page. -/
def scriptPart (hostname path : Bytes) : List PagePart :=
  inFront hostname path htmlCalls ++
    [.inserted hostname, .inserted path, .fixed htmlKey, .fixed htmlEnd]

private theorem htmlParts_eq (client : VncClient) :
    htmlParts hostname path client =
      .fixed htmlHead :: .inserted path :: .fixed htmlForm :: .inserted hostname ::
        .inserted path :: .fixed (ascii "' width='") :: .fixed (decimal client.width.toNat) ::
        .fixed (ascii "' height='") :: .fixed (decimal client.height.toNat) ::
        .fixed htmlScript :: scriptPart hostname path := rfl

private theorem confined_htmlParts (client : VncClient) :
    Confined .data (htmlParts hostname path client) ↔
      0x27 ∉ hostname ∧ 0x27 ∉ path ∧ Confined (inString .plain) (scriptPart hostname path) := by
  rw [htmlParts_eq, confined_fixed, textsRun.head, confined_attribute, confined_fixed, textsRun.form,
    confined_attribute, confined_attribute, confined_fixed, confined_fixed, confined_fixed,
    confined_fixed, confined_fixed, run_size]
  tauto

private theorem outline_htmlParts_iff (client : VncClient) {hostname' path' : Bytes}
    (hhost : 0x27 ∉ hostname) (hpath : 0x27 ∉ path) (hhost' : 0x27 ∉ hostname')
    (hpath' : 0x27 ∉ path') :
    outline .data (htmlParts hostname path client) =
        outline .data (htmlParts hostname' path' client) ↔
      outline (inString .plain) (scriptPart hostname path) =
        outline (inString .plain) (scriptPart hostname' path') := by
  have hread : ∀ {h p : Bytes}, 0x27 ∉ h → 0x27 ∉ p → outline .data (htmlParts h p client) =
      Markup.data.read htmlHead ++ ((Markup.singleQuoted (ascii "form")).read htmlForm ++
        outline (.singleQuoted (ascii "image")) (.fixed (ascii "' width='") ::
          .fixed (decimal client.width.toNat) :: .fixed (ascii "' height='") ::
          .fixed (decimal client.height.toNat) :: .fixed htmlScript :: scriptPart h p)) := by
    intro h p hh hp
    rw [htmlParts_eq, outline_fixed, textsRun.head, outline_attribute _ hp, outline_fixed,
      textsRun.form, outline_attribute _ hh, outline_attribute _ hp]
  rw [hread hhost hpath, hread hhost' hpath']
  simp only [outline_fixed, run_size, List.append_cancel_left_eq]

private theorem scriptPart_eq (hostname path : Bytes) :
    scriptPart hostname path =
      inFront hostname path ((htmlCalls.map List.tail).map (0x3f :: ·)) ++
        [.inserted hostname, .inserted path, .fixed (0x3f :: htmlKey.tail), .fixed htmlEnd] := by
  rw [← htmlCalls_eq, ← eq_cons_tail scriptTexts.key.1]
  rfl

private theorem confined_scriptPart (h : StringBytes (hostname ++ path)) :
    Confined (inString .plain) (scriptPart hostname path) ↔
      ∃ m, scriptMode hostname path = some m := by
  have hlast : ∀ m : ScriptMode, Confined (inString m)
      [.inserted hostname, .inserted path, .fixed (0x3f :: htmlKey.tail), .fixed htmlEnd] ↔
        ∃ m', m.after (hostname ++ path) = some m' := by
    intro m
    rw [confined_inserted_append, confined_string h neutral_question]
    exact ⟨fun ⟨m', hm, _⟩ => ⟨m', hm⟩, fun ⟨m', hm⟩ => ⟨m', hm, trivial⟩⟩
  rw [scriptPart_eq, confined_inFront h neutral_question htmlCalls_between]
  simp only [hlast, scriptMode, afterTimes_succ'_eq_some (n := 3)]
  constructor
  · rintro ⟨m, hm, m', hm'⟩
    exact ⟨m', m, hm, hm'⟩
  · rintro ⟨m', m, hm, hm'⟩
    exact ⟨m, hm, m', hm'⟩

private theorem outline_scriptPart (h : StringBytes (hostname ++ path)) {m : ScriptMode}
    (hm : scriptMode hostname path = some m) :
    outline (inString .plain) (scriptPart hostname path) =
      ((htmlCalls.map List.tail).flatMap fun text =>
        (inString .plain, 0x3f) :: (inString .plain).read text) ++
          ((inString .plain, 0x3f) :: ((inString .plain).read htmlKey.tail ++ endRead m)) := by
  obtain ⟨u, hcalls, hlast⟩ := afterTimes_succ'_eq_some.mp hm
  obtain ⟨-, hidle, hcode⟩ := scriptTexts.key
  have hrun : (inString m).run htmlKey.tail = .script ⟨m, []⟩ .code := by
    rw [inString, run_script_idle m .string (of_opensNoDelimiter hidle), hcode]
  have hread : (inString m).read htmlKey.tail = (inString .plain).read htmlKey.tail :=
    read_script_idle m .string (of_opensNoDelimiter hidle)
  rw [scriptPart_eq, outline_inFront h neutral_question htmlCalls_between _ hcalls,
    outline_inserted_append, outline_string h neutral_question _ _ hlast, hrun, hread,
    outline_fixed, outline_nil, List.append_nil]
  rfl

/-- The values of a harmless location stay within their quotes, and no others do. -/
theorem confined_htmlParts_iff (client : VncClient) (hlines : WithoutLines hostname path) :
    Confined .data (htmlParts hostname path client) ↔ Harmless hostname path := by
  rw [confined_htmlParts]
  constructor
  · rintro ⟨hhost, hpath, hscript⟩
    obtain ⟨m, hm⟩ := (confined_scriptPart (stringBytes_location hlines hhost hpath)).mp hscript
    exact ⟨hhost, hpath, by rw [hm]; exact Option.some_ne_none m⟩
  · intro h
    obtain ⟨m, hm⟩ := Option.ne_none_iff_exists'.mp h.script
    exact ⟨h.hostname_quote, h.path_quote,
      (confined_scriptPart (stringBytes_location hlines h.hostname_quote h.path_quote)).mpr ⟨m, hm⟩⟩

variable {hostname' path' : Bytes}

private theorem outline_htmlParts_eq_iff (client : VncClient)
    (hlines : WithoutLines hostname path) (hlines' : WithoutLines hostname' path')
    (h : Harmless hostname path) (h' : Harmless hostname' path') :
    outline .data (htmlParts hostname path client) =
        outline .data (htmlParts hostname' path' client) ↔
      (scriptMode hostname path = some .doubleEscaped ↔
        scriptMode hostname' path' = some .doubleEscaped) := by
  obtain ⟨m, hm⟩ := Option.ne_none_iff_exists'.mp h.script
  obtain ⟨m', hm'⟩ := Option.ne_none_iff_exists'.mp h'.script
  have hbytes := stringBytes_location hlines h.hostname_quote h.path_quote
  have hbytes' := stringBytes_location hlines' h'.hostname_quote h'.path_quote
  rw [outline_htmlParts_iff client h.hostname_quote h.path_quote h'.hostname_quote h'.path_quote,
    outline_scriptPart hbytes hm, outline_scriptPart hbytes' hm', List.append_cancel_left_eq,
    List.cons_inj_right, List.append_cancel_left_eq, endRead_eq_iff, hm, hm', Option.some.injEq,
    Option.some.injEq]

theorem htmlParts_sameStructure_iff (client : VncClient)
    (hlines : WithoutLines hostname path) (hlines' : WithoutLines hostname' path') :
    SameStructure (htmlParts hostname path client) (htmlParts hostname' path' client) ↔
      Harmless hostname path ∧ Harmless hostname' path' ∧
        (scriptMode hostname path = some .doubleEscaped ↔
          scriptMode hostname' path' = some .doubleEscaped) := by
  constructor
  · intro h
    have hfirst := (confined_htmlParts_iff client hlines).mp h.confined
    have hsecond := (confined_htmlParts_iff client hlines').mp h.confined'
    exact ⟨hfirst, hsecond,
      (outline_htmlParts_eq_iff client hlines hlines' hfirst hsecond).mp h.outline_eq⟩
  · rintro ⟨hfirst, hsecond, hmode⟩
    exact ⟨(confined_htmlParts_iff client hlines).mpr hfirst,
      (confined_htmlParts_iff client hlines').mpr hsecond,
      (outline_htmlParts_eq_iff client hlines hlines' hfirst hsecond).mpr hmode⟩

/-- The page of a failure has the path in a single attribute. -/
theorem errorParts_sameStructure_iff (message : Bytes) :
    SameStructure (errorParts path message) (errorParts path' message) ↔
      0x27 ∉ path ∧ 0x27 ∉ path' := by
  have hconfined : ∀ p : Bytes, Confined .data (errorParts p message) ↔ 0x27 ∉ p := by
    intro p
    rw [errorParts, confined_fixed, textsRun.error, confined_attribute]
    exact ⟨fun h => h.1, fun h => ⟨h, trivial⟩⟩
  have houtline : ∀ {p : Bytes}, 0x27 ∉ p → outline .data (errorParts p message) =
      Markup.data.read errorHead ++
        outline (.singleQuoted (ascii "form")) [.fixed (errorRest message)] := by
    intro p hp
    rw [errorParts, outline_fixed, textsRun.error, outline_attribute _ hp]
  constructor
  · exact fun h => ⟨(hconfined path).mp h.confined, (hconfined path').mp h.confined'⟩
  · rintro ⟨hpath, hpath'⟩
    exact ⟨(hconfined path).mpr hpath, (hconfined path').mpr hpath',
      by rw [houtline hpath, houtline hpath']⟩

/-- Without a quote and without `<` a location is harmless. -/
theorem harmless_of_notMem (hhost : 0x27 ∉ hostname) (hpath : 0x27 ∉ path)
    (hopen : 0x3c ∉ hostname ++ path) :
    Harmless hostname path ∧ scriptMode hostname path = some .plain := by
  have hmode : scriptMode hostname path = some .plain := afterTimes_unopened hopen 4
  exact ⟨⟨hhost, hpath, by rw [hmode]; exact Option.some_ne_none _⟩, hmode⟩

variable {r r' : Request}

private theorem pagesAlike_iff_sameStructure (hr : r.location = .ok (hostname, path))
    (hr' : r'.location = .ok (hostname', path')) (client : VncClient) (message : Bytes) :
    PagesAlike r r' client message ↔
      SameStructure (htmlParts hostname path client) (htmlParts hostname' path' client) ∧
        SameStructure (errorParts path message) (errorParts path' message) := by
  have hhtml : ∀ {q : Request} {h p : Bytes}, q.location = .ok (h, p) →
      q.htmlParts client = .ok (htmlParts h p client) := by
    intro q h p hq
    rw [Request.htmlParts, hq]
    rfl
  have herror : ∀ {q : Request} {h p : Bytes}, q.location = .ok (h, p) →
      q.errorParts message = .ok (errorParts p message) := by
    intro q h p hq
    rw [Request.errorParts, hq]
    rfl
  constructor
  · intro h
    obtain ⟨page, page', hpage, hpage', -, -, hhtmls⟩ := h.html
    obtain ⟨failure, failure', hfailure, hfailure', -, -, herrors⟩ := h.error
    rw [hhtml hr, Except.ok.injEq] at hpage
    rw [hhtml hr', Except.ok.injEq] at hpage'
    rw [herror hr, Except.ok.injEq] at hfailure
    rw [herror hr', Except.ok.injEq] at hfailure'
    subst hpage hpage' hfailure hfailure'
    exact ⟨hhtmls, herrors⟩
  · rintro ⟨hhtmls, herrors⟩
    refine ⟨⟨_, _, hhtml hr, hhtml hr', ?_, ?_, hhtmls⟩, ⟨_, _, herror hr, herror hr', ?_, ?_, herrors⟩⟩
    · rw [mrhcHtml_parts, hhtml hr]
      rfl
    · rw [mrhcHtml_parts, hhtml hr']
      rfl
    · rw [mrhcError_parts, herror hr]
      rfl
    · rw [mrhcError_parts, herror hr']
      rfl

/-- **Two requests get pages of the same structure** exactly when their locations have no single
quote, end the script of the page in neither of them, and leave it doubly escaped in both or in
none. -/
theorem pagesAlike_iff (client : VncClient) (message : Bytes)
    (hr : r.location = .ok (hostname, path)) (hr' : r'.location = .ok (hostname', path'))
    (hlines : WithoutLines hostname path) (hlines' : WithoutLines hostname' path') :
    PagesAlike r r' client message ↔
      Harmless hostname path ∧ Harmless hostname' path' ∧
        (scriptMode hostname path = some .doubleEscaped ↔
          scriptMode hostname' path' = some .doubleEscaped) := by
  rw [pagesAlike_iff_sameStructure hr hr', htmlParts_sameStructure_iff client hlines hlines',
    errorParts_sameStructure_iff]
  constructor
  · exact fun h => h.1
  · exact fun h => ⟨h, h.1.path_quote, h.2.1.path_quote⟩

end

/-- A request for a page under the path of the handler. -/
def requestUnder (rest : Bytes) : Request :=
  { pageRequest none with unparsedUri := ascii "/mrhc/" ++ rest }

theorem requestUnder_location {rest : Bytes} (hzero : 0 ∉ rest) :
    (requestUnder rest).location = .ok (ascii "localhost", ascii "/mrhc/" ++ rest) := by
  have hpath : 0 ∉ ascii "/mrhc/" ++ rest := by
    rw [List.mem_append, not_or]
    exact ⟨by decide, hzero⟩
  show Except.ok (cString (ascii "localhost"), cString (ascii "/mrhc/" ++ rest)) = _
  rw [cString_eq_self (by decide), cString_eq_self hpath]

theorem pagesAlike_plain :
    PagesAlike (requestUnder []) (requestUnder (ascii "2")) (VncClient.new [] 0 [] .blank)
      (ascii "fatal error") := by
  obtain ⟨hfirst, hmode⟩ := @harmless_of_notMem (ascii "localhost") (ascii "/mrhc/" ++ [])
    (by decide) (by decide) (by decide)
  obtain ⟨hsecond, hmode'⟩ := @harmless_of_notMem (ascii "localhost")
    (ascii "/mrhc/" ++ ascii "2") (by decide) (by decide) (by decide)
  exact (pagesAlike_iff _ _ (requestUnder_location (by decide)) (requestUnder_location (by decide))
    ⟨by decide, by decide⟩ ⟨by decide, by decide⟩).mpr ⟨hfirst, hsecond, by rw [hmode, hmode']⟩

/-- A quote ends the attribute that the path is in, and `</script>` ends the script. -/
theorem requestUnder_notAlike :
    ¬PagesAlike (requestUnder []) (requestUnder (ascii "'")) (VncClient.new [] 0 [] .blank)
        (ascii "fatal error") ∧
      ¬PagesAlike (requestUnder []) (requestUnder (ascii "</script>")) (VncClient.new [] 0 [] .blank)
        (ascii "fatal error") := by
  constructor
  · intro h
    have hparts := (pagesAlike_iff_sameStructure (requestUnder_location (by decide))
      (requestUnder_location (by decide)) _ _).mp h
    exact ((errorParts_sameStructure_iff _).mp hparts.2).2 (by decide)
  · intro h
    have hparts := (pagesAlike_iff_sameStructure (requestUnder_location (by decide))
      (requestUnder_location (by decide)) _ _).mp h
    have hharmless := (htmlParts_sameStructure_iff _ ⟨by decide, by decide⟩
      ⟨by decide, by decide⟩).mp hparts.1
    exact hharmless.2.1.script (by decide +kernel)

end Mrhc
