import Mrhc.Framework.Bytes

/-!
# Markup with inserted values

A page is read byte by byte: tags with their attributes, and the content of scripts, where the
only literals are strings in single quotes. Comments and the other elements of raw text are not
read. Values are inserted into a page between quotes, and two pages have the same structure when
every value stays there and everything else is read in the same way.
-/

namespace Mrhc

def space (b : UInt8) : Bool := b = 0x20 || b = 0x09 || b = 0x0a || b = 0x0c || b = 0x0d

def letter (b : UInt8) : Bool := (0x41 ≤ b && b ≤ 0x5a) || (0x61 ≤ b && b ≤ 0x7a)

def lower (b : UInt8) : UInt8 := if 0x41 ≤ b ∧ b ≤ 0x5a then b + 0x20 else b

/-- The byte ends the name of a tag. -/
def endsName (b : UInt8) : Bool := space b || b = 0x2f || b = 0x3e

/-- Behind `<!--` the content of a script is escaped, and a further `<script` makes it doubly
escaped, so that the next end tag does not end it. -/
inductive ScriptMode where
  | plain
  | escaped
  | doubleEscaped
deriving DecidableEq, Repr

/-- The content of a script up to some byte, with the last bytes that can belong to a delimiter,
the newest first. -/
structure ScriptText where
  mode : ScriptMode
  recent : Bytes
deriving DecidableEq, Repr

/-- The bytes of `<!--`, `-->`, `<script` and `</script`. -/
def delimiterBytes : Bytes := ascii "<!-/script>"

/-- A delimiter begins with `<` or `-`, and a byte that is in none of them ends what may be one. -/
def remember (recent : Bytes) (b : UInt8) : Bytes :=
  if recent = [] then if b = 0x3c ∨ b = 0x2d then [b] else []
  else if lower b ∈ delimiterBytes then lower b :: recent
  else []

/-- The next byte of a script, `none` when it ends the name of the end tag. -/
def ScriptText.step (t : ScriptText) (b : UInt8) : Option ScriptText :=
  let recent := remember t.recent b
  if endsName b ∧ (ascii "tpircs/<").isPrefixOf t.recent then
    if t.mode = .doubleEscaped then some ⟨.escaped, recent⟩ else none
  else if endsName b ∧ (ascii "tpircs<").isPrefixOf t.recent ∧ t.mode = .escaped then
    some ⟨.doubleEscaped, recent⟩
  else if (ascii "--!<").isPrefixOf recent ∧ t.mode = .plain then some ⟨.escaped, recent⟩
  else if (ascii ">--").isPrefixOf recent ∧ t.mode ≠ .plain then some ⟨.plain, recent⟩
  else some ⟨t.mode, recent⟩

def ScriptText.read (t : ScriptText) (text : Bytes) : Option ScriptText :=
  text.foldlM ScriptText.step t

/-- The place of a byte in a script's code. -/
inductive Literal where
  | code
  | string
  | escape
deriving DecidableEq, Repr

def Literal.step : Literal → UInt8 → Literal
  | .code, b => if b = 0x27 then .string else .code
  | .string, b =>
    if b = 0x27 ∨ b = 0x0a ∨ b = 0x0d then .code
    else if b = 0x5c then .escape
    else .string
  | .escape, _ => .string

def Literal.run (l : Literal) (text : Bytes) : Literal := text.foldl Literal.step l

/-- The place of a byte in a page, inside a tag with the name of the tag. -/
inductive Markup where
  | data
  | tagOpen
  | tagName (name : Bytes)
  | beforeAttribute (name : Bytes)
  | attributeName (name : Bytes)
  | beforeValue (name : Bytes)
  | singleQuoted (name : Bytes)
  | doubleQuoted (name : Bytes)
  | unquoted (name : Bytes)
  | script (text : ScriptText) (literal : Literal)
deriving DecidableEq, Repr

/-- Behind a tag of this name. -/
def Markup.behind (name : Bytes) : Markup :=
  if name = ascii "script" then .script ⟨.plain, []⟩ .code else .data

def Markup.nameStep (name : Bytes) (b : UInt8) : Markup :=
  if b = 0x3e then .behind name
  else if endsName b then .beforeAttribute name
  else .tagName (name ++ [lower b])

def Markup.step : Markup → UInt8 → Markup
  | .data, b => if b = 0x3c then .tagOpen else .data
  | .tagOpen, b =>
    if letter b ∨ b = 0x2f then .tagName [lower b]
    else if b = 0x3c then .tagOpen
    else .data
  | .tagName name, b => nameStep name b
  | .beforeAttribute name, b =>
    if b = 0x3e then .behind name
    else if endsName b then .beforeAttribute name
    else .attributeName name
  | .attributeName name, b =>
    if b = 0x3e then .behind name
    else if b = 0x2f then .beforeAttribute name
    else if b = 0x3d then .beforeValue name
    -- a space changes nothing, since `=` may follow it
    else .attributeName name
  | .beforeValue name, b =>
    if b = 0x3e then .behind name
    else if space b then .beforeValue name
    else if b = 0x27 then .singleQuoted name
    else if b = 0x22 then .doubleQuoted name
    else .unquoted name
  | .singleQuoted name, b => if b = 0x27 then .beforeAttribute name else .singleQuoted name
  | .doubleQuoted name, b => if b = 0x22 then .beforeAttribute name else .doubleQuoted name
  | .unquoted name, b =>
    if b = 0x3e then .behind name
    else if space b then .beforeAttribute name
    else .unquoted name
  | .script text literal, b =>
    match text.step b with
    | some text => .script text (literal.step b)
    | none => nameStep (ascii "/script") b

def Markup.run (s : Markup) (text : Bytes) : Markup := text.foldl Markup.step s

/-- Inside the single quotes of an attribute's value or of a string. -/
def Markup.Quoted : Markup → Prop
  | .singleQuoted _ => True
  | .script _ literal => literal ≠ .code
  | _ => False

/-- What a byte is for the structure of its page: how far a script is escaped only matters for
where it ends. -/
def Markup.place : Markup → Markup
  | .script _ literal => .script ⟨.plain, []⟩ (if literal = .code then .code else .string)
  | s => s

/-- The bytes of a text, each with its place. -/
def Markup.read (s : Markup) : Bytes → List (Markup × UInt8)
  | [] => []
  | b :: text => (s.place, b) :: (s.step b).read text

/-- A value is quoted from its first byte to what follows it. -/
def StaysQuoted (s : Markup) : Bytes → Prop
  | [] => s.Quoted
  | b :: value => s.Quoted ∧ StaysQuoted (s.step b) value

inductive PagePart where
  | fixed (text : Bytes)
  | inserted (value : Bytes)
deriving DecidableEq, Repr

def PagePart.bytes : PagePart → Bytes
  | .fixed text => text
  | .inserted value => value

def pageBytes (parts : List PagePart) : Bytes := (parts.map PagePart.bytes).flatten

/-- Every inserted value stays within its quotes. -/
def Confined (s : Markup) : List PagePart → Prop
  | [] => True
  | .fixed text :: parts => Confined (s.run text) parts
  | .inserted value :: parts => StaysQuoted s value ∧ Confined (s.run value) parts

/-- The page without the inserted values. -/
def outline (s : Markup) : List PagePart → List (Markup × UInt8)
  | [] => []
  | .fixed text :: parts => s.read text ++ outline (s.run text) parts
  | .inserted value :: parts => outline (s.run value) parts

/-- How far a script is escaped after a value, when the value follows a byte that belongs to no
delimiter and does not end the script. -/
def ScriptMode.after (m : ScriptMode) (value : Bytes) : Option ScriptMode :=
  ((⟨m, []⟩ : ScriptText).read value).map ScriptText.mode

/-- The same two values in front of each of these texts. -/
def inFront (v w : Bytes) (texts : List Bytes) : List PagePart :=
  texts.flatMap fun text => [.inserted v, .inserted w, .fixed text]

/-- The pages differ only inside their inserted values. -/
structure SameStructure (page page' : List PagePart) : Prop where
  confined : Confined .data page
  confined' : Confined .data page'
  outline_eq : outline .data page = outline .data page'

section

variable {s : Markup} {t t' : ScriptText} {l : Literal} {m m' : ScriptMode} {b c : UInt8}
  {name text value : Bytes} {parts : List PagePart}

theorem Markup.run_append (s : Markup) (v w : Bytes) : s.run (v ++ w) = (s.run v).run w :=
  List.foldl_append

theorem StaysQuoted.quoted (h : StaysQuoted s value) : s.Quoted := by
  cases value with
  | nil => exact h
  | cons b value => exact h.1

theorem staysQuoted_append (s : Markup) (v w : Bytes) :
    StaysQuoted s (v ++ w) ↔ StaysQuoted s v ∧ StaysQuoted (s.run v) w := by
  induction v generalizing s with
  | nil => exact ⟨fun h => ⟨h.quoted, h⟩, fun h => h.2⟩
  | cons b v ih =>
    show s.Quoted ∧ StaysQuoted (s.step b) (v ++ w) ↔ _
    rw [ih, ← and_assoc]
    rfl

theorem confined_fixed (s : Markup) (text : Bytes) (parts : List PagePart) :
    Confined s (.fixed text :: parts) ↔ Confined (s.run text) parts := Iff.rfl

theorem outline_nil (s : Markup) : outline s [] = [] := rfl

theorem outline_fixed (s : Markup) (text : Bytes) (parts : List PagePart) :
    outline s (.fixed text :: parts) = s.read text ++ outline (s.run text) parts := rfl

theorem confined_inserted_append (s : Markup) (v w : Bytes) (parts : List PagePart) :
    Confined s (.inserted v :: .inserted w :: parts) ↔
      Confined s (.inserted (v ++ w) :: parts) := by
  show StaysQuoted s v ∧ StaysQuoted (s.run v) w ∧ Confined ((s.run v).run w) parts ↔
    StaysQuoted s (v ++ w) ∧ Confined (s.run (v ++ w)) parts
  rw [staysQuoted_append, s.run_append, and_assoc]

theorem outline_inserted_append (s : Markup) (v w : Bytes) (parts : List PagePart) :
    outline s (.inserted v :: .inserted w :: parts) = outline s (.inserted (v ++ w) :: parts) := by
  show outline ((s.run v).run w) parts = outline (s.run (v ++ w)) parts
  rw [s.run_append]

/-! Attribute values. -/

theorem singleQuoted_step (name : Bytes) (hb : b ≠ 0x27) :
    (Markup.singleQuoted name).step b = .singleQuoted name := if_neg hb

theorem run_singleQuoted (name : Bytes) (h : 0x27 ∉ value) :
    (Markup.singleQuoted name).run value = .singleQuoted name := by
  induction value with
  | nil => rfl
  | cons b value ih =>
    rw [List.mem_cons, not_or] at h
    show ((Markup.singleQuoted name).step b).run value = _
    rw [singleQuoted_step name (Ne.symm h.1), ih h.2]

theorem staysQuoted_singleQuoted (name value : Bytes) :
    StaysQuoted (.singleQuoted name) value ↔ 0x27 ∉ value := by
  induction value with
  | nil => exact ⟨fun _ => List.not_mem_nil, fun _ => trivial⟩
  | cons b value ih =>
    show True ∧ StaysQuoted ((Markup.singleQuoted name).step b) value ↔ _
    by_cases hb : b = 0x27
    · rw [hb]
      simp only [List.mem_cons_self, not_true_eq_false, iff_false, true_and]
      exact fun h => h.quoted
    · rw [singleQuoted_step name hb, ih, List.mem_cons, not_or, true_and]
      exact ⟨fun h => ⟨Ne.symm hb, h⟩, fun h => h.2⟩

theorem confined_attribute (name value : Bytes) (parts : List PagePart) :
    Confined (.singleQuoted name) (.inserted value :: parts) ↔
      0x27 ∉ value ∧ Confined (.singleQuoted name) parts := by
  show StaysQuoted _ value ∧ Confined _ parts ↔ _
  rw [staysQuoted_singleQuoted]
  exact and_congr_right fun h => by rw [run_singleQuoted name h]

theorem outline_attribute (name : Bytes) (h : 0x27 ∉ value) (parts : List PagePart) :
    outline (.singleQuoted name) (.inserted value :: parts) =
      outline (.singleQuoted name) parts := by
  show outline ((Markup.singleQuoted name).run value) parts = _
  rw [run_singleQuoted name h]

/-! Strings of a script. -/

/-- What a string in single quotes is made of. -/
def StringBytes (value : Bytes) : Prop := ∀ b ∈ value, b ≠ 0x27 ∧ b ≠ 0x0a ∧ b ≠ 0x0d

theorem Literal.step_ne_code (hl : l ≠ .code) (hb : b ≠ 0x27 ∧ b ≠ 0x0a ∧ b ≠ 0x0d) :
    l.step b ≠ .code := by
  cases l with
  | code => exact absurd rfl hl
  | string =>
    rw [Literal.step, if_neg (by simp [hb])]
    split <;> decide
  | escape =>
    show Literal.string ≠ .code
    decide

theorem Literal.run_ne_code (hl : l ≠ .code) (h : StringBytes value) : l.run value ≠ .code := by
  induction value generalizing l with
  | nil => exact hl
  | cons b value ih =>
    rw [StringBytes, List.forall_mem_cons] at h
    exact ih (Literal.step_ne_code hl h.1) h.2

theorem not_quoted_nameStep (name : Bytes) (hname : name ≠ ascii "script") (b : UInt8) :
    ¬(Markup.nameStep name b).Quoted := by
  have hbehind : Markup.behind name = .data := if_neg hname
  unfold Markup.nameStep
  split
  · rw [hbehind]
    exact id
  · split <;> exact id

theorem run_script (l : Literal) (h : t.read value = some t') :
    (Markup.script t l).run value = .script t' (l.run value) := by
  induction value generalizing t l with
  | nil =>
    cases h
    rfl
  | cons b value ih =>
    obtain ⟨u, hu, hrest⟩ := Option.bind_eq_some_iff.mp h
    have hstep : (Markup.script t l).step b = .script u (l.step b) := by rw [Markup.step, hu]
    show ((Markup.script t l).step b).run value = _
    rw [hstep]
    exact ih (l.step b) hrest

/-- A value that is made of string bytes stays in its string unless it ends the script. -/
theorem staysQuoted_script (hl : l ≠ .code) (h : StringBytes value) :
    StaysQuoted (.script t l) value ↔ ∃ t', t.read value = some t' := by
  induction value generalizing t l with
  | nil => exact ⟨fun _ => ⟨t, rfl⟩, fun _ => hl⟩
  | cons b value ih =>
    rw [StringBytes, List.forall_mem_cons] at h
    have hread : t.read (b :: value) = (t.step b).bind fun u => u.read value := rfl
    show l ≠ .code ∧ StaysQuoted ((Markup.script t l).step b) value ↔ _
    rw [hread, Markup.step]
    cases hstep : t.step b with
    | none =>
      have hout := not_quoted_nameStep (ascii "/script") (by decide) b
      exact ⟨fun hstays => absurd hstays.2.quoted hout, fun ⟨u, hu⟩ => absurd hu (by simp)⟩
    | some u =>
      rw [Option.bind_some, ← ih (Literal.step_ne_code hl h.1) h.2]
      exact ⟨fun hstays => hstays.2, fun hstays => ⟨hl, hstays⟩⟩

/-! Texts between the strings of a script. -/

/-- The byte is an ordinary one of a string, and belongs to no delimiter. -/
structure Neutral (c : UInt8) : Prop where
  name : endsName c = false
  delimiter : lower c ∉ delimiterBytes
  string : Literal.string.step c = .string

theorem Neutral.step (hc : Neutral c) (t : ScriptText) : t.step c = some ⟨t.mode, []⟩ := by
  have hopen : ¬(c = 0x3c ∨ c = 0x2d) := by
    rintro (rfl | rfl)
    · exact hc.delimiter (by decide)
    · exact hc.delimiter (by decide)
  have hrecent : remember t.recent c = [] := by
    rw [remember, if_neg hopen, if_neg hc.delimiter, ite_self]
  simp [ScriptText.step, hrecent, hc.name, ascii]

theorem Neutral.step_literal (hc : Neutral c) (hl : l ≠ .code) : l.step c = .string := by
  cases l with
  | code => exact absurd rfl hl
  | string => exact hc.string
  | escape => rfl

/-- Outside of delimiters only the two bytes that open one are remembered. -/
theorem ScriptText.step_idle (m : ScriptMode) (hb : b ≠ 0x3c ∧ b ≠ 0x2d) :
    (⟨m, []⟩ : ScriptText).step b = some ⟨m, []⟩ := by
  have hrecent : remember [] b = [] := by
    rw [remember, if_pos rfl, if_neg (by simp [hb])]
  simp [ScriptText.step, hrecent, ascii]

/-- A text that opens no delimiter and leaves off inside a string. -/
structure BetweenStrings (text : Bytes) : Prop where
  bytes : ∀ b ∈ text, b ≠ 0x3c ∧ b ≠ 0x2d
  string : Literal.string.run text = .string

theorem step_script_idle (m : ScriptMode) (l : Literal) (hb : b ≠ 0x3c ∧ b ≠ 0x2d) :
    (Markup.script ⟨m, []⟩ l).step b = .script ⟨m, []⟩ (l.step b) := by
  rw [Markup.step, ScriptText.step_idle m hb]

theorem run_script_idle (m : ScriptMode) (l : Literal) (h : ∀ b ∈ text, b ≠ 0x3c ∧ b ≠ 0x2d) :
    (Markup.script ⟨m, []⟩ l).run text = .script ⟨m, []⟩ (l.run text) := by
  induction text generalizing l with
  | nil => rfl
  | cons b text ih =>
    rw [List.forall_mem_cons] at h
    show ((Markup.script ⟨m, []⟩ l).step b).run text = _
    rw [step_script_idle m l h.1, ih _ h.2]
    rfl

theorem read_script_idle (m : ScriptMode) (l : Literal) (h : ∀ b ∈ text, b ≠ 0x3c ∧ b ≠ 0x2d) :
    (Markup.script ⟨m, []⟩ l).read text = (Markup.script ⟨.plain, []⟩ l).read text := by
  induction text generalizing l with
  | nil => rfl
  | cons b text ih =>
    rw [List.forall_mem_cons] at h
    show (_, b) :: ((Markup.script ⟨m, []⟩ l).step b).read text =
      (_, b) :: ((Markup.script ⟨.plain, []⟩ l).step b).read text
    rw [step_script_idle m l h.1, step_script_idle .plain l h.1, ih _ h.2]
    rfl

/-- What follows a value in a string, after the neutral byte in front of it. -/
theorem step_script_neutral (hc : Neutral c) (hl : l ≠ .code) :
    (Markup.script t l).step c = .script ⟨t.mode, []⟩ .string := by
  rw [Markup.step, hc.step]
  show Markup.script ⟨t.mode, []⟩ (l.step c) = _
  rw [hc.step_literal hl]

/-- The states of a string in a script at the start of a value. -/
def inString (m : ScriptMode) : Markup := .script ⟨m, []⟩ .string

theorem after_eq_some : m.after value = some m' ↔
    ∃ t', (⟨m, []⟩ : ScriptText).read value = some t' ∧ t'.mode = m' := Option.map_eq_some_iff

private theorem run_value (h : StringBytes value) (hc : Neutral c)
    (hread : (⟨m, []⟩ : ScriptText).read value = some t') :
    ((inString m).run value).step c = inString t'.mode ∧
      ((inString m).run value).place = (inString .plain) := by
  have hl := Literal.run_ne_code (l := .string) (by decide) h
  rw [inString, run_script .string hread, step_script_neutral hc hl]
  refine ⟨rfl, ?_⟩
  show Markup.script ⟨.plain, []⟩ (if _ then _ else _) = _
  rw [if_neg hl]
  rfl

theorem confined_string (h : StringBytes value) (hc : Neutral c) (text : Bytes)
    (parts : List PagePart) :
    Confined (inString m) (.inserted value :: .fixed (c :: text) :: parts) ↔
      ∃ m', m.after value = some m' ∧ Confined ((inString m').run text) parts := by
  show StaysQuoted (inString m) value ∧
    Confined ((((inString m).run value).step c).run text) parts ↔ _
  rw [inString, staysQuoted_script (by decide) h]
  constructor
  · rintro ⟨⟨t', hread⟩, hparts⟩
    rw [← inString, (run_value h hc hread).1] at hparts
    exact ⟨t'.mode, after_eq_some.mpr ⟨t', hread, rfl⟩, hparts⟩
  · rintro ⟨m', hafter, hparts⟩
    obtain ⟨t', hread, rfl⟩ := after_eq_some.mp hafter
    rw [← inString, (run_value h hc hread).1]
    exact ⟨⟨t', hread⟩, hparts⟩

theorem outline_string (h : StringBytes value) (hc : Neutral c) (text : Bytes)
    (parts : List PagePart) (hafter : m.after value = some m') :
    outline (inString m) (.inserted value :: .fixed (c :: text) :: parts) =
      (inString .plain, c) :: ((inString m').read text ++ outline ((inString m').run text) parts) := by
  obtain ⟨t', hread, rfl⟩ := after_eq_some.mp hafter
  obtain ⟨hstep, hplace⟩ := run_value h hc hread
  show (((inString m).run value).place, c) :: (((inString m).run value).step c).read text ++
    outline ((((inString m).run value).step c).run text) parts = _
  rw [hstep, hplace]
  rfl

/-- How far a script is escaped after this many times the same value. -/
def ScriptMode.afterTimes (m : ScriptMode) (n : Nat) (value : Bytes) : Option ScriptMode :=
  (List.replicate n value).foldlM ScriptMode.after m

theorem afterTimes_succ_eq_some {n : Nat} : m.afterTimes (n + 1) value = some m' ↔
    ∃ u, m.after value = some u ∧ u.afterTimes n value = some m' := Option.bind_eq_some_iff

theorem afterTimes_succ'_eq_some {n : Nat} : m.afterTimes (n + 1) value = some m' ↔
    ∃ u, m.afterTimes n value = some u ∧ u.after value = some m' := by
  rw [ScriptMode.afterTimes, List.replicate_succ', List.foldlM_append, Option.bind_eq_bind,
    Option.bind_eq_some_iff]
  simp only [List.foldlM_cons, List.foldlM_nil, bind_pure, ScriptMode.afterTimes]

/-- A script is not escaped before the first `<!--`. -/
theorem ScriptText.step_unopened (hrecent : 0x3c ∉ t.recent) (hmode : t.mode = .plain)
    (hb : b ≠ 0x3c) : ∃ u, t.step b = some u ∧ 0x3c ∉ u.recent ∧ u.mode = .plain := by
  have hlower : lower b ≠ 0x3c := by
    unfold lower
    split
    · intro h
      have hrange := UInt8.toNat_lt b
      simp only [UInt8.le_iff_toNat_le, ← UInt8.toNat_inj, UInt8.toNat_add, UInt8.reduceToNat] at *
      omega
    · exact hb
  have hnext : 0x3c ∉ remember t.recent b := by
    unfold remember
    split
    · split <;> simp [Ne.symm hb]
    · split <;> simp [Ne.symm hlower, hrecent]
  have hprefix : ∀ (text recent : Bytes), 0x3c ∈ text → 0x3c ∉ recent →
      text.isPrefixOf recent = false := by
    intro text recent htext hnot
    rw [← Bool.not_eq_true, List.isPrefixOf_iff_prefix]
    exact fun h => hnot (h.subset htext)
  have hend := hprefix (ascii "tpircs/<") _ (by decide) hrecent
  have hcomment := hprefix (ascii "--!<") _ (by decide) hnext
  exact ⟨⟨t.mode, remember t.recent b⟩, by simp [ScriptText.step, hend, hcomment, hmode], hnext,
    hmode⟩

theorem ScriptText.read_unopened (hrecent : 0x3c ∉ t.recent) (hmode : t.mode = .plain)
    (hvalue : 0x3c ∉ value) : ∃ u, t.read value = some u ∧ u.mode = .plain := by
  induction value generalizing t with
  | nil => exact ⟨t, rfl, hmode⟩
  | cons b value ih =>
    rw [List.mem_cons, not_or] at hvalue
    obtain ⟨u, hu, hurecent, humode⟩ := ScriptText.step_unopened hrecent hmode (Ne.symm hvalue.1)
    have hread : t.read (b :: value) = (t.step b).bind fun u => u.read value := rfl
    rw [hread, hu, Option.bind_some]
    exact ih hurecent humode hvalue.2

/-- A value without `<` leaves a script as it is, however often it is in it. -/
theorem afterTimes_unopened (hvalue : 0x3c ∉ value) (n : Nat) :
    ScriptMode.plain.afterTimes n value = some .plain := by
  have hafter : ScriptMode.plain.after value = some .plain := by
    obtain ⟨u, hu, hmode⟩ := ScriptText.read_unopened (t := ⟨.plain, []⟩) List.not_mem_nil rfl hvalue
    exact after_eq_some.mpr ⟨u, hu, hmode⟩
  induction n with
  | zero => rfl
  | succ n ih => exact afterTimes_succ_eq_some.mpr ⟨.plain, hafter, ih⟩

variable {v w : Bytes} {texts : List Bytes}

/-- By induction on the strings that the two values begin. -/
theorem confined_inFront (h : StringBytes (v ++ w)) (hc : Neutral c)
    (htexts : ∀ text ∈ texts, BetweenStrings text) (parts : List PagePart) :
    Confined (inString m) (inFront v w (texts.map (c :: ·)) ++ parts) ↔
      ∃ m', m.afterTimes texts.length (v ++ w) = some m' ∧ Confined (inString m') parts := by
  induction texts generalizing m with
  | nil => exact ⟨fun hparts => ⟨m, rfl, hparts⟩, fun ⟨m', hm, hparts⟩ => by cases hm; exact hparts⟩
  | cons text texts ih =>
    rw [List.forall_mem_cons] at htexts
    have hrun : ∀ u : ScriptMode, (inString u).run text = inString u := by
      intro u
      rw [inString, run_script_idle u .string htexts.1.bytes, htexts.1.string]
    show Confined (inString m) (.inserted v :: .inserted w :: .fixed (c :: text) ::
      (inFront v w (texts.map (c :: ·)) ++ parts)) ↔ _
    rw [confined_inserted_append, confined_string h hc, List.length_cons]
    simp only [hrun, ih htexts.2, afterTimes_succ_eq_some]
    constructor
    · rintro ⟨u, hu, m', hm, hparts⟩
      exact ⟨m', ⟨u, hu, hm⟩, hparts⟩
    · rintro ⟨m', ⟨u, hu, hm⟩, hparts⟩
      exact ⟨u, hu, m', hm, hparts⟩

theorem outline_inFront (h : StringBytes (v ++ w)) (hc : Neutral c)
    (htexts : ∀ text ∈ texts, BetweenStrings text) (parts : List PagePart)
    (hafter : m.afterTimes texts.length (v ++ w) = some m') :
    outline (inString m) (inFront v w (texts.map (c :: ·)) ++ parts) =
      (texts.flatMap fun text => (inString .plain, c) :: (inString .plain).read text) ++
        outline (inString m') parts := by
  induction texts generalizing m with
  | nil =>
    cases hafter
    rfl
  | cons text texts ih =>
    rw [List.forall_mem_cons] at htexts
    obtain ⟨u, hu, hrest⟩ := afterTimes_succ_eq_some.mp hafter
    have hrun : (inString u).run text = inString u := by
      rw [inString, run_script_idle u .string htexts.1.bytes, htexts.1.string]
    have hread : (inString u).read text = (inString .plain).read text :=
      read_script_idle u .string htexts.1.bytes
    show outline (inString m) (.inserted v :: .inserted w :: .fixed (c :: text) ::
      (inFront v w (texts.map (c :: ·)) ++ parts)) = _
    rw [outline_inserted_append, outline_string h hc text _ hu, hrun, hread, ih htexts.2 hrest,
      List.flatMap_cons, List.cons_append, List.cons_append, List.append_assoc]

end

end Mrhc
