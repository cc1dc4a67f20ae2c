import Mrhc.Handler.Decimal
import Mrhc.Handler.Query
import Mrhc.Handler.SplitString

/-!
# Queries of names and values

A query that is written as pairs of a name and a value. It is read as a map in which the last pair
of a name counts.
-/

namespace Mrhc

/-- A text in which nothing ends the query or separates its parts. -/
structure PlainText (text : Bytes) : Prop where
  zero : 0 ∉ text
  ampersand : 0x26 ∉ text
  equals : 0x3d ∉ text

/-- A pair that can be written in a query. -/
structure QueryPair where
  name : Bytes
  value : Bytes
  name_plain : PlainText name
  value_plain : PlainText value

def QueryPair.param (p : QueryPair) : Bytes := p.name ++ ascii "=" ++ p.value

def renderQuery (pairs : List QueryPair) : Bytes :=
  (ascii "&").intercalate (pairs.map QueryPair.param)

/-- A decimal numeral up to `bound`. -/
structure Numeral (text : Bytes) (bound : Int) : Prop where
  ne_nil : text ≠ []
  isdigit : ∀ b ∈ text, isdigit b = true
  le_bound : digitsValue text 0 ≤ bound

/-- The greatest number that the member of an operation with this name holds. -/
def numberBound (name : Bytes) : Int := if name = ascii "b" then 255 else 65535

/-- Where a number is asked for, the value is a numeral of one that the member holds. -/
def QueryPair.Numeric (p : QueryPair) : Prop :=
  p.name ∈ numberNames → Numeral p.value (numberBound p.name)

/-- The names that the function looks at. -/
def queryNames : List Bytes := ascii "k" :: numberNames

/-- The value of the last pair of a name. -/
def lastValue (name : Bytes) (pairs : List QueryPair) : Option Bytes :=
  (lastWith (fun p => p.name = name) pairs).map QueryPair.value

/-- The number that is the value of the last pair of a name, and 0 when there is none. -/
def lastNumeral (name : Bytes) (pairs : List QueryPair) : Int :=
  ((lastValue name pairs).map fun value => digitsValue value 0).getD 0

/-- The key that is the value of the last `k`. -/
def lastKey (pairs : List QueryPair) : Bytes :=
  match lastValue (ascii "k") pairs with
  | some [] => keySpace
  | some key => key
  | none => []

/-- An operation with the last values. -/
structure LastWins (pairs : List QueryPair) (op : VncOperation) : Prop where
  x : op.x.toNat = lastNumeral (ascii "x") pairs
  y : op.y.toNat = lastNumeral (ascii "y") pairs
  button : op.button.toNat = lastNumeral (ascii "b") pairs
  key : op.key = lastKey pairs

/-- Neighbouring pairs of distinct names are exchanged, any number of times. -/
inductive Reordered : List QueryPair → List QueryPair → Prop where
  | swap {p q : QueryPair} (hne : p.name ≠ q.name) (l : List QueryPair) :
      Reordered (p :: q :: l) (q :: p :: l)
  | refl (l : List QueryPair) : Reordered l l
  | cons (p : QueryPair) {l m : List QueryPair} (h : Reordered l m) : Reordered (p :: l) (p :: m)
  | trans {l m n : List QueryPair} (h : Reordered l m) (h' : Reordered m n) : Reordered l n

/-! The text of a pair. -/

theorem QueryPair.pieces (p : QueryPair) : paramPieces p.param = [p.name, p.value] := by
  have hparam : p.param = [0x3d].intercalate [p.name, p.value] := by
    simp [QueryPair.param, ascii, List.intercalate]
  rw [paramPieces, hparam]
  exact splitString_intercalate (by simp [p.name_plain.equals, p.value_plain.equals]) (by simp)

theorem QueryPair.paramName_param (p : QueryPair) : paramName p.param = p.name := by
  rw [paramName, p.pieces]
  rfl

theorem QueryPair.paramText_param (p : QueryPair) : paramText p.param = some p.value := by
  rw [paramText, p.pieces]
  rfl

private theorem param_notMem (p : QueryPair) {b : UInt8} (hequals : b ≠ 0x3d)
    (hname : b ∉ p.name) (hvalue : b ∉ p.value) : b ∉ p.param := by
  rw [QueryPair.param, List.mem_append, List.mem_append, not_or, not_or]
  exact ⟨⟨hname, fun h => hequals (List.mem_singleton.mp h)⟩, hvalue⟩

theorem queryParams_renderQuery {pairs : List QueryPair} (hne : pairs ≠ []) :
    queryParams (renderQuery pairs) = pairs.map QueryPair.param := by
  have hzero : 0 ∉ renderQuery pairs := by
    apply notMem_intercalate (by decide)
    intro param hparam
    obtain ⟨p, -, rfl⟩ := List.mem_map.mp hparam
    exact param_notMem p (by decide) p.name_plain.zero p.value_plain.zero
  have hsep : ∀ param ∈ pairs.map QueryPair.param, 0x26 ∉ param := by
    intro param hparam
    obtain ⟨p, -, rfl⟩ := List.mem_map.mp hparam
    exact param_notMem p (by decide) p.name_plain.ampersand p.value_plain.ampersand
  rw [queryParams, cString_eq_self hzero]
  exact splitString_intercalate hsep (by simpa using hne)

/-! The value of a pair. -/

theorem numberBound_le (name : Bytes) : numberBound name ≤ 65535 := by
  unfold numberBound
  split <;> omega

theorem QueryPair.Numeric.paramNumber_param {p : QueryPair} (hp : p.Numeric)
    (hname : p.name ∈ numberNames) : paramNumber p.param = some (digitsValue p.value 0) := by
  have hvalue := hp hname
  have hnonneg := digitsValue_nonneg p.value le_rfl
  have hle := hvalue.le_bound
  have hbound := numberBound_le p.name
  have hread := stoi_digits hvalue.ne_nil hvalue.isdigit ⟨by omega, by omega⟩
  rw [paramNumber, paramInt, p.paramText_param]
  exact congrArg Except.toOption hread

theorem QueryPair.Numeric.readable {p : QueryPair} (hp : p.Numeric) : ReadableParam p.param := by
  rw [ReadableParam, p.paramName_param, p.paramText_param]
  exact ⟨fun hname => by simp [hp.paramNumber_param hname], fun _ => by simp⟩

/-! The last pair of a name. -/

private theorem lastWith_params (name : Bytes) (pairs : List QueryPair) :
    lastWith (fun param => paramName param = name) (pairs.map QueryPair.param) =
      (lastWith (fun p => p.name = name) pairs).map QueryPair.param := by
  have hname : ((fun param => decide (paramName param = name)) ∘ QueryPair.param) =
      fun p => decide (p.name = name) := by
    funext p
    rw [Function.comp_apply, p.paramName_param]
  rw [lastWith_map, hname]

section

variable {pairs : List QueryPair} (hpairs : ∀ p ∈ pairs, p.Numeric)

include hpairs

theorem lastNumber_params {name : Bytes} (hname : name ∈ numberNames) :
    lastNumber name (pairs.map QueryPair.param) = lastNumeral name pairs := by
  rw [lastNumber, lastNumeral, lastValue, lastWith_params]
  cases hlast : lastWith (fun p => decide (p.name = name)) pairs with
  | none => rfl
  | some p =>
    obtain ⟨hmem, heq⟩ := of_lastWith hlast
    have hp : p.name ∈ numberNames := of_decide_eq_true heq ▸ hname
    simp [(hpairs p hmem).paramNumber_param hp]

theorem lastNumeral_range {name : Bytes} (hname : name ∈ numberNames) :
    0 ≤ lastNumeral name pairs ∧ lastNumeral name pairs ≤ numberBound name := by
  rw [lastNumeral, lastValue]
  cases hlast : lastWith (fun p => decide (p.name = name)) pairs with
  | none =>
    refine ⟨le_rfl, ?_⟩
    unfold numberBound
    split <;> decide
  | some p =>
    obtain ⟨hmem, heq⟩ := of_lastWith hlast
    have hname' : p.name = name := of_decide_eq_true heq
    have hle := (hpairs p hmem (hname' ▸ hname)).le_bound
    rw [hname'] at hle
    exact ⟨digitsValue_nonneg p.value le_rfl, hle⟩

theorem foldl_params_lastWins :
    LastWins pairs
      ((pairs.map QueryPair.param).foldl VncOperation.withParam VncOperation.zero) where
  x := by
    have hrange := @lastNumeral_range pairs hpairs (ascii "x") (by decide)
    have hbound : numberBound (ascii "x") = 65535 := by decide
    rw [foldl_withParam_x, uint16_toNat_ofInt, lastNumber_params hpairs (by decide)]
    omega
  y := by
    have hrange := @lastNumeral_range pairs hpairs (ascii "y") (by decide)
    have hbound : numberBound (ascii "y") = 65535 := by decide
    rw [foldl_withParam_y, uint16_toNat_ofInt, lastNumber_params hpairs (by decide)]
    omega
  button := by
    have hrange := @lastNumeral_range pairs hpairs (ascii "b") (by decide)
    have hbound : numberBound (ascii "b") = 255 := by decide
    rw [foldl_withParam_button, uint8_toNat_ofInt, lastNumber_params hpairs (by decide)]
    omega
  key := by
    rw [foldl_withParam_key, lastWith_params, lastKey, lastValue]
    cases lastWith (fun p => decide (p.name = ascii "k")) pairs with
    | none => rfl
    | some p =>
      cases hvalue : p.value with
      | nil => simp [paramKey, p.paramText_param, hvalue]
      | cons b value => simp [paramKey, p.paramText_param, hvalue]

/-- A query of pairs is read as the operation with the last values. -/
theorem mrhcQuery_pairs {r : Request} (hr : r.query = some (renderQuery pairs)) :
    ∃ op, mrhcQuery r = .ok op ∧ LastWins pairs op := by
  refine ⟨_, ?_, foldl_params_lastWins hpairs⟩
  cases pairs with
  | nil =>
    rw [mrhcQuery, hr]
    decide
  | cons p pairs =>
    have hparams := queryParams_renderQuery (List.cons_ne_nil p pairs)
    rw [mrhcQuery_ok hr, hparams]
    intro param hparam
    rw [hparams] at hparam
    obtain ⟨q, hq, rfl⟩ := List.mem_map.mp hparam
    exact (hpairs q hq).readable

end

/-! What does not change the last values. -/

private theorem LastWins.unique {pairs pairs' : List QueryPair} {op op' : VncOperation}
    (h : LastWins pairs op) (h' : LastWins pairs' op')
    (hsame : ∀ name ∈ queryNames, lastValue name pairs' = lastValue name pairs) :
    op' = op := by
  have hnumeral : ∀ name ∈ numberNames, lastNumeral name pairs' = lastNumeral name pairs := by
    intro name hname
    rw [lastNumeral, lastNumeral, hsame name (List.mem_cons_of_mem _ hname)]
  have hx := h'.x.trans ((hnumeral _ (by decide)).trans h.x.symm)
  have hy := h'.y.trans ((hnumeral _ (by decide)).trans h.y.symm)
  have hbutton := h'.button.trans ((hnumeral _ (by decide)).trans h.button.symm)
  have hkey : op'.key = op.key := by
    rw [h'.key, h.key, lastKey, lastKey, hsame _ List.mem_cons_self]
  obtain ⟨x, y, button, key⟩ := op
  obtain ⟨x', y', button', key'⟩ := op'
  simp only [Int.natCast_inj, UInt16.toNat_inj, UInt8.toNat_inj] at hx hy hbutton hkey
  rw [hx, hy, hbutton, hkey]

private theorem lastValue_filter {name : Bytes} {names : List Bytes} (hname : name ∈ names)
    (pairs : List QueryPair) :
    lastValue name (pairs.filter (·.name ∈ names)) = lastValue name pairs := by
  have hpred : ∀ p : QueryPair,
      (decide (p.name ∈ names) = true ∧ decide (p.name = name) = true) ↔ p.name = name := by
    intro p
    rw [decide_eq_true_eq, decide_eq_true_eq]
    exact ⟨fun h => h.2, fun h => ⟨h ▸ hname, h⟩⟩
  rw [lastValue, lastValue, lastWith, lastWith, ← List.filter_reverse, List.find?_filter]
  simp only [hpred]

private theorem lastWith_reordered {pairs pairs' : List QueryPair} (h : Reordered pairs pairs')
    (name : Bytes) :
    lastWith (fun p => p.name = name) pairs' = lastWith (fun p => p.name = name) pairs := by
  induction h with
  | swap hne l =>
    rename_i p q
    simp only [lastWith_cons, Option.or_assoc]
    congr 1
    by_cases hp : p.name = name
    · have hq : q.name ≠ name := fun hq => hne (hp.trans hq.symm)
      simp [hp, hq]
    · simp [hp]
  | refl l => rfl
  | cons p h ih => rw [lastWith_cons, lastWith_cons, ih]
  | trans h h' ih ih' => exact ih'.trans ih

theorem Reordered.mem_iff {pairs pairs' : List QueryPair} (h : Reordered pairs pairs')
    (p : QueryPair) : p ∈ pairs' ↔ p ∈ pairs := by
  induction h with
  | swap hne l => simp only [List.mem_cons, or_left_comm]
  | refl l => rfl
  | cons q h ih => rw [List.mem_cons, List.mem_cons, ih]
  | trans h h' ih ih' => exact ih'.trans ih

/-- Pairs with distinct names can be put in any order. -/
theorem reordered_of_perm {pairs pairs' : List QueryPair} (h : pairs.Perm pairs')
    (hnames : (pairs.map QueryPair.name).Nodup) : Reordered pairs pairs' := by
  induction h with
  | nil => exact .refl []
  | cons p h ih =>
    rw [List.map_cons, List.nodup_cons] at hnames
    exact .cons p (ih hnames.2)
  | swap p q l =>
    rw [List.map_cons, List.map_cons, List.nodup_cons, List.mem_cons, not_or] at hnames
    exact .swap hnames.1.1 l
  | trans h h' ih ih' => exact (ih hnames).trans (ih' ((h.map QueryPair.name).nodup_iff.mp hnames))

private theorem mrhcQuery_sameValues {r r' : Request} {pairs pairs' : List QueryPair}
    (hpairs : ∀ p ∈ pairs, p.Numeric) (hr : r.query = some (renderQuery pairs))
    (hpairs' : ∀ p ∈ pairs', p.Numeric) (hr' : r'.query = some (renderQuery pairs'))
    (hsame : ∀ name ∈ queryNames, lastValue name pairs' = lastValue name pairs) :
    mrhcQuery r' = mrhcQuery r := by
  obtain ⟨op, hop, hlast⟩ := mrhcQuery_pairs hpairs hr
  obtain ⟨op', hop', hlast'⟩ := mrhcQuery_pairs hpairs' hr'
  rw [hop, hop', hlast.unique hlast' hsame]

/-- A query of pairs is read as a map in which the last pair of a name counts. Pairs of other names
change nothing, wherever they stand, and neither does the order of pairs with distinct names. -/
theorem mrhcQuery_lastWins (r : Request) (pairs : List QueryPair)
    (hpairs : ∀ p ∈ pairs, p.Numeric) (hr : r.query = some (renderQuery pairs)) :
    (∃ op, mrhcQuery r = .ok op ∧ LastWins pairs op) ∧
      ∀ (r' : Request) (pairs' : List QueryPair), r'.query = some (renderQuery pairs') →
        (pairs'.filter (·.name ∈ queryNames) = pairs.filter (·.name ∈ queryNames) ∨
          Reordered pairs pairs' ∨ pairs.Perm pairs' ∧ (pairs.map QueryPair.name).Nodup) →
        mrhcQuery r' = mrhcQuery r := by
  refine ⟨mrhcQuery_pairs hpairs hr, fun r' pairs' hr' h => ?_⟩
  have hreordered : Reordered pairs pairs' → mrhcQuery r' = mrhcQuery r := by
    intro h
    apply mrhcQuery_sameValues hpairs hr (fun p hp => hpairs p ((h.mem_iff p).mp hp)) hr'
    intro name _
    rw [lastValue, lastValue, lastWith_reordered h]
  rcases h with hfilter | h | ⟨hperm, hnames⟩
  · refine mrhcQuery_sameValues hpairs hr ?_ hr' ?_
    · intro p hp hname
      have hmem : p ∈ pairs'.filter (·.name ∈ queryNames) :=
        List.mem_filter.mpr ⟨hp, decide_eq_true (List.mem_cons_of_mem _ hname)⟩
      rw [hfilter] at hmem
      exact hpairs p (List.mem_of_mem_filter hmem) hname
    · intro name hname
      rw [← lastValue_filter hname pairs', ← lastValue_filter hname pairs]
      exact congrArg (lastValue name) hfilter
  · exact hreordered h
  · exact hreordered (reordered_of_perm hperm hnames)

def stampedPairs : List QueryPair :=
  [⟨ascii "x", ascii "3", by constructor <;> decide, by constructor <;> decide⟩,
    ⟨ascii "t", ascii "159", by constructor <;> decide, by constructor <;> decide⟩,
    ⟨ascii "x", ascii "007", by constructor <;> decide, by constructor <;> decide⟩,
    ⟨ascii "k", [], by constructor <;> decide, by constructor <;> decide⟩]

theorem mrhcQuery_lastWins_stamped :
    ∃ op, mrhcQuery (imageRequest (renderQuery stampedPairs)) = .ok op ∧
      LastWins stampedPairs op := by
  refine (mrhcQuery_lastWins (imageRequest (renderQuery stampedPairs)) stampedPairs ?_ rfl).1
  intro p hp hname
  simp only [stampedPairs, List.mem_cons, List.not_mem_nil, or_false] at hp
  rcases hp with rfl | rfl | rfl | rfl
  · exact ⟨by decide, List.all_eq_true.mp (by decide), by decide⟩
  · exact absurd hname (by decide)
  · exact ⟨by decide, List.all_eq_true.mp (by decide), by decide⟩
  · exact absurd hname (by decide)

end Mrhc
