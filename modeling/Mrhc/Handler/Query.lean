import Mrhc.Framework.Raster
import Mrhc.Handler.Numerals

/-!
# Queries

What `mrhc_query` makes of the parameters of a query. A parameter is read or it stops the
function, and each member of the operation is set by the last parameter of its name.
-/

namespace Mrhc

/-- The pieces of a parameter. -/
def paramPieces (param : Bytes) : List Bytes := splitString param (ascii "=")

def paramName (param : Bytes) : Bytes := (paramPieces param).headD []

/-- The second piece, without which a parameter has no value. -/
def paramText (param : Bytes) : Option Bytes := (paramPieces param)[1]?

/-- The integer that a parameter has as its value, or what stops the attempt to read it. -/
def paramInt (param : Bytes) : Except Stop Int :=
  match paramText param with
  | some text => stoi text
  | none => .error .outOfBounds

def paramNumber (param : Bytes) : Option Int := (paramInt param).toOption

/-- The key of a parameter. -/
def paramKey (param : Bytes) : Bytes :=
  match paramText param with
  | some [] => keySpace
  | some key => key
  | none => []

/-- The names that an integer belongs to. -/
def numberNames : List Bytes := [ascii "x", ascii "y", ascii "b"]

/-- A parameter that has the value its name asks for. -/
def ReadableParam (param : Bytes) : Prop :=
  (paramName param ∈ numberNames → paramNumber param ≠ none) ∧
    (paramName param = ascii "k" → paramText param ≠ none)

instance (param : Bytes) : Decidable (ReadableParam param) :=
  inferInstanceAs (Decidable (_ ∧ _))

/-- The operation after a parameter that can be read. -/
def VncOperation.withParam (op : VncOperation) (param : Bytes) : VncOperation where
  x := if paramName param = ascii "x" then UInt16.ofInt ((paramNumber param).getD 0) else op.x
  y := if paramName param = ascii "y" then UInt16.ofInt ((paramNumber param).getD 0) else op.y
  button :=
    if paramName param = ascii "b" then UInt8.ofInt ((paramNumber param).getD 0) else op.button
  key := if paramName param = ascii "k" then paramKey param else op.key

/-- The value of the last parameter of this name, 0 when there is none. -/
def lastNumber (name : Bytes) (params : List Bytes) : Int :=
  ((lastWith (fun param => paramName param = name) params).bind paramNumber).getD 0

section

variable {param : Bytes} {op : VncOperation}

private theorem paramAt_zero : paramAt (paramPieces param) 0 = .ok (paramName param) := by
  have hne : paramPieces param ≠ [] := List.splitOnP_ne_nil _ _
  rw [paramName, paramAt]
  cases h : paramPieces param with
  | nil => exact absurd h hne
  | cons name rest => rfl

private theorem paramAt_one (param : Bytes) :
    paramAt (paramPieces param) 1 =
      match paramText param with
      | some text => .ok text
      | none => .error .outOfBounds := rfl

private theorem queryParam_other (hnumber : paramName param ∉ numberNames)
    (hkey : paramName param ≠ ascii "k") : queryParam op param = .ok op := by
  have hzero : paramAt (splitString param (ascii "=")) 0 = .ok (paramName param) := paramAt_zero
  simp only [numberNames, List.mem_cons, List.not_mem_nil, or_false, not_or] at hnumber
  obtain ⟨hx, hy, hb⟩ := hnumber
  simp only [queryParam, hzero, bind, Except.bind, hx, hy, hb, hkey, if_false]
  rfl

private theorem queryParam_key (hkey : paramName param = ascii "k") :
    queryParam op param =
      match paramText param with
      | some text => .ok { op with key := if text = [] then keySpace else text }
      | none => .error .outOfBounds := by
  have hzero : paramAt (splitString param (ascii "=")) 0 = .ok (ascii "k") := hkey ▸ paramAt_zero
  have hone := paramAt_one param
  rw [paramPieces] at hone
  simp +decide only [queryParam, hzero, hone, bind, Except.bind, if_true, if_false]
  cases paramText param <;> rfl

/-- The operation with the member of this name set. -/
private def setNumber (name : Bytes) (op : VncOperation) (n : Int) : VncOperation :=
  if name = ascii "x" then { op with x := UInt16.ofInt n }
  else if name = ascii "y" then { op with y := UInt16.ofInt n }
  else { op with button := UInt8.ofInt n }

private theorem queryParam_number {name : Bytes} (hname : paramName param = name)
    (hnumber : name ∈ numberNames) :
    queryParam op param = (paramInt param).map (setNumber name op) := by
  have hzero : paramAt (splitString param (ascii "=")) 0 = .ok name := hname ▸ paramAt_zero
  have hone := paramAt_one param
  rw [paramPieces] at hone
  simp only [numberNames, List.mem_cons, List.not_mem_nil, or_false] at hnumber
  rcases hnumber with rfl | rfl | rfl
  all_goals
    simp +decide only [queryParam, hzero, hone, bind, Except.bind, paramInt, if_true, if_false]
    cases paramText param with
    | none => rfl
    | some text => dsimp only; cases stoi text <;> rfl

private theorem withParam_number {n : Int} (hnumber : paramName param ∈ numberNames)
    (hn : paramNumber param = some n) : op.withParam param = setNumber (paramName param) op n := by
  simp only [numberNames, List.mem_cons, List.not_mem_nil, or_false] at hnumber
  rcases hnumber with hname | hname | hname
  all_goals
    simp +decide only [VncOperation.withParam, setNumber, hname, hn, if_true, if_false,
      Option.getD_some]

/-- What the function does with a parameter, in terms of what it should do. -/
private def Spec (op : VncOperation) (param : Bytes) : Prop :=
  if ReadableParam param then queryParam op param = .ok (op.withParam param)
  else ∃ e, queryParam op param = .error e

private theorem spec_of_number (op : VncOperation) (hnumber : paramName param ∈ numberNames) :
    Spec op param := by
  have hkey : paramName param ≠ ascii "k" := by
    intro h
    rw [h] at hnumber
    exact absurd hnumber (by decide)
  have hparam : queryParam op param = _ := queryParam_number rfl hnumber
  cases h : paramInt param with
  | error e =>
    have hnone : paramNumber param = none := by rw [paramNumber, h]; rfl
    rw [Spec, if_neg fun hread : ReadableParam param => hread.1 hnumber hnone, hparam, h]
    exact ⟨e, rfl⟩
  | ok n =>
    have hsome : paramNumber param = some n := by rw [paramNumber, h]; rfl
    have hread : ReadableParam param := ⟨fun _ => by simp [hsome], fun h => absurd h hkey⟩
    rw [Spec, if_pos hread, hparam, h, withParam_number hnumber hsome]
    rfl

private theorem queryParam_spec (param : Bytes) (op : VncOperation) : Spec op param := by
  by_cases hnumber : paramName param ∈ numberNames
  · exact spec_of_number op hnumber
  · by_cases hkey : paramName param = ascii "k"
    · rw [Spec, queryParam_key hkey]
      cases htext : paramText param with
      | none =>
        rw [if_neg fun hread : ReadableParam param => hread.2 hkey htext]
        exact ⟨_, rfl⟩
      | some text =>
        have hread : ReadableParam param := ⟨fun h => absurd h hnumber, fun _ => by simp [htext]⟩
        rw [if_pos hread]
        simp +decide only [VncOperation.withParam, hkey, if_true, if_false, paramKey, htext]
        cases text <;> rfl
    · rw [Spec, if_pos ⟨fun h => absurd h hnumber, fun h => absurd h hkey⟩,
        queryParam_other hnumber hkey]
      simp only [numberNames, List.mem_cons, List.not_mem_nil, or_false, not_or] at hnumber
      simp [VncOperation.withParam, hnumber, hkey]

theorem queryParam_ok (op : VncOperation) (h : ReadableParam param) :
    queryParam op param = .ok (op.withParam param) := by
  have hspec := queryParam_spec param op
  rwa [Spec, if_pos h] at hspec

theorem queryParam_error (op : VncOperation) (h : ¬ReadableParam param) :
    ∃ e, queryParam op param = .error e := by
  have hspec := queryParam_spec param op
  rwa [Spec, if_neg h] at hspec

end

/-- The parameters of a query. -/
def queryParams (query : Bytes) : List Bytes := splitString (cString query) (ascii "&")

theorem mrhcQuery_ok {r : Request} {query : Bytes} (hquery : r.query = some query)
    (h : ∀ param ∈ queryParams query, ReadableParam param) :
    mrhcQuery r = .ok ((queryParams query).foldl VncOperation.withParam VncOperation.zero) := by
  rw [mrhcQuery, hquery]
  exact foldlM_ok (fun param hparam op => queryParam_ok op (h param hparam)) VncOperation.zero

theorem mrhcQuery_error {r : Request} {query param : Bytes} (hquery : r.query = some query)
    (hparam : param ∈ queryParams query) (h : ¬ReadableParam param) :
    ∃ e, mrhcQuery r = .error e := by
  rw [mrhcQuery, hquery]
  exact foldlM_error hparam (fun op => queryParam_error op h) VncOperation.zero

/-- The parameters of a request. -/
def Request.params (r : Request) : List Bytes := (r.query.map queryParams).getD []

/-- Where the function returns, it has read every parameter. -/
theorem mrhcQuery_params {r : Request} {op : VncOperation} (h : mrhcQuery r = .ok op) :
    (∀ param ∈ r.params, ReadableParam param) ∧
      op = r.params.foldl VncOperation.withParam VncOperation.zero := by
  rw [Request.params]
  cases hquery : r.query with
  | none =>
    rw [mrhcQuery, hquery] at h
    cases h
    exact ⟨by simp, rfl⟩
  | some query =>
    have hread : ∀ param ∈ queryParams query, ReadableParam param := by
      intro param hparam
      by_contra hread
      obtain ⟨e, he⟩ := mrhcQuery_error hquery hparam hread
      rw [he] at h
      cases h
    rw [mrhcQuery_ok hquery hread] at h
    cases h
    exact ⟨hread, rfl⟩

/-! A member holds an integer modulo its range. -/

theorem uint16_toNat_ofInt (n : Int) : ((UInt16.ofInt n).toNat : Int) = n % 65536 := by
  rw [UInt16.ofInt, UInt16.toNat_ofNat']
  omega

theorem uint8_toNat_ofInt (n : Int) : ((UInt8.ofInt n).toNat : Int) = n % 256 := by
  rw [UInt8.ofInt, UInt8.toNat_ofNat']
  omega

theorem uint16_ofInt_toNat (n : UInt16) : UInt16.ofInt n.toNat = n := by
  apply UInt16.toNat_inj.mp
  have hvalue := uint16_toNat_ofInt n.toNat
  have hlt := n.toNat_lt
  omega

theorem uint8_ofInt_toNat (n : UInt8) : UInt8.ofInt n.toNat = n := by
  apply UInt8.toNat_inj.mp
  have hvalue := uint8_toNat_ofInt n.toNat
  have hlt := n.toNat_lt
  omega

/-! Each member is set by the last parameter of its name. -/

section

variable (params : List Bytes)

private theorem foldl_withParam_last {α : Type} (name : Bytes) (get : VncOperation → α)
    (value : Bytes → α) (hget : ∀ op param, get (op.withParam param) =
      if paramName param = name then value param else get op) :
    get (params.foldl VncOperation.withParam VncOperation.zero) =
      ((lastWith (fun param => paramName param = name) params).map value).getD
        (get VncOperation.zero) :=
  (foldl_overwrite (fun _ => True) (fun op (_ : Unit) => get op)
    (fun _ param => decide (paramName param = name)) value (fun _ _ _ => trivial)
    (fun op param _ _ => by simp [hget]) params trivial ()).2

private theorem foldl_withParam_number {α : Type} (name : Bytes) (get : VncOperation → α)
    (value : Int → α) (hzero : get VncOperation.zero = value 0)
    (hget : ∀ op param, get (op.withParam param) =
      if paramName param = name then value ((paramNumber param).getD 0) else get op) :
    get (params.foldl VncOperation.withParam VncOperation.zero) =
      value (lastNumber name params) := by
  rw [foldl_withParam_last params name get _ hget, lastNumber]
  cases lastWith (fun param => paramName param = name) params with
  | none => exact hzero
  | some param => rfl

theorem foldl_withParam_x :
    (params.foldl VncOperation.withParam VncOperation.zero).x =
      UInt16.ofInt (lastNumber (ascii "x") params) :=
  foldl_withParam_number params _ VncOperation.x UInt16.ofInt rfl fun _ _ => rfl

theorem foldl_withParam_y :
    (params.foldl VncOperation.withParam VncOperation.zero).y =
      UInt16.ofInt (lastNumber (ascii "y") params) :=
  foldl_withParam_number params _ VncOperation.y UInt16.ofInt rfl fun _ _ => rfl

theorem foldl_withParam_button :
    (params.foldl VncOperation.withParam VncOperation.zero).button =
      UInt8.ofInt (lastNumber (ascii "b") params) :=
  foldl_withParam_number params _ VncOperation.button UInt8.ofInt rfl fun _ _ => rfl

theorem foldl_withParam_key :
    (params.foldl VncOperation.withParam VncOperation.zero).key =
      ((lastWith (fun param => paramName param = ascii "k") params).map paramKey).getD [] :=
  foldl_withParam_last params _ VncOperation.key paramKey fun _ _ => rfl

/-- A key that is read is not empty. -/
theorem foldl_withParam_key_eq_nil_iff {params : List Bytes}
    (hread : ∀ param ∈ params, ReadableParam param) :
    (params.foldl VncOperation.withParam VncOperation.zero).key = [] ↔
      ∀ param ∈ params, paramName param ≠ ascii "k" := by
  rw [foldl_withParam_key]
  cases hlast : lastWith (fun param => decide (paramName param = ascii "k")) params with
  | none =>
    have hnone := lastWith_eq_none.mp hlast
    exact iff_of_true rfl fun param hparam => of_decide_eq_false (hnone param hparam)
  | some param =>
    obtain ⟨hmem, heq⟩ := of_lastWith hlast
    have hname : paramName param = ascii "k" := of_decide_eq_true heq
    have hkey : paramKey param ≠ [] := by
      rw [paramKey]
      cases htext : paramText param with
      | none => exact absurd htext ((hread param hmem).2 hname)
      | some text => cases text <;> simp [keySpace, ascii]
    exact iff_of_false (by simpa using hkey) fun h => h param hmem hname

end

/-! The queries that are read, in terms of their text. -/

/-- An integer in the range of `int` stands behind a name that asks for one, and something behind
the name of a key. -/
structure SafeParam (param : Bytes) : Prop where
  number : paramName param ∈ numberNames → ∃ text, paramText param = some text ∧
    ∃ t : IntText, cString text = t.text ∧ InInt t.value
  key : paramName param = ascii "k" → paramText param ≠ none

theorem readableParam_iff (param : Bytes) : ReadableParam param ↔ SafeParam param := by
  have hnumber : paramNumber param ≠ none ↔ ∃ text, paramText param = some text ∧
      ∃ t : IntText, cString text = t.text ∧ InInt t.value := by
    rw [paramNumber, paramInt]
    cases paramText param with
    | none => simp [Except.toOption]
    | some text =>
      simp only [Option.some.injEq, exists_eq_left', ← stoi_reads_iff]
      cases stoi text <;> simp [Except.toOption]
  exact ⟨fun h => ⟨fun hname => hnumber.mp (h.1 hname), h.2⟩,
    fun h => ⟨fun hname => hnumber.mpr (h.number hname), h.key⟩⟩

/-- The function returns exactly when every parameter has the value its name asks for. -/
theorem mrhcQuery_returns_iff (r : Request) :
    (∃ op, mrhcQuery r = .ok op) ↔
      ∀ query ∈ r.query, ∀ param ∈ queryParams query, SafeParam param := by
  constructor
  · rintro ⟨op, hop⟩ query hquery param hparam
    have hparams : r.params = queryParams query := by
      rw [Request.params, Option.mem_def.mp hquery]
      rfl
    rw [← readableParam_iff]
    exact (mrhcQuery_params hop).1 param (hparams ▸ hparam)
  · intro h
    cases hquery : r.query with
    | none => exact ⟨VncOperation.zero, by rw [mrhcQuery, hquery]⟩
    | some query =>
      exact ⟨_, mrhcQuery_ok hquery fun param hparam =>
        (readableParam_iff param).mpr (h query hquery param hparam)⟩

/-- A request for the image with this query. -/
def imageRequest (query : Bytes) : Request := { pageRequest none with query := some query }

/-- A missing value, an empty one and a huge number each stop the function. -/
theorem mrhcQuery_stops :
    mrhcQuery (imageRequest (ascii "x")) = .error .outOfBounds ∧
      mrhcQuery (imageRequest (ascii "x=")) = .error .invalidArgument ∧
      mrhcQuery (imageRequest (ascii "x=99999999999")) = .error .outOfRange ∧
      ¬∀ r, ∃ op, mrhcQuery r = .ok op := by
  have hmissing : mrhcQuery (imageRequest (ascii "x")) = .error .outOfBounds := by decide
  have hempty : mrhcQuery (imageRequest (ascii "x=")) = .error .invalidArgument := by decide
  have hhuge : mrhcQuery (imageRequest (ascii "x=99999999999")) = .error .outOfRange := by
    decide
  refine ⟨hmissing, hempty, hhuge, fun h => ?_⟩
  obtain ⟨op, hop⟩ := h (imageRequest (ascii "x"))
  rw [hmissing] at hop
  cases hop

end Mrhc
