import Mrhc.Handler.Clicks
import Mrhc.Handler.QueryPairs

/-!
# Keys

The script of a session's page appends the name of a pressed key to an address as it is. Which
names the handler reads back from there.
-/

namespace Mrhc

/-- The script of a page requests, for a pressed key, the path with the key as its query. -/
def RequestsKey (page path : Bytes) : Prop :=
  ∃ hostname, ascii "url: 'http://" ++ hostname ++ path ++ ascii "?k=' + e.key," <:+: page

def keyUri (path key : Bytes) : Bytes := path ++ ascii "?k=" ++ key

/-- The query of a key is read as an operation with this key. -/
def KeySurvives (key : Bytes) : Prop :=
  ∀ r : Request, r.query = some (ascii "k=" ++ key) →
    ∃ operation, mrhcQuery r = .ok operation ∧ operation.key = key

/-- The page of a session requests the keys that are pressed. -/
theorem mrhcHtml_requestsKey {r : Request} {client : VncClient} {page : Bytes}
    (hpage : mrhcHtml r client = .ok page) : RequestsKey page (cString r.unparsedUri) := by
  cases hhost : r.hostname with
  | none =>
    simp only [mrhcHtml, Request.location, hhost] at hpage
    cases hpage
  | some hostname =>
    simp only [mrhcHtml, Request.location, hhost] at hpage
    cases hpage
    refine ⟨cString hostname, List.IsInfix.trans ?_ (flatten_slice _ 52 4)⟩
    refine ⟨ascii "          ", ascii "             ", ?_⟩
    have hopen : ascii "          url: 'http://" = ascii "          " ++ ascii "url: 'http://" := by
      decide
    have hclose : ascii "?k=' + e.key,             " =
        ascii "?k=' + e.key," ++ ascii "             " := by
      decide
    change _ = [ascii "          url: 'http://", cString hostname, cString r.unparsedUri,
      ascii "?k=' + e.key,             "].flatten
    rw [hopen, hclose]
    simp only [List.flatten_cons, List.flatten_nil, List.append_assoc, List.append_nil]

/-- What httpd takes as the query when a path without one is continued with a key. -/
theorem uriQuery_keyUri {path : Bytes} (hpath : uriQuery path = none) (key : Bytes) :
    uriQuery (keyUri path key) = some (ascii "k=" ++ key) := by
  have huri : keyUri path key = path ++ 0x3f :: (ascii "k=" ++ key) := by
    rw [keyUri, List.append_assoc]
    rfl
  rw [huri]
  exact uriQuery_append_none hpath _

private theorem splitString_piece {s piece : Bytes} {sep : UInt8}
    (h : piece ∈ splitString s [sep]) : sep ∉ piece ∧ ∀ b ∈ piece, b ∈ s :=
  ⟨fun hmem => splitString_clean h sep hmem (List.mem_singleton.mpr rfl),
    fun b hb => (of_mem_splitOnP h b hb).1⟩

private theorem paramKey_clean {param : Bytes} (h : 0x26 ∉ param) :
    0x26 ∉ paramKey param ∧ 0x3d ∉ paramKey param := by
  rw [paramKey]
  cases htext : paramText param with
  | none => simp
  | some text =>
    obtain ⟨hequals, hmem⟩ := splitString_piece (List.mem_of_getElem? htext)
    cases text with
    | nil => decide
    | cons c text => exact ⟨fun hand => h (hmem _ hand), hequals⟩

theorem mrhcQuery_key_clean {r : Request} {operation : VncOperation}
    (h : mrhcQuery r = .ok operation) : 0x26 ∉ operation.key ∧ 0x3d ∉ operation.key := by
  obtain ⟨-, rfl⟩ := mrhcQuery_params h
  rw [foldl_withParam_key]
  cases hlast : lastWith (fun param => decide (paramName param = ascii "k")) r.params with
  | none => simp
  | some param =>
    have hparam := (of_lastWith hlast).1
    rw [Request.params] at hparam
    cases hquery : r.query with
    | none => simp [hquery] at hparam
    | some query =>
      rw [hquery] at hparam
      exact paramKey_clean (splitString_piece hparam).1

/-- A key survives exactly when it has no separator in it. -/
theorem keySurvives_iff {key : Bytes} (hne : key ≠ []) (hzero : 0 ∉ key) :
    KeySurvives key ↔ 0x26 ∉ key ∧ 0x3d ∉ key := by
  constructor
  · intro h
    obtain ⟨operation, hread, hkey⟩ := h (imageRequest (ascii "k=" ++ key)) rfl
    exact hkey ▸ mrhcQuery_key_clean hread
  · rintro ⟨hand, hequals⟩ r hr
    have hname : PlainText (ascii "k") := ⟨by decide, by decide, by decide⟩
    let p : QueryPair := ⟨ascii "k", key, hname, ⟨hzero, hand, hequals⟩⟩
    have hnumeric : ∀ q ∈ [p], q.Numeric := by
      intro q hq hnumber
      rw [List.mem_singleton.mp hq] at hnumber
      exact absurd hnumber (by decide : ascii "k" ∉ numberNames)
    have hrender : renderQuery [p] = ascii "k=" ++ key := List.append_nil _
    obtain ⟨operation, hread, hlast⟩ :=
      mrhcQuery_pairs hnumeric (hr.trans (congrArg some hrender.symm))
    have hvalue : lastValue (ascii "k") [p] = some key := rfl
    refine ⟨operation, hread, ?_⟩
    rw [hlast.key, lastKey, hvalue]
    cases key with
    | nil => exact absurd rfl hne
    | cons b key => rfl

/-- The page of a session sends a pressed key as its query, and the key survives exactly when it
has no separator in it. -/
theorem keyPress_survives_iff {r : Request} {client : VncClient} {page : Bytes}
    (hpage : mrhcHtml r client = .ok page) {key : Bytes} (hne : key ≠ []) (hzero : 0 ∉ key) :
    RequestsKey page (cString r.unparsedUri) ∧
      (uriQuery (cString r.unparsedUri) = none →
        uriQuery (keyUri (cString r.unparsedUri) key) = some (ascii "k=" ++ key)) ∧
      (KeySurvives key ↔ 0x26 ∉ key ∧ 0x3d ∉ key) :=
  ⟨mrhcHtml_requestsKey hpage, fun hpath => uriQuery_keyUri hpath key, keySurvives_iff hne hzero⟩

theorem keyPress_survives_enter :
    ∃ page, mrhcHtml (pageRequest none) rowScreen.client = .ok page ∧
      RequestsKey page (ascii "/mrhc") ∧ KeySurvives (ascii "Enter") := by
  refine ⟨_, rfl, ?_⟩
  obtain ⟨hrequests, -, hkey⟩ := @keyPress_survives_iff (pageRequest none)
    rowScreen.client _ rfl (ascii "Enter") (by decide) (by decide)
  exact ⟨hrequests, hkey.mpr (by decide)⟩

/-- An ampersand or an equals sign types a space. -/
theorem keyPress_separator :
    mrhcQuery (imageRequest (ascii "k=" ++ ascii "&")) = .ok ⟨0, 0, 0, keySpace⟩ ∧
      mrhcQuery (imageRequest (ascii "k=" ++ ascii "=")) = .ok ⟨0, 0, 0, keySpace⟩ ∧
      ¬KeySurvives (ascii "&") ∧ ¬KeySurvives (ascii "=") := by
  refine ⟨by decide, by decide, fun h => ?_, fun h => ?_⟩
  · exact absurd ((keySurvives_iff (by decide) (by decide)).mp h).1 (by decide)
  · exact absurd ((keySurvives_iff (by decide) (by decide)).mp h).2 (by decide)

end Mrhc
