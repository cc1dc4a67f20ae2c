import Mrhc.Client.Outgoing
import Mrhc.Handler.Query

/-!
# Numbers of a pointer event

The integers that a query has for a position and a button are put into members of 16 and 8 bits,
and the button is a bit of a mask. What of them reaches the host.
-/

namespace Mrhc

/-- The integer that is written in the last parameter of a name, and 0 when there is none. -/
def WrittenLast (name : Bytes) (params : List Bytes) (n : Int) : Prop :=
  match lastWith (fun param => paramName param = name) params with
  | none => n = 0
  | some param =>
    ∃ text, paramText param = some text ∧ ∃ t : IntText, cString text = t.text ∧ t.value = n

/-- `operate` sends a pointer event. -/
def VncOperation.SendsPointer (operation : VncOperation) : Prop :=
  operation.key = [] ∧ ¬(operation.x = 0 ∧ operation.y = 0)

/-- What is pressed is this button at this position. -/
structure PressesAt (lib : Platform) (operation : VncOperation) (x y b : Int) : Prop where
  column_range : 0 ≤ x ∧ x ≤ 65535
  row_range : 0 ≤ y ∧ y ≤ 65535
  button_range : 0 ≤ b ∧ b ≤ 7
  /-- the shift is within the width of `int` -/
  shift : operation.button.toNat < 32
  press : ∃ (mask : UInt8) (column row : UInt16),
    (∀ i : Nat, mask.toNat.testBit i = true ↔ i = b) ∧ column.toNat = x ∧ row.toNat = y ∧
      ∀ s, (operate lib operation).run s = (sendAll
        [.pointerEvent mask column row, .releaseButtons column row]).run s

/-- The numbers of a pointer event reach the host. -/
def CarriesNumbers (lib : Platform) (operation : VncOperation) (x y b : Int) : Prop :=
  operation.SendsPointer → PressesAt lib operation x y b

/-! Which operations send a pointer event. -/

theorem operate_pointer (lib : Platform) {operation : VncOperation}
    (h : operation.SendsPointer) :
    operate lib operation = sendPointerEvent operation.x operation.y operation.button := by
  have hoperate : operate lib operation =
      require (sendPointerEvent operation.x operation.y operation.button) (pure true) := by
    simp only [operate, h.1, h.2, ne_eq, not_true_eq_false, if_false]
    rfl
  rw [hoperate, require_pure]

theorem operate_noPointer (lib : Platform) {operation : VncOperation}
    (h : ¬operation.SendsPointer) (s : Session) :
    ∃ script, (operate lib operation).run s = (sendAll script).run s ∧
      ∀ mask x y, ClientMessage.pointerEvent mask x y ∉ script := by
  have hrun := (operate_sendAll lib s operation).resolve_right fun hstop => h hstop.1
  refine ⟨_, hrun, ?_⟩
  intro mask x y
  by_cases hkey : operation.key = []
  · have hpointer : operation.x = 0 ∧ operation.y = 0 := by
      by_contra hpointer
      exact h ⟨hkey, hpointer⟩
    simp [ClientCall.script, hkey, hpointer]
  · simp only [ClientCall.script, ne_eq, hkey, not_false_eq_true, if_true]
    split <;> simp [ClientMessage.pressKey, ClientMessage.releaseKey]

private theorem mask_testBit {n : Nat} (h : n ≤ 7) (i : Nat) :
    (UInt8.ofNat (rfbPointerDown <<< n)).toNat.testBit i = true ↔ i = n := by
  have hshift : rfbPointerDown <<< n = 2 ^ n := Nat.one_shiftLeft n
  have hlt : 2 ^ n < 256 := Nat.pow_lt_pow_right (by decide) (by omega : n < 8)
  rw [hshift, UInt8.toNat_ofNat', Nat.mod_eq_of_lt hlt, Nat.testBit_two_pow, decide_eq_true_eq]
  exact eq_comm

private theorem operate_presses (lib : Platform) {operation : VncOperation}
    (hpointer : operation.SendsPointer) (hshift : operation.button.toNat < 32) (s : Session) :
    (operate lib operation).run s = (sendAll
      [.pressButton operation.button operation.x operation.y,
        .releaseButtons operation.x operation.y]).run s := by
  have hscript : ClientCall.script lib s.client.width s.client.height (.operate operation) =
      [.pressButton operation.button operation.x operation.y,
        .releaseButtons operation.x operation.y] := by
    simp [ClientCall.script, hpointer.1, hpointer.2, hshift]
  rw [← hscript]
  cases operate_sendAll lib s operation with
  | inl hrun => exact hrun
  | inr hstop => exact absurd hstop.2.1 (Nat.not_le.mpr hshift)

theorem writtenLast_iff {params : List Bytes} (hread : ∀ param ∈ params, ReadableParam param)
    {name : Bytes} (hname : name ∈ numberNames) {n : Int} :
    WrittenLast name params n ↔ lastNumber name params = n := by
  rw [WrittenLast, lastNumber]
  cases hlast : lastWith (fun param => decide (paramName param = name)) params with
  | none => exact eq_comm
  | some param =>
    obtain ⟨hmem, heq⟩ := of_lastWith hlast
    have hparam := (hread param hmem).1 (of_decide_eq_true heq ▸ hname)
    cases htext : paramText param with
    | none => exact absurd (by simp [paramNumber, paramInt, htext, Except.toOption]) hparam
    | some text =>
      cases hstoi : stoi text with
      | error e =>
        exact absurd (by simp [paramNumber, paramInt, htext, hstoi, Except.toOption]) hparam
      | ok m =>
        obtain ⟨⟨t, ht, hvalue⟩, -⟩ := stoi_ok_iff.mp hstoi
        have hnumber : paramNumber param = some m := by
          rw [paramNumber, paramInt, htext]
          exact congrArg Except.toOption hstoi
        simp only [Option.bind_some, hnumber, Option.getD_some, htext]
        constructor
        · rintro ⟨written, hwritten, u, hu, rfl⟩
          cases hwritten
          exact (value_of_stoi u hu hstoi).1.symm
        · rintro rfl
          exact ⟨text, rfl, t, ht, hvalue⟩

private theorem ofInt_eq_zero_iff (n : Int) : UInt16.ofInt n = 0 ↔ n % 65536 = 0 := by
  rw [← uint16_toNat_ofInt, ← UInt16.toNat_inj]
  simp

/-- The numbers of a query are in range. -/
structure NumbersInRange (x y b : Int) : Prop where
  column : 0 ≤ x ∧ x ≤ 65535
  row : 0 ≤ y ∧ y ≤ 65535
  button : 0 ≤ b ∧ b ≤ 7

private theorem presses_of_inRange (lib : Platform) {operation : VncOperation}
    (hpointer : operation.SendsPointer) {x y b : Int} (h : NumbersInRange x y b)
    (hx : operation.x = UInt16.ofInt x) (hy : operation.y = UInt16.ofInt y)
    (hb : operation.button = UInt8.ofInt b) : PressesAt lib operation x y b := by
  obtain ⟨⟨hx0, hx1⟩, ⟨hy0, hy1⟩, hb0, hb1⟩ := h
  have hcolumn : (operation.x.toNat : Int) = x := by
    rw [hx, uint16_toNat_ofInt]
    omega
  have hrow : (operation.y.toNat : Int) = y := by
    rw [hy, uint16_toNat_ofInt]
    omega
  have hbutton : (operation.button.toNat : Int) = b := by
    rw [hb, uint8_toNat_ofInt]
    omega
  refine ⟨⟨hx0, hx1⟩, ⟨hy0, hy1⟩, ⟨hb0, hb1⟩, by omega, _, operation.x, operation.y, ?_, hcolumn,
    hrow, operate_presses lib hpointer (by omega)⟩
  intro i
  rw [mask_testBit (by omega), ← hbutton]
  omega

/-- The numbers of a query reach the host exactly when the query has a key, its position wraps
around to the origin, or they are in range. -/
theorem pointerNumbers_iff (lib : Platform) {r : Request} {operation : VncOperation}
    (hread : mrhcQuery r = .ok operation) {x y b : Int}
    (hx : WrittenLast (ascii "x") r.params x) (hy : WrittenLast (ascii "y") r.params y)
    (hb : WrittenLast (ascii "b") r.params b) :
    CarriesNumbers lib operation x y b ↔
      (∃ param ∈ r.params, paramName param = ascii "k") ∨
        (x % 65536 = 0 ∧ y % 65536 = 0) ∨ NumbersInRange x y b := by
  obtain ⟨hparams, rfl⟩ := mrhcQuery_params hread
  rw [writtenLast_iff hparams (by decide)] at hx hy hb
  subst hx hy hb
  have hkey := foldl_withParam_key_eq_nil_iff hparams
  have hzero : ∀ n, UInt16.ofInt n = 0 ↔ n % 65536 = 0 := ofInt_eq_zero_iff
  rw [CarriesNumbers, VncOperation.SendsPointer, foldl_withParam_x, foldl_withParam_y, hzero, hzero]
  constructor
  · intro h
    by_contra hnone
    rw [not_or, not_or] at hnone
    obtain ⟨hnokey, hposition, hrange⟩ := hnone
    have hpress := h ⟨hkey.mpr fun param hmem hname => hnokey ⟨param, hmem, hname⟩, hposition⟩
    exact hrange ⟨hpress.column_range, hpress.row_range, hpress.button_range⟩
  · rintro (⟨param, hmem, hname⟩ | hposition | hrange) hpointer
    · exact absurd hname (hkey.mp hpointer.1 param hmem)
    · exact absurd hposition hpointer.2
    · refine presses_of_inRange lib ⟨hpointer.1, ?_⟩ hrange (foldl_withParam_x _)
        (foldl_withParam_y _) (foldl_withParam_button _)
      rw [foldl_withParam_x, foldl_withParam_y, hzero, hzero]
      exact hpointer.2

theorem pointerNumbers_press :
    PressesAt Platform.plain ⟨5, 7, 2, []⟩ 5 7 2 := by
  have hread : mrhcQuery (imageRequest (ascii "x=5&y=7&b=2")) = .ok ⟨5, 7, 2, []⟩ := by decide
  have hparams := (mrhcQuery_params hread).1
  have hnumbers : CarriesNumbers Platform.plain ⟨5, 7, 2, []⟩ 5 7 2 :=
    (pointerNumbers_iff Platform.plain hread
      ((writtenLast_iff hparams (by decide)).mpr (by decide))
      ((writtenLast_iff hparams (by decide)).mpr (by decide))
      ((writtenLast_iff hparams (by decide)).mpr (by decide))).mpr
      (Or.inr (Or.inr ⟨by decide, by decide, by decide⟩))
  exact hnumbers ⟨rfl, by decide⟩

/-- A column beyond 16 bits wraps around, the mask of the ninth button is empty, and the shift for
the thirty-third is undefined. -/
theorem pointerNumbers_lost :
    (mrhcQuery (imageRequest (ascii "x=65537&y=1")) = .ok ⟨1, 1, 0, []⟩ ∧
      WrittenLast (ascii "x") (imageRequest (ascii "x=65537&y=1")).params 65537 ∧
      ∀ y b, ¬CarriesNumbers Platform.plain ⟨1, 1, 0, []⟩ 65537 y b) ∧
    (mrhcQuery (imageRequest (ascii "x=5&y=5&b=8")) = .ok ⟨5, 5, 8, []⟩ ∧
      ∀ s, (operate Platform.plain ⟨5, 5, 8, []⟩).run s =
        (sendAll [.pointerEvent 0 5 5, .releaseButtons 5 5]).run s) ∧
    mrhcQuery (imageRequest (ascii "x=5&y=5&b=32")) = .ok ⟨5, 5, 32, []⟩ ∧
      ∀ s, (operate Platform.plain ⟨5, 5, 32, []⟩).run s = .error .badShift s := by
  have hread : mrhcQuery (imageRequest (ascii "x=65537&y=1")) = .ok ⟨1, 1, 0, []⟩ := by decide
  refine ⟨⟨hread, ?_, fun y b h => ?_⟩, ⟨by decide, fun s => ?_⟩, by decide, fun s => ?_⟩
  · exact (writtenLast_iff (mrhcQuery_params hread).1 (by decide)).mpr (by decide)
  · have hpress := h ⟨rfl, by decide⟩
    exact absurd hpress.column_range.2 (by decide)
  · exact operate_presses Platform.plain ⟨rfl, by decide⟩ (by decide) s
  · rw [operate_pointer Platform.plain ⟨rfl, by decide⟩]
    rfl

end Mrhc
