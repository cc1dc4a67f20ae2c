import Mrhc.Client.Dialogues
import Mrhc.Client.Outgoing
import Mrhc.Client.Screenshot
import Mrhc.Handler.Answers
import Mrhc.Handler.QueryPairs
import Mrhc.Handler.ReadyClient

/-!
# A viewer of a remote screen

What the module is for: whoever opens a session sees the remote screen in the browser and operates
it from there. The viewer is given by what each action of the user makes the browser show and the
remote machine receive; the handler serves the requests of the page so.
-/

namespace Mrhc

/-- What a user does on the page of a session. The image is fetched when the page is shown, and
again from time to time. -/
inductive UserAction where
  | watch
  | refresh (time : Nat)
  | click (x y : UInt16) (button : UInt8)
  | press (key : Bytes)

namespace UserAction

/-- The query of the request that the page makes for an action. -/
def query : UserAction → Option Bytes
  | watch => none
  | refresh time => some (ascii "t=" ++ decimal time)
  | click x y button =>
    some (ascii "x=" ++ decimal x.toNat ++ ascii "&y=" ++ decimal y.toNat ++ ascii "&b=" ++
      decimal button.toNat)
  | press key => some (ascii "k=" ++ key)

/-- The actions that a page with an image of this size allows: the left and the right button on the
image, and keys that stand for themselves in a query. -/
def Possible (w h : Nat) : UserAction → Prop
  | click x y button => x.toNat < w ∧ y.toNat < h ∧ (button = 0 ∨ button = 2)
  | press key => key ≠ [] ∧ PlainText key
  | _ => True

/-- The action shows the screen anew. -/
def looks : UserAction → Bool
  | press _ => false
  | _ => true

/-- The operation that an action stands for. -/
def operation : UserAction → VncOperation
  | click x y button => ⟨x, y, button, []⟩
  | press key => ⟨0, 0, 0, key⟩
  | _ => VncOperation.zero

/-- The events that are sent for an action. A click at the origin is taken for none, and a key
without a code is not sent. -/
def events (lib : Platform) : UserAction → List ClientMessage
  | click x y button =>
    if x = 0 ∧ y = 0 then [] else [.pressButton button x y, .releaseButtons x y]
  | press key =>
    if convertKeyToCode lib key = 0 then []
    else [.pressKey (convertKeyToCode lib key), .releaseKey (convertKeyToCode lib key)]
  | _ => []

/-- What a viewer of a screen of this size sends for an action. -/
def messages (lib : Platform) (w h : UInt16) (a : UserAction) : List ClientMessage :=
  a.events lib ++ if a.looks then [.requestScreen w h] else []

theorem messages_platform (lib : Platform) (v : Visit) (w h : UInt16) (a : UserAction) :
    a.messages (v.platform lib) w h = a.messages lib w h := by
  cases a <;> rfl

end UserAction

/-- What a viewer shows after each action, from what it has shown before and the screens that the
remote machine has at the requests: the screen with the cross of the pointer on it, or after a key
press what has been shown before. -/
def viewerShows (encode : Mat → Bytes) (w h : Nat) :
    Bytes → List (Nat → Nat → UInt32) → List UserAction → List Bytes
  | _, _, [] => []
  | shown, screens, a :: as =>
    if a.looks then
      match screens with
      | [] => []
      | screen :: screens =>
        let image := encode ((screenshot w h screen).afterOperation a.operation)
        image :: viewerShows encode w h image screens as
    else shown :: viewerShows encode w h shown screens as

section

variable {encode : Mat → Bytes} {w h : Nat} {shown : Bytes} {screens : List (Nat → Nat → UInt32)}
  {a : UserAction}

theorem viewerShows_press (hlooks : a.looks = false) (as : List UserAction) :
    viewerShows encode w h shown screens (a :: as) =
      shown :: viewerShows encode w h shown screens as := by
  simp [viewerShows, hlooks]

theorem viewerShows_look (hlooks : a.looks = true) (screen : Nat → Nat → UInt32)
    (as : List UserAction) :
    viewerShows encode w h shown (screen :: screens) (a :: as) =
      let image := encode ((screenshot w h screen).afterOperation a.operation)
      image :: viewerShows encode w h image screens as := by
  simp [viewerShows, hlooks]

end

/-- The request is one that the page makes for an action. -/
structure Request.Performs (r : Request) (a : UserAction) : Prop where
  addressed : r.Addressed
  confirmed : mrhcConfirm r = true
  query : r.query = a.query

/-! The queries of the page. -/

private theorem decimal_plain (n : Nat) : PlainText (decimal n) where
  zero := fun h => absurd (isdigit_of_mem_decimal h) (by decide)
  ampersand := fun h => absurd (isdigit_of_mem_decimal h) (by decide)
  equals := fun h => absurd (isdigit_of_mem_decimal h) (by decide)

/-- A pair with a number for its value. -/
private def numeralPair (name : Bytes) (hname : PlainText name) (n : Nat) : QueryPair :=
  ⟨name, decimal n, hname, decimal_plain n⟩

private theorem numeralPair_numeric {name : Bytes} {hname : PlainText name} {n : Nat}
    (hn : name ∈ numberNames → (n : Int) ≤ numberBound name) :
    (numeralPair name hname n).Numeric := by
  intro h
  refine ⟨decimal_ne_nil n, fun b hb => isdigit_of_mem_decimal hb, ?_⟩
  have hvalue : digitsValue (numeralPair name hname n).value 0 = n := digitsValue_decimal n
  rw [hvalue]
  exact hn h

section

variable {r : Request}

private theorem mrhcQuery_refresh {time : Nat} (hr : r.query = (UserAction.refresh time).query) :
    mrhcQuery r = .ok VncOperation.zero := by
  let p := numeralPair (ascii "t") ⟨by decide, by decide, by decide⟩ time
  have hnumeric : ∀ q ∈ [p], q.Numeric := by
    intro q hq
    rw [List.mem_singleton.mp hq]
    exact numeralPair_numeric fun h => absurd h (by decide)
  have hrender : renderQuery [p] = ascii "t=" ++ decimal time := List.append_nil _
  obtain ⟨⟨x, y, button, key⟩, hread, hlast⟩ :=
    mrhcQuery_pairs hnumeric (hr.trans (congrArg some hrender.symm))
  have hx : x = 0 := UInt16.toNat_inj.mp (Int.natCast_inj.mp hlast.x)
  have hy : y = 0 := UInt16.toNat_inj.mp (Int.natCast_inj.mp hlast.y)
  have hbutton : button = 0 := UInt8.toNat_inj.mp (Int.natCast_inj.mp hlast.button)
  have hkey : key = [] := hlast.key
  rw [hread, hx, hy, hbutton, hkey]
  rfl

private theorem mrhcQuery_click {x y : UInt16} {button : UInt8}
    (hr : r.query = (UserAction.click x y button).query) :
    mrhcQuery r = .ok ⟨x, y, button, []⟩ := by
  let px := numeralPair (ascii "x") ⟨by decide, by decide, by decide⟩ x.toNat
  let py := numeralPair (ascii "y") ⟨by decide, by decide, by decide⟩ y.toNat
  let pb := numeralPair (ascii "b") ⟨by decide, by decide, by decide⟩ button.toNat
  have hnumeric : ∀ q ∈ [px, py, pb], q.Numeric := by
    have hxlt := x.toNat_lt
    have hylt := y.toNat_lt
    have hblt := button.toNat_lt
    have hbounds : numberBound (ascii "x") = 65535 ∧ numberBound (ascii "y") = 65535 ∧
        numberBound (ascii "b") = 255 := by decide
    simp only [List.forall_mem_cons, List.not_mem_nil, false_implies, implies_true, and_true]
    refine ⟨numeralPair_numeric fun _ => ?_, numeralPair_numeric fun _ => ?_,
      numeralPair_numeric fun _ => ?_⟩
    · omega
    · omega
    · omega
  have hrender : renderQuery [px, py, pb] = ascii "x=" ++ decimal x.toNat ++ ascii "&y=" ++
      decimal y.toNat ++ ascii "&b=" ++ decimal button.toNat := by
    simp [renderQuery, QueryPair.param, px, py, pb, numeralPair, List.intercalate, ascii]
  obtain ⟨⟨x', y', button', key⟩, hread, hlast⟩ :=
    mrhcQuery_pairs hnumeric (hr.trans (congrArg some hrender.symm))
  have hx : x' = x := UInt16.toNat_inj.mp
    (Int.natCast_inj.mp (hlast.x.trans (digitsValue_decimal x.toNat)))
  have hy : y' = y := UInt16.toNat_inj.mp
    (Int.natCast_inj.mp (hlast.y.trans (digitsValue_decimal y.toNat)))
  have hbutton : button' = button := UInt8.toNat_inj.mp
    (Int.natCast_inj.mp (hlast.button.trans (digitsValue_decimal button.toNat)))
  have hkey : key = [] := hlast.key
  rw [hread, hx, hy, hbutton, hkey]

private theorem mrhcQuery_press {key : Bytes} (hne : key ≠ []) (hplain : PlainText key)
    (hr : r.query = (UserAction.press key).query) : mrhcQuery r = .ok ⟨0, 0, 0, key⟩ := by
  let p : QueryPair := ⟨ascii "k", key, ⟨by decide, by decide, by decide⟩, hplain⟩
  have hnumeric : ∀ q ∈ [p], q.Numeric := by
    intro q hq hnumber
    rw [List.mem_singleton.mp hq] at hnumber
    exact absurd hnumber (by decide : ascii "k" ∉ numberNames)
  have hrender : renderQuery [p] = ascii "k=" ++ key := List.append_nil _
  obtain ⟨⟨x, y, button, key'⟩, hread, hlast⟩ :=
    mrhcQuery_pairs hnumeric (hr.trans (congrArg some hrender.symm))
  have hx : x = 0 := UInt16.toNat_inj.mp (Int.natCast_inj.mp hlast.x)
  have hy : y = 0 := UInt16.toNat_inj.mp (Int.natCast_inj.mp hlast.y)
  have hbutton : button = 0 := UInt8.toNat_inj.mp (Int.natCast_inj.mp hlast.button)
  have hlastKey : lastKey [p] = key := by
    have hvalue : lastValue (ascii "k") [p] = some key := rfl
    rw [lastKey, hvalue]
    cases key with
    | nil => exact absurd rfl hne
    | cons b key => rfl
  have hkey : key' = key := hlast.key.trans hlastKey
  rw [hread, hx, hy, hbutton, hkey]

/-- The queries of the page are read as the operations of its actions. -/
theorem mrhcQuery_action {a : UserAction} {w h : Nat} (hr : r.query = a.query)
    (ha : a.Possible w h) : mrhcQuery r = .ok a.operation := by
  cases a with
  | watch => rw [mrhcQuery, hr]; rfl
  | refresh time => exact mrhcQuery_refresh hr
  | click x y button => exact mrhcQuery_click hr
  | press key => exact mrhcQuery_press ha.1 ha.2 hr

end

end Mrhc
