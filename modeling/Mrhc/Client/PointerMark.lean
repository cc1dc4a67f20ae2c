import Mrhc.Client.DrawnImage

/-!
# The mark of the pointer

`draw_pointer` fills the boxes at the corners of five squares around the position. The coordinates
of a corner are 16-bit and wrap around, so that a corner can be far away.
-/

namespace Mrhc

/-- The corners at distance `d`, in the order in which they are drawn. -/
def markCornersAt (x y : UInt16) (d : Nat) : List Point :=
  let leftX := x - UInt16.ofNat d
  let rightX := x + UInt16.ofNat d
  let upperY := y - UInt16.ofNat d
  let lowerY := y + UInt16.ofNat d
  [⟨leftX.toNat, upperY.toNat⟩, ⟨rightX.toNat, upperY.toNat⟩, ⟨leftX.toNat, lowerY.toNat⟩,
    ⟨rightX.toNat, lowerY.toNat⟩]

def markCorners (x y : UInt16) : List Point := (List.range 5).flatMap (markCornersAt x y)

/-- The black box of a corner. -/
def drawCorner (lib : Platform) (image : Mat) (p : Point) : Mat :=
  lib.rectangle image p ⟨p.x + 1, p.y + 1⟩ ⟨0, 0, 0⟩

/-- Within five columns and five rows of a position. -/
def NearPointer (x y : UInt16) (px py : Nat) : Prop :=
  (x.toNat ≤ px + 5 ∧ px ≤ x.toNat + 5) ∧ y.toNat ≤ py + 5 ∧ py ≤ y.toNat + 5

instance (x y : UInt16) (px py : Nat) : Decidable (NearPointer x y px py) :=
  inferInstanceAs (Decidable (_ ∧ _))

/-- `draw_pointer` changes no pixel but those near the pointer. -/
def MarksLocally (lib : Platform) (x y : UInt16) (s : Session) : Prop :=
  ∃ t, (drawPointer lib x y).run s = .ok true t ∧
    t.client.image.rows = s.client.image.rows ∧ t.client.image.cols = s.client.image.cols ∧
    ∀ px py, ¬NearPointer x y px py →
      t.client.image.pixel px py = s.client.image.pixel px py

/-- A coordinate at a signed distance, in 16 bits. -/
def coordinate (v : UInt16) (e : Int) : Nat := ((v.toNat + e) % 2 ^ 16).toNat

/-- No corner that wraps around is on an image of this size. -/
def CornersUnwrapped (x y : UInt16) (rows cols : Nat) : Prop :=
  ∀ d : Nat, d < 5 → ∀ e ∈ [-(d : Int), d], ∀ f ∈ [-(d : Int), d],
    coordinate x e < cols → coordinate y f < rows →
      (coordinate x e : Int) = x.toNat + e ∧ (coordinate y f : Int) = y.toNat + f

instance (x y : UInt16) (rows cols : Nat) : Decidable (CornersUnwrapped x y rows cols) :=
  inferInstanceAs (Decidable (∀ d : Nat, d < 5 → _))

private theorem drawMarks_eq (lib : Platform) (x y : UInt16) (image : Mat) :
    (List.range 5).foldl (drawMark lib x y) image =
      (markCorners x y).foldl (drawCorner lib) image := by
  rw [markCorners, List.foldl_flatMap]
  rfl

/-- The box of a corner covers the corner and its right, lower and diagonal neighbours. -/
def cornerCovers (rows cols : Nat) (k : Nat × Nat) (p : Point) : Bool :=
  k.1 < cols && k.2 < rows && p.x ≤ k.1 && k.1 ≤ p.x + 1 && p.y ≤ k.2 && k.2 ≤ p.y + 1

/-- The mark is black where a box covers the image. -/
theorem drawMarks_pixel {lib : Platform} (hbox : lib.FillsBox) (x y : UInt16) (image : Mat)
    (k : Nat × Nat) :
    let marked := (List.range 5).foldl (drawMark lib x y) image
    (marked.rows = image.rows ∧ marked.cols = image.cols) ∧
      marked.pixel k.1 k.2 =
        ((lastWith (cornerCovers image.rows image.cols k) (markCorners x y)).map
          fun _ => ⟨0, 0, 0⟩).getD (image.pixel k.1 k.2) := by
  have hbound : ∀ p : Point, p.x ≤ p.x + 1 ∧ p.y ≤ p.y + 1 :=
    fun p => ⟨Nat.le_succ _, Nat.le_succ _⟩
  rw [drawMarks_eq]
  refine foldl_overwrite (fun m : Mat => m.rows = image.rows ∧ m.cols = image.cols)
    (fun m k => m.pixel k.1 k.2) (cornerCovers image.rows image.cols) (fun _ => ⟨0, 0, 0⟩)
    ?_ ?_ (markCorners x y) ⟨rfl, rfl⟩ k
  · intro m p hm
    rw [drawCorner, hbox m _ _ _ (hbound p).1 (hbound p).2]
    exact hm
  · intro m p k hm
    rw [drawCorner, hbox m _ _ _ (hbound p).1 (hbound p).2]
    simp [fillBox, cornerCovers, hm.1, hm.2, and_assoc]

private theorem coordinate_sub (v : UInt16) (d : Nat) :
    (v - UInt16.ofNat d).toNat = coordinate v (-d) := by
  have hv := v.toNat_lt
  rw [UInt16.toNat_sub, UInt16.toNat_ofNat', coordinate]
  omega

private theorem coordinate_add (v : UInt16) (d : Nat) :
    (v + UInt16.ofNat d).toNat = coordinate v d := by
  have hv := v.toNat_lt
  rw [UInt16.toNat_add, UInt16.toNat_ofNat', coordinate]
  omega

theorem mem_markCorners {x y : UInt16} {p : Point} :
    p ∈ markCorners x y ↔ ∃ d : Nat, d < 5 ∧ ∃ e ∈ [-(d : Int), d], ∃ f ∈ [-(d : Int), d],
        p = ⟨coordinate x e, coordinate y f⟩ := by
  rw [markCorners, List.mem_flatMap]
  constructor
  · rintro ⟨d, hd, hp⟩
    have hlt := List.mem_range.mp hd
    refine ⟨d, hlt, ?_⟩
    simp only [markCornersAt, coordinate_sub, coordinate_add, List.mem_cons,
      List.not_mem_nil, or_false] at hp
    simp only [List.mem_cons, List.not_mem_nil, or_false, exists_eq_or_imp, exists_eq_left]
    tauto
  · rintro ⟨d, hlt, hp⟩
    refine ⟨d, List.mem_range.mpr hlt, ?_⟩
    simp only [List.mem_cons, List.not_mem_nil, or_false, exists_eq_or_imp, exists_eq_left] at hp
    simp only [markCornersAt, coordinate_sub, coordinate_add, List.mem_cons,
      List.not_mem_nil, or_false]
    tauto

private theorem drawPointer_origin (lib : Platform) (s : Session) :
    (drawPointer lib 0 0).run s = .ok true s := rfl

private theorem drawPointer_run (lib : Platform) {x y : UInt16} (h : ¬(x = 0 ∧ y = 0))
    (s : Session) :
    (drawPointer lib x y).run s = .ok true (s.update fun c =>
      let image := (List.range 5).foldl (drawMark lib x y) c.image
      { c with image := image, jpegBuf := lib.imencode image }) := by
  simp only [drawPointer, h, if_false]
  rfl

private theorem corner_near {x y : UInt16} {d : Nat} {e f : Int} {px py : Nat} (hd : d < 5)
    (he : e ∈ [-(d : Int), d]) (hf : f ∈ [-(d : Int), d])
    (hx : (coordinate x e : Int) = x.toNat + e) (hy : (coordinate y f : Int) = y.toNat + f)
    (hpx : coordinate x e ≤ px ∧ px ≤ coordinate x e + 1)
    (hpy : coordinate y f ≤ py ∧ py ≤ coordinate y f + 1) : NearPointer x y px py := by
  simp only [List.mem_cons, List.not_mem_nil, or_false] at he hf
  refine ⟨⟨?_, ?_⟩, ?_, ?_⟩ <;> omega

private theorem coordinate_unwrapped {v : UInt16} {d : Nat} {e : Int} (hd : d < 5)
    (he : e ∈ [-(d : Int), d])
    (hnear : v.toNat ≤ coordinate v e + 5 ∧ coordinate v e ≤ v.toNat + 5) :
    (coordinate v e : Int) = v.toNat + e := by
  have hv := v.toNat_lt
  simp only [List.mem_cons, List.not_mem_nil, or_false] at he
  unfold coordinate at hnear ⊢
  omega

private theorem marksLocally_of_unwrapped {lib : Platform} (hbox : lib.FillsBox) {x y : UInt16}
    (horigin : ¬(x = 0 ∧ y = 0)) {s : Session}
    (h : CornersUnwrapped x y s.client.image.rows s.client.image.cols) :
    MarksLocally lib x y s := by
  have hsize := (drawMarks_pixel hbox x y s.client.image (0, 0)).1
  refine ⟨_, drawPointer_run lib horigin s, hsize.1, hsize.2, fun px py hfar => ?_⟩
  have hpixel := (drawMarks_pixel hbox x y s.client.image (px, py)).2
  apply hpixel.trans
  rw [lastWith_eq_none.mpr, Option.map_none, Option.getD_none]
  intro p hp
  obtain ⟨d, hd, e, he, f, hf, rfl⟩ := mem_markCorners.mp hp
  by_contra hcovers
  simp only [cornerCovers, Bool.not_eq_false, Bool.and_eq_true, decide_eq_true_eq] at hcovers
  obtain ⟨⟨⟨⟨⟨hcol, hrow⟩, hleft⟩, hright⟩, hupper⟩, hlower⟩ := hcovers
  obtain ⟨hx, hy⟩ := h d hd e he f hf (by omega) (by omega)
  exact hfar (corner_near hd he hf hx hy ⟨hleft, hright⟩ ⟨hupper, hlower⟩)

/-- A client with a white image. -/
def whiteImage (rows cols : Nat) : Session where
  client := { VncClient.new [] 5900 [] .blank with image := ⟨rows, cols, fun _ _ => ⟨255, 255, 255⟩⟩ }
  conn := Socket.delivering []

private theorem unwrapped_of_marksLocally {lib : Platform} (hbox : lib.FillsBox) {x y : UInt16}
    (horigin : ¬(x = 0 ∧ y = 0)) {rows cols : Nat}
    (h : MarksLocally lib x y (whiteImage rows cols)) : CornersUnwrapped x y rows cols := by
  intro d hd e he f hf hcol hrow
  obtain ⟨t, ht, -, -, hlocal⟩ := h
  rw [drawPointer_run lib horigin, EStateM.Result.ok.injEq] at ht
  obtain ⟨-, rfl⟩ := ht
  have hnear : NearPointer x y (coordinate x e) (coordinate y f) := by
    by_contra hfar
    -- the corner itself is black now
    have hcorner : (⟨coordinate x e, coordinate y f⟩ : Point) ∈ markCorners x y :=
      mem_markCorners.mpr ⟨d, hd, e, he, f, hf, rfl⟩
    have hpixel := (drawMarks_pixel hbox x y (whiteImage rows cols).client.image
      (coordinate x e, coordinate y f)).2
    have hsame := hpixel.symm.trans (hlocal _ _ hfar)
    cases hlast : lastWith (cornerCovers rows cols (coordinate x e, coordinate y f))
        (markCorners x y) with
    | none =>
      have hnot := lastWith_eq_none.mp hlast _ hcorner
      simp [cornerCovers, hcol, hrow] at hnot
    | some p =>
      change ((lastWith (cornerCovers rows cols (coordinate x e, coordinate y f))
        (markCorners x y)).map fun _ => (⟨0, 0, 0⟩ : Scalar)).getD ⟨255, 255, 255⟩ =
          ⟨255, 255, 255⟩ at hsame
      rw [hlast, Option.map_some, Option.getD_some] at hsame
      exact absurd hsame (by decide)
  exact ⟨coordinate_unwrapped hd he hnear.1, coordinate_unwrapped hd hf hnear.2⟩

/-- A pointer on an image that leaves the last coordinates free is marked locally. -/
theorem drawPointer_local_onImage {lib : Platform} (hbox : lib.FillsBox) {x y : UInt16}
    {s : Session} (hx : x.toNat < s.client.image.cols) (hy : y.toNat < s.client.image.rows)
    (hcols : s.client.image.cols ≤ 65532) (hrows : s.client.image.rows ≤ 65532) :
    MarksLocally lib x y s := by
  by_cases horigin : x = 0 ∧ y = 0
  · obtain ⟨rfl, rfl⟩ := horigin
    exact ⟨s, drawPointer_origin lib s, rfl, rfl, fun _ _ _ => rfl⟩
  · apply marksLocally_of_unwrapped hbox horigin
    intro d hd e he f hf hcol hrow
    simp only [List.mem_cons, List.not_mem_nil, or_false] at he hf
    unfold coordinate at hcol hrow ⊢
    constructor <;> omega

/-- On every image of a size the mark changes only what is near the pointer exactly when there is no
mark, or none of its corners that wrap around is on the image. -/
theorem drawPointer_local_iff (lib : Platform) (hbox : lib.FillsBox) (x y : UInt16)
    (rows cols : Nat) :
    (∀ s : Session, s.client.image.rows = rows → s.client.image.cols = cols →
      MarksLocally lib x y s) ↔ (x = 0 ∧ y = 0) ∨ CornersUnwrapped x y rows cols := by
  constructor
  · intro h
    by_cases horigin : x = 0 ∧ y = 0
    · exact Or.inl horigin
    · exact Or.inr (unwrapped_of_marksLocally hbox horigin (h (whiteImage rows cols) rfl rfl))
  · rintro h s rfl rfl
    by_cases horigin : x = 0 ∧ y = 0
    · obtain ⟨rfl, rfl⟩ := horigin
      exact ⟨s, drawPointer_origin lib s, rfl, rfl, fun _ _ _ => rfl⟩
    · exact marksLocally_of_unwrapped hbox horigin (h.resolve_left horigin)

theorem drawPointer_local_corner : MarksLocally Platform.plain 3 5 (whiteImage 480 640) :=
  (drawPointer_local_iff Platform.plain Platform.plain_fillsBox 3 5 480 640).mpr
    (Or.inr (by decide)) (whiteImage 480 640) rfl rfl

/-- A pointer at the last column wraps around to the first columns of any image. -/
theorem drawPointer_wraps :
    ¬MarksLocally Platform.plain 65535 5 (whiteImage 480 640) ∧
      ∃ t, (drawPointer Platform.plain 65535 5).run (whiteImage 480 640) = .ok true t ∧
        t.client.image.pixel 0 4 = ⟨0, 0, 0⟩ := by
  refine ⟨fun h => ?_, _, drawPointer_run _ (by decide) _, by decide⟩
  have hunwrapped := unwrapped_of_marksLocally Platform.plain_fillsBox (by decide) h
  exact absurd hunwrapped (by decide)

end Mrhc
