import Marquee.Proofs.Canvas.Disks
import Mathlib.Data.List.Induction

/-!
# Shapes on top of each other

Each shape paints the pixels that it covers in its color and leaves all others, so of several shapes
that cover a pixel the last one is seen.

* `Canvas.InSector`, `Canvas.Covers` : the pixels of a sector and of any shape.
* `Canvas.painted_drawShape` : a shape paints what it covers.
* `Canvas.get?_drawShapes` : what is seen of several shapes.
* `Canvas.template_shows_last_shapes` : **a template shows at each pixel the last shape that covers it.**
-/

namespace Marquee

namespace Canvas

open Wire

/-! ### What shapes cover -/

/-- The pixel lies in the sector. Where a side is odd, the middle line belongs to the right and to the
bottom. -/
def InSector (width height : Nat) (x y : Int) : Sector → Prop
  | .topLeft => x < (width / 2 : Nat) ∧ y < (height / 2 : Nat)
  | .topRight => x ≥ (width / 2 : Nat) ∧ y < (height / 2 : Nat)
  | .bottomLeft => x < (width / 2 : Nat) ∧ y ≥ (height / 2 : Nat)
  | .bottomHalf => y ≥ (height / 2 : Nat)

instance (width height : Nat) (x y : Int) : DecidablePred (InSector width height x y)
  | .topLeft | .topRight | .bottomLeft => inferInstanceAs (Decidable (_ ∧ _))
  | .bottomHalf => inferInstanceAs (Decidable (_ ≥ _))

/-- The shape covers the pixel. -/
def Covers (width height : Nat) (x y : Int) : Shape → Prop
  | .disk radius _ => InDisk width height radius x y
  | .sector area _ => InSector width height x y area

instance (width height : Nat) (x y : Int) : DecidablePred (Covers width height x y)
  | .disk radius _ => inferInstanceAs (Decidable (InDisk width height radius x y))
  | .sector area _ => inferInstanceAs (Decidable (InSector width height x y area))

/-- The sector of the pixel, among those at the top and the bottom half. -/
def sectorAt (width height : Nat) (x y : Int) : Sector :=
  if y < (height / 2 : Nat) then if x < (width / 2 : Nat) then .topLeft else .topRight
  else .bottomHalf

theorem sectorAt_mem (width height : Nat) (x y : Int) :
    sectorAt width height x y ∈ [Sector.topLeft, .topRight, .bottomHalf] := by
  unfold sectorAt
  split_ifs <;> decide

theorem inSector_sectorAt (width height : Nat) (x y : Int) :
    InSector width height x y (sectorAt width height x y) := by
  unfold sectorAt
  split_ifs with htop hleft
  · exact ⟨hleft, htop⟩
  · exact ⟨Int.not_lt.1 hleft, htop⟩
  · exact Int.not_lt.1 htop

theorem eq_sectorAt {width height : Nat} {x y : Int} {area : Sector}
    (harea : area ∈ [Sector.topLeft, .topRight, .bottomHalf])
    (hin : InSector width height x y area) : area = sectorAt width height x y := by
  unfold sectorAt
  cases area with
  | topLeft => rw [if_pos hin.2, if_pos hin.1]
  | topRight => rw [if_pos hin.2, if_neg (Int.not_lt.2 hin.1)]
  | bottomHalf => rw [if_neg (Int.not_lt.2 hin)]
  | bottomLeft => exact absurd harea (by decide)

theorem painted_drawSector (c : Canvas) (area : Sector) (color : UInt8) :
    Painted (fun x y => InSector c.width c.height x y area) color c (c.drawSector area color) := by
  cases area with
  | topRight | topLeft | bottomLeft | bottomHalf =>
    refine (painted_fillRect c _ _ _ _ (by omega) (by omega) color).congr fun x y hin => ?_
    rw [isSome_get?_iff] at hin
    simp only [InSector]
    omega

/-- A shape paints the pixels that it covers. -/
theorem painted_drawShape (c : Canvas) (shape : Shape) :
    Painted (fun x y => Covers c.width c.height x y shape) shape.color c (c.drawShape shape) := by
  cases shape with
  | disk radius color => exact painted_drawDisk c radius color
  | sector area color => exact painted_drawSector c area color

/-! ### Several shapes -/

/-- Of several shapes the last one that covers a pixel is seen there, and without one the canvas: by
induction on the shapes from the last one backwards. -/
theorem get?_drawShapes (c : Canvas) (shapes : List Shape) {x y : Int} (hx : 0 ≤ x ∧ x < c.width)
    (hy : 0 ≤ y ∧ y < c.height) :
    (shapes.foldl drawShape c).get? x y =
      ((shapes.reverse.find? fun shape => Covers c.width c.height x y shape).map Shape.color).or
        (c.get? x y) := by
  induction shapes using List.reverseRecOn with
  | nil => rfl
  | append_singleton shapes shape ih =>
    obtain ⟨hwidth, hheight⟩ := sameSize_drawShapes c shapes
    have hlast := painted_drawShape (shapes.foldl drawShape c) shape
    rw [hwidth, hheight] at hlast
    rw [List.foldl_append, List.foldl_cons, List.foldl_nil,
      hlast.get? (by rwa [hwidth]) (by rwa [hheight]), List.reverse_append, List.reverse_singleton,
      List.singleton_append, List.find?_cons]
    -- the last shape decides, or leaves the pixel to the shapes before it
    by_cases hcovers : Covers c.width c.height x y shape
    · simp only [hcovers, if_true, decide_true, Option.map_some, Option.some_or]
    · simp only [hcovers, if_false, decide_false, ih]

/-! ### Templates -/

/-- **The last shape wins.** A template of size `n`, at least 1, is drawn on a canvas of `n` by `n`
pixels. Each of its pixels shows the color of the last shape that covers it, and the background if none
does. A disk covers the pixels that it takes when it is drawn, and the sectors on the left, on the right
and at the bottom share the pixels among them: each lies in exactly one. -/
theorem template_shows_last_shapes (t : Template) (hsize : 1 ≤ t.size) :
    let n := t.size
    ∃ c, ofTemplate t = .ok c ∧ c.width = n ∧ c.height = n ∧
      ∀ x < n, ∀ y < n,
        c.get? x y =
          some (((t.shapes.val.reverse.find? fun shape => Covers n n x y shape).map Shape.color).getD
            t.background) ∧
        (∀ radius color, Covers n n x y (.disk radius color) ↔ c.DiskPaints radius x y) ∧
        ∃! area, area ∈ [Sector.topLeft, .topRight, .bottomHalf] ∧ InSector n n x y area := by
  intro n
  obtain ⟨background, hfilled⟩ := exists_filled hsize hsize t.background
  have hdrawn : ofTemplate t = .ok (t.shapes.val.foldl drawShape background) := by
    rw [ofTemplate, hfilled]
    rfl
  obtain ⟨hwidth, hheight⟩ := size_of_ofTemplate hdrawn
  obtain ⟨hwidth₀, hheight₀⟩ := size_of_filled hfilled
  refine ⟨_, hdrawn, hwidth, hheight, fun x hx y hy => ⟨?_, fun radius color => ?_, ?_⟩⟩
  · have hcolumn : (0 : Int) ≤ x ∧ (x : Int) < background.width := by omega
    have hrow : (0 : Int) ≤ y ∧ (y : Int) < background.height := by omega
    rw [get?_drawShapes background _ hcolumn hrow, get?_of_filled hfilled hcolumn hrow, hwidth₀,
      hheight₀, Option.or_some]
  · rw [diskPaints_iff (by omega) (by omega), hwidth, hheight]
    rfl
  · refine ⟨sectorAt n n x y, ⟨sectorAt_mem .., inSector_sectorAt ..⟩, fun area harea => ?_⟩
    exact eq_sectorAt harea.1 harea.2

/-- On a template of odd size a disk covers the upper edge of the bottom half, and a sector covers the
right side of the disk. The corners at the left show the background and the bottom half. -/
theorem template_shows_last_shapes_of_odd_size :
    let t : Template :=
      ⟨0, 0, 5, 9, ⟨[.sector .bottomHalf 2, .disk 2 3, .sector .topRight 4], by decide⟩⟩
    1 ≤ t.size ∧ ∃ c, ofTemplate t = .ok c ∧ c.get? 2 2 = some 3 ∧ c.get? 2 1 = some 4 ∧
      c.get? 0 0 = some 9 ∧ c.get? 0 4 = some 2 := by
  intro t
  obtain ⟨c, hdrawn, -, -, hpixels⟩ := template_shows_last_shapes t (by decide)
  have hshows (x : Nat) (hx : x < 5) (y : Nat) (hy : y < 5) := (hpixels x hx y hy).1
  refine ⟨by decide, c, hdrawn, ?_, ?_, ?_, ?_⟩
  · exact (hshows 2 (by decide) 2 (by decide)).trans (by decide +kernel)
  · exact (hshows 2 (by decide) 1 (by decide)).trans (by decide +kernel)
  · exact (hshows 0 (by decide) 0 (by decide)).trans (by decide +kernel)
  · exact (hshows 0 (by decide) 4 (by decide)).trans (by decide +kernel)

end Canvas

end Marquee
