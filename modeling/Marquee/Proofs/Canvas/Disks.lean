import Marquee.Proofs.Canvas.Drawing
import Marquee.Proofs.Canvas.SquareRoot
import Mathlib.Data.Nat.Sqrt

/-!
# The pixels of a disk

A disk is drawn band by band, and each band by two rectangles. `Canvas.Painted P color c d` says that
all of this changed exactly the pixels of `P`; it is closed under drawing one thing behind another.

* `Canvas.painted_drawBand` : one band, on both sides of the middle.
* `Canvas.InDisk` : the pixels of a disk, each by the one band that can hold it.
* `Canvas.painted_drawDiskBy` : all bands together are the pixels of the disk.
* `Canvas.disk_paints_its_bands` : **the disk, pixel by pixel, and its two mirrors.**
-/

namespace Marquee

theorem isqrt_eq_sqrt (n : Nat) : isqrt n = Nat.sqrt n :=
  Nat.eq_sqrt.2 ⟨isqrt_sq_le n, lt_isqrt_succ_sq n⟩

namespace Canvas

/-! ### Painting in one color -/

/-- From `c` to `d` the pixels of `P` took one color, and nothing else changed. -/
structure Painted (P : Int → Int → Prop) (color : UInt8) (c d : Canvas) : Prop where
  /-- The size is as before. -/
  sameSize : c.SameSize d
  /-- A pixel of `P` has the color now. -/
  inside : ∀ x y, P x y → d.get? x y = (c.get? x y).map fun _ => color
  /-- Any other pixel is as before. -/
  outside : ∀ x y, ¬P x y → d.get? x y = c.get? x y

section

variable {P Q : Int → Int → Prop} {color : UInt8} {c d e : Canvas}

theorem Painted.refl (c : Canvas) : Painted (fun _ _ => False) color c c :=
  ⟨⟨rfl, rfl⟩, fun _ _ h => h.elim, fun _ _ _ => rfl⟩

/-- Painting twice in one color is painting both parts. -/
theorem Painted.trans (h : Painted P color c d) (h' : Painted Q color d e) :
    Painted (fun x y => P x y ∨ Q x y) color c e := by
  refine ⟨⟨h'.sameSize.1.trans h.sameSize.1, h'.sameSize.2.trans h.sameSize.2⟩, ?_, ?_⟩
  · intro x y hxy
    by_cases hQ : Q x y
    · rw [h'.inside x y hQ]
      by_cases hP : P x y
      · rw [h.inside x y hP, Option.map_map]
        rfl
      · rw [h.outside x y hP]
    · rw [h'.outside x y hQ, h.inside x y (hxy.resolve_right hQ)]
  · intro x y hxy
    obtain ⟨hP, hQ⟩ := not_or.1 hxy
    rw [h'.outside x y hQ, h.outside x y hP]

/-- Which pixels are painted matters on the canvas only. -/
theorem Painted.congr (h : Painted P color c d)
    (hPQ : ∀ x y, (c.get? x y).isSome → (P x y ↔ Q x y)) : Painted Q color c d := by
  have hnone {x y : Int} (hout : ¬(c.get? x y).isSome) : c.get? x y = none ∧ d.get? x y = none := by
    have hout' : ¬(d.get? x y).isSome := by
      rwa [isSome_get?_iff, h.sameSize.1, h.sameSize.2, ← isSome_get?_iff]
    exact ⟨Option.not_isSome_iff_eq_none.1 hout, Option.not_isSome_iff_eq_none.1 hout'⟩
  refine ⟨h.sameSize, fun x y hQ => ?_, fun x y hQ => ?_⟩
  · by_cases hin : (c.get? x y).isSome
    · exact h.inside x y ((hPQ x y hin).2 hQ)
    · rw [(hnone hin).1, (hnone hin).2, Option.map_none]
  · by_cases hin : (c.get? x y).isSome
    · exact h.outside x y (mt (hPQ x y hin).1 hQ)
    · rw [(hnone hin).1, (hnone hin).2]

/-- On the canvas, a painted pixel has the new color. -/
theorem Painted.get? [∀ x y, Decidable (P x y)] (h : Painted P color c d) {x y : Int}
    (hx : 0 ≤ x ∧ x < c.width) (hy : 0 ≤ y ∧ y < c.height) :
    d.get? x y = if P x y then some color else c.get? x y := by
  split_ifs with hP
  · obtain ⟨old, hold⟩ := Option.isSome_iff_exists.1 (isSome_get?_iff.2 ⟨hx.1, hx.2, hy.1, hy.2⟩)
    rw [h.inside x y hP, hold, Option.map_some]
  · exact h.outside x y hP

end

/-- A rectangle whose corners come in order is painted. -/
theorem painted_fillRect (c : Canvas) (x₁ y₁ x₂ y₂ : Int) (hx : x₁ ≤ x₂) (hy : y₁ ≤ y₂)
    (color : UInt8) :
    Painted (fun x y => (x₁ ≤ x ∧ x < x₂) ∧ y₁ ≤ y ∧ y < y₂) color c
      (c.fillRect x₁ y₁ x₂ y₂ color) := by
  refine ⟨⟨rfl, rfl⟩, fun x y h => ?_, fun x y h => ?_⟩
  · rw [get?_fillRect, min_eq_left hx, max_eq_right hx, min_eq_left hy, max_eq_right hy, if_pos h]
  · rw [get?_fillRect, min_eq_left hx, max_eq_right hx, min_eq_left hy, max_eq_right hy, if_neg h]

/-! ### Bands -/

/-- How many columns lie between a column and the middle, which is to the left of column `middle`. -/
def offset (middle : Nat) (x : Int) : Nat :=
  if (middle : Int) ≤ x then (x - middle).toNat else (middle - 1 - x).toNat

/-- The pixel lies within `half` rows of the middle. -/
def Within (half middle : Nat) (y : Int) : Prop := -(half : Int) ≤ y - middle ∧ y - middle < half

/-- A band from column `inner` to before column `outer`, counted from the middle to both sides. -/
theorem painted_band (c : Canvas) (middle center half : Nat) {inner outer : Nat}
    (h : inner ≤ outer) (color : UInt8) :
    Painted (fun x y => (inner ≤ offset middle x ∧ offset middle x < outer) ∧ Within half center y)
      color c
      ((c.fillRect (middle + inner) (center - half) (middle + outer) (center + half) color).fillRect
        (middle - outer) (center - half) (middle - inner) (center + half) color) := by
  have hright := painted_fillRect c (middle + inner) (center - half) (middle + outer) (center + half)
    (by omega) (by omega) color
  -- the other rectangle holds the columns of the same offsets to the left
  refine (hright.trans (painted_fillRect _ _ _ _ _ (by omega) (by omega) color)).congr fun x y _ => ?_
  unfold offset Within
  split_ifs <;> omega

/-- The pixels of band `j` of a disk. -/
def InBand (root : Nat → Nat) (width height radius j : Nat) (x y : Int) : Prop :=
  (j * bandStep radius ≤ offset (width / 2) x ∧ offset (width / 2) x < (j + 1) * bandStep radius) ∧
    Within (halfChord root radius (j * bandStep radius)) (height / 2) y

theorem painted_drawBandAt (root : Nat → Nat) (radius : Nat) (color : UInt8) (c : Canvas) (j : Nat) :
    Painted (InBand root c.width c.height radius j) color c (drawBandAt root radius color c j) :=
  painted_band c _ _ _ (Nat.mul_le_mul_right _ j.le_succ) color

/-- Bands drawn in a row are painted together: by induction on their number, and the size that places
them stays. -/
theorem painted_bands (root : Nat → Nat) (radius : Nat) (color : UInt8) (c : Canvas) (n : Nat) :
    Painted (fun x y => ∃ j < n, InBand root c.width c.height radius j x y) color c
      ((List.range n).foldl (drawBandAt root radius color) c) := by
  induction n with
  | zero => exact (Painted.refl c).congr fun x y _ => by simp
  | succ n ih =>
    rw [List.range_succ, List.foldl_append]
    have hlast :=
      painted_drawBandAt root radius color ((List.range n).foldl (drawBandAt root radius color) c) n
    rw [ih.sameSize.1, ih.sameSize.2] at hlast
    refine (ih.trans hlast).congr fun x y _ => ?_
    constructor
    · rintro (⟨j, hj, hband⟩ | hband)
      · exact ⟨j, hj.trans n.lt_succ_self, hband⟩
      · exact ⟨n, n.lt_succ_self, hband⟩
    · rintro ⟨j, hj, hband⟩
      obtain hlt | rfl := Nat.lt_succ_iff_lt_or_eq.1 hj
      · exact .inl ⟨j, hlt, hband⟩
      · exact .inr hband

/-! ### Disks -/

/-- The pixels of a disk around the middle. A column belongs to the band of its offset, and the band is
as high as the chord at its inner edge; bands that would pass the radius are left out. -/
def InDisk (width height radius : Nat) (x y : Int) : Prop :=
  let step := max 1 (radius / 40)
  let j := offset (width / 2) x / step
  (j + 1) * step ≤ radius ∧ Within (Nat.sqrt (radius ^ 2 - (j * step) ^ 2)) (height / 2) y

instance (half middle : Nat) (y : Int) : Decidable (Within half middle y) :=
  inferInstanceAs (Decidable (_ ∧ _))

instance (width height radius : Nat) (x y : Int) : Decidable (InDisk width height radius x y) :=
  inferInstanceAs (Decidable (_ ∧ _))

theorem bandStep_eq (radius : Nat) : bandStep radius = max 1 (radius / 40) := Nat.max_comm _ _

section

variable {root : Nat → Nat} {limit radius : Nat}

/-- With roots that are exact up to the square of the radius, a pixel of a disk lies in one band, and
this band is drawn. -/
theorem inDisk_iff (exact_root : ∀ n ≤ limit ^ 2, root n = Nat.sqrt n) (hradius : radius ≤ limit)
    {width height : Nat} {x y : Int} :
    InDisk width height radius x y ↔
      ∃ j < radius / bandStep radius, InBand root width height radius j x y := by
  have hpos := bandStep_pos radius
  have hhalf (j : Nat) : halfChord root radius (j * bandStep radius) =
      Nat.sqrt (radius ^ 2 - (j * max 1 (radius / 40)) ^ 2) := by
    rw [halfChord, bandStep_eq, ← Nat.pow_two, ← Nat.pow_two]
    exact exact_root _ ((Nat.sub_le _ _).trans (Nat.pow_le_pow_left hradius 2))
  constructor
  · rintro ⟨hdrawn, hwithin⟩
    rw [← bandStep_eq] at hdrawn
    refine ⟨offset (width / 2) x / bandStep radius, (Nat.le_div_iff_mul_le hpos).2 hdrawn,
      ⟨Nat.div_mul_le_self _ _, ?_⟩, ?_⟩
    · rw [Nat.mul_comm]
      exact Nat.lt_mul_div_succ _ hpos
    · rw [hhalf, bandStep_eq]
      exact hwithin
  · rintro ⟨j, hj, ⟨hinner, houter⟩, hwithin⟩
    -- bands do not overlap, so the band is the one that the offset names
    have hband : offset (width / 2) x / bandStep radius = j := Nat.div_eq_of_lt_le hinner houter
    rw [bandStep_eq] at hband
    rw [hhalf, ← hband] at hwithin
    refine ⟨?_, hwithin⟩
    rw [hband, ← bandStep_eq]
    exact (Nat.le_div_iff_mul_le hpos).1 hj

theorem painted_drawDiskBy (exact_root : ∀ n ≤ limit ^ 2, root n = Nat.sqrt n)
    (hradius : radius ≤ limit) (c : Canvas) (color : UInt8) :
    Painted (InDisk c.width c.height radius) color c (c.drawDiskBy root radius color) := by
  rw [drawDiskBy_eq_foldl]
  exact (painted_bands root radius color c _).congr fun _ _ _ => (inDisk_iff exact_root hradius).symm

end

theorem painted_drawDisk (c : Canvas) (radius : Nat) (color : UInt8) :
    Painted (InDisk c.width c.height radius) color c (c.drawDisk radius color) :=
  painted_drawDiskBy (fun n _ => isqrt_eq_sqrt n) (Nat.le_refl radius) c color

/-- The disk takes the pixel, whatever its color is. -/
def DiskPaintsBy (c : Canvas) (root : Nat → Nat) (radius : Nat) (x y : Int) : Prop :=
  ∀ color, (c.drawDiskBy root radius color).get? x y = some color

/-- The same for a disk that is drawn with exact roots. -/
def DiskPaints (c : Canvas) (radius : Nat) (x y : Int) : Prop := c.DiskPaintsBy isqrt radius x y

/-- What takes a pixel in every color has painted it: the canvas cannot have had every color there. -/
theorem Painted.forall_get?_iff {P : Int → Int → Prop} {c : Canvas} {d : UInt8 → Canvas}
    (h : ∀ color, Painted P color c (d color)) {x y : Int} (hx : 0 ≤ x ∧ x < c.width)
    (hy : 0 ≤ y ∧ y < c.height) : (∀ color, (d color).get? x y = some color) ↔ P x y := by
  classical
  have hget (color : UInt8) := (h color).get? hx hy
  constructor
  · intro hpaints
    by_contra hout
    have hold (color : UInt8) : c.get? x y = some color := by
      rw [← hpaints color, hget, if_neg hout]
    exact absurd ((hold 0).symm.trans (hold 1)) (by decide)
  · intro hin color
    rw [hget, if_pos hin]

/-- The pixels that a disk takes are its pixels on the canvas. -/
theorem diskPaints_iff {c : Canvas} {radius : Nat} {x y : Int} (hx : 0 ≤ x ∧ x < c.width)
    (hy : 0 ≤ y ∧ y < c.height) :
    c.DiskPaints radius x y ↔ InDisk c.width c.height radius x y :=
  Painted.forall_get?_iff (painted_drawDisk c radius) hx hy

/-- Columns on both sides of the middle have the same offsets. -/
theorem offset_mirror (middle : Nat) (x : Int) : offset middle (2 * middle - 1 - x) = offset middle x := by
  unfold offset
  split_ifs <;> omega

theorem within_mirror {half middle : Nat} {y : Int} :
    Within half middle (2 * middle - 1 - y) ↔ Within half middle y := by
  unfold Within
  omega

/-- **A disk paints exactly its bands.** The square roots that it is drawn with are exact for all numbers
up to `limit ^ 2`, and the radius is at most `limit`; with a radius of 16 bits, this is 65535. Let the
canvas be `w` by `h`, and `s = max 1 (radius / 40)`. Columns are counted from the middle: the count `k`
is 0 for column `w / 2` to the right and for column `w / 2 - 1` to the left, and a column with count `k`
belongs to band `j = k / s`. Drawing a disk keeps the size, and sets the pixel to the color if its band
ends within the radius, `(j + 1) * s ≤ radius`, and its row is within `H` rows of the middle, where `H`
is the integer square root of `radius ^ 2 - (j * s) ^ 2`; every other pixel is as before. So the pixels
that the disk takes mirror each other from left to right and from top to bottom, as far as they are on
the canvas. -/
theorem disk_paints_its_bands {root : Nat → Nat} {limit : Nat}
    (exact_root : ∀ n ≤ limit ^ 2, root n = Nat.sqrt n) (c : Canvas) (radius : Nat)
    (hradius : radius ≤ limit) (color : UInt8) :
    let d := c.drawDiskBy root radius color
    let s := max 1 (radius / 40)
    let cx : Int := (c.width / 2 : Nat)
    let cy : Int := (c.height / 2 : Nat)
    (d.width = c.width ∧ d.height = c.height) ∧
      ∀ x y : Int, 0 ≤ x ∧ x < c.width → 0 ≤ y ∧ y < c.height →
        (∀ k : Nat, (k : Int) = (if cx ≤ x then x - cx else cx - 1 - x) →
          let j := k / s
          let H : Int := Nat.sqrt (radius ^ 2 - (j * s) ^ 2)
          d.get? x y =
            if (j + 1) * s ≤ radius ∧ -H ≤ y - cy ∧ y - cy < H then some color else c.get? x y) ∧
        (0 ≤ 2 * cx - 1 - x →
          (c.DiskPaintsBy root radius (2 * cx - 1 - x) y ↔ c.DiskPaintsBy root radius x y)) ∧
        (0 ≤ 2 * cy - 1 - y →
          (c.DiskPaintsBy root radius x (2 * cy - 1 - y) ↔ c.DiskPaintsBy root radius x y)) := by
  intro d s cx cy
  have hpainted := painted_drawDiskBy exact_root hradius c color
  have hpaints {x y : Int} (hx : 0 ≤ x ∧ x < c.width) (hy : 0 ≤ y ∧ y < c.height) :
      c.DiskPaintsBy root radius x y ↔ InDisk c.width c.height radius x y :=
    Painted.forall_get?_iff (painted_drawDiskBy exact_root hradius c) hx hy
  refine ⟨hpainted.sameSize, fun x y hx hy => ⟨fun k hk => ?_, fun hmirror => ?_, fun hmirror => ?_⟩⟩
  · have hoffset : offset (c.width / 2) x = k := by
      unfold offset
      split_ifs at hk ⊢ <;> omega
    subst hoffset
    exact hpainted.get? hx hy
  · have hx' : 0 ≤ 2 * cx - 1 - x ∧ 2 * cx - 1 - x < c.width := ⟨hmirror, by omega⟩
    rw [hpaints hx' hy, hpaints hx hy, InDisk, InDisk, offset_mirror]
  · have hy' : 0 ≤ 2 * cy - 1 - y ∧ 2 * cy - 1 - y < c.height := ⟨hmirror, by omega⟩
    rw [hpaints hx hy', hpaints hx hy, InDisk, InDisk, within_mirror]

/-- A disk of radius 81, drawn with exact roots, has bands of two columns. The fortieth is drawn, on both
sides, and of the next only one column would lie within the radius, so it is left out. -/
theorem disk_paints_its_bands_and_no_part_of_one :
    let c : Canvas := ⟨200, 3, .replicate 600 0, by decide, by decide, Array.size_replicate⟩
    let d := c.drawDisk 81 5
    (∀ n ≤ 65535 ^ 2, isqrt n = Nat.sqrt n) ∧ 81 ≤ 65535 ∧
      d.get? 179 0 = some 5 ∧ d.get? 180 0 = c.get? 180 0 ∧
      (c.DiskPaints 81 20 0 ↔ c.DiskPaints 81 179 0) := by
  intro c d
  have exact_root : ∀ n ≤ 65535 ^ 2, isqrt n = Nat.sqrt n := fun n _ => isqrt_eq_sqrt n
  have hradius : 81 ≤ 65535 := by decide
  obtain ⟨-, hpixels⟩ := disk_paints_its_bands exact_root c 81 hradius 5
  have hrow : (0 : Int) ≤ 0 ∧ (0 : Int) < c.height := by decide
  obtain ⟨hlast, hmirror, -⟩ := hpixels 179 0 (by decide) hrow
  obtain ⟨hnext, -⟩ := hpixels 180 0 (by decide) hrow
  have hchord : 1 ≤ Nat.sqrt (81 ^ 2 - (79 / max 1 (81 / 40) * max 1 (81 / 40)) ^ 2) :=
    Nat.le_sqrt.2 (by decide)
  have hmiddle : ((c.height / 2 : Nat) : Int) = 1 := by decide
  have hleft : 2 * ((c.width / 2 : Nat) : Int) - 1 - 179 = 20 := by decide
  rw [hleft] at hmirror
  refine ⟨exact_root, hradius, ?_, ?_, hmirror (by decide)⟩
  · refine (hlast 79 (by decide)).trans (if_pos ⟨by decide, ?_⟩)
    rw [hmiddle]
    omega
  · exact (hnext 80 (by decide)).trans (if_neg fun h => absurd h.1 (by decide))

end Canvas

end Marquee
