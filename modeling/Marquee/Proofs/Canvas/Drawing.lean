import Marquee.Canvas.Drawing
import Marquee.Proofs.Places
import Mathlib.Tactic.SplitIfs

/-!
# What drawing leaves on a canvas

All drawing is filling of rectangles, so what is said of rectangles carries over to shapes and
templates.

* `Canvas.isSome_get?_iff` : every pixel of a canvas has an index, and nothing else has.
* `Canvas.get?_fillRect` : **filling writes exactly the pixels of the rectangle.**
* `Canvas.drawDiskBy_eq_foldl` : the loop that draws a disk makes one call for each of its bands.
* `Canvas.exists_ofPixels` : given pixels are shown row by row.
* `Canvas.All` : all pixels have indices of one kind. A shape only brings its own index
  (`Canvas.All.drawShape`), and a template those of its background and shapes (`Canvas.all_ofTemplate`).
-/

namespace Marquee

namespace Canvas

open Wire

/-! ### Pixels -/

/-- Every pixel of a canvas can be looked up. -/
theorem isSome_get?_iff {c : Canvas} {x y : Int} :
    (c.get? x y).isSome ↔ 0 ≤ x ∧ x < c.width ∧ 0 ≤ y ∧ y < c.height := by
  unfold get?
  split_ifs with h
  · obtain ⟨hx, hwidth, hy, hheight⟩ := h
    have hplace : y.toNat * c.width + x.toNat < c.data.size := by
      rw [c.size_eq]
      exact place_lt (by omega) (by omega)
    simp only [isSome_getElem?, hplace, hx, hwidth, hy, hheight, and_self]
  · simp only [Option.isSome_none, Bool.false_eq_true, h]

/-! ### Rectangles -/

/-- Filling rows changes exactly the entries of the rectangle. -/
theorem getElem?_fillRows (value : UInt8) {stride left count x : Nat} (data : Array UInt8)
    (hspan : left + count ≤ stride) (hx : x < stride) (top rows y : Nat)
    (hplace : y * stride + x < data.size) :
    (fillRows value stride left count data top rows)[y * stride + x]? =
      if (top ≤ y ∧ y < top + rows) ∧ left ≤ x ∧ x < left + count then some value
      else data[y * stride + x]? := by
  induction rows generalizing data top with
  | zero => rw [if_neg (by omega)]; rfl
  | succ rows ih =>
    rw [fillRows, ih _ _ (by rwa [size_fillSpan]), getElem?_fillSpan]
    have hiff := place_mem_span_iff hspan hx top y
    split_ifs <;> first | rfl | omega

theorem clip_iff {limit i : Nat} (hi : i < limit) (a b : Int) :
    clip limit (min a b) ≤ i ∧
        i < clip limit (min a b) + (clip limit (max a b) - clip limit (min a b)) ↔
      min a b ≤ i ∧ i < max a b := by
  simp only [clip]
  omega

theorem clip_add_sub_le (limit : Nat) (a b : Int) :
    clip limit (min a b) + (clip limit (max a b) - clip limit (min a b)) ≤ limit := by
  simp only [clip]
  omega

/-- **Filling writes exactly the pixels of the rectangle**, whichever way its corners are given and
wherever they lie. -/
theorem get?_fillRect (c : Canvas) (x₁ y₁ x₂ y₂ : Int) (value : UInt8) (x y : Int) :
    (c.fillRect x₁ y₁ x₂ y₂ value).get? x y =
      if (min x₁ x₂ ≤ x ∧ x < max x₁ x₂) ∧ min y₁ y₂ ≤ y ∧ y < max y₁ y₂ then
        (c.get? x y).map fun _ => value
      else c.get? x y := by
  by_cases hin : 0 ≤ x ∧ x < c.width ∧ 0 ≤ y ∧ y < c.height
  · have hsome := isSome_get?_iff.2 hin
    obtain ⟨old, hold⟩ := Option.isSome_iff_exists.1 hsome
    obtain ⟨hx, hwidth, hy, hheight⟩ := hin
    have hget (d : Canvas) (hw : d.width = c.width) (hh : d.height = c.height) :
        d.get? x y = d.data[y.toNat * c.width + x.toNat]? := by
      rw [get?, hw, hh, if_pos ⟨hx, hwidth, hy, hheight⟩]
    rw [hget c rfl rfl] at hold
    have hplace : y.toNat * c.width + x.toNat < c.data.size := (Array.getElem?_eq_some_iff.1 hold).1
    have hleft : x.toNat < c.width := by omega
    have htop : y.toNat < c.height := by omega
    have hcolumn := clip_iff hleft x₁ x₂
    have hrow := clip_iff htop y₁ y₂
    rw [Int.toNat_of_nonneg hx] at hcolumn
    rw [Int.toNat_of_nonneg hy] at hrow
    rw [hget (c.fillRect ..) rfl rfl, hget c rfl rfl, fillRect,
      getElem?_fillRows value c.data (clip_add_sub_le ..) hleft _ _ _ hplace, hold]
    simp only [hcolumn, hrow, and_comm, Option.map_some]
  · -- outside the canvas there is nothing to write
    have hnone (d : Canvas) (hw : d.width = c.width) (hh : d.height = c.height) : d.get? x y = none := by
      rw [get?, hw, hh, if_neg hin]
    rw [hnone (c.fillRect ..) rfl rfl, hnone c rfl rfl, Option.map_none, ite_self]

/-! ### Disks -/

section

variable (root : Nat → Nat) (radius : Nat) (color : UInt8)

/-- Draw band `j` of a disk. -/
def drawBandAt (c : Canvas) (j : Nat) : Canvas :=
  c.drawBand (j * bandStep radius) ((j + 1) * bandStep radius)
    (halfChord root radius (j * bandStep radius)) color

/-- The loop, once it has come to band `j`, draws the `n` bands from there on. The induction is on `n`:
each round leaves the column and the chord at which the next band begins. -/
theorem drawBands_eq_foldl (n j : Nat) (h : j + n = radius / bandStep radius) (c : Canvas) :
    drawBands root radius color c (j * bandStep radius) (halfChord root radius (j * bandStep radius))
        ((j + 1) * bandStep radius) =
      (List.range' j n).foldl (drawBandAt root radius color) c := by
  have hfits : (j + 1) * bandStep radius ≤ radius ↔ j + 1 ≤ radius / bandStep radius :=
    (Nat.le_div_iff_mul_le (bandStep_pos radius)).symm
  induction n generalizing j c with
  | zero => rw [drawBands, if_neg (by omega), List.range'_zero, List.foldl_nil]
  | succ n ih =>
    have hnext := ih (j + 1) (by omega) (drawBandAt root radius color c j)
      (Nat.le_div_iff_mul_le (bandStep_pos radius)).symm
    rw [Nat.succ_mul (j + 1)] at hnext
    rw [drawBands, if_pos (by omega), List.range'_succ, List.foldl_cons, ← hnext, drawBandAt]

/-- A disk is drawn by as many bands as fit within the radius, one behind the other. -/
theorem drawDiskBy_eq_foldl (c : Canvas) :
    c.drawDiskBy root radius color =
      (List.range (radius / bandStep radius)).foldl (drawBandAt root radius color) c := by
  have hloop := drawBands_eq_foldl root radius color _ 0 (Nat.zero_add _) c
  rwa [Nat.zero_mul, Nat.zero_add, Nat.one_mul, ← List.range_eq_range'] at hloop

end

/-! ### All pixels -/

/-- All pixels have indices of one kind. -/
def All (P : UInt8 → Prop) (c : Canvas) : Prop := ∀ x y index, c.get? x y = some index → P index

section

variable {P : UInt8 → Prop} {c : Canvas}

theorem All.fillRect (h : c.All P) {value : UInt8} (hvalue : P value) (x₁ y₁ x₂ y₂ : Int) :
    (c.fillRect x₁ y₁ x₂ y₂ value).All P := by
  intro x y index hindex
  rw [get?_fillRect] at hindex
  split_ifs at hindex
  · obtain ⟨_, _, rfl⟩ := Option.map_eq_some_iff.1 hindex
    exact hvalue
  · exact h x y index hindex

theorem All.drawDisk (h : c.All P) {color : UInt8} (hcolor : P color) (radius : Nat) :
    (c.drawDisk radius color).All P := by
  rw [Canvas.drawDisk, drawDiskBy_eq_foldl]
  refine List.foldlRecOn _ _ h ?_
  intro d hd j _
  exact (hd.fillRect hcolor _ _ _ _).fillRect hcolor _ _ _ _

/-- A shape brings its own index only. -/
theorem All.drawShape (h : c.All P) {shape : Shape} (hcolor : P shape.color) :
    (c.drawShape shape).All P := by
  cases shape with
  | disk radius color => exact h.drawDisk hcolor radius
  | sector area color => cases area <;> exact h.fillRect hcolor _ _ _ _

end

theorem all_filled {P : UInt8 → Prop} {width height : Nat} {value : UInt8} {c : Canvas}
    (hc : filled width height value = .ok c) (hvalue : P value) : c.All P := by
  unfold filled at hc
  split_ifs at hc
  injection hc with hc
  subst hc
  intro x y index hindex
  unfold get? at hindex
  split_ifs at hindex
  rw [Array.getElem?_replicate] at hindex
  split_ifs at hindex
  injection hindex with hindex
  exact hindex ▸ hvalue

/-! ### Sizes -/

/-- Both canvases have the same size. -/
def SameSize (c d : Canvas) : Prop := d.width = c.width ∧ d.height = c.height

theorem sameSize_drawDisk (c : Canvas) (radius : Nat) (color : UInt8) :
    c.SameSize (c.drawDisk radius color) := by
  rw [drawDisk, drawDiskBy_eq_foldl]
  refine List.foldlRecOn _ _ ⟨rfl, rfl⟩ ?_
  intro d hd j _
  simpa only [SameSize, drawBandAt, drawBand, width_fillRect, height_fillRect] using hd

theorem sameSize_drawShape (c : Canvas) (shape : Shape) : c.SameSize (c.drawShape shape) := by
  cases shape with
  | disk radius color => exact sameSize_drawDisk c radius color
  | sector area color => cases area <;> exact ⟨rfl, rfl⟩

theorem sameSize_drawShapes (c : Canvas) (shapes : List Shape) :
    c.SameSize (shapes.foldl drawShape c) := by
  refine List.foldlRecOn _ _ ⟨rfl, rfl⟩ fun d hd shape _ => ?_
  obtain ⟨hwidth, hheight⟩ := sameSize_drawShape d shape
  exact ⟨hwidth.trans hd.1, hheight.trans hd.2⟩

theorem size_of_filled {width height : Nat} {value : UInt8} {c : Canvas}
    (hc : filled width height value = .ok c) : c.width = width ∧ c.height = height := by
  unfold filled at hc
  split_ifs at hc
  injection hc with hc
  subst hc
  exact ⟨rfl, rfl⟩

/-- A canvas with given pixels has the size that was asked for. -/
theorem size_of_ofPixels {width height : Nat} {data : Array UInt8} {c : Canvas}
    (hc : ofPixels width height data = .ok c) : c.width = width ∧ c.height = height := by
  unfold ofPixels at hc
  split_ifs at hc
  injection hc with hc
  subst hc
  exact ⟨rfl, rfl⟩

/-! ### New canvases -/

theorem exists_filled {width height : Nat} (hwidth : 1 ≤ width) (hheight : 1 ≤ height)
    (value : UInt8) : ∃ c, filled width height value = .ok c :=
  ⟨_, dif_pos ⟨hwidth, hheight⟩⟩

/-- A canvas of one index shows it at each of its pixels. -/
theorem get?_of_filled {width height : Nat} {value : UInt8} {c : Canvas}
    (hc : filled width height value = .ok c) {x y : Int} (hx : 0 ≤ x ∧ x < c.width)
    (hy : 0 ≤ y ∧ y < c.height) : c.get? x y = some value := by
  obtain ⟨index, hindex⟩ :=
    Option.isSome_iff_exists.1 (isSome_get?_iff.2 ⟨hx.1, hx.2, hy.1, hy.2⟩)
  have hvalue : index = value := all_filled (P := (· = value)) hc rfl x y index hindex
  rw [hindex, hvalue]

/-- As many pixels as the size says make a canvas, if there are any, and it shows them row by row. -/
theorem exists_ofPixels {width height : Nat} {data : Array UInt8} (hwidth : 0 < width)
    (hheight : 0 < height) (hsize : data.size = width * height) :
    ∃ c, ofPixels width height data = .ok c ∧ c.width = width ∧ c.height = height ∧
      ∀ x < width, ∀ y < height, c.get? x y = data[y * width + x]? := by
  refine ⟨_, dif_pos ⟨⟨hwidth, hheight⟩, hsize⟩, rfl, rfl, fun x hx y hy => ?_⟩
  exact if_pos ⟨Int.natCast_nonneg x, Int.ofNat_lt.2 hx, Int.natCast_nonneg y, Int.ofNat_lt.2 hy⟩

/-! ### Templates -/

/-- A template is drawn on a canvas of one index. -/
theorem ofTemplate_eq_ok {t : Template} {c : Canvas} (hc : ofTemplate t = .ok c) :
    ∃ background, filled t.size t.size t.background = .ok background ∧
      c = t.shapes.val.foldl drawShape background := by
  unfold ofTemplate at hc
  cases hfilled : filled t.size t.size t.background with
  | error e => rw [hfilled] at hc; cases hc
  | ok background =>
    rw [hfilled] at hc
    injection hc with hc
    exact ⟨background, rfl, hc.symm⟩

theorem size_of_ofTemplate {t : Template} {c : Canvas} (hc : ofTemplate t = .ok c) :
    c.width = t.size ∧ c.height = t.size := by
  obtain ⟨background, hfilled, rfl⟩ := ofTemplate_eq_ok hc
  obtain ⟨hwidth, hheight⟩ := size_of_filled hfilled
  have hsize := sameSize_drawShapes background t.shapes.val
  exact ⟨hsize.1.trans hwidth, hsize.2.trans hheight⟩

/-- A template shows the indices of its background and its shapes only. -/
theorem all_ofTemplate {P : UInt8 → Prop} {t : Template} {c : Canvas} (hc : ofTemplate t = .ok c)
    (hbackground : P t.background) (hshapes : ∀ shape ∈ t.shapes.val, P shape.color) : c.All P := by
  obtain ⟨background, hfilled, rfl⟩ := ofTemplate_eq_ok hc
  refine List.foldlRecOn _ _ (all_filled hfilled hbackground) ?_
  intro d hd shape hshape
  exact hd.drawShape (hshapes shape hshape)

end Canvas

end Marquee
