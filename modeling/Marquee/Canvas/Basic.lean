import Marquee.Fault

/-!
# Canvases

A `Canvas` is a rectangle of palette indices, stored row by row. It is never empty, and it holds
exactly one index for each of its pixels.

* `Canvas.get?` and `Canvas.row` read it;
* `Canvas.fillRect` writes one index to a rectangle, whose corners may lie anywhere: it is clipped to
  the canvas. All drawing goes through it.
-/

namespace Marquee

/-- A rectangle of palette indices. -/
structure Canvas where
  /-- Pixels in a row. -/
  width : Nat
  /-- Number of rows. -/
  height : Nat
  /-- The palette indices, row by row. -/
  data : Array UInt8
  /-- There is at least one column. -/
  width_pos : 0 < width
  /-- There is at least one row. -/
  height_pos : 0 < height
  /-- There is one index for each pixel. -/
  size_eq : data.size = width * height
  deriving DecidableEq, Repr

namespace Canvas

/-- A canvas with the same index everywhere. -/
def filled (width height : Nat) (value : UInt8) : Except StageFault Canvas :=
  if h : 0 < width ∧ 0 < height then
    .ok ⟨width, height, Array.replicate (width * height) value, h.1, h.2, Array.size_replicate⟩
  else .error .emptyGraphic

/-- A canvas of index 0. -/
def blank (width height : Nat) : Except StageFault Canvas := filled width height 0

/-- The canvas with the given indices, row by row. -/
def ofPixels (width height : Nat) (data : Array UInt8) : Except StageFault Canvas :=
  if h : (0 < width ∧ 0 < height) ∧ data.size = width * height then
    .ok ⟨width, height, data, h.1.1, h.1.2, h.2⟩
  else .error .emptyGraphic

/-- The number of pixels. -/
def area (c : Canvas) : Nat := c.data.size

/-- The index at column `x` and row `y`, if that is a pixel. -/
def get? (c : Canvas) (x y : Int) : Option UInt8 :=
  if 0 ≤ x ∧ x < c.width ∧ 0 ≤ y ∧ y < c.height then
    c.data[y.toNat * c.width + x.toNat]?
  else none

/-- The indices of row `y`; beyond the last row there are none. -/
def row (c : Canvas) (y : Nat) : Array UInt8 :=
  c.data.extract (y * c.width) (y * c.width + c.width)

/-- Set all pixels to `value`. -/
def fill (c : Canvas) (value : UInt8) : Canvas :=
  { c with
    data := Array.replicate (c.width * c.height) value
    size_eq := Array.size_replicate }

/-! ### Rectangles -/

/-- Set `count` entries from `start` on. -/
def fillSpan (value : UInt8) (data : Array UInt8) (start : Nat) : (count : Nat) → Array UInt8
  | 0 => data
  | count + 1 => fillSpan value (data.setIfInBounds start value) (start + 1) count

/-- Set `count` entries of each of `rows` rows of `stride` entries, from column `left` and row
`top` on. -/
def fillRows (value : UInt8) (stride left count : Nat) (data : Array UInt8) (top : Nat) :
    (rows : Nat) → Array UInt8
  | 0 => data
  | rows + 1 =>
    fillRows value stride left count (fillSpan value data (top * stride + left) count) (top + 1)
      rows

@[simp] theorem size_fillSpan (value : UInt8) (data : Array UInt8) (start count : Nat) :
    (fillSpan value data start count).size = data.size := by
  induction count generalizing data start with
  | zero => rfl
  | succ count ih => simp [fillSpan, ih]

@[simp] theorem size_fillRows (value : UInt8) (stride left count : Nat) (data : Array UInt8)
    (top rows : Nat) : (fillRows value stride left count data top rows).size = data.size := by
  induction rows generalizing data top with
  | zero => rfl
  | succ rows ih => simp [fillRows, ih]

/-- The nearest number from `0` to `limit`. -/
def clip (limit : Nat) (x : Int) : Nat := min x.toNat limit

/-- Set the pixels from column `x₁` to before column `x₂` and from row `y₁` to before row `y₂`.
Corners may come in either order; what lies outside the canvas is left out. -/
def fillRect (c : Canvas) (x₁ y₁ x₂ y₂ : Int) (value : UInt8) : Canvas :=
  let left := clip c.width (min x₁ x₂)
  let right := clip c.width (max x₁ x₂)
  let top := clip c.height (min y₁ y₂)
  let bottom := clip c.height (max y₁ y₂)
  { c with
    data := fillRows value c.width left (right - left) c.data top (bottom - top)
    size_eq := by rw [size_fillRows, c.size_eq] }

@[simp] theorem width_fillRect (c : Canvas) (x₁ y₁ x₂ y₂ : Int) (value : UInt8) :
    (c.fillRect x₁ y₁ x₂ y₂ value).width = c.width := rfl

@[simp] theorem height_fillRect (c : Canvas) (x₁ y₁ x₂ y₂ : Int) (value : UInt8) :
    (c.fillRect x₁ y₁ x₂ y₂ value).height = c.height := rfl

/-- A span changes exactly its entries. -/
theorem getElem?_fillSpan (value : UInt8) (data : Array UInt8) (start count i : Nat) :
    (fillSpan value data start count)[i]? =
      if start ≤ i ∧ i < start + count ∧ i < data.size then some value else data[i]? := by
  induction count generalizing data start with
  | zero => rw [if_neg (by omega)]; rfl
  | succ count ih =>
    rw [fillSpan, ih, Array.size_setIfInBounds, Array.getElem?_setIfInBounds]
    by_cases h : start = i
    · subst h
      by_cases hs : start < data.size
      · rw [if_neg (by omega), if_pos rfl, if_pos hs, if_pos (by omega)]
      · rw [if_neg (by omega), if_pos rfl, if_neg hs, if_neg (by omega)]
        exact (Array.getElem?_eq_none (by omega)).symm
    · rw [if_neg h]
      by_cases hi : start + 1 ≤ i ∧ i < start + 1 + count ∧ i < data.size
      · rw [if_pos hi, if_pos (by omega)]
      · rw [if_neg hi, if_neg (by omega)]

end Canvas

end Marquee
