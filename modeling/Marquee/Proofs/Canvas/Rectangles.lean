import Marquee.Proofs.Canvas.Drawing

/-!
# Filled rectangles

A rectangle is filled row by row, each row as one span of the data. Writing beside the data would be
silent, so this file also fills in a strict way, which gives up at a span that does not lie in the data.

* `Canvas.spanWithin?`, `Canvas.fillWithin?` : the strict filling; `Canvas.fillWithin?_eq_some` says that
  it never gives up, and leaves the same data.
* `Canvas.getElem?_row` : a row shows what single pixels show.
* `Canvas.rectangle_alone_changes` : **filling writes inside the data, and changes the rectangle alone.**
-/

namespace Marquee

namespace Canvas

/-! ### Strict filling -/

/-- Set the entries from `start` to before `stop`, unless one of them lies beside the data. -/
def spanWithin? (value : UInt8) (data : Array UInt8) (start stop : Nat) : Option (Array UInt8) :=
  if start ≤ stop ∧ stop ≤ data.size then some (fillSpan value data start (stop - start)) else none

/-- The data behind `fillRect`, unless a span of some row lies beside the data. -/
def fillWithin? (c : Canvas) (x₁ y₁ x₂ y₂ : Int) (value : UInt8) : Option (Array UInt8) :=
  let left := clip c.width (min x₁ x₂)
  let right := clip c.width (max x₁ x₂)
  let top := clip c.height (min y₁ y₂)
  let bottom := clip c.height (max y₁ y₂)
  (List.range' top (bottom - top)).foldlM
    (fun data y => spanWithin? value data (y * c.width + left) (y * c.width + right)) c.data

/-- Rows that lie in the data are filled one by one. -/
theorem foldlM_spanWithin? (value : UInt8) {stride left right : Nat} (hspan : left ≤ right)
    (hright : right ≤ stride) (data : Array UInt8) (top rows : Nat)
    (hrows : (top + rows) * stride ≤ data.size) :
    (List.range' top rows).foldlM
        (fun data y => spanWithin? value data (y * stride + left) (y * stride + right)) data =
      some (fillRows value stride left (right - left) data top rows) := by
  induction rows generalizing data top with
  | zero => rfl
  | succ rows ih =>
    -- the first row ends where the second one starts, or before that
    have hstop : top * stride + right ≤ data.size := by
      calc top * stride + right ≤ (top + 1) * stride := by rw [Nat.succ_mul]; omega
        _ ≤ (top + (rows + 1)) * stride := Nat.mul_le_mul_right _ (by omega)
        _ ≤ data.size := hrows
    have hfirst : spanWithin? value data (top * stride + left) (top * stride + right) =
        some (fillSpan value data (top * stride + left) (right - left)) := by
      rw [spanWithin?, if_pos ⟨by omega, hstop⟩, Nat.add_sub_add_left]
    rw [List.range'_succ, List.foldlM_cons, hfirst, fillRows]
    exact ih _ (top + 1) (by rw [size_fillSpan, Nat.add_right_comm]; exact hrows)

theorem clip_mono (limit : Nat) {a b : Int} (h : a ≤ b) : clip limit a ≤ clip limit b := by
  unfold clip
  omega

/-- **No span lies beside the data**, wherever the corners lie. -/
theorem fillWithin?_eq_some (c : Canvas) (x₁ y₁ x₂ y₂ : Int) (value : UInt8) :
    c.fillWithin? x₁ y₁ x₂ y₂ value = some (c.fillRect x₁ y₁ x₂ y₂ value).data := by
  have hspan : clip c.width (min x₁ x₂) ≤ clip c.width (max x₁ x₂) := clip_mono _ min_le_max
  refine foldlM_spanWithin? value hspan (Nat.min_le_right _ _) c.data _ _ ?_
  rw [c.size_eq, Nat.mul_comm]
  exact Nat.mul_le_mul_left _ (clip_add_sub_le c.height y₁ y₂)

/-! ### Rows -/

/-- A row shows what single pixels show. -/
theorem getElem?_row (c : Canvas) (x y : Nat) :
    (c.row y)[x]? = if x < c.width then c.get? x y else none := by
  rw [row, Array.getElem?_extract, get?, c.size_eq, Nat.mul_comm c.width]
  by_cases hx : x < c.width
  · by_cases hy : y < c.height
    · have hend : y * c.width + c.width ≤ c.height * c.width := by
        rw [← Nat.succ_mul]
        exact Nat.mul_le_mul_right _ hy
      rw [if_pos (by omega), if_pos hx, if_pos (by omega), Int.toNat_natCast, Int.toNat_natCast]
    · -- below the last row there is nothing
      have hstart : c.height * c.width ≤ y * c.width := Nat.mul_le_mul_right _ (by omega)
      rw [if_neg (by omega), if_pos hx, if_neg (by omega)]
  · rw [if_neg (by omega), if_neg hx]

/-! ### The rectangle alone -/

/-- **Filling writes inside the data, and changes the rectangle alone.** A canvas of any size is filled
between any two corners, in either order.

* No span of a row lies beside the data.
* The width, the height and the number of indices are as before.
* A pixel of the canvas gets the index if its column is between those of the corners, the higher one left
  out, and its row between their rows in the same way. What single look-ups and rows show elsewhere is
  as before. -/
theorem rectangle_alone_changes (c : Canvas) (x₁ y₁ x₂ y₂ : Int) (value : UInt8) :
    let d := c.fillRect x₁ y₁ x₂ y₂ value
    c.fillWithin? x₁ y₁ x₂ y₂ value = some d.data ∧
      (d.width = c.width ∧ d.height = c.height ∧ d.area = c.area) ∧
      (∀ x y : Int, d.get? x y =
        if (0 ≤ x ∧ x < c.width ∧ 0 ≤ y ∧ y < c.height) ∧
            (min x₁ x₂ ≤ x ∧ x < max x₁ x₂) ∧ min y₁ y₂ ≤ y ∧ y < max y₁ y₂ then some value
        else c.get? x y) ∧
      ∀ x y : Nat, (d.row y)[x]? =
        if (x < c.width ∧ y < c.height) ∧
            (min x₁ x₂ ≤ x ∧ x < max x₁ x₂) ∧ min y₁ y₂ ≤ y ∧ y < max y₁ y₂ then some value
        else (c.row y)[x]? := by
  intro d
  have hget (x y : Int) : d.get? x y =
      if (0 ≤ x ∧ x < c.width ∧ 0 ≤ y ∧ y < c.height) ∧
          (min x₁ x₂ ≤ x ∧ x < max x₁ x₂) ∧ min y₁ y₂ ≤ y ∧ y < max y₁ y₂ then some value
      else c.get? x y := by
    rw [get?_fillRect]
    by_cases hin : 0 ≤ x ∧ x < c.width ∧ 0 ≤ y ∧ y < c.height
    · obtain ⟨old, hold⟩ := Option.isSome_iff_exists.1 (isSome_get?_iff.2 hin)
      simp only [hold, Option.map_some, hin, and_self, true_and]
    · have hnone : c.get? x y = none := if_neg hin
      simp only [hnone, Option.map_none, hin, false_and, ite_self, if_false]
  have harea : d.area = c.area := by rw [area, area, d.size_eq, c.size_eq]; rfl
  refine ⟨fillWithin?_eq_some .., ⟨rfl, rfl, harea⟩, hget, fun x y => ?_⟩
  rw [getElem?_row, getElem?_row, hget]
  by_cases hx : x < c.width
  · have hcolumn : x < d.width := hx
    simp only [hcolumn, hx, if_true, Int.natCast_nonneg, true_and, Int.ofNat_lt]
  · have hcolumn : ¬ x < d.width := hx
    simp only [hcolumn, hx, if_false, false_and]

end Canvas

end Marquee
