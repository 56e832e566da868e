import Mathlib.Algebra.Order.Ring.Nat

/-!
# Places of rows

Pixels are stored row by row: the one in column `x` and row `y` of rows of `stride` is entry
`y * stride + x`.

* `place_lt`, `place_eq_iff` : each pixel has an entry of its own.
* `place_mem_span_iff` : which pixels the entries of one span belong to.
-/

namespace Marquee

theorem place_lt {width height x y : Nat} (hx : x < width) (hy : y < height) :
    y * width + x < width * height := by
  calc y * width + x < (y + 1) * width := by rw [Nat.succ_mul]; omega
    _ ≤ height * width := Nat.mul_le_mul_right _ hy
    _ = width * height := Nat.mul_comm _ _

/-- Places of rows are told apart by their column and their row. -/
theorem place_eq_iff {stride x x' y y' : Nat} (hx : x < stride) (hx' : x' < stride) :
    y * stride + x = y' * stride + x' ↔ x = x' ∧ y = y' := by
  constructor
  · intro h
    have hmod := congrArg (· % stride) h
    have hdiv := congrArg (· / stride) h
    simp only [Nat.mul_add_mod_of_lt hx, Nat.mul_add_mod_of_lt hx'] at hmod
    have hpos : 0 < stride := by omega
    simp only [Nat.mul_comm _ stride, Nat.mul_add_div hpos, Nat.div_eq_of_lt hx,
      Nat.div_eq_of_lt hx', Nat.add_zero] at hdiv
    exact ⟨hmod, hdiv⟩
  · rintro ⟨rfl, rfl⟩
    rfl

/-- A span of one row holds a place just if the place is in this row and in its columns. -/
theorem place_mem_span_iff {stride left count x : Nat} (hspan : left + count ≤ stride) (hx : x < stride)
    (top y : Nat) :
    top * stride + left ≤ y * stride + x ∧ y * stride + x < top * stride + left + count ↔
      y = top ∧ left ≤ x ∧ x < left + count := by
  rcases Nat.lt_trichotomy y top with hlt | rfl | hgt
  · have := Nat.mul_le_mul_right stride hlt
    rw [Nat.succ_mul] at this
    omega
  · omega
  · have := Nat.mul_le_mul_right stride hgt
    rw [Nat.succ_mul] at this
    omega

end Marquee
