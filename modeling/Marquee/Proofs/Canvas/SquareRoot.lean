import Marquee.Canvas.SquareRoot
import Mathlib.Algebra.Group.Nat.Defs

/-!
# Square roots are what they are called

* `isqrtBits_bounds` : enough bits give the root, by induction on the bits;
* `isqrt_sq_le`, `lt_isqrt_succ_sq` : `isqrt n` is the largest number whose square is at most `n`.
-/

namespace Marquee

theorem isqrtBits_bounds (bits n : Nat) (h : n < 4 ^ bits) :
    isqrtBits bits n * isqrtBits bits n ≤ n ∧
      n < (isqrtBits bits n + 1) * (isqrtBits bits n + 1) := by
  induction bits generalizing n with
  | zero =>
    have : n = 0 := by simpa using h
    subst this
    simp [isqrtBits]
  | succ bits ih =>
    have hq : n / 4 < 4 ^ bits := by
      rw [Nat.pow_succ] at h
      omega
    obtain ⟨hlo, hhi⟩ := ih (n / 4) hq
    simp only [isqrtBits]
    generalize isqrtBits bits (n / 4) = q at hlo hhi ⊢
    have e₁ : 2 * q * (2 * q) = 4 * (q * q) := by
      rw [Nat.mul_assoc 2 q, Nat.mul_left_comm q 2 q, ← Nat.mul_assoc]
    have e₂ : (2 * q + 1 + 1) * (2 * q + 1 + 1) = 4 * ((q + 1) * (q + 1)) := by
      rw [show 2 * q + 1 + 1 = 2 * (q + 1) by omega, Nat.mul_assoc 2 (q + 1),
        Nat.mul_left_comm (q + 1) 2 (q + 1), ← Nat.mul_assoc]
    split
    · rename_i hle
      exact ⟨hle, by omega⟩
    · rename_i hgt
      exact ⟨by omega, by omega⟩

theorem lt_four_pow (n : Nat) : n < 4 ^ (n.log2 / 2 + 1) := by
  have h₁ : n < 2 ^ (n.log2 + 1) := Nat.lt_log2_self
  have h₂ : 2 ^ (n.log2 + 1) ≤ 2 ^ (2 * (n.log2 / 2 + 1)) :=
    Nat.pow_le_pow_right (by decide) (by omega)
  rw [Nat.pow_mul] at h₂
  exact Nat.lt_of_lt_of_le h₁ h₂

theorem isqrt_sq_le (n : Nat) : isqrt n * isqrt n ≤ n :=
  (isqrtBits_bounds _ n (lt_four_pow n)).1

theorem lt_isqrt_succ_sq (n : Nat) : n < (isqrt n + 1) * (isqrt n + 1) :=
  (isqrtBits_bounds _ n (lt_four_pow n)).2

end Marquee
