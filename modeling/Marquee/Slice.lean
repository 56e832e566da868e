/-!
# Copying into arrays

`copyAt` copies values over the entries of an array from a place on; what would lie beyond the end is
left out. The size stays (`size_copyAt`), and exactly the entries of the place change
(`getElem?_copyAt`).
-/

namespace Marquee

/-- Copy values over the entries from `start` on. -/
def copyAt {α : Type} (data : Array α) (start : Nat) : List α → Array α
  | [] => data
  | v :: values => copyAt (data.setIfInBounds start v) (start + 1) values

@[simp] theorem size_copyAt {α : Type} (data : Array α) (start : Nat) (values : List α) :
    (copyAt data start values).size = data.size := by
  induction values generalizing data start with
  | nil => rfl
  | cons v values ih => rw [copyAt, ih, Array.size_setIfInBounds]

/-- Copying changes exactly the entries of its place. -/
theorem getElem?_copyAt {α : Type} (data : Array α) (start : Nat) (values : List α) {i : Nat}
    (hi : i < data.size) :
    (copyAt data start values)[i]? =
      if start ≤ i ∧ i < start + values.length then values[i - start]? else data[i]? := by
  induction values generalizing data start with
  | nil => rw [if_neg (by simp)]; rfl
  | cons v values ih =>
    rw [copyAt, ih _ _ (by rwa [Array.size_setIfInBounds]), Array.getElem?_setIfInBounds,
      List.length_cons]
    by_cases hfirst : start = i
    · rw [if_neg (by omega), if_pos hfirst, if_pos (hfirst ▸ hi), if_pos (by omega), ← hfirst,
        Nat.sub_self, List.getElem?_cons_zero]
    · rw [if_neg hfirst]
      by_cases hlater : start + 1 ≤ i ∧ i < start + 1 + values.length
      · rw [if_pos hlater, if_pos (by omega), show i - start = i - (start + 1) + 1 by omega,
          List.getElem?_cons_succ]
      · rw [if_neg hlater, if_neg (by omega)]

end Marquee
