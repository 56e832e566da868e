import Marquee.Timeline
import Mathlib.Algebra.Order.BigOperators.Group.List
import Mathlib.Algebra.Order.Ring.Nat

/-!
# The windows of the cues

The window of a cue begins where the durations of all cues before it end, and no later than the cap
of the clock.

* `Timeline.windowStart` : where the window of a cue begins; later windows do not begin earlier
  (`Timeline.windowStart_mono`).
* `Timeline.cueAt?_eq_some_iff` : **the active cue is the one whose window holds the time**.
* `Timeline.totalNs_eq` : the loop is over where one more window would begin.
* `Timeline.Lasts` : the cue can be active; `IsFirst`, `IsNext` and `IsLast` are said of such cues.
* `Timeline.windowStart_of_isPrefix` : cues that are appended leave the windows as they are.
-/

namespace Marquee

namespace Timeline

/-! ### Where windows begin -/

/-- Where the window of the cue at an index begins, where the first window begins at `start`. -/
def boundary (start : Nat) (cues : List Cue) (index : Nat) : Nat :=
  min (start + ((cues.take index).map Cue.durationNs).sum) Counter.cap64

/-- Where the window of the cue at an index begins. -/
def windowStart (t : Timeline) (index : Nat) : Nat := boundary 0 t.cues.toList index

@[simp] theorem boundary_zero (start : Nat) (cues : List Cue) :
    boundary start cues 0 = min start Counter.cap64 := by
  simp [boundary]

@[simp] theorem boundary_cons (start : Nat) (cue : Cue) (cues : List Cue) (index : Nat) :
    boundary start (cue :: cues) (index + 1) = boundary (start + cue.durationNs) cues index := by
  simp [boundary, Nat.add_assoc]

theorem windowEnd_min (start : Nat) (cue : Cue) :
    windowEnd (min start Counter.cap64) cue = min (start + cue.durationNs) Counter.cap64 := by
  simp only [windowEnd, Counter.addUpTo]
  omega

theorem boundary_succ_of_get? {cues : List Cue} {index : Nat} {cue : Cue}
    (h : cues[index]? = some cue) (start : Nat) :
    boundary start cues (index + 1) = windowEnd (boundary start cues index) cue := by
  rw [boundary, boundary, windowEnd_min, List.take_add_one, h]
  simp [Nat.add_assoc]

theorem boundary_succ_of_length_le {cues : List Cue} {index : Nat} (h : cues.length ≤ index)
    (start : Nat) : boundary start cues (index + 1) = boundary start cues index := by
  rw [boundary, boundary, List.take_of_length_le h, List.take_of_length_le (by omega)]

theorem sum_take_le (cues : List Cue) (index : Nat) :
    ((cues.take index).map Cue.durationNs).sum ≤ (cues.map Cue.durationNs).sum :=
  ((List.take_sublist index cues).map Cue.durationNs).sum_le_sum (by simp)

theorem boundary_le_succ (start : Nat) (cues : List Cue) (index : Nat) :
    boundary start cues index ≤ boundary start cues (index + 1) := by
  cases h : cues[index]? with
  | none => exact (boundary_succ_of_length_le (List.getElem?_eq_none_iff.1 h) start).symm.le
  | some cue =>
    rw [boundary_succ_of_get? h]
    exact Counter.le_addUpTo _ (Nat.min_le_right _ _)

theorem boundary_mono (start : Nat) (cues : List Cue) : Monotone (boundary start cues) :=
  monotone_nat_of_le_succ (boundary_le_succ start cues)

/-- The search stops at the one window that holds the time. -/
theorem windowFrom_eq_some_iff (elapsed j : Nat) (cues : List Cue) (index start : Nat) :
    windowFrom elapsed index (min start Counter.cap64) cues = some j ↔
      ∃ k, j = index + k ∧
        boundary start cues k ≤ elapsed ∧ elapsed < boundary start cues (k + 1) := by
  induction cues generalizing index start with
  | nil =>
    simp only [windowFrom, reduceCtorEq, false_iff, not_exists]
    rintro k ⟨-, hle, hlt⟩
    exact absurd (hle.trans_lt hlt) (boundary_succ_of_length_le (by simp) start).le.not_gt
  | cons cue cues ih =>
    rw [windowFrom, windowEnd_min]
    split
    case isTrue hin =>
      constructor
      · rintro ⟨rfl⟩
        exact ⟨0, rfl, by simpa using hin⟩
      · rintro ⟨k, rfl, hle, -⟩
        -- every other window begins where this one ends, or later
        cases k with
        | zero => rfl
        | succ k =>
          rw [boundary_cons] at hle
          have := boundary_mono (start + cue.durationNs) cues (Nat.zero_le k)
          rw [boundary_zero] at this
          omega
    case isFalse hout =>
      rw [ih]
      constructor
      · rintro ⟨k, rfl, hk⟩
        exact ⟨k + 1, by omega, by simpa using hk⟩
      · rintro ⟨k, rfl, hk⟩
        cases k with
        | zero => exact absurd (by simpa using hk) hout
        | succ k => exact ⟨k, by omega, by simpa using hk⟩

/-- **The active cue is the one whose window holds the time.** -/
theorem cueAt?_eq_some_iff {t : Timeline} {elapsed j : Nat} :
    t.cueAt? elapsed = some j ↔ t.windowStart j ≤ elapsed ∧ elapsed < t.windowStart (j + 1) := by
  have h := windowFrom_eq_some_iff elapsed j t.cues.toList 0 0
  rw [Nat.zero_min] at h
  simp [cueAt?, windowStart, h]

theorem foldl_windowEnd (cues : List Cue) (start : Nat) :
    cues.foldl windowEnd (min start Counter.cap64) = boundary start cues cues.length := by
  induction cues generalizing start with
  | nil => simp
  | cons cue cues ih => rw [List.foldl_cons, windowEnd_min, ih, List.length_cons, boundary_cons]

/-- The loop is over where one more window would begin. -/
theorem totalNs_eq (t : Timeline) : t.totalNs = t.windowStart t.size := by
  have h := foldl_windowEnd t.cues.toList 0
  rw [Nat.zero_min] at h
  rw [totalNs, ← Array.foldl_toList, h]
  rfl

theorem windowStart_mono (t : Timeline) : Monotone t.windowStart := boundary_mono 0 _

theorem windowStart_succ {t : Timeline} {index : Nat} {cue : Cue} (h : t.get? index = some cue) :
    t.windowStart (index + 1) = windowEnd (t.windowStart index) cue :=
  boundary_succ_of_get? (by simpa [get?] using h) 0

/-- Below the cap windows are as long as their cues. -/
theorem windowStart_succ_of_sum_le {t : Timeline} {index : Nat} {cue : Cue}
    (h : t.get? index = some cue)
    (total : (t.cues.toList.map Cue.durationNs).sum ≤ Counter.cap64) :
    t.windowStart (index + 1) = t.windowStart index + cue.durationNs := by
  have hget : t.cues.toList[index]? = some cue := by simpa [get?] using h
  have htake := (sum_take_le t.cues.toList (index + 1)).trans total
  rw [List.take_add_one, hget] at htake
  rw [windowStart, windowStart, boundary, boundary, List.take_add_one, hget]
  simp only [Option.toList_some, List.map_append, List.map_cons, List.map_nil, List.sum_append,
    List.sum_singleton, Nat.zero_add] at htake ⊢
  omega

theorem windowStart_le_totalNs (t : Timeline) (index : Nat) : t.windowStart index ≤ t.totalNs := by
  rw [totalNs_eq, windowStart, windowStart, boundary, boundary]
  have hall : t.cues.toList.take t.size = t.cues.toList :=
    List.take_of_length_le (by simp [size])
  have hsum := sum_take_le t.cues.toList index
  rw [hall]
  omega

/-! ### Cues that last -/

/-- There is a cue at the index, and it has a duration. -/
def Lasts (t : Timeline) (index : Nat) : Prop :=
  ∃ cue, t.get? index = some cue ∧ 0 < cue.durationNs

/-- The cue is the first that lasts. -/
def IsFirst (t : Timeline) (index : Nat) : Prop :=
  t.Lasts index ∧ ∀ k < index, ¬ t.Lasts k

/-- The cue at `next` is the first behind the one at `index` that lasts. -/
def IsNext (t : Timeline) (index next : Nat) : Prop :=
  index < next ∧ t.Lasts next ∧ ∀ k, index < k → k < next → ¬ t.Lasts k

/-- The cue is the last that lasts. -/
def IsLast (t : Timeline) (index : Nat) : Prop :=
  t.Lasts index ∧ ∀ k, index < k → ¬ t.Lasts k

/-- Only cues that last have a window with a time in it. -/
theorem lasts_of_windowStart_lt {t : Timeline} {index : Nat}
    (h : t.windowStart index < t.windowStart (index + 1)) : t.Lasts index := by
  cases hget : t.get? index with
  | none =>
    have hlength : t.cues.toList.length ≤ index := by simpa [get?] using hget
    exact absurd h (boundary_succ_of_length_le hlength 0).le.not_gt
  | some cue =>
    refine ⟨cue, hget, Nat.pos_of_ne_zero fun hzero => ?_⟩
    rw [windowStart_succ hget, windowEnd, Counter.addUpTo, hzero] at h
    omega

theorem lasts_of_cueAt? {t : Timeline} {elapsed j : Nat} (h : t.cueAt? elapsed = some j) :
    t.Lasts j :=
  have ⟨hle, hlt⟩ := cueAt?_eq_some_iff.1 h
  lasts_of_windowStart_lt (hle.trans_lt hlt)

/-- A loop begins with the first cue that lasts. -/
theorem isFirst_of_cueAt?_zero {t : Timeline} {j : Nat} (h : t.cueAt? 0 = some j) :
    t.IsFirst j := by
  refine ⟨lasts_of_cueAt? h, ?_⟩
  rintro k hk ⟨cue, hget, hpos⟩
  -- a cue before it that lasts would move its window away from the begin
  have hstart : t.windowStart (k + 1) ≤ 0 :=
    (t.windowStart_mono hk).trans (cueAt?_eq_some_iff.1 h).1
  rw [windowStart_succ hget, windowEnd, Counter.addUpTo, Counter.cap64] at hstart
  omega

/-- The window of a cue behind the active one is not over before the time has moved by more than the
duration of that cue. -/
theorem lt_windowStart_of_lasts {t : Timeline} {index k elapsed later : Nat} {cue : Cue}
    (total : (t.cues.toList.map Cue.durationNs).sum ≤ Counter.cap64)
    (hactive : t.cueAt? elapsed = some index) (hget : t.get? k = some cue) (hk : index < k)
    (hlater : later ≤ elapsed + cue.durationNs) : later < t.windowStart (k + 1) := by
  have hend : elapsed < t.windowStart (index + 1) := (cueAt?_eq_some_iff.1 hactive).2
  have hbegin : t.windowStart (index + 1) ≤ t.windowStart k := t.windowStart_mono hk
  rw [windowStart_succ_of_sum_le hget total]
  omega

/-- Time does not lead back to an earlier cue. -/
theorem le_of_cueAt? {t : Timeline} {elapsed later i j : Nat} (hle : elapsed ≤ later)
    (hi : t.cueAt? elapsed = some i) (hj : t.cueAt? later = some j) : i ≤ j := by
  by_contra hlt
  have hstart : t.windowStart (j + 1) ≤ t.windowStart i := t.windowStart_mono (by omega)
  have := (cueAt?_eq_some_iff.1 hi).1
  have := (cueAt?_eq_some_iff.1 hj).2
  omega

/-! ### Appended cues -/

/-- Cues that are appended leave the windows as they are. -/
theorem windowStart_of_isPrefix {t u : Timeline} (h : t.cues.toList <+: u.cues.toList) {index : Nat}
    (hindex : index ≤ t.size) : u.windowStart index = t.windowStart index := by
  obtain ⟨more, hmore⟩ := h
  rw [windowStart, windowStart, boundary, boundary, ← hmore,
    List.take_append_of_le_length (by simpa [size] using hindex)]

theorem cueAt?_of_isPrefix {t u : Timeline} (h : t.cues.toList <+: u.cues.toList) {elapsed i : Nat}
    (hi : t.cueAt? elapsed = some i) : u.cueAt? elapsed = some i := by
  obtain ⟨cue, hget, -⟩ := lasts_of_cueAt? hi
  have hsize : i < t.size := (Array.getElem?_eq_some_iff.1 hget).1
  rw [cueAt?_eq_some_iff, windowStart_of_isPrefix h hsize.le, windowStart_of_isPrefix h hsize]
  exact cueAt?_eq_some_iff.1 hi

end Timeline

end Marquee
