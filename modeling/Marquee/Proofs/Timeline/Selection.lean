import Marquee.Proofs.Stage.Runs
import Marquee.Proofs.Timeline.Windows

/-!
# Which cue is selected

A tick asks the timeline twice: the durations of all cues together say whether the loop is over, and a
search along the windows finds the cue. Both stop at the cap of the clock, and this file says that they
agree, for all durations and wherever the clock stands.

* `Timeline.totalNs_pos_iff` : the loop takes time just if one of the cues does.
* `Timeline.exists_cueAt?` : every time before the end of the loop is in the window of a cue.
* `Playhead.Plays`, `Playhead.elapsed` : when a tick selects a cue, and for which time.
* `Playhead.tick_selects_window` : **a tick selects the one cue whose window holds the time**, and none
  only if there are too few cues or none that lasts.
-/

namespace Marquee

namespace Timeline

variable {t : Timeline}

theorem windowStart_zero (t : Timeline) : t.windowStart 0 = 0 := by
  rw [windowStart, boundary_zero, Nat.zero_min]

/-- A loop takes time just if one of its cues does. -/
theorem totalNs_pos_iff : 0 < t.totalNs ↔ ∃ cue ∈ t.cues, 0 < cue.durationNs := by
  have hall : t.cues.toList.take t.size = t.cues.toList := List.take_of_length_le (by simp [size])
  have hcap : 0 < Counter.cap64 := by decide
  rw [totalNs_eq, windowStart, boundary, hall, Nat.zero_add, Nat.lt_min, and_iff_left hcap,
    List.sum_pos_iff_exists_pos_nat]
  simp

/-- The windows leave no gap before the one that begins last. -/
theorem exists_cueAt? {elapsed n : Nat} (h : elapsed < t.windowStart n) :
    ∃ i < n, t.cueAt? elapsed = some i := by
  induction n with
  | zero => simp [windowStart_zero] at h
  | succ n ih =>
    by_cases hbefore : elapsed < t.windowStart n
    · obtain ⟨i, hi, hcue⟩ := ih hbefore
      exact ⟨i, Nat.lt_succ_of_lt hi, hcue⟩
    · exact ⟨n, Nat.lt_succ_self n, cueAt?_eq_some_iff.2 ⟨Nat.le_of_not_lt hbefore, h⟩⟩

end Timeline

namespace Playhead

variable {p : Playhead} {t : Timeline}

/-- There are cues enough, and one of them lasts. -/
def Plays (p : Playhead) (t : Timeline) : Prop :=
  max p.minCues 1 ≤ t.size ∧ ∃ cue ∈ t.cues, 0 < cue.durationNs

/-- The time since the loop began, as a tick finds it: none before the clock runs, none if the time
went back, and none again when the loop is over. -/
def elapsed (p : Playhead) (now : Nat) (t : Timeline) : Nat :=
  if t.totalNs ≤ now - p.startNs.getD now then 0 else now - p.startNs.getD now

theorem plays_iff : p.Plays t ↔ ¬ (t.size < max p.minCues 1 ∨ t.totalNs = 0) := by
  rw [Plays, ← Timeline.totalNs_pos_iff, not_or, Nat.not_lt, Nat.pos_iff_ne_zero]

theorem fst_tick_of_plays (h : p.Plays t) (now : Nat) :
    (p.tick now t).1 = t.cueAt? (p.elapsed now t) := by
  unfold tick elapsed
  simp only [if_neg (plays_iff.1 h)]
  split <;> rfl

theorem fst_tick_of_not_plays (h : ¬ p.Plays t) (now : Nat) : (p.tick now t).1 = none := by
  unfold tick
  simp only [if_pos (not_not.1 (mt plays_iff.2 h))]

/-- A tick that plays finds a time of the loop, so its search ends at a cue. -/
theorem exists_shown_of_plays (h : p.Plays t) (now : Nat) :
    ∃ i < t.size, (p.tick now t).1 = some i ∧ t.cueAt? (p.elapsed now t) = some i := by
  have hpos : 0 < t.totalNs := Timeline.totalNs_pos_iff.2 h.2
  have hlt : p.elapsed now t < t.windowStart t.size := by
    rw [← Timeline.totalNs_eq, elapsed]
    split <;> omega
  obtain ⟨i, hi, hcue⟩ := Timeline.exists_cueAt? hlt
  exact ⟨i, hi, (fst_tick_of_plays h now).trans hcue, hcue⟩

/-- **Which cue a tick selects.** Whatever cues there are, wherever the clock stands and whatever the
time, a tick selects a cue exactly when there are as many cues as are asked for, at least one, and one of
them lasts. The cue is then a stored one, and the only one whose window holds the time since the loop
began. So a stage that is played finds each cue that its clock selects, and tells its index. -/
theorem tick_selects_window (p : Playhead) (now : Nat) (t : Timeline) :
    ((p.tick now t).1.isSome ↔ max p.minCues 1 ≤ t.size ∧ ∃ cue ∈ t.cues, 0 < cue.durationNs) ∧
      (∀ i, (p.tick now t).1 = some i → i < t.size ∧
        ∀ j, t.windowStart j ≤ p.elapsed now t ∧ p.elapsed now t < t.windowStart (j + 1) ↔ j = i) ∧
      ∀ s : Stage, s.playhead = p → s.timeline = t →
        (s.dueCue now).isSome = (p.tick now t).1.isSome ∧ (s.tick now).1 = (p.tick now t).1 := by
  by_cases hplays : p.Plays t
  · obtain ⟨i, hi, hshown, hcue⟩ := exists_shown_of_plays hplays now
    refine ⟨iff_of_true (by rw [hshown]; rfl) hplays, ?_, ?_⟩
    · intro j hj
      obtain rfl : i = j := Option.some.inj (hshown.symm.trans hj)
      refine ⟨hi, fun j => ?_⟩
      rw [← Timeline.cueAt?_eq_some_iff, hcue, Option.some.injEq, eq_comm]
    · rintro s rfl rfl
      have hdue : s.dueCue now = some s.timeline.cues[i] := by
        rw [Stage.dueCue, hshown]
        exact Array.getElem?_eq_getElem hi
      rw [Stage.fst_tick, hdue, hshown]
      exact ⟨rfl, rfl⟩
  · have hnone := fst_tick_of_not_plays hplays now
    refine ⟨iff_of_false (by rw [hnone]; exact Bool.false_ne_true) hplays, by simp [hnone], ?_⟩
    rintro s rfl rfl
    have hdue : s.dueCue now = none := by rw [Stage.dueCue, hnone, Option.bind_none]
    rw [Stage.fst_tick, hdue, hnone]
    exact ⟨rfl, rfl⟩

/-- The durations together are beyond the cap, so the last window is empty. At the cap itself the loop is
over. -/
example :
    let t : Timeline := ⟨#[⟨2 ^ 63, []⟩, ⟨2 ^ 63, []⟩, ⟨5, []⟩]⟩
    (tick ⟨some 0, 3⟩ (2 ^ 64 - 2) t).1 = some 1 ∧ (tick ⟨some 0, 3⟩ (2 ^ 64 - 1) t).1 = some 0 := by
  decide

end Playhead

end Marquee
