import Marquee.Proofs.Timeline.Windows
import Mathlib.Data.List.Chain

/-!
# The order in which cues are shown

A `Player` plays a timeline to which cues are appended meanwhile. The clock starts again at the tick
that finds the loop over, and not where the loop ended, so what is shown depends on the times of the
ticks.

* `Player.beats` : the ticks of a run, each with the player that it meets.
* `Beat.Leads` : how a tick hands over to the next one: the clock stays, and cues are appended at
  most. All ticks of a run do so (`Player.isChain_beats`).
* `Player.cues_in_order` : **between restarts no tick shows an earlier cue, and no cue is skipped by
  ticks that are close enough**.
-/

namespace Marquee

/-! ### The clock -/

/-- The two ways in which a tick shows a cue: the loop is over and starts again, or it goes on. -/
theorem Playhead.tick_of_shown {p : Playhead} {now i : Nat} {t : Timeline}
    (h : (p.tick now t).1 = some i) :
    (t.totalNs ≤ now - p.startNs.getD now ∧ t.cueAt? 0 = some i ∧
        (p.tick now t).2 = { p with startNs := some now }) ∨
      (t.cueAt? (now - p.startNs.getD now) = some i ∧
        (p.tick now t).2 = { p with startNs := some (p.startNs.getD now) }) := by
  unfold tick at h ⊢
  dsimp only at h ⊢
  split at h
  case isTrue => cases h
  case isFalse hplays =>
    split at h
    case isTrue hover => exact .inl ⟨hover, h, by rw [if_neg hplays, if_pos hover]⟩
    case isFalse hover => exact .inr ⟨h, by rw [if_neg hplays, if_neg hover]⟩

/-! ### Players and their ticks -/

/-- A timeline with its clock. -/
structure Player where
  /-- The clock. -/
  playhead : Playhead
  /-- The cues that are played. -/
  timeline : Timeline
  deriving DecidableEq, Repr

/-- What happens to a player. -/
inductive PlayInput where
  /-- A cue is appended. -/
  | push (cue : Cue)
  /-- The timeline is played, at a time in nanoseconds. -/
  | tick (now : Nat)
  deriving DecidableEq, Repr

/-- The time of an input; a cue that is appended has none. -/
def PlayInput.time? : PlayInput → Option Nat
  | .push _ => none
  | .tick now => some now

/-- A tick of a run. -/
structure Beat where
  /-- The player that it meets. -/
  player : Player
  /-- Its time, in nanoseconds. -/
  now : Nat
  deriving DecidableEq, Repr

namespace Beat

/-- The cue that the tick shows, if any. -/
def shown (b : Beat) : Option Nat := (b.player.playhead.tick b.now b.player.timeline).1

/-- The clock behind the tick. -/
def clock (b : Beat) : Playhead := (b.player.playhead.tick b.now b.player.timeline).2

/-- The tick finds the loop over, and starts the clock again. -/
def Restarts (b : Beat) : Prop :=
  ∃ start, b.player.playhead.startNs = some start ∧ b.player.timeline.totalNs ≤ b.now - start ∧
    b.clock.startNs = some b.now

/-- The tick hands its clock over to the next one, which may meet more cues. -/
structure Leads (a b : Beat) : Prop where
  playhead_eq : b.player.playhead = a.clock
  isPrefix : a.player.timeline.cues.toList <+: b.player.timeline.cues.toList

end Beat

namespace Player

/-- The player behind an input. -/
def step (p : Player) : PlayInput → Player
  | .push cue => { p with timeline := p.timeline.push cue }
  | .tick now => { p with playhead := (p.playhead.tick now p.timeline).2 }

/-- The ticks of a run, in order. -/
def beats (p : Player) : List PlayInput → List Beat
  | [] => []
  | .push cue :: rest => (p.step (.push cue)).beats rest
  | .tick now :: rest => ⟨p, now⟩ :: (p.step (.tick now)).beats rest

theorem map_now_beats (p : Player) (inputs : List PlayInput) :
    (p.beats inputs).map Beat.now = inputs.filterMap PlayInput.time? := by
  induction inputs generalizing p with
  | nil => rfl
  | cons i rest ih =>
    cases i with
    | push cue => exact ih _
    | tick now => exact congrArg (now :: ·) (ih _)

/-- Until the first tick the clock stays, and cues are appended at most. -/
theorem head?_beats {p : Player} {inputs : List PlayInput} {b : Beat}
    (h : b ∈ (p.beats inputs).head?) :
    b.player.playhead = p.playhead ∧ p.timeline.cues.toList <+: b.player.timeline.cues.toList := by
  induction inputs generalizing p with
  | nil => simp [beats] at h
  | cons i rest ih =>
    cases i with
    | push cue =>
      obtain ⟨hplayhead, hprefix⟩ := ih h
      refine ⟨hplayhead, List.IsPrefix.trans ?_ hprefix⟩
      simp [step, Timeline.push]
    | tick now =>
      obtain rfl : (⟨p, now⟩ : Beat) = b := by simpa [beats] using h
      exact ⟨rfl, List.prefix_rfl⟩

/-- Every tick of a run hands over to the next one. -/
theorem isChain_beats (p : Player) (inputs : List PlayInput) :
    (p.beats inputs).IsChain Beat.Leads := by
  induction inputs generalizing p with
  | nil => exact .nil
  | cons i rest ih =>
    cases i with
    | push cue => exact ih _
    | tick now =>
      refine List.isChain_cons.2 ⟨fun b hb => ?_, ih _⟩
      obtain ⟨hplayhead, hprefix⟩ := head?_beats hb
      exact ⟨hplayhead, hprefix⟩

end Player

/-! ### Two ticks in a row -/

namespace Beat

variable {a b : Beat} {i j : Nat}

/-- The clock behind a tick tells when the cue that it shows is active. -/
theorem exists_start_of_shown (h : a.shown = some i) :
    ∃ start, a.clock.startNs = some start ∧ a.player.timeline.cueAt? (a.now - start) = some i := by
  obtain ⟨-, hcue, hclock⟩ | ⟨hcue, hclock⟩ := Playhead.tick_of_shown h
  · exact ⟨a.now, congrArg Playhead.startNs hclock, by rwa [Nat.sub_self]⟩
  · exact ⟨_, congrArg Playhead.startNs hclock, hcue⟩

/-- What the second of two ticks does: it starts the loop again, or goes on by the clock of the
first. -/
theorem Leads.restarts_or_goes_on (h : a.Leads b) {start : Nat}
    (hstart : a.clock.startNs = some start) (hb : b.shown = some j) :
    (b.Restarts ∧ b.player.timeline.totalNs ≤ b.now - start ∧
        b.player.timeline.cueAt? 0 = some j) ∨
      (b.clock = a.clock ∧ b.player.timeline.cueAt? (b.now - start) = some j) := by
  have hrunning : b.player.playhead.startNs = some start := h.playhead_eq ▸ hstart
  have hdefault : b.player.playhead.startNs.getD b.now = start := by rw [hrunning]; rfl
  obtain ⟨hover, hcue, hclock⟩ | ⟨hcue, hclock⟩ := Playhead.tick_of_shown hb
  · rw [hdefault] at hover
    exact .inl ⟨⟨start, hrunning, hover, congrArg Playhead.startNs hclock⟩, hover, hcue⟩
  · rw [hdefault] at hcue hclock
    refine .inr ⟨?_, hcue⟩
    rw [clock, hclock, ← h.playhead_eq, ← hrunning]

/-- The second of two ticks shows no earlier cue, unless it starts the loop again. -/
theorem Leads.restarts_or_le (h : a.Leads b) (hnow : a.now ≤ b.now) (ha : a.shown = some i)
    (hb : b.shown = some j) :
    b.Restarts ∧ b.player.timeline.IsFirst j ∨ b.clock = a.clock ∧ i ≤ j := by
  obtain ⟨start, hstart, hi⟩ := exists_start_of_shown ha
  obtain ⟨hrestarts, -, hj⟩ | ⟨hclock, hj⟩ := h.restarts_or_goes_on hstart hb
  · exact .inl ⟨hrestarts, Timeline.isFirst_of_cueAt?_zero hj⟩
  · replace hi := Timeline.cueAt?_of_isPrefix h.isPrefix hi
    exact .inr ⟨hclock, Timeline.le_of_cueAt? (by omega) hi hj⟩

/-- Two ticks that are no further apart than any cue that lasts skip none. -/
theorem Leads.skips_none (h : a.Leads b) (hnow : a.now ≤ b.now) (ha : a.shown = some i)
    (hb : b.shown = some j)
    (total : (b.player.timeline.cues.toList.map Cue.durationNs).sum ≤ Counter.cap64)
    (near : ∀ cue ∈ b.player.timeline.cues, 0 < cue.durationNs → b.now - a.now ≤ cue.durationNs) :
    j = i ∨ b.player.timeline.IsNext i j ∨
      b.player.timeline.IsLast i ∧ b.player.timeline.IsFirst j := by
  obtain ⟨start, hstart, hi⟩ := exists_start_of_shown ha
  replace hi := Timeline.cueAt?_of_isPrefix h.isPrefix hi
  -- the windows of all cues behind the first one are still open at the second tick
  have hopen : ∀ k, i < k → b.player.timeline.Lasts k →
      b.now - start < b.player.timeline.windowStart (k + 1) := by
    rintro k hk ⟨cue, hget, hpos⟩
    have hcue := near cue (Array.mem_of_getElem? hget) hpos
    exact Timeline.lt_windowStart_of_lasts total hi hget hk (by omega)
  obtain ⟨-, hover, hj⟩ | ⟨-, hj⟩ := h.restarts_or_goes_on hstart hb
  · refine .inr (.inr ⟨⟨Timeline.lasts_of_cueAt? hi, fun k hk hlasts => ?_⟩,
      Timeline.isFirst_of_cueAt?_zero hj⟩)
    have := Timeline.windowStart_le_totalNs b.player.timeline (k + 1)
    have := hopen k hk hlasts
    omega
  · obtain rfl | hlt := (Timeline.le_of_cueAt? (by omega) hi hj).eq_or_lt
    · exact .inl rfl
    · refine .inr (.inl ⟨hlt, Timeline.lasts_of_cueAt? hj, fun k hk hkj hlasts => ?_⟩)
      have hend := hopen k hk hlasts
      have hbegin := b.player.timeline.windowStart_mono (show k + 1 ≤ j from hkj)
      have := (Timeline.cueAt?_eq_some_iff.1 hj).1
      omega

end Beat

/-! ### Runs -/

namespace Player

/-- **The cues of a run are shown in their order.** The times of the ticks do not decrease, and two
ticks that follow each other show cues. Then the second shows no earlier cue, unless it starts the
clock again and shows the first cue that lasts. If moreover no time of the loop is lost at the cap
of the clock, and the ticks are no further apart than the shortest cue that lasts, then no cue is
skipped: the second shows the same cue, the next one that lasts, or the first one after the last. -/
theorem cues_in_order (p : Player) {inputs : List PlayInput}
    (ordered : (inputs.filterMap PlayInput.time?).Pairwise (· ≤ ·)) {a b : Beat}
    (consecutive : [a, b] <:+: p.beats inputs) {i j : Nat} (ha : a.shown = some i)
    (hb : b.shown = some j) :
    (b.Restarts ∧ b.player.timeline.IsFirst j ∨ b.clock = a.clock ∧ i ≤ j) ∧
      ((b.player.timeline.cues.toList.map Cue.durationNs).sum < 2 ^ 64 →
        (∀ cue ∈ b.player.timeline.cues, 0 < cue.durationNs → b.now - a.now ≤ cue.durationNs) →
        j = i ∨ b.player.timeline.IsNext i j ∨
          b.player.timeline.IsLast i ∧ b.player.timeline.IsFirst j) := by
  obtain ⟨before, behind, hbeats⟩ := consecutive
  have hchain := p.isChain_beats inputs
  rw [← map_now_beats p, ← hbeats] at ordered
  rw [← hbeats] at hchain
  have hleads : a.Leads b := List.isChain_pair.1 hchain.left_of_append.right_of_append
  have hnow : a.now ≤ b.now := by
    simp only [List.map_append, List.pairwise_append] at ordered
    simpa using ordered.1.2.1
  exact ⟨hleads.restarts_or_le hnow ha hb, fun total near =>
    hleads.skips_none hnow ha hb (Nat.le_of_lt_succ total) near⟩

/-- The cue that is shown next is appended between the ticks, behind one without duration. -/
theorem cues_in_order_over_empty_cue :
    let p : Player := ⟨.new 1, ⟨#[⟨100, []⟩, ⟨0, []⟩]⟩⟩
    let inputs : List PlayInput := [.tick 7, .tick 67, .push ⟨50, []⟩, .tick 112]
    let a : Beat := ⟨⟨⟨some 7, 1⟩, p.timeline⟩, 67⟩
    let b : Beat := ⟨⟨⟨some 7, 1⟩, p.timeline.push ⟨50, []⟩⟩, 112⟩
    (inputs.filterMap PlayInput.time?).Pairwise (· ≤ ·) ∧ [a, b] <:+: p.beats inputs ∧
      a.shown = some 0 ∧ b.shown = some 2 ∧ ¬ b.Restarts ∧ b.player.timeline.IsNext 0 2 := by
  intro p inputs a b
  have ordered : (inputs.filterMap PlayInput.time?).Pairwise (· ≤ ·) := by decide
  have consecutive : [a, b] <:+: p.beats inputs := ⟨[⟨p, 7⟩], [], by decide +kernel⟩
  have ha : a.shown = some 0 := by decide +kernel
  have hb : b.shown = some 2 := by decide +kernel
  have hlasts : b.player.timeline.Lasts 2 := ⟨⟨50, []⟩, rfl, by decide⟩
  obtain ⟨hrestarts | ⟨hclock, -⟩, hnext⟩ := cues_in_order p ordered consecutive ha hb
  · exact absurd ⟨⟨100, []⟩, rfl, by decide⟩ (hrestarts.2.2 0 (by decide))
  · refine ⟨ordered, consecutive, ha, hb, ?_, ?_⟩
    · rintro ⟨start, -, -, hnow⟩
      exact absurd (hclock ▸ hnow : a.clock.startNs = some 112) (by decide +kernel)
    · obtain h | h | ⟨hlast, -⟩ := hnext (by decide +kernel) (by decide +kernel)
      · cases h
      · exact h
      · exact absurd hlasts (hlast.2 2 (by decide))

end Player

end Marquee
