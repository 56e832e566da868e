import Marquee.Proofs.Wire.Timed

/-!
# Frames that are overdue

A frame is given up if its next byte is overdue, and the framer learns of that only when it looks at the
clock. This file says what such looks change, in terms of the inputs alone.

* `FramerInput.lastFed` : when the last byte arrived. While a frame is under way that is its own last
  byte (`Framer.Holds`, `Framer.holds_behind`).
* `Framer.uncounted` : a framer without its count of dropped bytes, which nothing it tells depends on.
* `FramerInput.Punctual` : no look at the clock finds a frame overdue.
* `Framer.timeouts_cut_stalled_frames` : **a frame is given up just if there is a limit and its last byte
  lies further back than that**; behind that the framer is as good as new, and punctual looks at the
  clock change nothing.
-/

namespace Marquee

namespace Wire

namespace FramerInput

/-- When the last byte arrived. -/
def lastFed (inputs : List FramerInput) : Option Nat := (arrivals inputs).getLast?.map Prod.fst

theorem lastFed_concat (inputs : List FramerInput) (i : FramerInput) :
    lastFed (inputs ++ [i]) = (i.arrival?.map Prod.fst).or (lastFed inputs) := by
  rw [lastFed, arrivals_concat]
  cases h : i.arrival? <;> simp [lastFed]

end FramerInput

namespace Framer

open FramerInput

/-! ### The last byte of the frame under way -/

/-- The frame under way consists of the last bytes that arrived, and the framer knows when the last of
them did. -/
structure Holds (inputs : List FramerInput) (f : Framer) : Prop where
  /-- Its bytes are the last ones. -/
  bytes_suffix : ∀ o, f.current = some o → o.bytes.toList <:+ (arrivals inputs).map Prod.snd
  /-- It is not empty. -/
  bytes_ne_nil : ∀ o, f.current = some o → o.bytes.toList ≠ []
  /-- The time that is kept is that of its last byte. -/
  lastMs_eq : ∀ o, f.current = some o → lastFed inputs = some o.lastMs

theorem Holds.of_idle {inputs : List FramerInput} {f : Framer} (h : f.current = none) :
    Holds inputs f := by
  refine ⟨?_, ?_, ?_⟩ <;> intro o ho <;> exact absurd (h.symm.trans ho) (by simp)

/-- A frame that was just opened. -/
theorem Holds.opened (inputs : List FramerInput) (f : Framer) (now : Nat) :
    Holds (inputs ++ [.byte now Grammar.opener]) (f.openFrame now) := by
  refine ⟨?_, ?_, ?_⟩ <;> intro o ho <;> obtain rfl := Option.some.inj ho
  · rw [arrivals_concat, List.map_append]
    exact List.suffix_append _ _
  · simp
  · rw [lastFed_concat]
    rfl

theorem Holds.step {inputs : List FramerInput} {f : Framer} (h : Holds inputs f) (i : FramerInput) :
    Holds (inputs ++ [i]) (f.step i) := by
  cases i with
  | byte now b =>
    have fed := f.fed_feed now b
    rw [Framer.step]
    generalize f.feed now b = r at fed ⊢
    obtain ⟨told, f'⟩ := r
    cases fed with
    | dropped idle => exact .of_idle idle
    | opened idle start =>
      subst start
      exact .opened inputs f now
    | @interrupted o busy start =>
      subst start
      exact .opened inputs (f.giveUp o.bytes.size) now
    | overflowed | ended => exact .of_idle rfl
    | @grown o busy inner room =>
      obtain ⟨earlier, hsuffix⟩ := h.bytes_suffix o busy
      refine ⟨?_, ?_, ?_⟩ <;> intro o' ho' <;> obtain rfl := Option.some.inj ho'
      · rw [arrivals_concat, List.map_append, Array.toList_push, ← hsuffix]
        exact ⟨earlier, by simp [arrival?]⟩
      · simp
      · rw [lastFed_concat]
        rfl
  | check now =>
    have checked := f.checked_checkTimeout now
    rw [Framer.step]
    generalize f.checkTimeout now = r at checked ⊢
    obtain ⟨told, f'⟩ := r
    cases checked with
    | kept =>
      refine ⟨?_, h.bytes_ne_nil, ?_⟩ <;> intro o ho
      · rw [arrivals_concat]
        simpa [arrival?] using h.bytes_suffix o ho
      · rw [lastFed_concat]
        exact h.lastMs_eq o ho
    | cut => exact .of_idle rfl

theorem holds_behind (maxLength timeoutMs : Nat) (inputs : List FramerInput) :
    Holds inputs ((new maxLength timeoutMs).behind inputs) := by
  induction inputs using List.reverseRecOn with
  | nil => exact .of_idle rfl
  | append_singleton inputs i ih =>
    rw [behind_concat]
    exact ih.step i

/-- **When a frame is overdue.** -/
theorem Holds.overdue_iff {inputs : List FramerInput} {f : Framer} (h : Holds inputs f) {now : Nat} :
    f.overdue now = true ↔ f.timeoutMs ≠ 0 ∧ f.inFrame = true ∧
      ∃ last, lastFed inputs = some last ∧ f.timeoutMs < now - last := by
  rw [Framer.overdue_iff, inFrame]
  cases hcurrent : f.current with
  | none => simp
  | some o => simp [h.lastMs_eq o hcurrent]

/-! ### As good as new -/

/-- The framer as if it had dropped nothing yet. -/
def uncounted (f : Framer) : Framer := { f with discarded := 0 }

/-- What a framer does, but for its count, does not depend on that count. -/
theorem uncounted_step (f : Framer) (i : FramerInput) :
    f.uncounted.answer i = f.answer i ∧ (f.uncounted.step i).uncounted = (f.step i).uncounted := by
  cases i with
  | byte now b =>
    obtain ⟨limit, timeout, current, discarded⟩ := f
    cases current with
    | none => by_cases hb : b = Grammar.opener <;> simp [uncounted, answer, step, feed, openFrame, hb]
    | some o =>
      by_cases hb : b = Grammar.opener
      · simp [uncounted, answer, step, feed, openFrame, giveUp, hb]
      · by_cases hfull : limit ≤ o.bytes.size
        · simp [uncounted, answer, step, feed, giveUp, hb, hfull]
        · by_cases hc : b = Grammar.closer
          · subst hc; simp [uncounted, answer, step, feed, reset, closer_ne_opener, hfull]
          · simp [uncounted, answer, step, feed, hb, hfull, hc]
  | check now =>
    have hoverdue : f.uncounted.overdue now = f.overdue now := rfl
    simp only [answer, step, checkTimeout, hoverdue]
    split_ifs <;> exact ⟨rfl, rfl⟩

/-- Framers that differ in their counts only tell the same. -/
theorem answers_congr {f g : Framer} (h : f.uncounted = g.uncounted) (inputs : List FramerInput) :
    f.answers inputs = g.answers inputs := by
  induction inputs generalizing f g with
  | nil => rfl
  | cons i rest ih =>
    obtain ⟨hanswer, hstep⟩ := f.uncounted_step i
    obtain ⟨hanswer', hstep'⟩ := g.uncounted_step i
    rw [h] at hanswer hstep
    rw [answers, answers, ← hanswer, hanswer', ih (hstep.symm.trans hstep')]

/-- A frame that is given up for its age leaves a framer that is as good as new. -/
theorem uncounted_checkTimeout (maxLength timeoutMs : Nat) {f : Framer} {now : Nat}
    (hlimits : f.maxLength = max maxLength 2 ∧ f.timeoutMs = timeoutMs)
    (cut : (f.checkTimeout now).1 = some .timeout) :
    (f.checkTimeout now).2.uncounted = (new maxLength timeoutMs).uncounted := by
  obtain ⟨hlength, htimeout⟩ := hlimits
  have checked := f.checked_checkTimeout now
  generalize f.checkTimeout now = r at checked cut ⊢
  obtain ⟨told, f'⟩ := r
  cases checked with
  | kept => cases cut
  | cut => simp only [uncounted, new, hlength, htimeout]

/-! ### Punctual looks at the clock -/

/-- What is told at each byte among the inputs. -/
def byteAnswers (f : Framer) : List FramerInput → List (Option FrameEvent)
  | [] => []
  | .byte now b :: rest => (f.feed now b).1 :: (f.feed now b).2.byteAnswers rest
  | .check now :: rest => (f.checkTimeout now).2.byteAnswers rest

end Framer

/-- Whenever a framer looks at the clock while a frame is under way, the last byte lies no further back
than the limit. -/
def FramerInput.Punctual (maxLength timeoutMs : Nat) (inputs : List FramerInput) : Prop :=
  ∀ before now later, inputs = before ++ .check now :: later →
    ((Framer.new maxLength timeoutMs).behind before).inFrame = true →
      ∀ last, FramerInput.lastFed before = some last → now - last ≤ timeoutMs

namespace Framer

open FramerInput

theorem byteAnswers_append (f : Framer) (inputs later : List FramerInput) :
    f.byteAnswers (inputs ++ later) =
      f.byteAnswers inputs ++ (f.behind inputs).byteAnswers later := by
  induction inputs generalizing f with
  | nil => rfl
  | cons i rest ih =>
    cases i with
    | byte => exact congrArg (_ :: ·) (ih _)
    | check => exact ih _

/-- A look at the clock tells that a frame is given up just if it is overdue. -/
theorem checkTimeout_eq_timeout_iff {f : Framer} {now : Nat} :
    (f.checkTimeout now).1 = some .timeout ↔ f.overdue now = true := by
  rw [checkTimeout]
  split_ifs with late <;> simp [late]

/-- A look at the clock in time does nothing. -/
theorem checkTimeout_of_inTime {f : Framer} {now : Nat} (h : f.overdue now = false) :
    f.checkTimeout now = (none, f) := by
  simp [checkTimeout, h]

/-- **Punctual looks at the clock change nothing**: the framer tells of the bytes what it would tell
without them. -/
theorem behind_of_punctual {maxLength timeoutMs : Nat} {inputs : List FramerInput}
    (h : Punctual maxLength timeoutMs inputs) :
    (new maxLength timeoutMs).behind inputs = (new maxLength timeoutMs).after (arrivals inputs) ∧
      (new maxLength timeoutMs).byteAnswers inputs =
        (new maxLength timeoutMs).replies (arrivals inputs) := by
  induction inputs using List.reverseRecOn with
  | nil => exact ⟨rfl, rfl⟩
  | append_singleton inputs i ih =>
    obtain ⟨hbehind, htold⟩ := ih fun before now later hsplit =>
      h before now (later ++ [i]) (by rw [hsplit]; simp)
    cases i with
    | byte now b =>
      rw [behind_concat, byteAnswers_append, arrivals_concat, after_append, replies_append, hbehind,
        htold]
      exact ⟨rfl, rfl⟩
    | check now =>
      have hinTime : ((new maxLength timeoutMs).behind inputs).overdue now = false := by
        obtain ⟨-, htimeout⟩ := (new maxLength timeoutMs).limits_behind inputs
        rw [← Bool.not_eq_true, (holds_behind maxLength timeoutMs inputs).overdue_iff, htimeout]
        rintro ⟨-, hopen, last, hlast, hlate⟩
        exact absurd (h inputs now [] rfl hopen last hlast) (Nat.not_le_of_lt hlate)
      rw [behind_concat, byteAnswers_append, arrivals_concat]
      simp only [step, checkTimeout_of_inTime hinTime, byteAnswers, arrival?, Option.toList_none,
        List.append_nil]
      exact ⟨hbehind, htold⟩

/-! ### Frames that are cut -/

/-- **Frames are given up just if they are overdue.** Bytes reach a new framer and the clock is looked
at, in any mixture.

* A frame under way consists of the last bytes that arrived. A look at the clock gives it up just if there
  is a limit and its last byte lies further back than that; else nothing is told and nothing changes.
* Behind a frame that was given up for its age, all that is told is what a new framer would tell.
* If no look at the clock came late, the bytes are told of as if there had been none, however long the
  frames took. -/
theorem timeouts_cut_stalled_frames (maxLength timeoutMs : Nat) (inputs : List FramerInput) :
    let f := (new maxLength timeoutMs).behind inputs
    (∀ o, f.current = some o →
      o.bytes.toList ≠ [] ∧ o.bytes.toList <:+ (arrivals inputs).map Prod.snd) ∧
    (∀ now, (f.checkTimeout now).1 = some .timeout ↔
      timeoutMs ≠ 0 ∧ f.inFrame = true ∧ ∃ last, lastFed inputs = some last ∧ timeoutMs < now - last) ∧
    (∀ now, (f.checkTimeout now).1 = some .timeout ∨ f.checkTimeout now = (none, f)) ∧
    (∀ now, (f.checkTimeout now).1 = some .timeout → ∀ later,
      (f.checkTimeout now).2.answers later = (new maxLength timeoutMs).answers later) ∧
    (Punctual maxLength timeoutMs inputs →
      (new maxLength timeoutMs).byteAnswers inputs =
        (new maxLength timeoutMs).replies (arrivals inputs)) := by
  intro f
  have holds : Holds inputs f := holds_behind maxLength timeoutMs inputs
  have hlimits := (new maxLength timeoutMs).limits_behind inputs
  have htimeout : f.timeoutMs = timeoutMs := hlimits.2
  refine ⟨fun o ho => ⟨holds.bytes_ne_nil o ho, holds.bytes_suffix o ho⟩, fun now => ?_, fun now => ?_,
    fun now cut later => answers_congr (uncounted_checkTimeout maxLength timeoutMs hlimits cut) later,
    fun punctual => (behind_of_punctual punctual).2⟩
  · rw [checkTimeout_eq_timeout_iff, holds.overdue_iff, htimeout]
  · cases hoverdue : f.overdue now with
    | true => exact .inl (checkTimeout_eq_timeout_iff.mpr hoverdue)
    | false => exact .inr (checkTimeout_of_inTime hoverdue)

/-- A frame that takes three times the limit and is delivered, since no gap is longer, and one that is
given up just behind its limit. -/
theorem steady_frame_completes :
    let steady : List FramerInput := [.byte 0 60, .check 90, .byte 100 65, .check 200, .byte 200 48,
      .byte 300 62, .check 900, .byte 910 60]
    let f := (new 64 100).behind steady
    (new 64 100).byteAnswers steady =
      [none, none, none, some (.ok ⟨[60, 65, 48, 62]⟩), none] ∧
    f.checkTimeout 1010 = (none, f) ∧ (f.checkTimeout 1011).1 = some .timeout ∧
    ∀ later, (f.checkTimeout 1011).2.answers later = (new 64 100).answers later := by
  intro steady f
  obtain ⟨-, hcut, hkept, hrenewed, hpunctual⟩ := timeouts_cut_stalled_frames 64 100 steady
  have punctual : Punctual 64 100 steady := by
    intro before now later hsplit hopen last hlast
    simp only [steady, List.cons_eq_append_iff, List.cons.injEq, reduceCtorEq, false_and, and_false,
      check.injEq, List.nil_eq, List.append_eq_nil_iff, exists_const, or_self, or_false, ↓existsAndEq,
      true_and, false_or] at hsplit
    -- looks at the clock stand behind the first byte, the second and the fourth, which ends the frame
    obtain ⟨_, rfl, ⟨rfl, rfl, -⟩ | ⟨_, rfl, ⟨rfl, rfl, -⟩ | ⟨rfl, rfl, -⟩⟩⟩ := hsplit
    · cases hlast
      decide
    · cases hlast
      decide
    · exact absurd hopen (by decide +kernel)
  have late : (f.checkTimeout 1011).1 = some .timeout :=
    (hcut 1011).mpr ⟨by decide, by decide +kernel, 910, by decide +kernel, by decide⟩
  refine ⟨(hpunctual punctual).trans (by decide +kernel), (hkept 1010).resolve_left ?_, late,
    hrenewed 1011 late⟩
  rw [hcut]
  rintro ⟨-, -, last, hlast, hlate⟩
  cases hlast
  exact absurd hlate (by decide)

end Framer

end Wire

end Marquee
