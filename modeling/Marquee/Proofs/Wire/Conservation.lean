import Marquee.Proofs.Wire.Timed
import Mathlib.Algebra.Group.Nat.Defs

/-!
# Where the bytes of a stream go

A framer delivers bytes in frames, drops some and counts them, and holds those of the frame under way.
Some bytes are none of these. The one that does not fit into its frame and gives it up is dropped with the
frame, and is not counted. And the size of a frame that is given up is cut to a word of 32 bits before it
is counted, so that of a frame of 2 ^ 32 bytes and more a multiple of 2 ^ 32 bytes is not counted.

* `Framer.delivered` : the bytes of the frames that were delivered; `Framer.openSize` : the number of
  those that are held.
* `Framer.balance_step` : where one input moves bytes to.
* `Framer.bytes_accounted` : **each byte was delivered or counted, is held, gave up a frame that was full,
  or was cut off from the size of a frame.**
-/

namespace Marquee

namespace Wire

namespace Framer

open FramerInput

/-- The bytes of the frames that were delivered. -/
def delivered (events : List FrameEvent) : List UInt8 :=
  events.flatMap fun
    | .ok frame => frame.bytes
    | .error _ => []

/-- The number of bytes of the frame under way. -/
def openSize (f : Framer) : Nat := f.current.elim 0 fun o => o.bytes.size

theorem openSize_of_busy {f : Framer} {o : OpenFrame} (h : f.current = some o) :
    f.openSize = o.bytes.size := by
  rw [openSize, h]
  rfl

/-! ### One input -/

/-- A frame under way never outgrows the limit. -/
theorem openSize_step_le {f : Framer} (hpos : 0 < f.maxLength) (hfits : f.openSize ≤ f.maxLength)
    (i : FramerInput) : (f.step i).openSize ≤ f.maxLength := by
  cases i with
  | byte now b =>
    have fed := f.fed_feed now b
    rw [step]
    generalize f.feed now b = r at fed ⊢
    obtain ⟨told, f'⟩ := r
    cases fed with
    | dropped idle => exact hfits
    | opened | interrupted => exact hpos
    | overflowed | ended => exact Nat.zero_le _
    | grown busy inner room =>
      rw [openSize_of_busy rfl, Array.size_push]
      exact room
  | check now =>
    have checked := f.checked_checkTimeout now
    rw [step]
    generalize f.checkTimeout now = r at checked ⊢
    obtain ⟨told, f'⟩ := r
    cases checked with
    | kept => exact hfits
    | cut => exact Nat.zero_le _

/-- A frame that is given up is counted, but for what its size has beyond a word. -/
theorem discarded_giveUp {f : Framer} {dropped : Nat} (size : Nat)
    (hcount : f.discarded = min dropped Counter.cap32) :
    (f.giveUp size).discarded = min (dropped + size % 2 ^ 32) Counter.cap32 := by
  simp only [Counter.cap32] at hcount
  simp only [giveUp, Counter.addUpTo, Counter.cap32]
  omega

/-- **Where one input moves bytes to.** The one that arrives and those of the frame under way are
delivered, dropped or held behind it, or the one that arrives gave up a full frame. What is dropped is
counted up to the cap, but for a multiple of 2 ^ 32 bytes. There is no such multiple unless the frame under
way has so many. -/
theorem balance_step {f : Framer} {dropped : Nat} (i : FramerInput)
    (hcount : f.discarded = min dropped Counter.cap32) :
    ∃ more rounds, (f.step i).discarded = min (dropped + more) Counter.cap32 ∧
      i.arrival?.toList.length + f.openSize =
        (delivered (f.answer i).toList).length + more + 2 ^ 32 * rounds +
          (f.answer i).toList.count (.error .overflow) + (f.step i).openSize ∧
      (f.openSize ≤ Counter.cap32 → rounds = 0) := by
  have hcut (size : Nat) : size ≤ Counter.cap32 → size / 2 ^ 32 = 0 := fun hword =>
    Nat.div_eq_of_lt (Nat.lt_succ_of_le hword)
  cases i with
  | byte now b =>
    have fed := f.fed_feed now b
    rw [step, answer]
    generalize f.feed now b = r at fed ⊢
    obtain ⟨told, f'⟩ := r
    cases fed with
    | dropped idle other =>
      refine ⟨1, 0, ?_, ?_, fun _ => rfl⟩
      · simp only [hcount, Counter.addUpTo]
        omega
      · simp [openSize, idle, arrival?, delivered]
    | opened idle start =>
      exact ⟨0, 0, hcount, by simp [openSize, idle, arrival?, delivered], fun _ => rfl⟩
    | @interrupted o busy start =>
      rw [openSize_of_busy busy]
      exact ⟨o.bytes.size % 2 ^ 32, o.bytes.size / 2 ^ 32, discarded_giveUp _ hcount,
        by simp [openSize, arrival?, delivered]; omega, hcut _⟩
    | @overflowed o busy other full =>
      rw [openSize_of_busy busy]
      exact ⟨o.bytes.size % 2 ^ 32, o.bytes.size / 2 ^ 32, discarded_giveUp _ hcount,
        by simp [openSize, arrival?, delivered]; omega, hcut _⟩
    | @ended o busy stop room =>
      rw [openSize_of_busy busy]
      exact ⟨0, 0, hcount, by simp [openSize, arrival?, delivered]; omega, fun _ => rfl⟩
    | @grown o busy inner room =>
      rw [openSize_of_busy busy]
      exact ⟨0, 0, hcount, by simp [openSize, arrival?, delivered]; omega, fun _ => rfl⟩
  | check now =>
    have checked := f.checked_checkTimeout now
    rw [step, answer]
    generalize f.checkTimeout now = r at checked ⊢
    obtain ⟨told, f'⟩ := r
    cases checked with
    | kept => exact ⟨0, 0, hcount, by simp [arrival?, delivered], fun _ => rfl⟩
    | @cut o busy late =>
      rw [openSize_of_busy busy]
      exact ⟨o.bytes.size % 2 ^ 32, o.bytes.size / 2 ^ 32, discarded_giveUp _ hcount,
        by simp [openSize, arrival?, delivered]; omega, hcut _⟩

/-! ### Whole runs -/

theorem eventsOf_concat (answers : List (Option FrameEvent)) (answer : Option FrameEvent) :
    eventsOf (answers ++ [answer]) = eventsOf answers ++ answer.toList := by
  cases answer <;> simp [eventsOf]

theorem delivered_append (before later : List FrameEvent) :
    delivered (before ++ later) = delivered before ++ delivered later := List.flatMap_append

/-- A frame under way is never longer than the limit, however many inputs there were. -/
theorem openSize_behind_le (maxLength timeoutMs : Nat) (inputs : List FramerInput) :
    ((new maxLength timeoutMs).behind inputs).openSize ≤ max maxLength 2 := by
  induction inputs using List.reverseRecOn with
  | nil => exact Nat.zero_le _
  | append_singleton inputs i ih =>
    obtain ⟨hlimit, -⟩ := (new maxLength timeoutMs).limits_behind inputs
    have hmax : ((new maxLength timeoutMs).behind inputs).maxLength = max maxLength 2 := hlimit
    rw [behind_concat, ← hmax]
    exact openSize_step_le (by omega) (by omega) i

/-- Behind a run each byte was delivered or dropped, is held, or gave up a full frame, and those dropped
are counted up to the cap, but for a multiple of 2 ^ 32 bytes. There is no such multiple if no frame has
2 ^ 32 bytes, be it for the limit or for the length of the stream. -/
theorem balance_behind (maxLength timeoutMs : Nat) (inputs : List FramerInput) :
    let f := (new maxLength timeoutMs).behind inputs
    let events := eventsOf ((new maxLength timeoutMs).answers inputs)
    ∃ dropped rounds, f.discarded = min dropped Counter.cap32 ∧
      (arrivals inputs).length =
        (delivered events).length + dropped + 2 ^ 32 * rounds + events.count (.error .overflow) +
          f.openSize ∧
      (min (max maxLength 2) (arrivals inputs).length ≤ Counter.cap32 → rounds = 0) := by
  induction inputs using List.reverseRecOn with
  | nil => exact ⟨0, 0, rfl, rfl, fun _ => rfl⟩
  | append_singleton inputs i ih =>
    obtain ⟨dropped, rounds, hcount, hbalance, hshort⟩ := ih
    have hfits := openSize_behind_le maxLength timeoutMs inputs
    obtain ⟨more, rounds', hcount', hmoved, hshort'⟩ := balance_step i hcount
    refine ⟨dropped + more, rounds + rounds', ?_, ?_, fun short => ?_⟩
    · rw [behind_concat]
      exact hcount'
    · rw [arrivals_concat, behind_concat, answers_concat, eventsOf_concat, delivered_append,
        List.length_append, List.length_append, List.count_append]
      omega
    · rw [arrivals_concat, List.length_append] at short
      rw [hshort (by omega), hshort' (by omega)]

/-- **Where the bytes of a stream go.** Bytes reach a new framer and the clock is looked at, in any
mixture. While the count of dropped bytes is below its cap, the bytes are those delivered in frames, those
counted, those of the frame under way, one for each frame that was given up because it was full, and a
multiple of 2 ^ 32 that the count missed. There is no such multiple if no frame has 2 ^ 32 bytes, be it for
the limit or for the length of the stream. At the cap there are at least so many. -/
theorem bytes_accounted (maxLength timeoutMs : Nat) (inputs : List FramerInput) :
    let f := (new maxLength timeoutMs).behind inputs
    let events := eventsOf ((new maxLength timeoutMs).answers inputs)
    let told := (delivered events).length + f.discarded + f.openSize
    ∃ rounds,
      (f.discarded < Counter.cap32 →
        (arrivals inputs).length = told + events.count (.error .overflow) + 2 ^ 32 * rounds) ∧
      (Counter.cap32 ≤ f.discarded →
        told + events.count (.error .overflow) + 2 ^ 32 * rounds ≤ (arrivals inputs).length) ∧
      (min (max maxLength 2) (arrivals inputs).length ≤ Counter.cap32 → rounds = 0) := by
  obtain ⟨dropped, rounds, hcount, hbalance, hshort⟩ := balance_behind maxLength timeoutMs inputs
  intro f events told
  refine ⟨rounds, fun hcap => ?_, fun hcap => ?_, hshort⟩ <;> simp only [told, f, events] at * <;> omega

/-- A byte of noise, a full frame that is given up, one that is interrupted, one that is delivered, one
that is overdue and one under way: `x<abc<a<b><` and, after a look at the clock, `<a`. -/
theorem bytes_accounted_behind_faults :
    let bytes : List UInt8 := [120, 60, 97, 98, 99, 60, 97, 60, 98, 62, 60]
    let inputs := bytes.map (.byte 7) ++ [.check 13, .byte 14 60, .byte 14 97]
    let f := (new 3 5).behind inputs
    let events := eventsOf ((new 3 5).answers inputs)
    f.discarded = 7 ∧ delivered events = [60, 98, 62] ∧ f.openSize = 2 ∧
      13 = (delivered events).length + f.discarded + f.openSize +
        events.count (.error .overflow) := by
  intro bytes inputs f events
  have hdiscarded : f.discarded = 7 := by decide +kernel
  obtain ⟨rounds, hexact, -, hshort⟩ := bytes_accounted 3 5 inputs
  obtain rfl : rounds = 0 := hshort (by decide +kernel)
  exact ⟨hdiscarded, by decide +kernel, by decide +kernel, hexact (by rw [hdiscarded]; decide)⟩

/-- The byte behind a full frame is dropped, and not counted: `<ab` with a limit of two bytes. -/
theorem byte_behind_full_frame_uncounted :
    let inputs : List FramerInput := [.byte 0 60, .byte 0 97, .byte 0 98]
    let f := (new 2 0).behind inputs
    let events := eventsOf ((new 2 0).answers inputs)
    f.discarded = 2 ∧ (delivered events).length = 0 ∧ f.openSize = 0 ∧
      (arrivals inputs).length = 3 := by decide +kernel

end Framer

end Wire

end Marquee
