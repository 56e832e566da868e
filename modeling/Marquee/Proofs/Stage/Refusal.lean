import Marquee.Proofs.Stage.Runs
import Marquee.Stage.Frames

/-!
# What fails leaves no trace

A frame can fail because it is no command or because its command is refused, and a script also
because one of its frames is given up. Every check comes before the first change, so a failure
changes nothing.

* `Stage.snd_apply_of_error`, `Stage.snd_applyFrame_of_error` : a command or a frame that fails leaves
  the stage as it was, down to the identity of its snapshot.
* `Stage.applyFrames` : frames carried out in order, failures skipped; `Stage.accepted` : those of them
  that do not fail.
* `Stage.Ended` : the three ways in which carrying out a script can end.
* `Stage.failures_leave_no_trace` : **frames that fail can as well be left out, and a script that fails
  does what the frames before the fault do.**
-/

namespace Marquee

open Wire

namespace Stage

variable {s : Stage}

theorem snd_apply_of_error {c : Command} {e : StageFault} (h : (s.apply c).1 = .error e) :
    (s.apply c).2 = s := by
  have happlied := s.applied_apply c
  rw [h] at happlied
  generalize (s.apply c).2 = s' at happlied ⊢
  cases happlied
  rfl

theorem snd_applyFrame_of_error {f : Frame} {e : LinkFault} (h : (s.applyFrame f).1 = .error e) :
    (s.applyFrame f).2 = s := by
  unfold applyFrame at h ⊢
  cases hread : Command.ofBytes f.bytes with
  | error e => rfl
  | ok c =>
    simp only [hread] at h ⊢
    cases happly : s.apply c with
    | mk result s' =>
      cases result with
      | ok outcome => simp only [happly, reduceCtorEq] at h
      | error e =>
        have hkept : (s.apply c).2 = s := snd_apply_of_error (by rw [happly])
        rw [happly] at hkept
        exact hkept

/-! ### Frames in order, failures skipped -/

/-- Carry out frames in order and skip those that fail; tells what came of each. -/
def applyFrames (s : Stage) : List Frame → List (Except LinkFault Outcome) × Stage
  | [] => ([], s)
  | f :: rest =>
    let (result, s) := s.applyFrame f
    let (results, s) := s.applyFrames rest
    (result :: results, s)

/-- The frames that do not fail when all are carried out in order. -/
def accepted (s : Stage) (frames : List Frame) : List Frame :=
  ((frames.zip (s.applyFrames frames).1).filter fun p => p.2.isOk).map Prod.fst

theorem applyFrames_cons (s : Stage) (f : Frame) (rest : List Frame) :
    s.applyFrames (f :: rest) =
      ((s.applyFrame f).1 :: ((s.applyFrame f).2.applyFrames rest).1,
        ((s.applyFrame f).2.applyFrames rest).2) := rfl

/-- The frames that do not fail come to the same without the others. -/
theorem applyFrames_accepted (s : Stage) (frames : List Frame) :
    s.applyFrames (s.accepted frames) =
      ((s.applyFrames frames).1.filter Except.isOk, (s.applyFrames frames).2) := by
  induction frames generalizing s with
  | nil => rfl
  | cons f rest ih =>
    have ih := ih (s.applyFrame f).2
    rw [accepted] at ih ⊢
    rw [applyFrames_cons, List.zip_cons_cons]
    cases hresult : (s.applyFrame f).1 with
    | ok outcome =>
      rw [List.filter_cons_of_pos rfl, List.map_cons, applyFrames_cons, ih, hresult,
        List.filter_cons_of_pos rfl]
    | error e =>
      -- the frame is left out, and the others meet the stage that they met behind it
      rw [snd_applyFrame_of_error hresult] at ih ⊢
      rw [List.filter_cons_of_neg (by simp [Except.isOk, Except.toBool]), ih,
        List.filter_cons_of_neg (by simp [Except.isOk, Except.toBool])]

/-! ### Scripts -/

/-- How carrying out `events` ends, if `done` are the frames that were carried out. -/
inductive Ended (s : Stage) (events : List FrameEvent) (done : List Frame) :
    Except LinkFault Nat → Prop where
  /-- All events are frames, and none of them failed. -/
  | all (whole : events = done.map .ok) : Ended s events done (.ok done.length)
  /-- The next event tells that a frame was given up. -/
  | givenUp {e : FrameFault} {rest : List FrameEvent}
      (cut : events = done.map .ok ++ .error e :: rest) : Ended s events done (.error (.frame e))
  /-- The next event is a frame that fails. -/
  | failed {f : Frame} {e : LinkFault} {rest : List FrameEvent}
      (cut : events = done.map .ok ++ .ok f :: rest)
      (fault : ((s.applyFrames done).2.applyFrame f).1 = .error e) : Ended s events done (.error e)

/-- Frames that were carried out before only add to the count. -/
theorem applyEvents_eq (count : Nat) (s : Stage) (events : List FrameEvent) :
    s.applyEvents count events =
      ((s.applyEvents 0 events).1.map (count + ·), (s.applyEvents 0 events).2) := by
  induction events generalizing count s with
  | nil => rfl
  | cons event rest ih =>
    cases event with
    | error e => rfl
    | ok f =>
      simp only [applyEvents]
      rcases s.applyFrame f with ⟨_ | outcome, s'⟩
      · rfl
      · simp only
        rw [ih (count + 1), ih (0 + 1)]
        cases (s'.applyEvents 0 rest).1 with
        | error e => rfl
        | ok n => simp only [Except.map, Nat.zero_add, Nat.add_assoc]

/-- A frame that is carried out first joins those behind it. -/
theorem Ended.cons {s' : Stage} {f : Frame} {outcome : Outcome} {events : List FrameEvent}
    {done : List Frame} {answer : Except LinkFault Nat}
    (happly : s.applyFrame f = (.ok outcome, s')) (h : Ended s' events done answer) :
    Ended s (.ok f :: events) (f :: done) (answer.map (1 + ·)) := by
  cases h with
  | all whole =>
    rw [whole, Except.map, Nat.add_comm]
    exact .all rfl
  | givenUp cut => exact .givenUp (by rw [cut, List.map_cons, List.cons_append])
  | failed cut fault =>
    refine .failed (by rw [cut, List.map_cons, List.cons_append]) ?_
    rwa [applyFrames_cons, happly]

/-- Events are carried out up to the first that fails. -/
theorem ended_applyEvents (s : Stage) (events : List FrameEvent) :
    ∃ done, (∀ r ∈ (s.applyFrames done).1, r.isOk = true) ∧
      (s.applyEvents 0 events).2 = (s.applyFrames done).2 ∧
      Ended s events done (s.applyEvents 0 events).1 := by
  induction events generalizing s with
  | nil => exact ⟨[], by simp [applyFrames], rfl, .all rfl⟩
  | cons event rest ih =>
    cases event with
    | error e => exact ⟨[], by simp [applyFrames], rfl, .givenUp rfl⟩
    | ok f =>
      cases happly : s.applyFrame f with
      | mk result s' =>
        have hfst : (s.applyFrame f).1 = result := by rw [happly]
        simp only [applyEvents, happly]
        cases result with
        | error e =>
          refine ⟨[], by simp [applyFrames], ?_, .failed rfl hfst⟩
          have hkept := snd_applyFrame_of_error hfst
          rw [happly] at hkept
          exact hkept
        | ok outcome =>
          obtain ⟨done, hdone, hstage, hended⟩ := ih s'
          simp only [Nat.zero_add]
          rw [applyEvents_eq]
          refine ⟨f :: done, ?_, ?_, hended.cons happly⟩
          · intro r hr
            rw [applyFrames_cons, happly] at hr
            rcases List.mem_cons.1 hr with rfl | hr
            · rfl
            · exact hdone r hr
          · rw [applyFrames_cons, happly, hstage]

/-- **What fails leaves no trace.** A command or a frame that fails leaves the stage as it was. So
frames that fail can be left out: the others come to the same stage with the same results. And a script
comes to the stage of its frames up to the first fault; if there is none, it tells their number. -/
theorem failures_leave_no_trace (s : Stage) :
    (∀ c e, (s.apply c).1 = .error e → (s.apply c).2 = s) ∧
      (∀ f e, (s.applyFrame f).1 = .error e → (s.applyFrame f).2 = s) ∧
      (∀ frames, s.applyFrames (s.accepted frames) =
        ((s.applyFrames frames).1.filter Except.isOk, (s.applyFrames frames).2)) ∧
      ∀ script, ∃ done, (∀ r ∈ (s.applyFrames done).1, r.isOk = true) ∧
        (s.applyScript script).2 = (s.applyFrames done).2 ∧
        Ended s (Script.events script) done (s.applyScript script).1 :=
  ⟨fun _ _ => snd_apply_of_error, fun _ _ => snd_applyFrame_of_error, s.applyFrames_accepted,
    fun script => s.ended_applyEvents (Script.events script)⟩

/-- A template in a color that is missing, and a frame with an unknown letter. -/
theorem failures_leave_no_trace_without_colors :
    let s : Stage := new {}
    let c : Command := .template ⟨120, 120, 16, 7, ⟨[], by decide⟩⟩
    let f : Frame := ⟨[60, 81, 62]⟩
    (s.apply c).1 = .error .indexOutOfRange ∧ (s.apply c).2 = s ∧
      (s.applyFrame f).1 = .error (.grammar .unknownCommand) ∧ (s.applyFrame f).2 = s := by
  intro s c f
  obtain ⟨commands, frames, -, -⟩ := failures_leave_no_trace s
  have refused : (s.apply c).1 = .error .indexOutOfRange := by decide +kernel
  have unread : (s.applyFrame f).1 = .error (.grammar .unknownCommand) := by decide +kernel
  exact ⟨refused, commands c _ refused, unread, frames f _ unread⟩

end Stage

end Marquee
