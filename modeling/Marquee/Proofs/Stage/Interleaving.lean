import Marquee.Proofs.Stage.Runs

/-!
# Commands and ticks in any order

Commands arrive while the timeline is played, so a run mixes commands with ticks. Ticks change
colors, places and visibility of sprites, and the clock; commands look at none of these, but at the
outline alone.

* `Stage.answers` : what the commands of a run answer, in order.
* `Stage.answers_eq` : **a run comes to the answers and the outline of its commands alone**; one
  lemma a turn, `Stage.outline_tick` for ticks and `Stage.apply_congr` for commands.
* `Stage.ticks_do_not_interfere` : so it does not matter when, how often and at which times the
  timeline is played.
-/

namespace Marquee

open Wire

/-- The command of an input; a tick has none. -/
def StageInput.command? : StageInput → Option Command
  | .command c => some c
  | .tick _ => none

namespace Stage

/-- What the commands of a run answer, in order. -/
def answers (s : Stage) (inputs : List StageInput) : List (Except StageFault Outcome) :=
  (s.turns inputs).filterMap Turn.answer?

/-- The commands of a run, with no ticks between them. -/
def commandsOnly (inputs : List StageInput) : List StageInput :=
  (inputs.filterMap StageInput.command?).map .command

/-- **A run answers what its commands alone answer on a stage of one outline**, and leaves stages of
one outline. -/
theorem answers_eq {s t : Stage} (h : s.outline = t.outline) (inputs : List StageInput) :
    s.answers inputs = t.answers (commandsOnly inputs) ∧
      (s.after inputs).outline = (t.after (commandsOnly inputs)).outline := by
  induction inputs generalizing s t with
  | nil => exact ⟨rfl, h⟩
  | cons i rest ih =>
    cases i with
    | command c =>
      obtain ⟨hanswer, houtline⟩ := apply_congr h c
      obtain ⟨hanswers, hafter⟩ := ih houtline
      have hcons (u : Stage) (more : List StageInput) :
          u.answers (.command c :: more) = (u.apply c).1 :: (u.apply c).2.answers more := rfl
      refine ⟨?_, hafter⟩
      calc s.answers (.command c :: rest)
          = (s.apply c).1 :: (s.apply c).2.answers rest := hcons s rest
        _ = (t.apply c).1 :: (t.apply c).2.answers (commandsOnly rest) := by rw [hanswer, hanswers]
        _ = t.answers (commandsOnly (.command c :: rest)) := (hcons t _).symm
    | tick now =>
      -- the tick is left out, and the others meet a stage of the outline that they met behind it
      exact ih ((outline_tick s now).trans h)

/-- **Ticks do not interfere with commands.** Two runs of a stage carry out the same commands, with
the timeline played between them in whatever way. Then all commands have the same answers, and the
stages behind the runs have the same outline: the number of colors, the epoch, the sizes, pixels and
depths of the sprites, and the cues. -/
theorem ticks_do_not_interfere (s : Stage) {inputs₁ inputs₂ : List StageInput}
    (same : inputs₁.filterMap StageInput.command? = inputs₂.filterMap StageInput.command?) :
    s.answers inputs₁ = s.answers inputs₂ ∧
      (s.after inputs₁).outline = (s.after inputs₂).outline := by
  obtain ⟨answers₁, outline₁⟩ := answers_eq (Eq.refl s.outline) inputs₁
  obtain ⟨answers₂, outline₂⟩ := answers_eq (Eq.refl s.outline) inputs₂
  have hcommands : commandsOnly inputs₁ = commandsOnly inputs₂ := by
    rw [commandsOnly, commandsOnly, same]
  rw [answers₁, answers₂, outline₁, outline₂, hcommands]
  exact ⟨rfl, rfl⟩

/-- A cue that hides a sprite and overwrites its color is played in one of two runs, before a
template is refused in both. -/
theorem ticks_do_not_interfere_with_refusal :
    let s := new { minCues := 1 }
    let commands : List Command :=
      [.paletteAppend ⟨16, 32, 48⟩, .template ⟨8, 8, 16, 0, ⟨[], by decide⟩⟩,
        .animation ⟨1, ⟨[.place 0 3 4 false, .recolor 0 ⟨255, 0, 0⟩], by decide⟩⟩,
        .template ⟨8, 8, 16, 1, ⟨[], by decide⟩⟩]
    let inputs₁ : List StageInput :=
      (commands.take 3).map .command ++ [.tick 7, .tick 9] ++ (commands.drop 3).map .command
    let inputs₂ : List StageInput := [.tick 5] ++ commands.map .command
    inputs₁.filterMap StageInput.command? = inputs₂.filterMap StageInput.command? ∧
      s.answers inputs₁ = s.answers inputs₂ ∧
      (s.after inputs₁).outline = (s.after inputs₂).outline ∧
      (s.answers inputs₁)[3]? = some (.error .indexOutOfRange) ∧
      (s.after inputs₁).palette.colors ≠ (s.after inputs₂).palette.colors := by
  intro s commands inputs₁ inputs₂
  have same : inputs₁.filterMap StageInput.command? = inputs₂.filterMap StageInput.command? := rfl
  obtain ⟨answers, outline⟩ := ticks_do_not_interfere s same
  exact ⟨same, answers, outline, by decide +kernel, by decide +kernel⟩

end Stage

end Marquee
