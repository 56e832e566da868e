import Marquee.Proofs.Stage.Refusal
import Marquee.Proofs.Wire.Scripts

/-!
# Carrying out a script

A stage carries out a script frame by frame, as a link would hand it over. This file compares that
with reading the commands of the script first.

* `Stage.applyCommands` : commands carried out in order, up to the first that is refused.
* `Stage.script_readers_agree` : **both ways of reading a script come to the same**, unless a
  command has a delimiter inside.
-/

namespace Marquee

open Wire

namespace Stage

/-- Carry out commands in order up to the first that is refused; tells how many were carried out. -/
def applyCommands (s : Stage) : List Command → Except StageFault Nat × Stage
  | [] => (.ok 0, s)
  | c :: rest =>
    match s.apply c with
    | (.ok _, s) => ((s.applyCommands rest).1.map (1 + ·), (s.applyCommands rest).2)
    | (.error e, s) => (.error e, s)

/-- The frames of a script do what its commands do. -/
theorem applyEvents_of_scriptText {script : List UInt8} {texts : List (List UInt8)}
    {cs : List Command} (h : ScriptText script texts cs) (s : Stage) :
    s.applyEvents 0 (texts.map fun text => .ok ⟨text⟩) =
      ((s.applyCommands cs).1.mapError .stage, (s.applyCommands cs).2) := by
  induction h generalizing s with
  | blanks => rfl
  | @cons w text rest texts c cs hw hc hrest ih =>
    simp only [List.map_cons, applyEvents, applyFrame, hc, applyCommands]
    rcases s.apply c with ⟨e | outcome, s'⟩
    · rfl
    · simp only
      rw [applyEvents_eq, ih s']
      cases (s'.applyCommands cs).1 with
      | error e => rfl
      | ok n => rfl

/-- **The two readers of a script agree.** Commands are read from a script if and only if it is made
of the texts of these commands, with blanks around them. If no text has a delimiter between its
first and its last byte, then the script is cut into exactly these texts, and a stage that carries
out the script comes to the result and the stage of these commands, carried out in order up to the
first that is refused. -/
theorem script_readers_agree (script : List UInt8) :
    (∀ cs, Script.commands script = .ok cs ↔ ∃ texts, ScriptText script texts cs) ∧
      ∀ texts cs, ScriptText script texts cs →
        (∀ text ∈ texts, ∀ b ∈ (Frame.mk text).body, ¬ IsDelimiter b) →
        Script.events script = texts.map (fun text => .ok ⟨text⟩) ∧
          ∀ s : Stage, s.applyScript script =
            ((s.applyCommands cs).1.mapError .stage, (s.applyCommands cs).2) := by
  refine ⟨fun cs => Script.commands_eq_ok_iff, fun texts cs h plain => ?_⟩
  have hevents := Script.events_eq h plain
  refine ⟨hevents, fun s => ?_⟩
  rw [applyScript, hevents, applyEvents_of_scriptText h]

/-- A color, a template in a color that is missing, and a clearing that is not reached:
` <P102030>`, a line feed, `<T07807801007><Z>`. -/
theorem script_readers_agree_up_to_refusal :
    let color : List UInt8 := [60, 80, 49, 48, 50, 48, 51, 48, 62]
    let square : List UInt8 := [60, 84, 48, 55, 56, 48, 55, 56, 48, 49, 48, 48, 55, 62]
    let clearing : List UInt8 := [60, 90, 62]
    let script := [32] ++ (color ++ ([10] ++ (square ++ ([] ++ (clearing ++ [])))))
    let cs : List Command :=
      [.paletteAppend ⟨16, 32, 48⟩, .template ⟨120, 120, 16, 7, ⟨[], by decide⟩⟩, .clear]
    let s := new {}
    ScriptText script [color, square, clearing] cs ∧
      (∀ text ∈ [color, square, clearing], ∀ b ∈ (Frame.mk text).body, ¬ IsDelimiter b) ∧
      Script.commands script = .ok cs ∧
      Script.events script = [.ok ⟨color⟩, .ok ⟨square⟩, .ok ⟨clearing⟩] ∧
      (s.applyScript script).1 = .error (.stage .indexOutOfRange) := by
  intro color square clearing script cs s
  obtain ⟨read, cut⟩ := script_readers_agree script
  have text : ScriptText script [color, square, clearing] cs :=
    .cons (by decide +kernel) (by decide +kernel) <|
      .cons (by decide +kernel) (by decide +kernel) <|
      .cons (by decide +kernel) (by decide +kernel) <| .blanks (by decide +kernel)
  have plain : ∀ text ∈ [color, square, clearing], ∀ b ∈ (Frame.mk text).body, ¬ IsDelimiter b := by
    decide +kernel
  obtain ⟨events, applied⟩ := cut _ _ text plain
  refine ⟨text, plain, (read cs).2 ⟨_, text⟩, events, ?_⟩
  rw [applied s]
  decide +kernel

end Stage

end Marquee
