import Marquee.Proofs.Stage.Outline
import Mathlib.Data.List.Induction

/-!
# Runs of a stage

A stage changes in two ways only: a command is carried out, or the timeline is played. A *run* is a
list of such inputs, and its *turns* are the inputs, each with the stage that it meets. This file says
once what an input can do, so that theorems about runs need not look into commands again.

* `Stage.Applied` : the nine things that a command can do, each with its answer;
  `Stage.applied_apply` says that there are no others.
* `Stage.snd_tick` : playing the timeline carries out the actions of the cue that is due, and then
  colors the sprites anew if one of them overwrote a color (`Stage.fst_performAll`).
* `Stage.after`, `Stage.turns` : the stage behind a run, and its turns. Both are followed from the
  last input backwards (`after_concat`, `turns_concat`).
-/

namespace Marquee

open Wire

/-- What happens to a stage. -/
inductive StageInput where
  /-- A command is carried out. -/
  | command (c : Command)
  /-- The timeline is played, at a time in nanoseconds. -/
  | tick (now : Nat)
  deriving DecidableEq, Repr

namespace Stage

/-! ### One command -/

theorem writeColor_of_not_contains {s : Stage} {index : UInt8}
    (h : s.palette.contains index = false) (color : Color) : s.writeColor index color = (false, s) := by
  have hnone : s.palette.get? index = none := by
    rw [← Option.not_isSome_iff_eq_none, ← Palette.contains_iff, h]
    simp
  unfold writeColor
  rw [hnone]

/-- Commands that ask for what may be missing, be it room or colors. -/
def Refusable : Command → Bool
  | .paletteAppend _ | .bitmap _ | .template _ => true
  | _ => false

/-- What a command does: its answer, and the stage behind it. -/
inductive Applied (s : Stage) : Command → Except StageFault Outcome → Stage → Prop where
  /-- It is refused, and nothing changes. -/
  | refused {c : Command} {e : StageFault} (refusable : Refusable c = true) : Applied s c (.error e) s
  /-- The palette is emptied. -/
  | reset : Applied s .paletteReset (.ok .paletteReset) { s with palette := s.palette.clear }.refresh
  /-- A color is appended. -/
  | appended {color : Color} {index : UInt8} {palette : Palette}
      (room : s.palette.append color = (.ok index, palette)) :
      Applied s (.paletteAppend color) (.ok (.paletteAppended index))
        { s with palette := palette }.refresh
  /-- A color is overwritten, and all sprites are colored anew. -/
  | overwritten {index : UInt8} {color : Color} (found : s.palette.contains index = true) :
      Applied s (.paletteModify index color) (.ok (.paletteModified index true))
        (s.writeColor index color).2.rebind
  /-- There is no color to overwrite. -/
  | missed {index : UInt8} {color : Color} (missing : s.palette.contains index = false) :
      Applied s (.paletteModify index color) (.ok (.paletteModified index false)) s
  /-- Scene and timeline are emptied. -/
  | cleared :
      Applied s .clear (.ok .cleared)
        { s with
          scene := s.scene.clear
          timeline := .empty
          playhead := s.playhead.reset
          activeCue := none }
  /-- A sprite is added from pixels. -/
  | bitmap {b : Bitmap} {canvas : Canvas} (drawn : s.bitmapCanvas b = .ok canvas) :
      Applied s (.bitmap b) (.ok (s.addSprite b.x b.y canvas b.depth).1)
        (s.addSprite b.x b.y canvas b.depth).2
  /-- A sprite is added from shapes. -/
  | template {t : Template} {canvas : Canvas} (drawn : s.templateCanvas t = .ok canvas) :
      Applied s (.template t) (.ok (s.addSprite t.x t.y canvas .eight).1)
        (s.addSprite t.x t.y canvas .eight).2
  /-- A cue is appended. -/
  | animation (a : Animation) : Applied s (.animation a) (.ok (s.addCue a).1) (s.addCue a).2

/-- **A command does one of the nine things, and nothing else.** -/
theorem applied_apply (s : Stage) (c : Command) : Applied s c (s.apply c).1 (s.apply c).2 := by
  cases c with
  | paletteReset => exact .reset
  | paletteAppend color =>
    cases happend : s.palette.append color with
    | mk result palette =>
      cases result with
      | ok index =>
        simp only [apply, happend]
        exact .appended happend
      | error e =>
        obtain rfl : palette = s.palette := Palette.append_error happend
        simp only [apply, happend]
        exact .refused rfl
  | paletteModify index color =>
    simp only [apply, modifyColor]
    cases hcontains : s.palette.contains index with
    | true =>
      rw [fst_writeColor, hcontains, if_pos rfl]
      exact .overwritten hcontains
    | false =>
      rw [writeColor_of_not_contains hcontains]
      exact .missed hcontains
  | clear => exact .cleared
  | bitmap b =>
    simp only [apply]
    cases hdrawn : s.bitmapCanvas b with
    | ok canvas => exact .bitmap hdrawn
    | error e => exact .refused rfl
  | template t =>
    simp only [apply]
    cases hdrawn : s.templateCanvas t with
    | ok canvas => exact .template hdrawn
    | error e => exact .refused rfl
  | animation a => exact .animation a

/-! ### One tick -/

/-- The cue that is due at a time. -/
def dueCue (s : Stage) (now : Nat) : Option Cue :=
  (s.playhead.tick now s.timeline).1.bind s.timeline.get?

/-- The stage whose clock was told the time, before any action is carried out. -/
def told (s : Stage) (now : Nat) : Stage :=
  { s with
    playhead := (s.playhead.tick now s.timeline).2
    activeCue := (s.playhead.tick now s.timeline).1 }

/-- An action that overwrites a color. -/
def Recolors (s : Stage) : Action → Prop
  | .place .. => False
  | .recolor index _ => s.palette.contains index = true

/-- Carry out the actions of a cue, and color all sprites anew if one of them overwrote a color. -/
def performCue (s : Stage) (cue : Cue) : Stage :=
  if (s.performAll false cue.actions).1 then (s.performAll false cue.actions).2.rebind
  else (s.performAll false cue.actions).2

/-- **A tick tells the clock the time, carries out the cue that is due**, and returns its index. -/
theorem tick_eq (s : Stage) (now : Nat) :
    s.tick now = ((s.dueCue now).bind fun _ => (s.playhead.tick now s.timeline).1,
      (s.dueCue now).elim (s.told now) (s.told now).performCue) := by
  cases hdue : s.dueCue now with
  | none =>
    rw [dueCue] at hdue
    simp only [tick, hdue]
    rfl
  | some cue =>
    rw [dueCue] at hdue
    simp only [tick, hdue]
    rfl

theorem fst_tick (s : Stage) (now : Nat) :
    (s.tick now).1 = (s.dueCue now).bind fun _ => (s.playhead.tick now s.timeline).1 :=
  congrArg Prod.fst (s.tick_eq now)

theorem snd_tick (s : Stage) (now : Nat) :
    (s.tick now).2 = (s.dueCue now).elim (s.told now) (s.told now).performCue :=
  congrArg Prod.snd (s.tick_eq now)

theorem recolors_congr {s t : Stage} (h : s.outline = t.outline) : s.Recolors = t.Recolors := by
  funext a
  cases a with
  | place => rfl
  | recolor index color =>
    obtain ⟨-, hsize, -, -, -⟩ := outline_eq_iff.1 h
    simp only [Recolors, contains_congr hsize]

/-- Actions are found to overwrite a color just if one of them does. -/
theorem fst_performAll (s : Stage) (recolored : Bool) (actions : List Action) :
    (s.performAll recolored actions).1 = true ↔ recolored = true ∨ ∃ a ∈ actions, s.Recolors a := by
  induction actions generalizing s recolored with
  | nil => simp [performAll]
  | cons a rest ih =>
    have hfirst : (s.perform a).1 = true ↔ s.Recolors a := by
      cases a with
      | place => simp [perform, Recolors]
      | recolor index color => rw [perform, fst_writeColor, Recolors]
    rw [performAll, ih, recolors_congr (outline_perform s a), Bool.or_eq_true, hfirst, or_assoc]
    simp only [List.mem_cons, exists_eq_or_imp]

/-! ### Many inputs -/

/-- The stage behind one input. -/
def step (s : Stage) : StageInput → Stage
  | .command c => (s.apply c).2
  | .tick now => (s.tick now).2

/-- The stage behind all inputs of a run. -/
def after (s : Stage) (inputs : List StageInput) : Stage := inputs.foldl step s

/-- One turn of a run: an input, with the stage that it meets. -/
structure Turn where
  /-- The stage before the input. -/
  stage : Stage
  /-- The input. -/
  input : StageInput

/-- The stage behind a turn. -/
def Turn.after (t : Turn) : Stage := t.stage.step t.input

/-- The turns of a run. -/
def turns (s : Stage) : List StageInput → List Turn
  | [] => []
  | i :: rest => ⟨s, i⟩ :: (s.step i).turns rest

theorem after_append (s : Stage) (before later : List StageInput) :
    s.after (before ++ later) = (s.after before).after later := List.foldl_append

theorem after_concat (s : Stage) (inputs : List StageInput) (i : StageInput) :
    s.after (inputs ++ [i]) = (s.after inputs).step i := after_append s inputs [i]

theorem turns_concat (s : Stage) (inputs : List StageInput) (i : StageInput) :
    s.turns (inputs ++ [i]) = s.turns inputs ++ [⟨s.after inputs, i⟩] := by
  induction inputs generalizing s with
  | nil => rfl
  | cons j rest ih =>
    rw [List.cons_append, turns, ih, turns]
    rfl

/-- Nothing changes the settings. -/
theorem settings_step (s : Stage) (i : StageInput) : (s.step i).settings = s.settings := by
  cases i with
  | command c =>
    have happlied := s.applied_apply c
    rw [step]
    generalize (s.apply c).1 = answer at happlied
    generalize (s.apply c).2 = s' at happlied ⊢
    cases happlied with
    | @overwritten index color found => exact (outline_eq_iff.1 (outline_writeColor s index color)).1
    | _ => rfl
  | tick now => exact (outline_eq_iff.1 (outline_tick s now)).1

theorem settings_after (s : Stage) (inputs : List StageInput) :
    (s.after inputs).settings = s.settings := by
  induction inputs using List.reverseRecOn with
  | nil => rfl
  | append_singleton inputs i ih => rw [after_concat, settings_step, ih]

namespace Turn

/-- The scene is emptied. -/
def Clears (t : Turn) : Prop := t.input = .command .clear

instance : DecidablePred Clears := fun t => inferInstanceAs (Decidable (t.input = .command .clear))

/-- What a command answers; a tick answers nothing. -/
def answer? (t : Turn) : Option (Except StageFault Outcome) :=
  match t.input with
  | .command c => some (t.stage.apply c).1
  | .tick _ => none

/-- The name in the answer that a sprite was added. -/
def nameIn : Except StageFault Outcome → Option SpriteRef
  | .ok (.spriteAdded name _ _) => some name
  | _ => none

/-- The name of the sprite that is added, if one is. -/
def newName? (t : Turn) : Option SpriteRef := t.answer?.bind nameIn

/-- A sprite is added. -/
def adds (t : Turn) : Bool := t.newName?.isSome

/-- A color is overwritten, be it by itself: by a command, or by an action of the cue that is due. -/
def Overwrites (t : Turn) : Prop :=
  match t.input with
  | .command (.paletteModify index _) => t.stage.palette.contains index = true
  | .command _ => False
  | .tick now => ∃ cue, t.stage.dueCue now = some cue ∧ ∃ a ∈ cue.actions, t.stage.Recolors a

end Turn

end Stage

end Marquee
