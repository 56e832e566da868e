import Marquee.Stage.Basic

/-!
# Carrying out commands

`Stage.apply` carries out one command. It answers with the `Outcome`, or with the reason why the
command is refused; then the stage is as it was before.
-/

namespace Marquee

open Wire

/-- What a command did. -/
inductive Outcome where
  /-- The palette is empty. -/
  | paletteReset
  /-- A color was appended at an index. -/
  | paletteAppended (index : UInt8)
  /-- A color was overwritten, unless there is none at the index. -/
  | paletteModified (index : UInt8) (changed : Bool)
  /-- Scene and timeline are empty. -/
  | cleared
  /-- A sprite was added on top. -/
  | spriteAdded (sprite : SpriteRef) (width height : Nat)
  /-- A cue was appended to the timeline. -/
  | cueAdded (index : UInt16) (durationNs : Nat)
  deriving DecidableEq, Repr, Inhabited

namespace Stage

/-- Put a sprite on top of the others, shown and colored by the current snapshot. -/
def addSprite (s : Stage) (x y : Nat) (canvas : Canvas) (depth : Depth) : Outcome × Stage :=
  let width := canvas.width
  let height := canvas.height
  let (sprite, scene) := s.scene.push ⟨x, y, canvas, s.snapshot, depth, true⟩
  (.spriteAdded sprite width height, { s with scene := scene })

/-- A sprite of this size may be added. -/
def checkSize (s : Stage) (width height : Nat) : Except StageFault Unit :=
  if width * height ≤ s.settings.maxSpritePixels.toNat then .ok () else .error .tooLarge

/-- There is a color at the index. -/
def checkIndex (s : Stage) (index : UInt8) : Except StageFault Unit :=
  if s.palette.contains index then .ok () else .error .indexOutOfRange

/-- The canvas of a bitmap that may be added. -/
def bitmapCanvas (s : Stage) (b : Bitmap) : Except StageFault Canvas := do
  s.checkSize b.width b.height
  Canvas.ofPixels b.width b.height b.pixels

/-- The canvas of a template that may be added. Its colors must be there before its size is looked
at. -/
def templateCanvas (s : Stage) (t : Template) : Except StageFault Canvas := do
  s.checkIndex t.background
  t.shapes.val.forM fun shape => s.checkIndex shape.color
  s.checkSize t.size t.size
  Canvas.ofTemplate t

/-- What a keyframe does on this stage: sprites are named in the current epoch. -/
def action (s : Stage) : Keyframe → Action
  | .place sprite x y visible => .place (s.scene.refAt sprite) x y visible
  | .recolor index color => .recolor index color

/-- Append the cue of an animation to the timeline. -/
def addCue (s : Stage) (a : Animation) : Outcome × Stage :=
  let durationNs := s.settings.durationNs a.units
  let actions := a.keyframes.val.map s.action
  (.cueAdded s.timeline.size.toUInt16 durationNs,
    { s with timeline := s.timeline.push ⟨durationNs, actions⟩ })

/-- Overwrite a color, and color all sprites by the palette as it is then. -/
def modifyColor (s : Stage) (index : UInt8) (color : Color) : Outcome × Stage :=
  let (changed, s) := s.writeColor index color
  (.paletteModified index changed, if changed then s.rebind else s)

/-- Carry out a command. -/
def apply (s : Stage) : Command → Except StageFault Outcome × Stage
  | .paletteReset => (.ok .paletteReset, { s with palette := s.palette.clear }.refresh)
  | .paletteAppend color =>
    match s.palette.append color with
    | (.ok index, palette) => (.ok (.paletteAppended index), { s with palette := palette }.refresh)
    | (.error e, palette) => (.error e, { s with palette := palette })
  | .paletteModify index color =>
    let (outcome, s) := s.modifyColor index color
    (.ok outcome, s)
  | .clear =>
    (.ok .cleared,
      { s with
        scene := s.scene.clear
        timeline := .empty
        playhead := s.playhead.reset
        activeCue := none })
  | .bitmap b =>
    match s.bitmapCanvas b with
    | .ok canvas =>
      let (outcome, s) := s.addSprite b.x b.y canvas b.depth
      (.ok outcome, s)
    | .error e => (.error e, s)
  | .template t =>
    match s.templateCanvas t with
    | .ok canvas =>
      let (outcome, s) := s.addSprite t.x t.y canvas .eight
      (.ok outcome, s)
    | .error e => (.error e, s)
  | .animation a =>
    let (outcome, s) := s.addCue a
    (.ok outcome, s)

end Stage

end Marquee
