import Marquee.Settings.Basic
import Marquee.Timeline

/-!
# The stage

The `Stage` holds all that can be shown: the palette, the scene and the timeline with its playhead.
Beside the palette it keeps a current snapshot, which new sprites are colored by.

* `Stage.writeColor` : the one way in which a color of the palette is overwritten. A new snapshot is
  made only if the color changes.
* `Stage.census` : how much there is of each, in words of the size that is reported.
-/

namespace Marquee

/-- All that can be shown. -/
structure Stage where
  /-- Its settings. -/
  settings : StageSettings
  /-- The colors that commands edit. -/
  palette : Palette
  /-- The current snapshot of the palette. -/
  snapshot : Snapshot
  /-- The sprites. -/
  scene : Scene
  /-- The cues. -/
  timeline : Timeline
  /-- The clock of the timeline. -/
  playhead : Playhead
  /-- The cue that was active at the last tick. -/
  activeCue : Option Nat
  deriving DecidableEq, Repr

/-- How much there is on a stage. -/
structure Census where
  /-- The number of sprites. -/
  sprites : UInt16
  /-- The bytes that their pixels take. -/
  pixelBytes : UInt32
  /-- The number of colors. -/
  colors : UInt16
  /-- The number of cues. -/
  cues : UInt16
  deriving DecidableEq, Repr, Inhabited

namespace Stage

/-- An empty stage. -/
def new (settings : StageSettings) : Stage :=
  let (snapshot, palette) := Palette.empty.issue
  ⟨settings, palette, snapshot, .empty, .empty, .new settings.minCues.toNat, none⟩

instance : Inhabited Stage := ⟨new {}⟩

/-- How much there is on the stage; each count is cut to its word. -/
def census (s : Stage) : Census :=
  ⟨s.scene.size.toUInt16, s.scene.pixelBytes.toUInt32, s.palette.size.toUInt16,
    s.timeline.size.toUInt16⟩

/-- The color on top at a place of the screen. -/
def colorAt (s : Stage) (x y : Int) : Option Color := s.scene.colorAt x y

/-- Make a new snapshot the current one. -/
def refresh (s : Stage) : Stage :=
  let (snapshot, palette) := s.palette.issue
  { s with palette := palette, snapshot := snapshot }

/-- Color all sprites by the current snapshot. -/
def rebind (s : Stage) : Stage := { s with scene := s.scene.rebind s.snapshot }

/-- Overwrite the color at an index, and tell whether there is one. -/
def writeColor (s : Stage) (index : UInt8) (color : Color) : Bool × Stage :=
  match s.palette.get? index with
  | none => (false, s)
  | some old =>
    if old = color then (true, s)
    else (true, { s with palette := (s.palette.modify index color).2 }.refresh)

/-- The current snapshot has the palette's colors. -/
def InStep (s : Stage) : Prop := s.snapshot.colors = s.palette.colors

theorem inStep_new (settings : StageSettings) : (new settings).InStep := rfl

theorem inStep_refresh (s : Stage) : s.refresh.InStep := rfl

theorem InStep.writeColor {s : Stage} (h : s.InStep) (index : UInt8) (color : Color) :
    (s.writeColor index color).2.InStep := by
  unfold Stage.writeColor
  split
  · exact h
  · split
    · exact h
    · exact inStep_refresh _

end Stage

end Marquee
