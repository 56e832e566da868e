import Marquee.Color
import Marquee.Wire.Framer

/-!
# Settings

What can be set on a sign, in three groups: the stage, the link and the display. Every field has a
default, so a text of settings only names what it changes.
-/

namespace Marquee

/-- Settings of the stage. -/
structure StageSettings where
  /-- The time unit of animations, in nanoseconds; one frame at 60 Hz. -/
  timeUnitNs : UInt64 := 16666666
  /-- With fewer cues than this, nothing is played. -/
  minCues : UInt8 := 2
  /-- The most pixels of one sprite; one screen of 240 by 240. -/
  maxSpritePixels : UInt32 := 240 * 240
  deriving DecidableEq, Repr, Inhabited

/-- How long so many time units last, in nanoseconds. The product is a word of 64 bits, and wraps. -/
def StageSettings.durationNs (settings : StageSettings) (units : UInt8) : Nat :=
  (units.toUInt64 * settings.timeUnitNs).toNat

/-- Settings of the link. -/
structure LinkSettings where
  /-- Bits per second on the wire. -/
  baudRate : UInt32 := 115200
  /-- The longest gap between two bytes of a frame, in milliseconds; `0` for no limit. -/
  frameTimeoutMs : UInt32 := 1000
  /-- The most bytes of one frame. -/
  maxFrameLength : UInt32 := Wire.Framer.defaultMaxLength.toUInt32
  /-- The most bytes taken from the link in one poll. -/
  maxBytesPerPoll : UInt16 := 512
  deriving DecidableEq, Repr, Inhabited

/-- Settings of the display. -/
structure DisplaySettings where
  /-- Width in pixels. -/
  width : UInt16 := 240
  /-- Height in pixels. -/
  height : UInt16 := 240
  /-- The color where no sprite has one. -/
  background : Color := .black
  /-- Show a splash picture at the start. -/
  showSplash : Bool := true
  deriving DecidableEq, Repr, Inhabited

/-- All settings of a sign. -/
structure Settings where
  /-- Settings of the stage. -/
  stage : StageSettings := {}
  /-- Settings of the link. -/
  link : LinkSettings := {}
  /-- Settings of the display. -/
  display : DisplaySettings := {}
  deriving DecidableEq, Repr, Inhabited

end Marquee
