import Marquee.Settings.Basic

/-!
# Reviewing settings

Settings can be well written and still of no use. `Settings.problems` lists what is wrong with them.
-/

namespace Marquee

/-- What can be wrong with settings. -/
inductive SettingsProblem where
  /-- Cues would have no duration. -/
  | noTimeUnit
  /-- No sprite would be small enough. -/
  | noSpritePixels
  /-- The link would stand still. -/
  | noBaudRate
  /-- Every frame would be overdue before its next byte can arrive. -/
  | timeoutTooShort
  /-- No frame with a tile would be short enough. -/
  | framesTooShort
  /-- No byte would ever be taken. -/
  | noBytesPerPoll
  /-- The panel would have no pixels. -/
  | noPanel
  deriving DecidableEq, Repr, Inhabited

namespace Settings

/-- The length of a frame that holds one tile, with room for its header. -/
def minFrameLength : Nat := 16 + Wire.Grammar.tileDigits

/-- The bits that one byte takes on the wire: a start bit, eight data bits and a stop bit. -/
def bitsPerByte : Nat := 10

/-- At the speed of the link, one byte takes longer than the longest gap in a frame. -/
def timeoutBelowOneByte (s : LinkSettings) : Bool :=
  s.frameTimeoutMs ≠ 0 && s.frameTimeoutMs.toNat * s.baudRate.toNat < bitsPerByte * 1000

/-- What is wrong with the settings, in a fixed order. -/
def problems (s : Settings) : List SettingsProblem :=
  (if s.stage.timeUnitNs = 0 then [.noTimeUnit] else []) ++
  (if s.stage.maxSpritePixels = 0 then [.noSpritePixels] else []) ++
  (if s.link.baudRate = 0 then [.noBaudRate]
    else if timeoutBelowOneByte s.link then [.timeoutTooShort] else []) ++
  (if s.link.maxFrameLength.toNat < minFrameLength then [.framesTooShort] else []) ++
  (if s.link.maxBytesPerPoll = 0 then [.noBytesPerPoll] else []) ++
  (if s.display.width = 0 ∨ s.display.height = 0 then [.noPanel] else [])

end Settings

/-- What is said of the problem. -/
def SettingsProblem.message : SettingsProblem → String
  | .noTimeUnit => "[engine] time_unit_ns must be greater than 0"
  | .noSpritePixels => "[engine] max_node_pixels must be greater than 0"
  | .noBaudRate => "[link] baudrate must be greater than 0"
  | .timeoutTooShort => "[link] frame_timeout_ms is shorter than one byte on the wire"
  | .framesTooShort => "[link] max_frame_len must be at least " ++ toString Settings.minFrameLength
  | .noBytesPerPoll => "[link] max_bytes_per_poll must be greater than 0"
  | .noPanel => "[display] width and height must be greater than 0"

end Marquee
