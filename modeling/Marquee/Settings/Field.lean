import Marquee.Settings.Basic
import Marquee.Settings.Literal

/-!
# Fields of the settings

Each field of the settings has a `Heading` that it stands under, a key, and a type of values.

* `Settings.get` and `Settings.set` read and change one field (`get_set_self`, `get_set_of_ne`);
* `Field.find?` finds a field by its heading and key, and `Field.read?` reads a value of it.
-/

namespace Marquee

/-- What a group of fields stands under. -/
inductive Heading where
  /-- Fields of the stage. -/
  | stage
  /-- Fields of the link. -/
  | link
  /-- Fields of the display. -/
  | display
  deriving DecidableEq, Repr, Inhabited

/-- How a heading is written. -/
def Heading.name : Heading → String
  | .stage => "engine"
  | .link => "link"
  | .display => "display"

/-- The heading of a name. -/
def Heading.ofName? (name : String) : Option Heading :=
  [stage, link, display].find? fun h => h.name = name

/-- A field of the settings. -/
inductive Field where
  /-- The time unit of animations. -/
  | timeUnitNs
  /-- The number of cues that have to be there. -/
  | minCues
  /-- The most pixels of a sprite. -/
  | maxSpritePixels
  /-- The speed of the link. -/
  | baudRate
  /-- The longest gap in a frame. -/
  | frameTimeoutMs
  /-- The longest frame. -/
  | maxFrameLength
  /-- The most bytes of a poll. -/
  | maxBytesPerPoll
  /-- The width of the panel. -/
  | width
  /-- The height of the panel. -/
  | height
  /-- The background. -/
  | background
  /-- The splash picture. -/
  | showSplash
  deriving DecidableEq, Repr, Inhabited

namespace Field

/-- All fields. -/
def all : List Field :=
  [timeUnitNs, minCues, maxSpritePixels, baudRate, frameTimeoutMs, maxFrameLength, maxBytesPerPoll,
    width, height, background, showSplash]

/-- What the field stands under. -/
def heading : Field → Heading
  | timeUnitNs | minCues | maxSpritePixels => .stage
  | baudRate | frameTimeoutMs | maxFrameLength | maxBytesPerPoll => .link
  | width | height | background | showSplash => .display

/-- How the field is named in a text. -/
def key : Field → String
  | timeUnitNs => "time_unit_ns"
  | minCues => "min_animated_tracks"
  | maxSpritePixels => "max_node_pixels"
  | baudRate => "baudrate"
  | frameTimeoutMs => "frame_timeout_ms"
  | maxFrameLength => "max_frame_len"
  | maxBytesPerPoll => "max_bytes_per_poll"
  | width => "width"
  | height => "height"
  | background => "background"
  | showSplash => "show_splash"

/-- The field of a key under a heading. -/
def find? (heading : Heading) (key : String) : Option Field :=
  all.find? fun f => f.heading = heading && f.key = key

/-- What values of the field are. -/
abbrev Value : Field → Type
  | timeUnitNs => UInt64
  | minCues => UInt8
  | maxSpritePixels | baudRate | frameTimeoutMs | maxFrameLength => UInt32
  | maxBytesPerPoll | width | height => UInt16
  | background => Color
  | showSplash => Bool

/-- Read a number of so many bits. -/
def word? {α : Type} (bits : Nat) (ofNat : Nat → α) (text : List Char) : Option α :=
  (Literal.number? (1 <<< bits) text).map ofNat

/-- Read a value of the field. -/
def read? : (f : Field) → List Char → Option f.Value
  | timeUnitNs => word? 64 Nat.toUInt64
  | minCues => word? 8 Nat.toUInt8
  | maxSpritePixels | baudRate | frameTimeoutMs | maxFrameLength => word? 32 Nat.toUInt32
  | maxBytesPerPoll | width | height => word? 16 Nat.toUInt16
  | background => word? 24 Color.ofPacked
  | showSplash => Literal.switch?

theorem find?_key (f : Field) : find? f.heading f.key = some f := by
  cases f <;> decide

end Field

namespace Settings

/-- The value of a field. -/
def get (s : Settings) : (f : Field) → f.Value
  | .timeUnitNs => s.stage.timeUnitNs
  | .minCues => s.stage.minCues
  | .maxSpritePixels => s.stage.maxSpritePixels
  | .baudRate => s.link.baudRate
  | .frameTimeoutMs => s.link.frameTimeoutMs
  | .maxFrameLength => s.link.maxFrameLength
  | .maxBytesPerPoll => s.link.maxBytesPerPoll
  | .width => s.display.width
  | .height => s.display.height
  | .background => s.display.background
  | .showSplash => s.display.showSplash

/-- The settings with another value of one field. -/
def set (s : Settings) : (f : Field) → f.Value → Settings
  | .timeUnitNs, v => { s with stage := { s.stage with timeUnitNs := v } }
  | .minCues, v => { s with stage := { s.stage with minCues := v } }
  | .maxSpritePixels, v => { s with stage := { s.stage with maxSpritePixels := v } }
  | .baudRate, v => { s with link := { s.link with baudRate := v } }
  | .frameTimeoutMs, v => { s with link := { s.link with frameTimeoutMs := v } }
  | .maxFrameLength, v => { s with link := { s.link with maxFrameLength := v } }
  | .maxBytesPerPoll, v => { s with link := { s.link with maxBytesPerPoll := v } }
  | .width, v => { s with display := { s.display with width := v } }
  | .height, v => { s with display := { s.display with height := v } }
  | .background, v => { s with display := { s.display with background := v } }
  | .showSplash, v => { s with display := { s.display with showSplash := v } }

@[simp] theorem get_set_self (s : Settings) (f : Field) (v : f.Value) : (s.set f v).get f = v := by
  cases f <;> rfl

theorem get_set_of_ne (s : Settings) {f g : Field} (h : g ≠ f) (v : f.Value) :
    (s.set f v).get g = s.get g := by
  cases f <;> cases g <;> simp_all [get, set]

end Settings

end Marquee
