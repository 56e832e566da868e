import Marquee.Color

/-!
# Commands

The values that frames stand for. A command changes the palette, adds a sprite to the scene, adds
a cue to the timeline, or clears scene and timeline.

Lists inside a command are bounded: `Command.maxShapes` shapes in a template and
`Command.maxKeyframes` keyframes in an animation, which the types `Template` and `Animation` keep.
-/

namespace Marquee

namespace Wire

/-- A list of at most `n` entries. -/
abbrev UpTo (n : Nat) (α : Type) := { xs : List α // xs.length ≤ n }

/-- How many colors the pixels of a bitmap tell apart. -/
inductive Depth where
  /-- Sixteen colors: the low four bits of a pixel count. -/
  | four
  /-- 256 colors: all bits of a pixel count. -/
  | eight
  deriving DecidableEq, Repr, Inhabited

namespace Depth

/-- The depth that holds `bits` bits of a pixel. -/
def ofBits (bits : Nat) : Depth := if bits ≤ 4 then .four else .eight

/-- The bits of a pixel that count. -/
def mask : Depth → UInt8
  | .four => 0x0F
  | .eight => 0xFF

end Depth

/-- A part of a template that a shape can fill. -/
inductive Sector where
  /-- The right part of the top half. -/
  | topRight
  /-- The left part of the top half. -/
  | topLeft
  /-- The left part of the bottom half. -/
  | bottomLeft
  /-- The whole bottom half. -/
  | bottomHalf
  deriving DecidableEq, Repr, Inhabited

/-- The sector a digit names. -/
def Sector.ofDigit? : Nat → Option Sector
  | 0 => some .topRight
  | 1 => some .topLeft
  | 2 => some .bottomLeft
  | 3 => some .bottomHalf
  | _ => none

/-- One part of a template; `color` is a palette index. -/
inductive Shape where
  /-- A disk around the center. -/
  | disk (radius : Nat) (color : UInt8)
  /-- A whole sector. -/
  | sector (area : Sector) (color : UInt8)
  deriving DecidableEq, Repr, Inhabited

/-- The palette index a shape is drawn with. -/
def Shape.color : Shape → UInt8
  | .disk _ color => color
  | .sector _ color => color

/-- One change while a cue is active, as it is sent. -/
inductive Keyframe where
  /-- Move a sprite, named by its place in the scene, and show or hide it. -/
  | place (sprite : UInt8) (x y : Nat) (visible : Bool)
  /-- Overwrite a color of the palette. -/
  | recolor (index : UInt8) (color : Color)
  deriving DecidableEq, Repr, Inhabited

namespace Command

/-- Edge of a tile of a bitmap, in pixels. -/
def tileEdge : Nat := 16

/-- Pixels of a tile. -/
def tileArea : Nat := tileEdge * tileEdge

/-- The most shapes of one template. -/
def maxShapes : Nat := 32

/-- The most keyframes of one animation. -/
def maxKeyframes : Nat := 64

end Command

/-- A picture sent pixel by pixel, in whole tiles. -/
structure Bitmap where
  /-- Horizontal place of the center on the screen. -/
  x : Nat
  /-- Vertical place of the center on the screen. -/
  y : Nat
  /-- Width in tiles. -/
  tilesWide : UInt8
  /-- Height in tiles. -/
  tilesHigh : UInt8
  /-- How many colors its pixels tell apart. -/
  depth : Depth
  /-- Palette indices, row by row. -/
  pixels : Array UInt8
  deriving DecidableEq, Repr, Inhabited

namespace Bitmap

/-- Width in pixels. -/
def width (b : Bitmap) : Nat := b.tilesWide.toNat * Command.tileEdge

/-- Height in pixels. -/
def height (b : Bitmap) : Nat := b.tilesHigh.toNat * Command.tileEdge

end Bitmap

/-- A square picture drawn from shapes. -/
structure Template where
  /-- Horizontal place of the center on the screen. -/
  x : Nat
  /-- Vertical place of the center on the screen. -/
  y : Nat
  /-- Edge in pixels. -/
  size : Nat
  /-- Palette index where no shape is drawn. -/
  background : UInt8
  /-- Its shapes; later ones cover earlier ones. -/
  shapes : UpTo Command.maxShapes Shape
  deriving DecidableEq, Repr

/-- Changes to hold for a while. -/
structure Animation where
  /-- How long, in time units. -/
  units : UInt8
  /-- The changes, in order. -/
  keyframes : UpTo Command.maxKeyframes Keyframe
  deriving DecidableEq, Repr

/-- What a frame asks for. -/
inductive Command where
  /-- Empty the palette. -/
  | paletteReset
  /-- Append a color to the palette. -/
  | paletteAppend (color : Color)
  /-- Overwrite a color of the palette. -/
  | paletteModify (index : UInt8) (color : Color)
  /-- Empty the scene and the timeline. -/
  | clear
  /-- Add a sprite from pixels. -/
  | bitmap (bitmap : Bitmap)
  /-- Add a sprite drawn from shapes. -/
  | template (template : Template)
  /-- Add a cue to the timeline. -/
  | animation (animation : Animation)
  deriving DecidableEq, Repr

end Wire

end Marquee
