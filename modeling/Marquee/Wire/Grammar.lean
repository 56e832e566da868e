import Marquee.Slice
import Marquee.Wire.Command
import Marquee.Wire.Cursor

/-!
# The grammar of commands

    command   := '<' body '>'
    body      := 'P' color? | 'M' byte color | 'Z' | bitmap | template | animation
    color     := byte byte byte
    bitmap    := 'B' measure measure byte byte digit tile*
    template  := 'T' measure measure measure byte shape*
    shape     := 'D' measure byte | 'S' digit byte
    animation := 'A' byte keyframe*
    keyframe  := 'B' byte measure measure any | 'P' byte color

Here `digit`, `byte` and `measure` are one, two and three hex digits, a `tile` is a pair of digits
for each of its pixels, and `any` is one byte whatever it is (`V` shows the sprite, any other byte
hides it).

* `Grammar.command` reads one command and stops behind its `>`;
* `Command.ofBytes` accepts bytes that are one command and nothing else.
-/

namespace Marquee

namespace Wire

namespace Grammar

open Reader

/-- `<` opens a command. -/
def opener : UInt8 := 60

/-- `>` closes a command. -/
def closer : UInt8 := 62

/-- `A` starts an animation. -/
def letterA : UInt8 := 65

/-- `B` starts a bitmap, and a keyframe that places a sprite. -/
def letterB : UInt8 := 66

/-- `D` starts a disk. -/
def letterD : UInt8 := 68

/-- `M` starts a change of a palette color. -/
def letterM : UInt8 := 77

/-- `P` starts a palette color, and a keyframe that changes one. -/
def letterP : UInt8 := 80

/-- `S` starts a sector. -/
def letterS : UInt8 := 83

/-- `T` starts a template. -/
def letterT : UInt8 := 84

/-- `V` in a keyframe shows the sprite. -/
def letterV : UInt8 := 86

/-- `Z` clears. -/
def letterZ : UInt8 := 90

/-- Three bytes: red, green, blue. -/
def color : Reader Color := do
  let red ← byte
  let green ← byte
  let blue ← byte
  return ⟨red, green, blue⟩

/-- A palette command: with nothing in it, a reset. -/
def palette : Reader Command := do
  expect letterP
  if (← peek?) = some closer then return .paletteReset
  return .paletteAppend (← color)

/-- A change of a palette color. -/
def modify : Reader Command := do
  expect letterM
  let index ← byte
  return .paletteModify index (← color)

/-! ### Bitmaps -/

/-- The digits of one tile. -/
def tileDigits : Nat := 2 * Command.tileArea

/-- A picture that is put together from tiles. -/
structure Mosaic where
  /-- The pixels, row by row. Where no tile was put yet they are 0. -/
  pixels : Array UInt8
  /-- The pixels of the tile read last, row by row. The next tile is decoded over them. -/
  tile : List UInt8

/-- A picture of `width` by `height` pixels without tiles. -/
def Mosaic.blank (width height : Nat) : Mosaic :=
  ⟨Array.replicate (width * height) 0, List.replicate Command.tileArea 0⟩

/-- Copy `rows` rows of a tile into a picture of rows of `width`, from column `left` and row `top`
on. -/
def copyRows (width left : Nat) (pixels : Array UInt8) (top : Nat) (tile : List UInt8) :
    (rows : Nat) → Array UInt8
  | 0 => pixels
  | rows + 1 =>
    copyRows width left (copyAt pixels (top * width + left) (tile.take Command.tileEdge)) (top + 1)
      (tile.drop Command.tileEdge) rows

/-- Put a tile in its tile column and tile row. -/
def Mosaic.put (m : Mosaic) (width column row : Nat) (tile : List UInt8) : Mosaic :=
  ⟨copyRows width (column * Command.tileEdge) m.pixels (row * Command.tileEdge) tile
    Command.tileEdge, tile⟩

/-- Read the tile of a tile column and a tile row, and put it there. -/
def tile (width column row : Nat) (m : Mosaic) : Reader Mosaic := do
  let digits ← bytes tileDigits
  match Hex.decodeOver m.tile digits with
  | (.ok (), tile) => return m.put width column row tile
  | (.error e, _) => throw e

/-- The pixels of a picture, row by row. Its tiles are read tile column by tile column, and downwards in
a column. -/
def tiles (tilesWide tilesHigh : Nat) : Reader (Array UInt8) := do
  let width := tilesWide * Command.tileEdge
  let height := tilesHigh * Command.tileEdge
  let m ← (List.range tilesWide).foldlM (fun m column =>
    (List.range tilesHigh).foldlM (fun m row => tile width column row m) m) (Mosaic.blank width height)
  return m.pixels

/-- A bitmap. All its digits and the closing byte must be there before a tile is looked at. -/
def bitmap : Reader Bitmap := do
  expect letterB
  let x ← measure
  let y ← measure
  let tilesWide ← byte
  let tilesHigh ← byte
  let depth := Depth.ofBits (← digit)
  moreThan (tilesWide.toNat * tilesHigh.toNat * tileDigits)
  return ⟨x, y, tilesWide, tilesHigh, depth, ← tiles tilesWide.toNat tilesHigh.toNat⟩

/-! ### Lists of components -/

/-- Components up to the closing byte, at most `n`. One too many is read before it is refused. -/
def upTo {α : Type} (component : Reader α) : (n : Nat) → Reader (UpTo n α)
  | 0 => do
    if (← peek) = closer then
      return ⟨[], Nat.zero_le 0⟩
    else
      let _ ← component
      throw .tooManyComponents
  | n + 1 => do
    if (← peek) = closer then
      return ⟨[], Nat.zero_le (n + 1)⟩
    else
      let x ← component
      let xs ← upTo component n
      return ⟨x :: xs.val, Nat.succ_le_succ xs.property⟩

/-- A shape. -/
def shape : Reader Shape := do
  let tag ← anyByte
  if tag = letterD then
    let radius ← measure
    return .disk radius (← byte)
  else if tag = letterS then
    match Sector.ofDigit? (← digit) with
    | some area => return .sector area (← byte)
    | none => throw .unexpectedToken
  else throw .unknownShape

/-- A template. -/
def template : Reader Template := do
  expect letterT
  let x ← measure
  let y ← measure
  let size ← measure
  let background ← byte
  return ⟨x, y, size, background, ← upTo shape Command.maxShapes⟩

/-- A keyframe. -/
def keyframe : Reader Keyframe := do
  let tag ← anyByte
  if tag = letterB then
    let sprite ← byte
    let x ← measure
    let y ← measure
    return .place sprite x y ((← anyByte) = letterV)
  else if tag = letterP then
    let index ← byte
    return .recolor index (← color)
  else throw .unknownKeyframe

/-- An animation. -/
def animation : Reader Animation := do
  expect letterA
  let units ← byte
  return ⟨units, ← upTo keyframe Command.maxKeyframes⟩

/-- What stands between the opening and the closing byte. -/
def body : Reader Command := do
  let letter ← peek
  if letter = letterP then palette
  else if letter = letterM then modify
  else if letter = letterZ then do expect letterZ; return .clear
  else if letter = letterB then return .bitmap (← bitmap)
  else if letter = letterT then return .template (← template)
  else if letter = letterA then return .animation (← animation)
  else throw .unknownCommand

/-- One command. -/
def command : Reader Command := do
  expect opener
  let c ← body
  expect closer
  return c

end Grammar

/-- The command that all the bytes are. -/
def Command.ofBytes (bytes : List UInt8) : Except GrammarFault Command :=
  match Grammar.command.read (.ofBytes bytes) with
  | (.ok c, rest) => if rest.rest.isEmpty then .ok c else .error .unexpectedToken
  | (.error e, _) => .error e

end Wire

end Marquee
