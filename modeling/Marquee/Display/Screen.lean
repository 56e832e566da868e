import Marquee.Counter
import Marquee.Display.Panel
import Marquee.Scene
import Marquee.Settings.Basic
import Marquee.Slice

/-!
# Composing the scene for a panel

A `Screen` keeps the frame that was composed last, and whether its panel may show something else.

* `Screen.compose` paints the visible sprites from the bottom to the top over the background, each
  clipped to the frame; transparent pixels leave what lies below.
* `Screen.composeRows` does the same in the space of one row, and leaves the rows alone that did not
  change.
* `Screen.refresh` writes the frame to the panel, unless the panel shows it already. If the write
  fails, the frame is still to be written.
-/

namespace Marquee

/-! ### Painting -/

namespace Sprite

/-- Paint `count` pixels of screen row `y` from column `x` on into a frame of rows of `stride`. -/
def paintSpan (s : Sprite) (stride y : Nat) (frame : Array UInt16) (x : Nat) :
    (count : Nat) → Array UInt16
  | 0 => frame
  | count + 1 =>
    match s.colorAt (x - s.left) (y - s.top) with
    | some c => paintSpan s stride y (frame.setIfInBounds (y * stride + x) c.rgb565) (x + 1) count
    | none => paintSpan s stride y frame (x + 1) count

/-- Paint columns `x` to before `x + count` of `rows` screen rows from row `y` on. -/
def paintRows (s : Sprite) (stride x count : Nat) (frame : Array UInt16) (y : Nat) :
    (rows : Nat) → Array UInt16
  | 0 => frame
  | rows + 1 => paintRows s stride x count (paintSpan s stride y frame x count) (y + 1) rows

/-- The screen columns and rows, below `limit`, of `length` pixels from `start` on: the first, and
how many. -/
def clipped (limit : Nat) (start : Int) (length : Nat) : Nat × Nat :=
  let first := min start.toNat limit
  (first, min (start + length).toNat limit - first)

/-- Paint the sprite into a frame, if it is shown. -/
def paint (s : Sprite) (width height : Nat) (frame : Array UInt16) : Array UInt16 :=
  if s.visible then
    let (x, columns) := clipped width s.left s.canvas.width
    let (y, rows) := clipped height s.top s.canvas.height
    s.paintRows width x columns frame y rows
  else frame

/-- Paint what the sprite has in screen row `y` into a row that is kept on its own, shown or not. -/
def paintRow (s : Sprite) (row : Array UInt16) (y : Nat) : Array UInt16 :=
  if s.top ≤ y ∧ y < s.top + s.canvas.height then
    let (x, columns) := clipped row.size s.left s.canvas.width
    -- with a stride of 0, each row of the screen begins where the kept one does
    s.paintSpan 0 y row x columns
  else row

end Sprite

/-- The frame of a scene over a background. -/
def Scene.paint (s : Scene) (width height : Nat) (background : UInt16) : Array UInt16 :=
  s.sprites.foldl (fun frame sprite => sprite.paint width height frame)
    (Array.replicate (width * height) background)

/-- Paint screen row `y` of a scene over a row that is kept on its own. Sprites that are not shown are
passed over. -/
def Scene.paintRow (s : Scene) (row : Array UInt16) (y : Nat) : Array UInt16 :=
  (s.sprites.filter Sprite.visible).foldl (fun row sprite => sprite.paintRow row y) row

/-! ### Screens -/

/-- A panel with the frame composed for it. -/
structure Screen (P : Type) where
  /-- The panel. -/
  panel : P
  /-- Width in pixels. -/
  width : Nat
  /-- Height in pixels. -/
  height : Nat
  /-- The word of the background, from the next composition on. -/
  background : UInt16
  /-- The frame composed last, row by row. -/
  frame : Array UInt16
  /-- The panel may show another frame. -/
  dirty : Bool
  /-- The number of frames written. -/
  framesPushed : Nat
  deriving Repr

namespace Screen

variable {P : Type} [Panel P]

/-- A screen of the size of its panel, which must have pixels. All is background, and nothing is
written yet. -/
def new (panel : P) (background : Color) : Except PanelFault (Screen P) :=
  let (width, height) := Panel.size panel
  if width = 0 ∨ height = 0 then .error .invalidDimensions
  else
    let word := background.rgb565
    .ok ⟨panel, width, height, word, Array.replicate (width * height) word, true, 0⟩

/-- A screen by the settings, which must give the size of the panel. -/
def ofSettings (panel : P) (settings : DisplaySettings) : Except PanelFault (Screen P) :=
  if Panel.size panel = (settings.width.toNat, settings.height.toNat) then
    new panel settings.background
  else .error .invalidDimensions

/-- Change the background of the frames composed from now on. -/
def setBackground (s : Screen P) (color : Color) : Screen P := { s with background := color.rgb565 }

/-- The composed word at a place of the screen. -/
def pixel? (s : Screen P) (x y : Nat) : Option UInt16 :=
  if x < s.width ∧ y < s.height then s.frame[y * s.width + x]? else none

/-- Compose a scene. -/
def compose (s : Screen P) (scene : Scene) : Screen P :=
  let frame := scene.paint s.width s.height s.background
  { s with frame := frame, dirty := s.dirty || frame != s.frame }

/-- A screen while its frame is composed row by row. -/
structure Composing where
  /-- The row painted last. -/
  row : Array UInt16
  /-- The frame, with the rows composed so far. -/
  frame : Array UInt16
  /-- The panel may show another frame. -/
  dirty : Bool

/-- Compose row `y` of a frame: paint it over the background, and copy it into the frame if the frame has
another one there. -/
def composeRow (width : Nat) (background : UInt16) (scene : Scene) (c : Composing) (y : Nat) :
    Composing :=
  let row := scene.paintRow (Array.replicate c.row.size background) y
  if c.frame.extract (y * width) ((y + 1) * width) = row then { c with row := row }
  else ⟨row, copyAt c.frame (y * width) row.toList, true⟩

/-- Compose a scene row by row. Each row is painted in the place of `row`, whatever that holds before. -/
def composeRows (s : Screen P) (row : Array UInt16) (scene : Scene) : Screen P :=
  let c := (List.range s.height).foldl (composeRow s.width s.background scene)
    ⟨row, s.frame, s.dirty⟩
  { s with frame := c.frame, dirty := c.dirty }

/-- Write the frame to the panel, if the panel may show another one. -/
def refresh (s : Screen P) : Except PanelFault Unit × Screen P :=
  if s.dirty then
    match Panel.write s.panel s.frame with
    | (.ok (), panel) =>
      (.ok (),
        { s with
          panel := panel
          dirty := false
          framesPushed := Counter.addUpTo Counter.cap32 s.framesPushed 1 })
    | (.error e, panel) => (.error e, { s with panel := panel })
  else (.ok (), s)

/-- Write the frame to the panel in any case. -/
def forceRefresh (s : Screen P) : Except PanelFault Unit × Screen P :=
  { s with dirty := true }.refresh

end Screen

end Marquee
