import Marquee.Canvas.Basic
import Marquee.Canvas.SquareRoot
import Marquee.Wire.Command

/-!
# Drawing templates

Shapes are drawn from rectangles alone.

* A disk is a row of upright bands. A band is as wide as the sampling step and as high as the chord
  at its inner edge; each is drawn to the right of the center and mirrored to its left. The chord is
  measured with the square roots that `Canvas.drawDiskBy` is given, and `Canvas.drawDisk` takes the
  exact ones.
* A sector is one rectangle.
* `Canvas.ofTemplate` draws the background of a template and then its shapes in order.
-/

namespace Marquee

namespace Canvas

open Wire

/-! ### Disks -/

/-- A disk is drawn in about this many bands on each side. -/
def bandsPerRadius : Nat := 40

/-- The width of a band of a disk. -/
def bandStep (radius : Nat) : Nat := max (radius / bandsPerRadius) 1

theorem bandStep_pos (radius : Nat) : 0 < bandStep radius :=
  Nat.lt_of_lt_of_le Nat.one_pos (Nat.le_max_right _ _)

/-- Half the chord of a circle at distance `x` from its center. -/
def halfChord (root : Nat → Nat) (radius x : Nat) : Nat := root (radius * radius - x * x)

/-- Draw a band of a disk on both sides of the center, from column `inner` to before column `outer` and
`half` rows up and down. -/
def drawBand (c : Canvas) (inner outer half : Nat) (color : UInt8) : Canvas :=
  let centerX : Int := (c.width / 2 : Nat)
  let centerY : Int := (c.height / 2 : Nat)
  (c.fillRect (centerX + inner) (centerY - half) (centerX + outer) (centerY + half) color).fillRect
    (centerX - outer) (centerY - half) (centerX - inner) (centerY + half) color

/-- Draw the bands of a disk from column `inner` on. The next one ends at column `outer`, and it is
`half` rows high, which was measured when the band before it ended. -/
def drawBands (root : Nat → Nat) (radius : Nat) (color : UInt8) (c : Canvas)
    (inner half outer : Nat) : Canvas :=
  if outer ≤ radius then
    drawBands root radius color (c.drawBand inner outer half color) outer (halfChord root radius outer)
      (outer + bandStep radius)
  else c
termination_by radius + 1 - outer
decreasing_by
  have := bandStep_pos radius
  omega

/-- Draw a disk around the center, with the given square roots. A last band that would pass the radius
is left out. -/
def drawDiskBy (root : Nat → Nat) (c : Canvas) (radius : Nat) (color : UInt8) : Canvas :=
  drawBands root radius color c 0 (halfChord root radius 0) (bandStep radius)

/-- Draw a disk around the center. -/
def drawDisk (c : Canvas) (radius : Nat) (color : UInt8) : Canvas := c.drawDiskBy isqrt radius color

/-! ### Sectors and templates -/

/-- Fill a sector. -/
def drawSector (c : Canvas) (area : Sector) (color : UInt8) : Canvas :=
  let w : Int := c.width
  let h : Int := c.height
  let halfW : Int := (c.width / 2 : Nat)
  let halfH : Int := (c.height / 2 : Nat)
  match area with
  | .topRight => c.fillRect halfW 0 w halfH color
  | .topLeft => c.fillRect 0 0 halfW halfH color
  | .bottomLeft => c.fillRect 0 halfH halfW h color
  | .bottomHalf => c.fillRect 0 halfH w h color

/-- Draw a shape. -/
def drawShape (c : Canvas) : Shape → Canvas
  | .disk radius color => c.drawDisk radius color
  | .sector area color => c.drawSector area color

/-- The picture of a template: its background, then its shapes in order. -/
def ofTemplate (t : Template) : Except StageFault Canvas := do
  let c ← filled t.size t.size t.background
  return t.shapes.val.foldl drawShape c

end Canvas

end Marquee
