import Marquee.Canvas.Drawing
import Marquee.Palette

/-!
# Sprites and the scene

A `Sprite` is a canvas with a place on the screen and a snapshot to color it by. The `Scene` is the
list of sprites; later ones lie on top of earlier ones.

Sprites are named by `SpriteRef`, which carries the epoch of the scene. Clearing the scene begins a
new epoch, so a reference never reaches a sprite of a later scene by its number alone. Epochs are
32-bit words and wrap; places in a reference are 16-bit words.

* `Scene.push`, `Scene.update`, `Scene.rebind`, `Scene.clear` change the scene;
* `Scene.get?` resolves a reference;
* `Scene.colorAt` is the color on top at a place of the screen.
-/

namespace Marquee

open Wire

/-- A picture with a place on the screen. -/
structure Sprite where
  /-- Column of its center. -/
  x : Nat
  /-- Row of its center. -/
  y : Nat
  /-- Its pixels. -/
  canvas : Canvas
  /-- What colors its pixels. -/
  palette : Snapshot
  /-- Which bits of a pixel count. -/
  depth : Depth
  /-- It is shown. -/
  visible : Bool
  deriving DecidableEq, Repr

namespace Sprite

/-- The screen column of its first column. -/
def left (s : Sprite) : Int := (s.x : Int) - (s.canvas.width / 2 : Nat)

/-- The screen row of its first row. -/
def top (s : Sprite) : Int := (s.y : Int) - (s.canvas.height / 2 : Nat)

/-- The same sprite, centered elsewhere. -/
def moveTo (s : Sprite) (x y : Nat) : Sprite := { s with x := x, y := y }

/-- The same sprite, shown or hidden. -/
def setVisible (s : Sprite) (visible : Bool) : Sprite := { s with visible := visible }

/-- The same sprite, colored by another snapshot. -/
def bind (s : Sprite) (palette : Snapshot) : Sprite := { s with palette := palette }

/-- The color of its own pixel `(x, y)`. A pixel whose index has no color is transparent. -/
def colorAt (s : Sprite) (x y : Int) : Option Color := do
  let index ← s.canvas.get? x y
  s.palette.get? (index &&& s.depth.mask)

/-- The color a sprite gives to the screen at `(x, y)`, if it is shown. -/
def screenColor (s : Sprite) (x y : Int) : Option Color :=
  if s.visible then s.colorAt (x - s.left) (y - s.top) else none

end Sprite

/-- The name of a sprite. -/
structure SpriteRef where
  /-- The epoch of the scene that it names a sprite of. -/
  epoch : UInt32
  /-- The place of the sprite in the scene. -/
  index : UInt16
  deriving DecidableEq, Repr, Inhabited

/-- The sprites on the screen. -/
structure Scene where
  /-- The sprites, from the bottom to the top. -/
  sprites : Array Sprite
  /-- How often the scene was cleared. -/
  epoch : UInt32
  deriving DecidableEq, Repr

namespace Scene

/-- A new scene, without sprites. -/
def empty : Scene := ⟨#[], 0⟩

instance : Inhabited Scene := ⟨empty⟩

/-- The number of sprites. -/
def size (s : Scene) : Nat := s.sprites.size

/-- There are no sprites. -/
def isEmpty (s : Scene) : Bool := s.sprites.isEmpty

/-- The pixels of all sprites together, which take one byte each. -/
def pixelBytes (s : Scene) : Nat := s.sprites.foldl (fun n sprite => n + sprite.canvas.area) 0

/-- Put a sprite on top, and tell its name. -/
def push (s : Scene) (sprite : Sprite) : SpriteRef × Scene :=
  (⟨s.epoch, s.sprites.size.toUInt16⟩, { s with sprites := s.sprites.push sprite })

/-- The name of the sprite at a place, which need not be there yet. -/
def refAt (s : Scene) (index : UInt8) : SpriteRef := ⟨s.epoch, index.toUInt16⟩

/-- The sprite of a name, unless the name is of another epoch or of a place still empty. -/
def get? (s : Scene) (ref : SpriteRef) : Option Sprite :=
  if ref.epoch = s.epoch then s.sprites[ref.index.toNat]? else none

/-- Change the sprite of a name, if there is one. -/
def update (s : Scene) (ref : SpriteRef) (f : Sprite → Sprite) : Scene :=
  if ref.epoch = s.epoch then { s with sprites := s.sprites.modify ref.index.toNat f } else s

/-- Drop all sprites and begin a new epoch. -/
def clear (s : Scene) : Scene := ⟨#[], s.epoch + 1⟩

/-- Color all sprites by one snapshot. -/
def rebind (s : Scene) (palette : Snapshot) : Scene :=
  { s with sprites := s.sprites.map fun sprite => sprite.bind palette }

/-- The color of the topmost sprite that has one at `(x, y)` of the screen. -/
def colorAt (s : Scene) (x y : Int) : Option Color :=
  s.sprites.findSomeRev? fun sprite => sprite.screenColor x y

@[simp] theorem epoch_push (s : Scene) (sprite : Sprite) : (s.push sprite).2.epoch = s.epoch := rfl

@[simp] theorem epoch_rebind (s : Scene) (palette : Snapshot) :
    (s.rebind palette).epoch = s.epoch := rfl

@[simp] theorem size_rebind (s : Scene) (palette : Snapshot) :
    (s.rebind palette).size = s.size := by
  simp [rebind, size]

@[simp] theorem epoch_update (s : Scene) (ref : SpriteRef) (f : Sprite → Sprite) :
    (s.update ref f).epoch = s.epoch := by
  unfold update
  split <;> rfl

@[simp] theorem size_update (s : Scene) (ref : SpriteRef) (f : Sprite → Sprite) :
    (s.update ref f).size = s.size := by
  unfold update
  split <;> simp [size]

end Scene

end Marquee
