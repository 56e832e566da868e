/-!
# Panels

A panel shows whole frames of RGB565 words. `Panel` is what the rest of the library asks of one;
`MemoryPanel` keeps the last frame instead of showing it, and can be told to fail.
-/

namespace Marquee

/-- Why a panel does not show a frame. -/
inductive PanelFault where
  /-- The bus to the panel failed. -/
  | communication
  /-- The frame or the settings are of another size than the panel, or of no size at all. -/
  | invalidDimensions
  /-- The panel was not started. -/
  | notInitialized
  deriving DecidableEq, Repr, Inhabited

/-- What is said of the fault. -/
def PanelFault.message : PanelFault → String
  | .communication => "panel communication error"
  | .invalidDimensions => "invalid panel dimensions"
  | .notInitialized => "panel not initialized"

/-- What can show frames. -/
class Panel (P : Type) where
  /-- Width and height in pixels. -/
  size : P → Nat × Nat
  /-- Show a frame, given row by row. -/
  write : P → Array UInt16 → Except PanelFault Unit × P

/-- A panel that keeps what it is given. -/
structure MemoryPanel where
  /-- Width in pixels. -/
  width : Nat
  /-- Height in pixels. -/
  height : Nat
  /-- What every write fails with, if it fails. -/
  fault : Option PanelFault
  /-- The number of writes that did not fail. -/
  writes : Nat
  /-- The frame of the last such write; empty before the first. -/
  shown : Array UInt16
  deriving DecidableEq, Repr, Inhabited

namespace MemoryPanel

/-- A panel that has shown nothing. -/
def new (width height : Nat) : MemoryPanel := ⟨width, height, none, 0, #[]⟩

/-- Show a frame, or fail as told. -/
def write (p : MemoryPanel) (frame : Array UInt16) : Except PanelFault Unit × MemoryPanel :=
  match p.fault with
  | some e => (.error e, p)
  | none => (.ok (), { p with writes := p.writes + 1, shown := frame })

instance : Panel MemoryPanel where
  size p := (p.width, p.height)
  write := write

end MemoryPanel

end Marquee
