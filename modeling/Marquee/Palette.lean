import Marquee.Color
import Marquee.Fault

/-!
# The palette

The `Palette` is the one editable list of colors. Sprites do not read it: each holds a `Snapshot` of
it. A snapshot never changes, and each carries a serial number of its own, so that two snapshots
with the same colors are still told apart.

* `Palette.append`, `Palette.modify`, `Palette.clear` edit the colors;
* `Palette.issue` makes a new snapshot.
-/

namespace Marquee

/-- An unchanging copy of the palette. -/
structure Snapshot where
  /-- What tells this snapshot from every other. -/
  serial : Nat
  /-- Its colors, by index. -/
  colors : Array Color
  deriving DecidableEq, Repr, Inhabited

namespace Snapshot

/-- The color at an index. -/
def get? (s : Snapshot) (index : UInt8) : Option Color := s.colors[index.toNat]?

/-- The number of colors. -/
def size (s : Snapshot) : Nat := s.colors.size

/-- There are no colors. -/
def isEmpty (s : Snapshot) : Bool := s.colors.isEmpty

/-- Both are one and the same snapshot. -/
def same (s t : Snapshot) : Bool := s.serial == t.serial

end Snapshot

/-- The editable list of colors. -/
structure Palette where
  /-- Its colors, by index. -/
  colors : Array Color
  /-- How many snapshots have been made. -/
  issued : Nat
  /-- An index is one byte. -/
  size_le : colors.size ≤ 256
  deriving DecidableEq, Repr

namespace Palette

/-- The most colors a palette holds. -/
def maxSize : Nat := 256

/-- A palette without colors. -/
def empty : Palette := ⟨#[], 0, Nat.zero_le _⟩

instance : Inhabited Palette := ⟨empty⟩

/-- The number of colors. -/
def size (p : Palette) : Nat := p.colors.size

/-- There are no colors. -/
def isEmpty (p : Palette) : Bool := p.colors.isEmpty

/-- The color at an index. -/
def get? (p : Palette) (index : UInt8) : Option Color := p.colors[index.toNat]?

/-- There is a color at the index. -/
def contains (p : Palette) (index : UInt8) : Bool := index.toNat < p.colors.size

/-- Append a color and tell its index. -/
def append (p : Palette) (color : Color) : Except StageFault UInt8 × Palette :=
  if h : p.colors.size < maxSize then
    (.ok p.colors.size.toUInt8,
      { p with
        colors := p.colors.push color
        size_le := by rw [Array.size_push]; exact h })
  else (.error .paletteFull, p)

/-- Overwrite the color at an index, if there is one; tells whether there is. -/
def modify (p : Palette) (index : UInt8) (color : Color) : Bool × Palette :=
  (p.contains index,
    { p with
      colors := p.colors.setIfInBounds index.toNat color
      size_le := by rw [Array.size_setIfInBounds]; exact p.size_le })

/-- Drop all colors. -/
def clear (p : Palette) : Palette := { p with colors := #[], size_le := Nat.zero_le _ }

/-- A new snapshot of the colors. -/
def issue (p : Palette) : Snapshot × Palette :=
  (⟨p.issued, p.colors⟩, { p with issued := p.issued + 1 })

@[simp] theorem colors_issue (p : Palette) : p.issue.1.colors = p.colors := rfl

@[simp] theorem colors_issue_palette (p : Palette) : p.issue.2.colors = p.colors := rfl

@[simp] theorem colors_clear (p : Palette) : p.clear.colors = #[] := rfl

/-- A color for which there is no room changes nothing. -/
theorem append_error {p q : Palette} {color : Color} {e : StageFault}
    (h : p.append color = (.error e, q)) : q = p := by
  unfold append at h
  split at h
  · simp only [Prod.mk.injEq, reduceCtorEq, false_and] at h
  · exact (Prod.mk.inj h).2.symm

theorem contains_iff {p : Palette} {index : UInt8} :
    p.contains index = true ↔ (p.get? index).isSome := by
  simp [contains, get?]

end Palette

end Marquee
