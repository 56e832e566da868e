/-!
# Colors

A color is three bytes. Two numbers stand for it:

* `Color.packed` : one 24-bit number, red in the high byte; `Color.ofPacked` reads it back
  (`ofPacked_packed`);
* `Color.rgb565` : the 16-bit word a panel shows, which keeps the five, six and five high bits.
-/

namespace Marquee

/-- A color without transparency. -/
structure Color where
  /-- Strength of red. -/
  red : UInt8
  /-- Strength of green. -/
  green : UInt8
  /-- Strength of blue. -/
  blue : UInt8
  deriving DecidableEq, Repr, Inhabited

namespace Color

/-- No light at all. -/
def black : Color := ⟨0, 0, 0⟩

/-- The color as one number, red above green above blue. -/
def packed (c : Color) : Nat :=
  c.red.toNat * 65536 + c.green.toNat * 256 + c.blue.toNat

/-- The color of a packed number; all above its low 24 bits is ignored. -/
def ofPacked (n : Nat) : Color :=
  ⟨(n / 65536).toUInt8, (n / 256).toUInt8, n.toUInt8⟩

/-- The panel's word: five bits of red, six of green, five of blue. -/
def rgb565 (c : Color) : UInt16 :=
  (c.red.toNat / 8 * 2048 + c.green.toNat / 4 * 32 + c.blue.toNat / 8).toUInt16

/-- Packing loses nothing. -/
theorem ofPacked_packed (c : Color) : ofPacked c.packed = c := by
  obtain ⟨r, g, b⟩ := c
  have hr := r.toNat_lt
  have hg := g.toNat_lt
  have hb := b.toNat_lt
  have h₁ : (r.toNat * 65536 + g.toNat * 256 + b.toNat) / 65536 = r.toNat := by omega
  have h₂ : (r.toNat * 65536 + g.toNat * 256 + b.toNat) / 256 = r.toNat * 256 + g.toNat := by
    omega
  simp only [ofPacked, packed, h₁, h₂, Color.mk.injEq, ← UInt8.toNat_inj, Nat.toUInt8,
    UInt8.toNat_ofNat']
  omega

theorem packed_lt (c : Color) : c.packed < 0x1000000 := by
  have hr := c.red.toNat_lt
  have hg := c.green.toNat_lt
  have hb := c.blue.toNat_lt
  simp only [packed]
  omega

end Color

end Marquee
