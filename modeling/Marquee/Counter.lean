/-!
# Counters that stop at their cap

Counters of a running sign never wrap: at the cap of their word they stay there.
-/

namespace Marquee

namespace Counter

/-- The cap of a 16-bit counter. -/
def cap16 : Nat := 0xFFFF

/-- The cap of a 32-bit counter. -/
def cap32 : Nat := 0xFFFFFFFF

/-- The cap of a 64-bit clock. -/
def cap64 : Nat := 0xFFFFFFFFFFFFFFFF

/-- `count` and `more` together, at most `cap`. -/
def addUpTo (cap count more : Nat) : Nat := min (count + more) cap

theorem addUpTo_le (cap count more : Nat) : addUpTo cap count more ≤ cap :=
  Nat.min_le_right _ _

/-- Below the cap a counter is exact. -/
theorem addUpTo_of_le {cap count more : Nat} (h : count + more ≤ cap) :
    addUpTo cap count more = count + more :=
  Nat.min_eq_left h

theorem le_addUpTo {cap count : Nat} (more : Nat) (h : count ≤ cap) :
    count ≤ addUpTo cap count more :=
  Nat.le_min.2 ⟨Nat.le_add_right _ _, h⟩

end Counter

end Marquee
