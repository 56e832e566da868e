/-!
# Integer square roots

`isqrt n` is the largest number whose square is at most `n`. It is found bit by bit: the root of `n / 4`
is the root of `n` without its last bit.
-/

namespace Marquee

/-- The integer square root of a number below `4 ^ bits`. -/
def isqrtBits : (bits : Nat) → Nat → Nat
  | 0, _ => 0
  | bits + 1, n =>
    let r := 2 * isqrtBits bits (n / 4)
    if (r + 1) * (r + 1) ≤ n then r + 1 else r

/-- The integer square root. -/
def isqrt (n : Nat) : Nat := isqrtBits (n.log2 / 2 + 1) n

end Marquee
