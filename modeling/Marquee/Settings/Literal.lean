/-!
# Literals of settings

A number is written in decimal, or in hex behind `0x` or `0X`. Underscores may stand anywhere and
mean nothing, and a `+` may stand before the digits. Without its underscores a number has at most
`Literal.maxBytes` bytes. A switch is `true` or `false`.
-/

namespace Marquee

namespace Literal

/-- The most bytes of a number, underscores not counted. -/
def maxBytes : Nat := 24

/-- The value of a digit in a base of at most 16. -/
def digit? (base : Nat) (c : Char) : Option Nat :=
  let n := c.toNat
  let value :=
    if 48 ≤ n ∧ n ≤ 57 then n - 48
    else if 65 ≤ n ∧ n ≤ 70 then n - 55
    else if 97 ≤ n ∧ n ≤ 102 then n - 87
    else base
  if value < base then some value else none

/-- The value of digits behind others that stand for `value`. -/
def digitsFrom (base value : Nat) : List Char → Option Nat
  | [] => some value
  | c :: cs =>
    match digit? base c with
    | some d => digitsFrom base (base * value + d) cs
    | none => none

/-- The value of one or more digits. -/
def digits? (base : Nat) (cs : List Char) : Option Nat :=
  if cs.isEmpty then none else digitsFrom base 0 cs

/-- The characters without a leading `+`. -/
def dropPlus : List Char → List Char
  | '+' :: cs => cs
  | cs => cs

/-- The value of a number without underscores. -/
def unsigned? : List Char → Option Nat
  | '0' :: 'x' :: cs => digits? 16 (dropPlus cs)
  | '0' :: 'X' :: cs => digits? 16 (dropPlus cs)
  | cs => digits? 10 (dropPlus cs)

/-- The bytes that characters take in UTF-8. -/
def utf8Size (cs : List Char) : Nat := cs.foldl (fun n c => n + c.utf8Size) 0

/-- The value of a number that has to be below `limit`. -/
def number? (limit : Nat) (text : List Char) : Option Nat := do
  let cs := text.filter (· ≠ '_')
  guard (utf8Size cs ≤ maxBytes)
  let n ← unsigned? cs
  guard (n < limit)
  return n

/-- The value of a switch. -/
def switch? (text : List Char) : Option Bool :=
  if text = ['t', 'r', 'u', 'e'] then some true
  else if text = ['f', 'a', 'l', 's', 'e'] then some false
  else none

end Literal

end Marquee
