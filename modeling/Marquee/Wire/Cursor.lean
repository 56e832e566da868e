import Marquee.Wire.Hex

/-!
# Reading bytes in order

A `Cursor` is a place in a list of bytes. A `Reader` reads a value from there: it leaves the cursor
behind what it read, and on a fault behind the byte that showed the fault.

* `Cursor.next?`, `Cursor.take?` : one byte, or all of a number of bytes or none;
* `Reader.expect`, `Reader.number` : a given byte, a number of a given count of hex digits.
-/

namespace Marquee

namespace Wire

/-- A place in a list of bytes. -/
structure Cursor where
  /-- How many bytes lie behind. -/
  position : Nat
  /-- The bytes that lie ahead. -/
  rest : List UInt8
  deriving DecidableEq, Repr, Inhabited

namespace Cursor

/-- The place before the first byte. -/
def ofBytes (bytes : List UInt8) : Cursor := ⟨0, bytes⟩

/-- The next byte, which stays ahead. -/
def peek? (c : Cursor) : Option UInt8 := c.rest.head?

/-- The number of bytes ahead. -/
def remaining (c : Cursor) : Nat := c.rest.length

/-- The next byte, and the place behind it. -/
def next? (c : Cursor) : Option UInt8 × Cursor :=
  match c.rest with
  | [] => (none, c)
  | b :: rest => (some b, ⟨c.position + 1, rest⟩)

/-- The next `n` bytes, and the place behind them; with fewer ahead, nothing is read. -/
def take? (n : Nat) (c : Cursor) : Option (List UInt8) × Cursor :=
  let bytes := c.rest.take n
  if bytes.length = n then (some bytes, ⟨c.position + n, c.rest.drop n⟩) else (none, c)

end Cursor

/-- A way to read a value at a cursor. -/
abbrev Reader (α : Type) := ExceptT GrammarFault (StateM Cursor) α

namespace Reader

/-- What the reader finds at a cursor, and the cursor it leaves. -/
def read {α : Type} (r : Reader α) (c : Cursor) : Except GrammarFault α × Cursor := r c

/-- The next byte, which stays ahead. -/
def peek? : Reader (Option UInt8) := fun c => (.ok c.peek?, c)

/-- The next byte, which stays ahead and must be there. -/
def peek : Reader UInt8 := do
  match ← peek? with
  | some b => return b
  | none => throw .unexpectedEnd

/-- Any one byte. -/
def anyByte : Reader UInt8 := fun c =>
  match c.next? with
  | (some b, c) => (.ok b, c)
  | (none, c) => (.error .unexpectedEnd, c)

/-- Exactly `n` bytes. -/
def bytes (n : Nat) : Reader (List UInt8) := fun c =>
  match c.take? n with
  | (some bs, c) => (.ok bs, c)
  | (none, c) => (.error .unexpectedEnd, c)

/-- Succeeds where more than `n` bytes lie ahead, and reads none of them. -/
def moreThan (n : Nat) : Reader Unit := fun c =>
  (if (c.rest.drop n).isEmpty then .error .unexpectedEnd else .ok (), c)

/-- The byte `b`. Another byte is read and refused. -/
def expect (b : UInt8) : Reader Unit := do
  if (← anyByte) = b then return () else throw .unexpectedToken

/-- `width` more hex digits, the highest first, behind digits that stand for `value`. -/
def numberFrom (value : Nat) : Nat → Reader Nat
  | 0 => return value
  | width + 1 => do
    match Hex.digit? (← anyByte) with
    | some d => numberFrom (16 * value + d) width
    | none => throw .malformedNumber

/-- A number of `width` hex digits, the highest first. -/
def number (width : Nat) : Reader Nat := numberFrom 0 width

/-- One hex digit. -/
def digit : Reader Nat := number 1

/-- Two hex digits. -/
def byte : Reader UInt8 := do return (← number 2).toUInt8

/-- Three hex digits, the width of coordinates and lengths. -/
def measure : Reader Nat := number 3

end Reader

end Wire

end Marquee
