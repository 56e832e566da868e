/-!
# Hex digits and pairs

Numbers on the wire are written in hex digits of either case.

* `Hex.digit?` : the value of one digit;
* `Hex.pair?` : the byte two digits stand for;
* `Hex.decodeOver` : decode pairs over bytes that are already there. Where it fails, the bytes from
  the bad pair on stay as they were.
-/

namespace Marquee

namespace Wire

/-- Why bytes are not a command. -/
inductive GrammarFault where
  /-- A byte is not the one its place asks for. -/
  | unexpectedToken
  /-- A byte is not a hex digit where a number stands. -/
  | malformedNumber
  /-- No command has this letter. -/
  | unknownCommand
  /-- No shape has this tag. -/
  | unknownShape
  /-- No keyframe has this tag. -/
  | unknownKeyframe
  /-- The bytes end inside the command. -/
  | unexpectedEnd
  /-- More shapes or keyframes than one command holds. -/
  | tooManyComponents
  deriving DecidableEq, Repr, Inhabited

/-- What is said of the fault. -/
def GrammarFault.message : GrammarFault → String
  | .unexpectedToken => "unexpected token"
  | .malformedNumber => "malformed hex number"
  | .unknownCommand => "unknown command"
  | .unknownShape => "unknown shape"
  | .unknownKeyframe => "unknown keyframe"
  | .unexpectedEnd => "unexpected end of frame"
  | .tooManyComponents => "too many components"

namespace Hex

/-- The value of an ASCII hex digit. -/
def digit? (b : UInt8) : Option Nat :=
  let n := b.toNat
  if 48 ≤ n ∧ n ≤ 57 then some (n - 48)
  else if 65 ≤ n ∧ n ≤ 70 then some (n - 55)
  else if 97 ≤ n ∧ n ≤ 102 then some (n - 87)
  else none

theorem digit?_lt {b : UInt8} {d : Nat} (h : digit? b = some d) : d < 16 := by
  simp only [digit?] at h
  split at h
  · simp only [Option.some.injEq] at h; omega
  · split at h
    · simp only [Option.some.injEq] at h; omega
    · split at h
      · simp only [Option.some.injEq] at h; omega
      · cases h

/-- The byte two digits stand for. -/
def pair? (high low : UInt8) : Option UInt8 := do
  let h ← digit? high
  let l ← digit? low
  return (16 * h + l).toUInt8

/-- Decode digits pair by pair, each over the next of the bytes that are there already. A pair that is
not one ends it; what was written before stays written. -/
def overwrite : (earlier digits : List UInt8) → Except GrammarFault Unit × List UInt8
  | old :: earlier, high :: low :: digits =>
    match pair? high low with
    | some b =>
      let (answer, bytes) := overwrite earlier digits
      (answer, b :: bytes)
    | none => (.error .malformedNumber, old :: earlier)
  | earlier, _ => (.ok (), earlier)

/-- Decode `digits` over `earlier`, which must have room for exactly their bytes. -/
def decodeOver (earlier digits : List UInt8) : Except GrammarFault Unit × List UInt8 :=
  if digits.length = 2 * earlier.length then overwrite earlier digits
  else (.error .unexpectedEnd, earlier)

theorem length_overwrite (earlier digits : List UInt8) :
    (overwrite earlier digits).2.length = earlier.length := by
  fun_induction overwrite earlier digits with
  | case1 old earlier high low digits v hpair answer bytes hrest ih =>
    rw [hrest] at ih
    rw [List.length_cons, List.length_cons, ih]
  | case2 | case3 => rfl

theorem overwrite_ne_end (earlier digits : List UInt8) :
    (overwrite earlier digits).1 ≠ .error .unexpectedEnd := by
  fun_induction overwrite earlier digits with
  | case1 old earlier high low digits v hpair answer bytes hrest ih => rwa [hrest] at ih
  | case2 | case3 => exact nofun

/-- Only the number of digits can be too small. -/
theorem decodeOver_ne_end {earlier digits : List UInt8} (h : digits.length = 2 * earlier.length) :
    (decodeOver earlier digits).1 ≠ .error .unexpectedEnd := by
  rw [decodeOver, if_pos h]
  exact overwrite_ne_end earlier digits

/-- Decoding leaves as many bytes as there were. -/
@[simp] theorem length_decodeOver (earlier digits : List UInt8) :
    (decodeOver earlier digits).2.length = earlier.length := by
  unfold decodeOver
  split
  · exact length_overwrite earlier digits
  · rfl

end Hex

end Wire

end Marquee
