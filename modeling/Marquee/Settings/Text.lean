/-!
# Lines and blanks

Text is handled as lists of characters.

* `Text.isBlank` : the characters with the Unicode property White_Space; every character that core
  calls white space is among them (`isBlank_of_isWhitespace`);
* `Text.trim` drops them at both ends;
* `Text.lines` cuts a text at its line feeds.
-/

namespace Marquee

namespace Text

/-- The ranges of the property White_Space, by code point. -/
def blankRanges : List (Nat × Nat) := [
  (0x0009, 0x000D), (0x0020, 0x0020), (0x0085, 0x0085), (0x00A0, 0x00A0), (0x1680, 0x1680),
  (0x2000, 0x200A), (0x2028, 0x2029), (0x202F, 0x202F), (0x205F, 0x205F), (0x3000, 0x3000)]

/-- The character is white space. -/
def isBlank (c : Char) : Bool := blankRanges.any fun r => r.1 ≤ c.toNat && c.toNat ≤ r.2

/-- Drop blanks at both ends. -/
def trim (cs : List Char) : List Char :=
  ((cs.dropWhile isBlank).reverse.dropWhile isBlank).reverse

/-- Put a character in front of the first line; a line feed begins a new one. -/
def prependToLines (c : Char) (rest : List (List Char)) : List (List Char) :=
  if c = '\n' then [] :: rest
  else
    match rest with
    | [] => [[c]]
    | line :: lines => (c :: line) :: lines

/-- The lines of a text, without their line feeds. -/
def lines (cs : List Char) : List (List Char) := cs.foldr prependToLines [[]]

/-- The part before the first `stop`, and the part behind it if there is one. -/
def splitAtFirst (stop : Char) (cs : List Char) : List Char × Option (List Char) :=
  (cs.takeWhile (· ≠ stop),
    match cs.dropWhile (· ≠ stop) with
    | [] => none
    | _ :: rest => some rest)

theorem isBlank_of_isWhitespace {c : Char} (h : c.isWhitespace = true) : isBlank c = true := by
  simp only [Char.isWhitespace, Bool.or_eq_true, decide_eq_true_eq] at h
  rcases h with ((rfl | rfl) | rfl) | rfl <;> decide

end Text

end Marquee
