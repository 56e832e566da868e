import Marquee.Settings.Literal

/-!
# Notices in a box

A notice has a title and some lines, and is drawn in a box of fixed width. A line that takes too many
bytes is cut and ends in dots. The cut counts bytes, and a line that it would split inside a
character cannot be shown. Padding counts characters.
-/

namespace Marquee

namespace Notice

/-- The width of the box between its corners. -/
def innerWidth : Nat := 66

/-- The most bytes of a line. -/
def lineBytes : Nat := 62

/-- The bytes that are kept of a longer line. -/
def keptBytes : Nat := 59

/-- The width of the title. -/
def titleWidth : Nat := 56

/-- The characters that take exactly the first `n` bytes; none if a character would be split. -/
def takeBytes (n : Nat) : List Char → Option (List Char)
  | [] => if n = 0 then some [] else none
  | c :: cs =>
    if n = 0 then some []
    else if c.utf8Size ≤ n then (takeBytes (n - c.utf8Size) cs).map (c :: ·)
    else none

/-- A line as it is shown: cut if it is too long. -/
def shorten (line : List Char) : Option (List Char) :=
  if Literal.utf8Size line ≤ lineBytes then some line
  else (takeBytes keptBytes line).map (· ++ ['.', '.', '.'])

/-- Pad with spaces at the end, up to a number of characters. -/
def pad (width : Nat) (cs : List Char) : List Char :=
  cs ++ List.replicate (width - cs.length) ' '

/-- A line of the box. -/
def boxLine (line : List Char) : Option String :=
  (shorten line).map fun cs => "║  • " ++ String.ofList (pad lineBytes cs) ++ " ║"

/-- A rule of the box between two corners. -/
def rule (left right : String) : String :=
  left ++ String.ofList (List.replicate innerWidth '═') ++ right

/-- The notice in its box; none if a line cannot be shown. -/
def box (title : String) (lines : List String) : Option String := do
  let body ← lines.mapM fun line => boxLine line.toList
  return "\n" ++ rule "╔" "╗" ++ "\n" ++
    "║  ERROR: " ++ String.ofList (pad titleWidth title.toList) ++ " ║\n" ++
    rule "╠" "╣" ++ "\n" ++
    String.intercalate "\n" body ++ "\n" ++
    rule "╚" "╝" ++ "\n"

end Notice

end Marquee
