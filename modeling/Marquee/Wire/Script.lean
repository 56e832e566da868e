import Marquee.Wire.Framer

/-!
# Scripts

A script is a byte string that holds many commands. It is read in two ways.

* `Script.events` cuts it into frames as a link would, and skips whatever stands between them;
* `Script.commands` reads command after command and allows only blanks between them.
-/

namespace Marquee

namespace Wire

namespace Script

/-- The frames of a script. No frame is longer than the script, so none is given up for its
length. -/
def events (script : List UInt8) : List FrameEvent :=
  (((Framer.new script.length 0).feedAll 0 script).1.map Prod.snd).toList

/-- Space, tab, line feed and carriage return. -/
def isBlank (b : UInt8) : Bool := b = 32 || b = 9 || b = 10 || b = 13

/-- The place of the next byte that is not blank. -/
def skipBlanks (c : Cursor) : Cursor :=
  ⟨c.position + (c.rest.takeWhile isBlank).length, c.rest.dropWhile isBlank⟩

/-- The commands at a cursor, behind those already read, if there are no more than `limit`. -/
def commandsOnto (done : Array Command) : (limit : Nat) → Cursor →
    Except GrammarFault (List Command)
  | 0, c => if (skipBlanks c).rest.isEmpty then .ok done.toList else .error .unexpectedEnd
  | limit + 1, c =>
    if (skipBlanks c).rest.isEmpty then .ok done.toList
    else
      match Grammar.command.read (skipBlanks c) with
      | (.ok x, c) => commandsOnto (done.push x) limit c
      | (.error e, _) => .error e

/-- All commands of a script, up to the first fault. No command is empty, so the length of the
script limits their number. -/
def commands (script : List UInt8) : Except GrammarFault (List Command) :=
  commandsOnto #[] script.length (.ofBytes script)

end Script

end Wire

end Marquee
