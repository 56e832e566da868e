import Marquee.Settings.Field
import Marquee.Settings.Text

/-!
# Reading settings

Settings are read from a text, line by line. What follows a `#` is a comment. A line is blank, a
heading in brackets, or an entry `key = value` of the heading above it. A field that is named twice
has the last of its values, and one that is not named has its default.

* `SettingsLine.read` reads one line;
* `Settings.read` reads a text, up to the first fault.
-/

namespace Marquee

/-- Why a text is not settings. -/
inductive SettingsFault where
  /-- There is no such heading. -/
  | invalidHeading
  /-- There is no such key under the heading. -/
  | unknownKey
  /-- The field cannot have such a value. -/
  | invalidValue
  /-- The line is neither blank nor a heading nor an entry. -/
  | malformedLine
  deriving DecidableEq, Repr, Inhabited

/-- What is said of the fault. -/
def SettingsFault.message : SettingsFault → String
  | .invalidHeading => "invalid section header"
  | .unknownKey => "unknown key"
  | .invalidValue => "invalid value"
  | .malformedLine => "syntax error"

/-- What a line says. -/
inductive SettingsLine where
  /-- Nothing. -/
  | blank
  /-- The heading of the lines that follow. -/
  | heading (heading : Heading)
  /-- A value for a key, both without blanks around them. -/
  | entry (key value : List Char)
  deriving DecidableEq, Repr, Inhabited

namespace SettingsLine

/-- What stands between brackets, if the line is in brackets. -/
def bracketed? : List Char → Option (List Char)
  | '[' :: cs => if cs.getLast? = some ']' then some cs.dropLast else none
  | _ => none

/-- Read what stands between the brackets of a heading. -/
def readHeading (cs : List Char) : Except SettingsFault SettingsLine :=
  match Heading.ofName? (String.ofList (Text.trim cs)) with
  | some h => .ok (.heading h)
  | none => .error .invalidHeading

/-- Read an entry. Neither its key nor its value may be blank. -/
def readEntry (cs : List Char) : Except SettingsFault SettingsLine :=
  match Text.splitAtFirst '=' cs with
  | (_, none) => .error .malformedLine
  | (key, some value) =>
    let key := Text.trim key
    let value := Text.trim value
    if key.isEmpty || value.isEmpty then .error .malformedLine else .ok (.entry key value)

/-- Read a line. -/
def read (line : List Char) : Except SettingsFault SettingsLine :=
  let cs := Text.trim (Text.splitAtFirst '#' line).1
  if cs.isEmpty then .ok .blank
  else
    match bracketed? cs with
    | some inner => readHeading inner
    | none => readEntry cs

end SettingsLine

namespace Settings

/-- A field with a value for it. -/
abbrev Assignment := (f : Field) × f.Value

/-- What an entry under a heading assigns. -/
def readAssignment (heading : Option Heading) (key value : List Char) :
    Except SettingsFault Assignment :=
  match heading.bind fun h => Field.find? h (String.ofList key) with
  | none => .error .unknownKey
  | some f =>
    match f.read? value with
    | none => .error .invalidValue
    | some v => .ok ⟨f, v⟩

/-- Read the lines under a heading, and those that follow, over the settings so far. -/
def readLines (heading : Option Heading) (s : Settings) :
    List (List Char) → Except SettingsFault Settings
  | [] => .ok s
  | line :: lines =>
    match SettingsLine.read line with
    | .error e => .error e
    | .ok .blank => readLines heading s lines
    | .ok (.heading h) => readLines (some h) s lines
    | .ok (.entry key value) =>
      match readAssignment heading key value with
      | .error e => .error e
      | .ok ⟨f, v⟩ => readLines heading (s.set f v) lines

/-- Read a text, over the defaults. -/
def read (text : String) : Except SettingsFault Settings :=
  readLines none {} (Text.lines text.toList)

end Settings

end Marquee
