import Marquee.Proofs.Settings.Literals
import Marquee.Settings.Document
import Mathlib.Data.List.TakeWhile

/-!
# What a line of settings says

A line is blank, a heading, an entry, or faulty in one of two ways.

* `SettingsLine.content` : the part of a line that counts.
* `SettingsLine.Says` : the five kinds of lines, each with what makes it one of them; every line is of
  one kind, which is the one that is read (`SettingsLine.says_iff`).
* `Settings.Assigns` : what an entry assigns under a heading, or why it assigns nothing; this too is what
  is read (`Settings.assigns_iff`).
-/

namespace Marquee

/-! ### Cutting texts -/

namespace Text

theorem splitAtFirst_append {stop : Char} {cs : List Char} (h : stop ∉ cs) (rest : List Char) :
    splitAtFirst stop (cs ++ stop :: rest) = (cs, some rest) := by
  have hall : ∀ c ∈ cs, decide (c ≠ stop) = true := fun c hc =>
    decide_eq_true (ne_of_mem_of_not_mem hc h)
  simp only [splitAtFirst, List.takeWhile_append_of_pos hall, List.dropWhile_append_of_pos hall]
  simp

theorem splitAtFirst_of_notMem {stop : Char} {cs : List Char} (h : stop ∉ cs) :
    splitAtFirst stop cs = (cs, none) := by
  have hall : ∀ c ∈ cs, decide (c ≠ stop) = true := fun c hc =>
    decide_eq_true (ne_of_mem_of_not_mem hc h)
  simp only [splitAtFirst, List.takeWhile_eq_self_iff.2 hall, List.dropWhile_eq_nil_iff.2 hall]

end Text

namespace SettingsLine

/-- The part of a line that counts: what stands before the first `#`, without blanks at its ends. -/
def content (line : List Char) : List Char := Text.trim (line.takeWhile (· ≠ '#'))

/-- A text in brackets. -/
def Bracketed (cs : List Char) : Prop := ∃ inner, cs = '[' :: (inner ++ [']'])

/-- What a line says, or what is wrong with it. -/
inductive Says (line : List Char) : Except SettingsFault SettingsLine → Prop where
  /-- There is nothing on it. -/
  | blank (empty : content line = []) : Says line (.ok .blank)
  /-- The name of a heading in brackets. -/
  | heading {inner : List Char} {h : Heading} (brackets : content line = '[' :: (inner ++ [']']))
      (name : Text.trim inner = h.name.toList) : Says line (.ok (.heading h))
  /-- Anything else in brackets. -/
  | noHeading {inner : List Char} (brackets : content line = '[' :: (inner ++ [']']))
      (noName : ∀ h : Heading, Text.trim inner ≠ h.name.toList) : Says line (.error .invalidHeading)
  /-- A key and a value around the first `=`, neither of them blank. -/
  | entry {key value : List Char} (bare : ¬ Bracketed (content line))
      (cut : content line = key ++ '=' :: value) (first : '=' ∉ key)
      (named : Text.trim key ≠ []) (valued : Text.trim value ≠ []) :
      Says line (.ok (.entry (Text.trim key) (Text.trim value)))
  /-- Anything else. -/
  | malformed (filled : content line ≠ []) (bare : ¬ Bracketed (content line))
      (noEntry : ∀ key value, content line = key ++ '=' :: value → '=' ∉ key →
        Text.trim key = [] ∨ Text.trim value = []) : Says line (.error .malformedLine)

theorem bracketed?_eq_some_iff {cs inner : List Char} :
    bracketed? cs = some inner ↔ cs = '[' :: (inner ++ [']']) := by
  constructor
  · intro h
    unfold bracketed? at h
    split at h
    · rename_i rest
      split_ifs at h with hlast
      rw [← Option.some.inj h, List.dropLast_append_getLast? _ hlast]
    · cases h
  · rintro rfl
    simp [bracketed?]

theorem bracketed?_eq_none_iff {cs : List Char} : bracketed? cs = none ↔ ¬ Bracketed cs := by
  simp only [Option.eq_none_iff_forall_ne_some, ne_eq, bracketed?_eq_some_iff, Bracketed, not_exists]

theorem readHeading_of_name {inner : List Char} {h : Heading} (name : Text.trim inner = h.name.toList) :
    readHeading inner = .ok (.heading h) := by
  have hname : Heading.ofName? h.name = some h := by cases h <;> decide
  rw [readHeading, name, String.ofList_toList, hname]

theorem readHeading_of_noName {inner : List Char}
    (noName : ∀ h : Heading, Text.trim inner ≠ h.name.toList) :
    readHeading inner = .error .invalidHeading := by
  have hnone : Heading.ofName? (String.ofList (Text.trim inner)) = none := by
    refine List.find?_eq_none.2 fun h _ hname => noName h ?_
    rw [of_decide_eq_true hname, String.toList_ofList]
  rw [readHeading, hnone]

theorem readEntry_of_cut {key value : List Char} (first : '=' ∉ key) (named : Text.trim key ≠ [])
    (valued : Text.trim value ≠ []) :
    readEntry (key ++ '=' :: value) = .ok (.entry (Text.trim key) (Text.trim value)) := by
  simp [readEntry, Text.splitAtFirst_append first, named, valued]

theorem readEntry_of_noEntry {cs : List Char}
    (noEntry : ∀ key value, cs = key ++ '=' :: value → '=' ∉ key →
      Text.trim key = [] ∨ Text.trim value = []) : readEntry cs = .error .malformedLine := by
  by_cases hmem : '=' ∈ cs
  · obtain ⟨key, value, rfl, first⟩ := List.eq_append_cons_of_mem hmem
    have hblank := noEntry key value rfl first
    simp [readEntry, Text.splitAtFirst_append first, hblank]
  · rw [readEntry, Text.splitAtFirst_of_notMem hmem]

theorem trim_splitAtFirst (line : List Char) :
    Text.trim (Text.splitAtFirst '#' line).1 = content line := rfl

theorem read_of_bracketed {line inner : List Char} (brackets : content line = '[' :: (inner ++ [']'])) :
    read line = readHeading inner := by
  have filled : ¬ (content line).isEmpty = true := by simp [brackets]
  simp only [read, trim_splitAtFirst, if_neg filled, bracketed?_eq_some_iff.2 brackets]

theorem read_of_bare {line : List Char} (filled : content line ≠ []) (bare : ¬ Bracketed (content line)) :
    read line = readEntry (content line) := by
  simp only [read, trim_splitAtFirst, if_neg (mt List.isEmpty_iff.1 filled),
    bracketed?_eq_none_iff.2 bare]

/-- What a line says is what is read. -/
theorem Says.read_eq {line : List Char} {r : Except SettingsFault SettingsLine} (h : Says line r) :
    read line = r := by
  cases h with
  | blank empty => exact if_pos (List.isEmpty_iff.2 empty)
  | heading brackets name => exact (read_of_bracketed brackets).trans (readHeading_of_name name)
  | noHeading brackets noName => exact (read_of_bracketed brackets).trans (readHeading_of_noName noName)
  | entry bare cut first named valued =>
    rw [read_of_bare (by simp [cut]) bare, cut]
    exact readEntry_of_cut first named valued
  | malformed filled bare noEntry =>
    exact (read_of_bare filled bare).trans (readEntry_of_noEntry noEntry)

/-- Every line is of one of the kinds. -/
theorem exists_kind (line : List Char) : ∃ r, Says line r := by
  by_cases empty : content line = []
  · exact ⟨_, .blank empty⟩
  by_cases hbracketed : Bracketed (content line)
  · obtain ⟨inner, brackets⟩ := hbracketed
    by_cases hname : ∃ h : Heading, Text.trim inner = h.name.toList
    · obtain ⟨h, name⟩ := hname
      exact ⟨_, .heading brackets name⟩
    · exact ⟨_, .noHeading brackets (not_exists.1 hname)⟩
  by_cases hentry : ∃ key value, content line = key ++ '=' :: value ∧ '=' ∉ key ∧
      Text.trim key ≠ [] ∧ Text.trim value ≠ []
  · obtain ⟨key, value, cut, first, named, valued⟩ := hentry
    exact ⟨_, .entry hbracketed cut first named valued⟩
  · refine ⟨_, .malformed empty hbracketed fun key value cut first => ?_⟩
    by_contra hfilled
    rw [not_or] at hfilled
    exact hentry ⟨key, value, cut, first, hfilled.1, hfilled.2⟩

/-- **What a line says is what is read.** -/
theorem says_iff {line : List Char} {r : Except SettingsFault SettingsLine} :
    Says line r ↔ read line = r := by
  refine ⟨Says.read_eq, ?_⟩
  rintro rfl
  obtain ⟨r, h⟩ := exists_kind line
  exact h.read_eq ▸ h

end SettingsLine

/-! ### Entries -/

theorem Field.find?_eq_some_iff {h : Heading} {key : String} {f : Field} :
    Field.find? h key = some f ↔ f.heading = h ∧ f.key = key := by
  constructor
  · intro hfind
    have := List.find?_some hfind
    simpa using this
  · rintro ⟨rfl, rfl⟩
    exact find?_key f

namespace Settings

/-- What an entry assigns if the headings that it stands under are those of `under`, or why it assigns
nothing. -/
inductive Assigns (under : Heading → Prop) (key value : List Char) :
    Except SettingsFault Assignment → Prop where
  /-- The key names a field, and the value is a literal of that field. -/
  | assigned {f : Field} {v : f.Value} (stands : under f.heading) (named : key = f.key.toList)
      (literal : f.Writes value v) : Assigns under key value (.ok ⟨f, v⟩)
  /-- The key names no field. -/
  | unknownKey (unknown : ∀ f : Field, under f.heading → key ≠ f.key.toList) :
      Assigns under key value (.error .unknownKey)
  /-- No value of the field is written so. -/
  | invalidValue {f : Field} (stands : under f.heading) (named : key = f.key.toList)
      (noLiteral : ∀ v, ¬ f.Writes value v) : Assigns under key value (.error .invalidValue)

variable {under : Heading → Prop} {heading : Option Heading} {key value : List Char}
  {r : Except SettingsFault Assignment}

/-- Every entry does one of the three. -/
theorem exists_assigns (under : Heading → Prop) (key value : List Char) :
    ∃ r, Assigns under key value r := by
  by_cases hfield : ∃ f : Field, under f.heading ∧ key = f.key.toList
  · obtain ⟨f, stands, named⟩ := hfield
    by_cases hliteral : ∃ v, f.Writes value v
    · obtain ⟨v, literal⟩ := hliteral
      exact ⟨_, .assigned stands named literal⟩
    · exact ⟨_, .invalidValue stands named (not_exists.1 hliteral)⟩
  · exact ⟨_, .unknownKey fun f stands named => hfield ⟨f, stands, named⟩⟩

theorem field_eq_some_iff {f : Field} :
    (heading.bind fun h => Field.find? h (String.ofList key)) = some f ↔
      heading = some f.heading ∧ key = f.key.toList := by
  simp only [Option.bind_eq_some_iff, Field.find?_eq_some_iff]
  constructor
  · rintro ⟨h, hheading, rfl, hkey⟩
    exact ⟨hheading, by rw [hkey, String.toList_ofList]⟩
  · rintro ⟨hheading, rfl⟩
    exact ⟨f.heading, hheading, rfl, String.ofList_toList.symm⟩

/-- What an entry assigns is what is read. -/
theorem Assigns.read_eq (hunder : ∀ h, under h ↔ heading = some h) (h : Assigns under key value r) :
    readAssignment heading key value = r := by
  cases h with
  | assigned stands named literal =>
    rw [readAssignment, field_eq_some_iff.2 ⟨(hunder _).1 stands, named⟩]
    simp only [Field.read?_eq_some_iff.2 literal]
  | unknownKey unknown =>
    have hnone : (heading.bind fun h => Field.find? h (String.ofList key)) = none :=
      Option.eq_none_iff_forall_ne_some.2 fun f hfield =>
        unknown f ((hunder _).2 (field_eq_some_iff.1 hfield).1) (field_eq_some_iff.1 hfield).2
    rw [readAssignment, hnone]
  | @invalidValue f stands named noLiteral =>
    have hnone : f.read? value = none :=
      Option.eq_none_iff_forall_ne_some.2 fun v hread => noLiteral v (Field.read?_eq_some_iff.1 hread)
    rw [readAssignment, field_eq_some_iff.2 ⟨(hunder _).1 stands, named⟩]
    simp only [hnone]

/-- **What an entry assigns is what is read**, if `under` is the heading in force. -/
theorem assigns_iff (hunder : ∀ h, under h ↔ heading = some h) :
    Assigns under key value r ↔ readAssignment heading key value = r := by
  refine ⟨fun h => h.read_eq hunder, ?_⟩
  rintro rfl
  obtain ⟨r, h⟩ := exists_assigns under key value
  exact h.read_eq hunder ▸ h

end Settings

end Marquee
