import Marquee.Proofs.Settings.Lines

/-!
# Texts of settings mean what they say

Lines are read from the first to the last, and what an entry means depends on the headings above it. This
file says what a text means by its lines alone.

* `Settings.Under` : the nearest heading above a line. `Settings.AssignsAt`, `Settings.OffendsAt` : what
  a line assigns there, or what is wrong with it.
* `Settings.Holds` : the value of a field behind some lines, which is that of the last assignment to it,
  or its default.
* `Settings.Upto` : what is known while lines are read; each kind of line keeps it.
* `Settings.Swaps` : two lines of a text, which assign to different fields, change places.
* `Settings.texts_mean_what_they_say` : **a text is read if all of its lines are fine, and then each field
  has the last of its values**.
-/

namespace Marquee

namespace Settings

open SettingsLine

variable {ls : List (List Char)} {i j k n : Nat} {h : Heading} {f g : Field}

/-! ### Lines in their place -/

/-- The lines of a text. -/
def linesOf (text : String) : List (List Char) := Text.lines text.toList

/-- Line `i` is a heading. -/
def HeadingAt (ls : List (List Char)) (i : Nat) (h : Heading) : Prop :=
  ∃ line, ls[i]? = some line ∧ Says line (.ok (.heading h))

/-- Line `i` is an entry. -/
def EntryAt (ls : List (List Char)) (i : Nat) (key value : List Char) : Prop :=
  ∃ line, ls[i]? = some line ∧ Says line (.ok (.entry key value))

/-- The nearest heading above line `i`. -/
def Under (ls : List (List Char)) (i : Nat) (h : Heading) : Prop :=
  ∃ k < i, HeadingAt ls k h ∧ ∀ m, k < m → m < i → ∀ h', ¬ HeadingAt ls m h'

/-- Line `i` assigns a value to a field of the heading that it stands under. -/
def AssignsAt (ls : List (List Char)) (i : Nat) (f : Field) (v : f.Value) : Prop :=
  ∃ key value, EntryAt ls i key value ∧ Assigns (Under ls i) key value (.ok ⟨f, v⟩)

/-- Line `i` is blank, a heading, or assigns a value. -/
def FineAt (ls : List (List Char)) (i : Nat) : Prop :=
  (∃ line, ls[i]? = some line ∧ Says line (.ok .blank)) ∨ (∃ h, HeadingAt ls i h) ∨
    ∃ f v, AssignsAt ls i f v

/-- What is wrong with line `i`. -/
inductive OffendsAt (ls : List (List Char)) (i : Nat) : SettingsFault → Prop where
  /-- It says nothing. -/
  | unreadable {line : List Char} {e : SettingsFault} (there : ls[i]? = some line)
      (kind : Says line (.error e)) : OffendsAt ls i e
  /-- It is an entry that assigns nothing. -/
  | refused {key value : List Char} {e : SettingsFault} (entry : EntryAt ls i key value)
      (refuses : Assigns (Under ls i) key value (.error e)) : OffendsAt ls i e

/-- The value of a field behind the first `n` lines. -/
inductive Holds (ls : List (List Char)) (n : Nat) (f : Field) : f.Value → Prop where
  /-- The last of them that assigns a value to it has this value. -/
  | assigned {i : Nat} {v : f.Value} (lt : i < n) (assigns : AssignsAt ls i f v)
      (last : ∀ j, i < j → j < n → ∀ w, ¬ AssignsAt ls j f w) : Holds ls n f v
  /-- None of them assigns one. -/
  | default (unassigned : ∀ i < n, ∀ v, ¬ AssignsAt ls i f v) : Holds ls n f (({} : Settings).get f)

theorem headingAt_iff {line : List Char} (there : ls[i]? = some line) :
    HeadingAt ls i h ↔ SettingsLine.read line = .ok (.heading h) := by
  simp [HeadingAt, there, says_iff]

theorem entryAt_iff {line key value : List Char} (there : ls[i]? = some line) :
    EntryAt ls i key value ↔ SettingsLine.read line = .ok (.entry key value) := by
  simp [EntryAt, there, says_iff]

/-! ### The heading in force -/

theorem Under.unique {h' : Heading} (hu : Under ls i h) (hu' : Under ls i h') : h = h' := by
  obtain ⟨k, hk, hat, hnone⟩ := hu
  obtain ⟨k', hk', hat', hnone'⟩ := hu'
  rcases Nat.lt_trichotomy k k' with hlt | rfl | hlt
  · exact absurd hat' (hnone k' hlt hk' h')
  · obtain ⟨line, there, kind⟩ := hat
    rw [headingAt_iff there, says_iff.1 kind] at hat'
    cases hat'
    rfl
  · exact absurd hat (hnone' k hlt hk h)

/-- There is a heading in force, or none. -/
theorem exists_heading (ls : List (List Char)) (i : Nat) :
    ∃ heading : Option Heading, ∀ h, Under ls i h ↔ heading = some h := by
  by_cases hunder : ∃ h, Under ls i h
  · obtain ⟨h, hu⟩ := hunder
    exact ⟨some h, fun h' =>
      ⟨fun hu' => congrArg some (hu.unique hu'), fun heq => Option.some.inj heq ▸ hu⟩⟩
  · exact ⟨none, fun h => iff_of_false (fun hu => hunder ⟨h, hu⟩) nofun⟩

theorem under_succ_iff :
    Under ls (k + 1) h ↔ HeadingAt ls k h ∨ (∀ h', ¬ HeadingAt ls k h') ∧ Under ls k h := by
  constructor
  · rintro ⟨m, hm, hat, hnone⟩
    rcases Nat.lt_or_eq_of_le (Nat.le_of_lt_succ hm) with hlt | rfl
    · exact .inr ⟨hnone k hlt (Nat.lt_succ_self k), m, hlt, hat, fun m' hm' hk =>
        hnone m' hm' (Nat.lt_succ_of_lt hk)⟩
    · exact .inl hat
  · rintro (hat | ⟨hnone, m, hm, hat, hbetween⟩)
    · exact ⟨k, Nat.lt_succ_self k, hat, fun m hm hk => absurd hm (by omega)⟩
    · refine ⟨m, Nat.lt_succ_of_lt hm, hat, fun m' hm' hk => ?_⟩
      rcases Nat.lt_or_eq_of_le (Nat.le_of_lt_succ hk) with hlt | rfl
      · exact hbetween m' hm' hlt
      · exact hnone

/-! ### What a line does -/

/-- What line `i` assigns is what is read under the heading in force. -/
theorem assignsAt_iff {line : List Char} (there : ls[i]? = some line) {heading : Option Heading}
    (hunder : ∀ h, Under ls i h ↔ heading = some h) {v : f.Value} :
    AssignsAt ls i f v ↔ ∃ key value, SettingsLine.read line = .ok (.entry key value) ∧
      readAssignment heading key value = .ok ⟨f, v⟩ := by
  simp only [AssignsAt, entryAt_iff there, assigns_iff hunder]

theorem offendsAt_iff {line : List Char} (there : ls[i]? = some line) {heading : Option Heading}
    (hunder : ∀ h, Under ls i h ↔ heading = some h) {e : SettingsFault} :
    OffendsAt ls i e ↔ SettingsLine.read line = .error e ∨
      ∃ key value, SettingsLine.read line = .ok (.entry key value) ∧
        readAssignment heading key value = .error e := by
  simp only [← entryAt_iff there, ← assigns_iff hunder]
  constructor
  · rintro (⟨there', kind⟩ | ⟨entry, refuses⟩)
    · obtain rfl := Option.some.inj (there.symm.trans there')
      exact .inl (says_iff.1 kind)
    · exact .inr ⟨_, _, entry, refuses⟩
  · rintro (kind | ⟨_, _, entry, refuses⟩)
    · exact .unreadable there (says_iff.2 kind)
    · exact .refused entry refuses

theorem exists_of_offendsAt {e : SettingsFault} (h : OffendsAt ls i e) :
    ∃ line, ls[i]? = some line := by
  obtain ⟨there, -⟩ | ⟨⟨line, there, -⟩, -⟩ := h
  · exact ⟨_, there⟩
  · exact ⟨line, there⟩

/-- A line that is fine does not offend. -/
theorem FineAt.not_offendsAt {e : SettingsFault} (fine : FineAt ls i) : ¬ OffendsAt ls i e := by
  intro offends
  obtain ⟨line, there⟩ := exists_of_offendsAt offends
  obtain ⟨heading, hunder⟩ := exists_heading ls i
  rw [offendsAt_iff there hunder] at offends
  rcases fine with ⟨line', there', kind⟩ | ⟨h, hat⟩ | ⟨f, v, assigns⟩
  · obtain rfl := Option.some.inj (there.symm.trans there')
    simp [says_iff.1 kind] at offends
  · simp [(headingAt_iff there).1 hat] at offends
  · obtain ⟨key, value, entry, hread⟩ := (assignsAt_iff there hunder).1 assigns
    simp [entry, hread] at offends

theorem OffendsAt.unique {e e' : SettingsFault} (h : OffendsAt ls i e) (h' : OffendsAt ls i e') :
    e = e' := by
  obtain ⟨line, there⟩ := exists_of_offendsAt h
  obtain ⟨heading, hunder⟩ := exists_heading ls i
  rw [offendsAt_iff there hunder] at h h'
  rcases h with hread | ⟨key, value, hread, hrefused⟩
  · simpa [hread] using h'
  · simpa [hread, hrefused] using h'

theorem AssignsAt.exists_line {v : f.Value} (h : AssignsAt ls i f v) : ∃ line, ls[i]? = some line := by
  obtain ⟨_, _, ⟨line, there, -⟩, -⟩ := h
  exact ⟨line, there⟩

theorem AssignsAt.lt {v : f.Value} (h : AssignsAt ls i f v) : i < ls.length := by
  obtain ⟨line, there⟩ := h.exists_line
  exact (List.getElem?_eq_some_iff.1 there).1

theorem AssignsAt.under {v : f.Value} (h : AssignsAt ls i f v) : Under ls i f.heading := by
  obtain ⟨_, _, -, hassigns⟩ := h
  cases hassigns with
  | assigned stands => exact stands

/-- A line assigns one value to one field at most. -/
theorem AssignsAt.unique {v : f.Value} {w : g.Value} (h : AssignsAt ls i f v)
    (h' : AssignsAt ls i g w) : (⟨f, v⟩ : Assignment) = ⟨g, w⟩ := by
  obtain ⟨line, there⟩ := h.exists_line
  obtain ⟨heading, hunder⟩ := exists_heading ls i
  obtain ⟨key, value, hread, hassigned⟩ := (assignsAt_iff there hunder).1 h
  obtain ⟨key', value', hread', hassigned'⟩ := (assignsAt_iff there hunder).1 h'
  cases hread.symm.trans hread'
  exact Except.ok.inj (hassigned.symm.trans hassigned')

/-! ### Line after line -/

theorem Holds.succ {v : f.Value} (holds : Holds ls k f v) (other : ∀ w, ¬ AssignsAt ls k f w) :
    Holds ls (k + 1) f v := by
  cases holds with
  | assigned lt assigns last =>
    refine .assigned (Nat.lt_succ_of_lt lt) assigns fun j hj hk => ?_
    rcases Nat.lt_or_eq_of_le (Nat.le_of_lt_succ hk) with hlt | rfl
    · exact last j hj hlt
    · exact other
  | default unassigned =>
    refine .default fun j hk => ?_
    rcases Nat.lt_or_eq_of_le (Nat.le_of_lt_succ hk) with hlt | rfl
    · exact unassigned j hlt
    · exact other

theorem AssignsAt.holds_succ {v : f.Value} (assigns : AssignsAt ls k f v) : Holds ls (k + 1) f v :=
  .assigned (Nat.lt_succ_self k) assigns fun j hj hk => absurd hj (by omega)

/-- What is known behind the first `k` lines. -/
structure Upto (ls : List (List Char)) (k : Nat) (heading : Option Heading) (s : Settings) : Prop where
  /-- The heading is that of the next line. -/
  under : ∀ h, Under ls k h ↔ heading = some h
  /-- The lines are fine. -/
  fine : ∀ i < k, FineAt ls i
  /-- The fields have the values that these lines give them. -/
  holds : ∀ f, Holds ls k f (s.get f)

variable {line : List Char} {heading : Option Heading} {s : Settings}

/-- One more line is fine. -/
theorem Upto.fine_succ (h : Upto ls k heading s) (fine : FineAt ls k) : ∀ i < k + 1, FineAt ls i := by
  intro i hi
  rcases Nat.lt_or_eq_of_le (Nat.le_of_lt_succ hi) with hlt | rfl
  · exact h.fine i hlt
  · exact fine

theorem Upto.of_blank (h : Upto ls k heading s) (there : ls[k]? = some line)
    (kind : SettingsLine.read line = .ok .blank) : Upto ls (k + 1) heading s := by
  have noHeading : ∀ h', ¬ HeadingAt ls k h' := fun h' hat => by
    simp [headingAt_iff there, kind] at hat
  have noEntry : ∀ f w, ¬ AssignsAt ls k f w := fun f w hassigns => by
    simp [assignsAt_iff there h.under, kind] at hassigns
  refine ⟨fun h' => ?_, h.fine_succ (.inl ⟨line, there, says_iff.2 kind⟩), fun f => ?_⟩
  · rw [under_succ_iff, h.under]
    simp [noHeading]
  · exact (h.holds f).succ (noEntry f)

theorem Upto.of_heading {h' : Heading} (h : Upto ls k heading s) (there : ls[k]? = some line)
    (kind : SettingsLine.read line = .ok (.heading h')) : Upto ls (k + 1) (some h') s := by
  have hat : ∀ h'', HeadingAt ls k h'' ↔ h' = h'' := fun h'' => by
    simp [headingAt_iff there, kind]
  have noEntry : ∀ f w, ¬ AssignsAt ls k f w := fun f w hassigns => by
    simp [assignsAt_iff there h.under, kind] at hassigns
  refine ⟨fun h'' => ?_, h.fine_succ (.inr (.inl ⟨h', (hat h').2 rfl⟩)), fun f => ?_⟩
  · rw [under_succ_iff]
    simp [hat]
  · exact (h.holds f).succ (noEntry f)

theorem Upto.of_entry {key value : List Char} {v : f.Value} (h : Upto ls k heading s)
    (there : ls[k]? = some line) (kind : SettingsLine.read line = .ok (.entry key value))
    (assigned : readAssignment heading key value = .ok ⟨f, v⟩) :
    Upto ls (k + 1) heading (s.set f v) := by
  have noHeading : ∀ h', ¬ HeadingAt ls k h' := fun h' hat => by
    simp [headingAt_iff there, kind] at hat
  have assigns : AssignsAt ls k f v := (assignsAt_iff there h.under).2 ⟨key, value, kind, assigned⟩
  refine ⟨fun h' => ?_, h.fine_succ (.inr (.inr ⟨f, v, assigns⟩)), fun g => ?_⟩
  · rw [under_succ_iff, h.under]
    simp [noHeading]
  · by_cases hg : g = f
    · subst hg
      rw [get_set_self]
      exact assigns.holds_succ
    · rw [get_set_of_ne s hg]
      exact (h.holds g).succ fun w hw => hg (congrArg Sigma.fst (hw.unique assigns))

/-- What reading the lines comes to. -/
inductive Ends (ls : List (List Char)) : Except SettingsFault Settings → Prop where
  /-- All lines are fine. -/
  | ok {c : Settings} (fine : ∀ i < ls.length, FineAt ls i)
      (holds : ∀ f, Holds ls ls.length f (c.get f)) : Ends ls (.ok c)
  /-- The fault is that of the first line that is not. -/
  | error {i : Nat} {e : SettingsFault} (offends : OffendsAt ls i e) (first : ∀ j < i, FineAt ls j) :
      Ends ls (.error e)

/-- The lines that are left are read. -/
theorem Upto.ends {rest : List (List Char)} (h : Upto ls k heading s) (hk : k ≤ ls.length)
    (hrest : ls.drop k = rest) : Ends ls (readLines heading s rest) := by
  induction rest generalizing k heading s with
  | nil =>
    obtain rfl : k = ls.length := Nat.le_antisymm hk (List.drop_eq_nil_iff.1 hrest)
    exact .ok h.fine h.holds
  | cons line rest ih =>
    have there : ls[k]? = some line := by
      rw [← List.head?_drop, hrest, List.head?_cons]
    have hlater : ls.drop (k + 1) = rest := by
      rw [← List.tail_drop, hrest, List.tail_cons]
    have hlt : k + 1 ≤ ls.length := (List.getElem?_eq_some_iff.1 there).1
    rw [readLines]
    cases kind : SettingsLine.read line with
    | error e => exact .error (.unreadable there (says_iff.2 kind)) h.fine
    | ok said =>
      cases said with
      | blank => exact ih (h.of_blank there kind) hlt hlater
      | heading h' => exact ih (h.of_heading there kind) hlt hlater
      | entry key value =>
        simp only
        cases assigned : readAssignment heading key value with
        | error e =>
          exact .error (.refused ((entryAt_iff there).2 kind) ((assigns_iff h.under).2 assigned)) h.fine
        | ok a => exact ih (h.of_entry there kind assigned) hlt hlater

theorem upto_zero (ls : List (List Char)) : Upto ls 0 none {} where
  under _ := iff_of_false (fun ⟨_, hk, _⟩ => Nat.not_lt_zero _ hk) nofun
  fine _ hi := absurd hi (Nat.not_lt_zero _)
  holds _ := .default fun _ hi => absurd hi (Nat.not_lt_zero _)

/-- **What reading a text comes to.** -/
theorem ends_read (text : String) : Ends (linesOf text) (read text) :=
  (upto_zero _).ends (Nat.zero_le _) rfl

theorem Holds.unique {v w : f.Value} (h : Holds ls n f v) (h' : Holds ls n f w) : v = w := by
  cases h with
  | assigned lt assigns last =>
    cases h' with
    | assigned lt' assigns' last' =>
      rename_i i i'
      rcases Nat.lt_trichotomy i i' with hlt | rfl | hlt
      · exact absurd assigns' (last i' hlt lt' w)
      · exact eq_of_heq (Sigma.mk.inj (assigns.unique assigns')).2
      · exact absurd assigns (last' i hlt lt v)
    | default unassigned => exact absurd assigns (unassigned _ lt _)
  | default unassigned =>
    cases h' with
    | assigned lt assigns => exact absurd assigns (unassigned _ lt _)
    | default => rfl

/-- Settings are what their fields are. -/
theorem ext_get {c c' : Settings} (h : ∀ f, c.get f = c'.get f) : c = c' := by
  obtain ⟨⟨_, _, _⟩, ⟨_, _, _, _⟩, ⟨_, _, _, _⟩⟩ := c
  obtain ⟨⟨_, _, _⟩, ⟨_, _, _, _⟩, ⟨_, _, _, _⟩⟩ := c'
  simp only [Settings.mk.injEq, StageSettings.mk.injEq, LinkSettings.mk.injEq, DisplaySettings.mk.injEq]
  exact ⟨⟨h .timeUnitNs, h .minCues, h .maxSpritePixels⟩,
    ⟨h .baudRate, h .frameTimeoutMs, h .maxFrameLength, h .maxBytesPerPoll⟩,
    h .width, h .height, h .background, h .showSplash⟩

theorem holds_read {text : String} {c : Settings} (hread : read text = .ok c) (f : Field) :
    Holds (linesOf text) (linesOf text).length f (c.get f) := by
  have ends := ends_read text
  rw [hread] at ends
  cases ends with
  | ok _ holds => exact holds f

theorem exists_read_iff {text : String} :
    (∃ c, read text = .ok c) ↔ ∀ i < (linesOf text).length, FineAt (linesOf text) i := by
  have ends := ends_read text
  constructor
  · rintro ⟨c, hread⟩
    rw [hread] at ends
    cases ends with
    | ok fine => exact fine
  · intro fine
    cases hread : read text with
    | ok c => exact ⟨c, rfl⟩
    | error e =>
      rw [hread] at ends
      cases ends with
      | error offends =>
        obtain ⟨line, there⟩ := exists_of_offendsAt offends
        exact absurd offends (fine _ (List.getElem?_eq_some_iff.1 there).1).not_offendsAt

theorem read_eq_error_iff {text : String} {e : SettingsFault} :
    read text = .error e ↔ ∃ i, OffendsAt (linesOf text) i e ∧ ∀ j < i, FineAt (linesOf text) j := by
  have ends := ends_read text
  constructor
  · intro hread
    rw [hread] at ends
    cases ends with
    | error offends first => exact ⟨_, offends, first⟩
  · rintro ⟨i, offends, first⟩
    obtain ⟨line, there⟩ := exists_of_offendsAt offends
    cases hread : read text with
    | ok c =>
      rw [hread] at ends
      cases ends with
      | ok fine => exact absurd offends (fine i (List.getElem?_eq_some_iff.1 there).1).not_offendsAt
    | error e' =>
      rw [hread] at ends
      cases ends with
      | @error i' _ offends' first' =>
        rcases Nat.lt_trichotomy i i' with hlt | rfl | hlt
        · exact absurd offends (first' i hlt).not_offendsAt
        · rw [offends.unique offends']
        · exact absurd offends' (first i' hlt).not_offendsAt

/-! ### Lines that change places -/

/-- Lines `i` and `j`, which assign values to different fields of one heading, have changed places. -/
structure Swaps (ls ls' : List (List Char)) (i j : Nat) (f g : Field) : Prop where
  lt : i < j
  left : ls'[i]? = ls[j]?
  right : ls'[j]? = ls[i]?
  /-- All other lines are in their places. -/
  other : ∀ k, k ≠ i → k ≠ j → ls'[k]? = ls[k]?
  assigns_left : ∃ v, AssignsAt ls i f v
  assigns_right : ∃ v, AssignsAt ls j g v
  field_ne : f ≠ g
  heading_eq : f.heading = g.heading

/-- Between lines `i` and `j` nothing is assigned to the field, or behind both of them something is. -/
def Undisturbed (ls : List (List Char)) (i j : Nat) (f : Field) : Prop :=
  (∀ k, i < k → k < j → ∀ v, ¬ AssignsAt ls k f v) ∨ ∃ k v, j < k ∧ AssignsAt ls k f v

namespace Swaps

variable {ls' : List (List Char)} {e : Field} {v : e.Value}

theorem headingAt_iff (sw : Swaps ls ls' i j f g) : HeadingAt ls' k h ↔ HeadingAt ls k h := by
  obtain ⟨_, _, _, ⟨a, ha, hkinda⟩, -⟩ := sw.assigns_left
  obtain ⟨_, _, _, ⟨b, hb, hkindb⟩, -⟩ := sw.assigns_right
  have hleft := sw.left.trans hb
  have hright := sw.right.trans ha
  by_cases hi : k = i
  · subst hi
    simp [Settings.headingAt_iff hleft, Settings.headingAt_iff ha, says_iff.1 hkinda, says_iff.1 hkindb]
  by_cases hj : k = j
  · subst hj
    simp [Settings.headingAt_iff hright, Settings.headingAt_iff hb, says_iff.1 hkinda, says_iff.1 hkindb]
  · simp only [HeadingAt, sw.other k hi hj]

/-- Headings stay in force where they are. -/
theorem under_eq (sw : Swaps ls ls' i j f g) (k : Nat) : Under ls' k = Under ls k := by
  funext h
  simp only [Under, sw.headingAt_iff]

/-- The two lines stand under one heading. -/
theorem under_left_eq (sw : Swaps ls ls' i j f g) : Under ls i = Under ls j := by
  obtain ⟨_, hf⟩ := sw.assigns_left
  obtain ⟨_, hg⟩ := sw.assigns_right
  have hleft : Under ls i g.heading := sw.heading_eq ▸ hf.under
  funext h
  refine propext ⟨fun hu => ?_, fun hu => ?_⟩
  · exact hu.unique hleft ▸ hg.under
  · exact hu.unique hg.under ▸ hleft

theorem assignsAt_left (sw : Swaps ls ls' i j f g) : AssignsAt ls' i e v ↔ AssignsAt ls j e v := by
  simp only [AssignsAt, EntryAt, sw.left, sw.under_eq, sw.under_left_eq]

theorem assignsAt_right (sw : Swaps ls ls' i j f g) : AssignsAt ls' j e v ↔ AssignsAt ls i e v := by
  simp only [AssignsAt, EntryAt, sw.right, sw.under_eq, sw.under_left_eq]

theorem assignsAt_of_ne (sw : Swaps ls ls' i j f g) (hi : k ≠ i) (hj : k ≠ j) :
    AssignsAt ls' k e v ↔ AssignsAt ls k e v := by
  simp only [AssignsAt, EntryAt, sw.other k hi hj, sw.under_eq]

theorem fineAt (sw : Swaps ls ls' i j f g) (fine : FineAt ls k) : FineAt ls' k := by
  by_cases hi : k = i
  · obtain ⟨w, hg⟩ := sw.assigns_right
    exact hi ▸ .inr (.inr ⟨g, w, sw.assignsAt_left.2 hg⟩)
  by_cases hj : k = j
  · obtain ⟨v, hf⟩ := sw.assigns_left
    exact hj ▸ .inr (.inr ⟨f, v, sw.assignsAt_right.2 hf⟩)
  · simpa only [FineAt, sw.other k hi hj, sw.headingAt_iff, sw.assignsAt_of_ne hi hj] using fine

theorem length_eq (sw : Swaps ls ls' i j f g) : ls'.length = ls.length := by
  obtain ⟨_, hf⟩ := sw.assigns_left
  obtain ⟨_, hg⟩ := sw.assigns_right
  obtain ⟨a, ha⟩ := hf.exists_line
  obtain ⟨b, hb⟩ := hg.exists_line
  have hlength : ∀ k, ls'.length ≤ k ↔ ls.length ≤ k := by
    intro k
    rw [← List.getElem?_eq_none_iff, ← List.getElem?_eq_none_iff]
    by_cases hi : k = i
    · simp [hi, sw.left, ha, hb]
    by_cases hj : k = j
    · simp [hj, sw.right, ha, hb]
    · rw [sw.other k hi hj]
  exact Nat.le_antisymm ((hlength _).2 (Nat.le_refl _)) ((hlength _).1 (Nat.le_refl _))

/-- If line `i` assigns the value of a field, then it does so in its new place, which is further down. -/
theorem holds_of_left (sw : Swaps ls ls' i j f g) (assigns : AssignsAt ls i e v)
    (last : ∀ k, i < k → k < ls.length → ∀ w, ¬ AssignsAt ls k e w) : Holds ls' ls.length e v := by
  obtain ⟨_, hg⟩ := sw.assigns_right
  have hlt := sw.lt
  refine .assigned hg.lt (sw.assignsAt_right.2 assigns) fun k hk hkn w hw => ?_
  exact last k (by omega) hkn w ((sw.assignsAt_of_ne (by omega) (by omega)).1 hw)

/-- If line `j` assigns the value of a field, then no line between the two assigns another one, since none
behind them does. -/
theorem holds_of_right (sw : Swaps ls ls' i j f g) (right : Undisturbed ls i j g)
    (assigns : AssignsAt ls j e v) (last : ∀ k, j < k → k < ls.length → ∀ w, ¬ AssignsAt ls k e w) :
    Holds ls' ls.length e v := by
  obtain ⟨_, hf⟩ := sw.assigns_left
  obtain ⟨_, hg⟩ := sw.assigns_right
  cases hg.unique assigns
  have hnone : ∀ k, i < k → k < j → ∀ w, ¬ AssignsAt ls k g w := by
    rcases right with hnone | ⟨k, _, hk, hbehind⟩
    · exact hnone
    · exact absurd hbehind (last k hk hbehind.lt _)
  refine .assigned hf.lt (sw.assignsAt_left.2 assigns) fun k hk hkn w hw => ?_
  rcases Nat.lt_trichotomy k j with hkj | rfl | hkj
  · exact hnone k hk hkj w ((sw.assignsAt_of_ne (by omega) (by omega)).1 hw)
  · exact sw.field_ne (congrArg Sigma.fst (hf.unique (sw.assignsAt_right.1 hw)))
  · exact last k hkj hkn w ((sw.assignsAt_of_ne (by omega) (by omega)).1 hw)

/-- If another line assigns the value of a field, then neither of the two is an assignment to it that
comes to stand behind that line. -/
theorem holds_of_other (sw : Swaps ls ls' i j f g) (left : Undisturbed ls i j f) (hi : k ≠ i) (hj : k ≠ j)
    (assigns : AssignsAt ls k e v) (last : ∀ m, k < m → m < ls.length → ∀ w, ¬ AssignsAt ls m e w) :
    Holds ls' ls.length e v := by
  obtain ⟨_, hf⟩ := sw.assigns_left
  obtain ⟨_, hg⟩ := sw.assigns_right
  have hlt := sw.lt
  refine .assigned assigns.lt ((sw.assignsAt_of_ne hi hj).2 assigns) fun m hm hmn w hw => ?_
  by_cases hmi : m = i
  · subst hmi
    exact last j (by omega) hg.lt w (sw.assignsAt_left.1 hw)
  by_cases hmj : m = j
  · subst hmj
    have hw' := sw.assignsAt_right.1 hw
    rcases Nat.lt_or_gt_of_ne hi with hki | hki
    · exact last i hki hf.lt w hw'
    · -- the line is one between the two, which assigns to the field of the first
      cases hf.unique hw'
      rcases left with hnone | ⟨m', _, hm', hbehind⟩
      · exact hnone k hki hm v assigns
      · exact last m' (by omega) hbehind.lt _ hbehind
  · exact last m hm hmn w ((sw.assignsAt_of_ne hmi hmj).1 hw)

/-- Each field keeps its value. -/
theorem holds (sw : Swaps ls ls' i j f g) (left : Undisturbed ls i j f) (right : Undisturbed ls i j g)
    (h : Holds ls ls.length e v) : Holds ls' ls'.length e v := by
  obtain ⟨_, hf⟩ := sw.assigns_left
  obtain ⟨_, hg⟩ := sw.assigns_right
  rw [sw.length_eq]
  cases h with
  | default unassigned =>
    refine .default fun k hk w hw => ?_
    by_cases hi : k = i
    · exact unassigned j hg.lt w (sw.assignsAt_left.1 (hi ▸ hw))
    by_cases hj : k = j
    · exact unassigned i hf.lt w (sw.assignsAt_right.1 (hj ▸ hw))
    · exact unassigned k hk w ((sw.assignsAt_of_ne hi hj).1 hw)
  | @assigned k _ hk assigns last =>
    by_cases hi : k = i
    · subst hi
      exact sw.holds_of_left assigns last
    by_cases hj : k = j
    · subst hj
      exact sw.holds_of_right right assigns last
    · exact sw.holds_of_other left hi hj assigns last

end Swaps

/-- **A text of settings means what it says.**

* A text is read just if each of its lines is blank, a heading, or assigns a value to a field of the
  nearest heading above it. Then each field has the value of the last assignment to it, or its default.
* If it is not read, the fault is that of the first line that is neither.
* Two assignments to different fields under one heading may change places if neither of the fields is
  assigned another value between them, or that is overruled by one behind both. -/
theorem texts_mean_what_they_say (text : String) :
    ((∃ c, read text = .ok c) ↔ ∀ i < (linesOf text).length, FineAt (linesOf text) i) ∧
    (∀ c, read text = .ok c → ∀ f, Holds (linesOf text) (linesOf text).length f (c.get f)) ∧
    (∀ e, read text = .error e ↔
      ∃ i, OffendsAt (linesOf text) i e ∧ ∀ j < i, FineAt (linesOf text) j) ∧
    ∀ (text' : String) (i j : Nat) (f g : Field), Swaps (linesOf text) (linesOf text') i j f g →
      Undisturbed (linesOf text) i j f → Undisturbed (linesOf text) i j g →
        ∀ c, read text = .ok c → read text' = .ok c := by
  refine ⟨exists_read_iff, fun c => holds_read, fun e => read_eq_error_iff, ?_⟩
  intro text' i j f g sw left right c hread
  have hfine := exists_read_iff.1 ⟨c, hread⟩
  obtain ⟨c', hread'⟩ := exists_read_iff.2 fun k hk => sw.fineAt (hfine k (sw.length_eq ▸ hk))
  have heq : c' = c := ext_get fun e =>
    (holds_read hread' e).unique (sw.holds left right (holds_read hread e))
  rw [hread', heq]

/-- What the first lines of the texts below assign, whatever follows them. -/
theorem assigns_of_panel (rest : List (List Char)) :
    let ls :=
      "[display]".toList :: "width = 1".toList :: "width = 2".toList :: "height = 3".toList :: rest
    AssignsAt ls 1 .width (1 : UInt16) ∧ AssignsAt ls 2 .width (2 : UInt16) ∧
      AssignsAt ls 3 .height (3 : UInt16) ∧ ∀ h, Under ls 4 h ↔ some Heading.display = some h := by
  intro ls
  have kind₀ : SettingsLine.read "[display]".toList = .ok (.heading .display) := by decide +kernel
  have kind₁ : SettingsLine.read "width = 1".toList = .ok (.entry "width".toList "1".toList) := by
    decide +kernel
  have kind₂ : SettingsLine.read "width = 2".toList = .ok (.entry "width".toList "2".toList) := by
    decide +kernel
  have kind₃ : SettingsLine.read "height = 3".toList = .ok (.entry "height".toList "3".toList) := by
    decide +kernel
  have upto₁ : Upto ls 1 (some .display) {} := (upto_zero ls).of_heading rfl kind₀
  have upto₂ : Upto ls 2 (some .display) _ := upto₁.of_entry rfl kind₁ rfl
  have upto₃ : Upto ls 3 (some .display) _ := upto₂.of_entry rfl kind₂ rfl
  have upto₄ : Upto ls 4 (some .display) _ := upto₃.of_entry rfl kind₃ rfl
  exact ⟨(assignsAt_iff rfl upto₁.under).2 ⟨_, _, kind₁, rfl⟩,
    (assignsAt_iff rfl upto₂.under).2 ⟨_, _, kind₂, rfl⟩,
    (assignsAt_iff rfl upto₃.under).2 ⟨_, _, kind₃, rfl⟩, upto₄.under⟩

theorem swaps_of_panel (rest : List (List Char)) :
    Swaps ("[display]".toList :: "width = 1".toList :: "width = 2".toList :: "height = 3".toList :: rest)
      ("[display]".toList :: "height = 3".toList :: "width = 2".toList :: "width = 1".toList :: rest)
      1 3 .width .height := by
  obtain ⟨hwidth, -, hheight, -⟩ := assigns_of_panel rest
  refine ⟨by decide, rfl, rfl, fun k hi hj => ?_, ⟨_, hwidth⟩, ⟨_, hheight⟩, by decide, rfl⟩
  match k with
  | 0 | 2 => rfl
  | 1 => exact absurd rfl hi
  | 3 => exact absurd rfl hj
  | k + 4 => rfl

/-- The last line overrules both assignments to the width, so that the first of them may change places
with the height. -/
theorem texts_mean_what_they_say_of_swapped_lines :
    Swaps (linesOf "[display]\nwidth = 1\nwidth = 2\nheight = 3\nwidth = 0x1_0")
        (linesOf "[display]\nheight = 3\nwidth = 2\nwidth = 1\nwidth = 0x1_0") 1 3 .width .height ∧
      read "[display]\nwidth = 1\nwidth = 2\nheight = 3\nwidth = 0x1_0" =
        .ok { display := { width := 16, height := 3 } } ∧
      read "[display]\nheight = 3\nwidth = 2\nwidth = 1\nwidth = 0x1_0" =
        .ok { display := { width := 16, height := 3 } } := by
  obtain ⟨-, -, -, hswap⟩ :=
    texts_mean_what_they_say "[display]\nwidth = 1\nwidth = 2\nheight = 3\nwidth = 0x1_0"
  have hread' := hswap "[display]\nheight = 3\nwidth = 2\nwidth = 1\nwidth = 0x1_0" 1 3 .width .height
  have hlines : linesOf "[display]\nwidth = 1\nwidth = 2\nheight = 3\nwidth = 0x1_0" =
      ["[display]".toList, "width = 1".toList, "width = 2".toList, "height = 3".toList,
        "width = 0x1_0".toList] := by decide +kernel
  have hlines' : linesOf "[display]\nheight = 3\nwidth = 2\nwidth = 1\nwidth = 0x1_0" =
      ["[display]".toList, "height = 3".toList, "width = 2".toList, "width = 1".toList,
        "width = 0x1_0".toList] := by decide +kernel
  have kind : SettingsLine.read "width = 0x1_0".toList = .ok (.entry "width".toList "0x1_0".toList) := by
    decide +kernel
  have hread : read "[display]\nwidth = 1\nwidth = 2\nheight = 3\nwidth = 0x1_0" =
      .ok { display := { width := 16, height := 3 } } := by decide +kernel
  rw [hlines, hlines'] at hread' ⊢
  have sw := swaps_of_panel ["width = 0x1_0".toList]
  obtain ⟨-, hwidth, -, hunder⟩ := assigns_of_panel ["width = 0x1_0".toList]
  have hlast : AssignsAt _ 4 .width (16 : UInt16) := (assignsAt_iff rfl hunder).2 ⟨_, _, kind, rfl⟩
  have left : Undisturbed _ 1 3 .width := .inr ⟨4, _, by decide, hlast⟩
  have right : Undisturbed _ 1 3 .height := .inl fun k hk hk' v hheight => by
    obtain rfl : k = 2 := by omega
    have hfield : Field.width = Field.height := congrArg Sigma.fst (hwidth.unique hheight)
    cases hfield
  exact ⟨sw, hread, hread' sw left right _ hread⟩

/-- Without that line the first assignment to the width becomes the last one. -/
theorem swapped_assignments_overrule :
    Swaps (linesOf "[display]\nwidth = 1\nwidth = 2\nheight = 3")
        (linesOf "[display]\nheight = 3\nwidth = 2\nwidth = 1") 1 3 .width .height ∧
      read "[display]\nwidth = 1\nwidth = 2\nheight = 3" =
        .ok { display := { width := 2, height := 3 } } ∧
      read "[display]\nheight = 3\nwidth = 2\nwidth = 1" =
        .ok { display := { width := 1, height := 3 } } := by
  have hlines : linesOf "[display]\nwidth = 1\nwidth = 2\nheight = 3" =
      ["[display]".toList, "width = 1".toList, "width = 2".toList, "height = 3".toList] := by
    decide +kernel
  have hlines' : linesOf "[display]\nheight = 3\nwidth = 2\nwidth = 1" =
      ["[display]".toList, "height = 3".toList, "width = 2".toList, "width = 1".toList] := by
    decide +kernel
  refine ⟨?_, by decide +kernel, by decide +kernel⟩
  rw [hlines, hlines']
  exact swaps_of_panel []

end Settings

end Marquee
