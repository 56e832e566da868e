import Marquee.Proofs.Wire.Acceptance
import Marquee.Proofs.Wire.Arrivals
import Marquee.Wire.Script
import Mathlib.Data.List.TakeWhile

/-!
# What a script holds

A script holds commands with blanks around them. One reader takes command after command where it
stands, the other cuts the script into frames first.

* `ScriptText` : which texts are scripts, with the texts of their commands and the commands, said
  without a reader.
* `Script.commands_eq_ok_iff` : **commands are read from exactly these scripts.** A command does not
  look at what follows its `>` (`Script.read_command_iff`), so it is taken as if it stood alone.
* `Script.events_eq` : where no command has a delimiter inside, a script is cut into the texts of
  its commands. A keyframe that hides its sprite can have one, as its last byte.
-/

namespace Marquee

namespace Wire

/-- Blanks, and the texts of commands with blanks before, between and behind them. -/
inductive ScriptText : List UInt8 → List (List UInt8) → List Command → Prop
  /-- Only blanks. -/
  | blanks {w : List UInt8} : (∀ b ∈ w, Script.isBlank b = true) → ScriptText w [] []
  /-- Blanks, the text of a command and another script. -/
  | cons {w text rest : List UInt8} {texts : List (List UInt8)} {c : Command} {cs : List Command} :
      (∀ b ∈ w, Script.isBlank b = true) → Command.ofBytes text = .ok c → ScriptText rest texts cs →
      ScriptText (w ++ (text ++ rest)) (text :: texts) (c :: cs)

/-- The text of a command is a frame. -/
theorem frame_of_ofBytes {text : List UInt8} {c : Command} (h : Command.ofBytes text = .ok c) :
    text = Grammar.opener :: ((Frame.mk text).body ++ [Grammar.closer]) := by
  obtain ⟨body, -, rfl⟩ := Command.ofBytes_eq_ok_iff.1 h
  have hbody : (Frame.mk ([ascii '<'] ++ body ++ [ascii '>'])).body = body := by
    simp [Frame.body]
  rw [hbody]
  rfl

namespace Script

/-! ### Command after command -/

/-- What is left of a script behind its first blanks: nothing, or a command and another script. -/
theorem scriptText_iff {script : List UInt8} {texts : List (List UInt8)} {cs : List Command} :
    ScriptText script texts cs ↔
      (script.dropWhile isBlank = [] ∧ texts = [] ∧ cs = []) ∨
        ∃ text rest texts' c cs', script.dropWhile isBlank = text ++ rest ∧
          Command.ofBytes text = .ok c ∧ ScriptText rest texts' cs' ∧ texts = text :: texts' ∧
          cs = c :: cs' := by
  constructor
  · rintro (hw | ⟨hw, hc, hrest⟩)
    · exact .inl ⟨List.dropWhile_eq_nil_iff.2 hw, rfl, rfl⟩
    · -- a command starts with `<`, which is no blank
      refine .inr ⟨_, _, _, _, _, ?_, hc, hrest, rfl, rfl⟩
      rw [List.dropWhile_append_of_pos hw, frame_of_ofBytes hc, List.cons_append,
        List.dropWhile_cons_of_neg (by decide)]
  · have hsplit : script = script.takeWhile isBlank ++ script.dropWhile isBlank :=
      List.takeWhile_append_dropWhile.symm
    have hw : ∀ b ∈ script.takeWhile isBlank, isBlank b = true := fun b hb =>
      List.mem_takeWhile_imp hb
    rintro (⟨hempty, rfl, rfl⟩ | ⟨text, rest, texts', c, cs', htext, hc, hrest, rfl, rfl⟩)
    · rw [hsplit, hempty, List.append_nil]
      exact .blanks hw
    · rw [hsplit, htext]
      exact .cons hw hc hrest

/-- A command is read where its text stands, whatever follows. -/
theorem read_command_iff {c c' : Cursor} {x : Command} :
    Grammar.command.read c = (.ok x, c') ↔
      ∃ text, c.Passes text c' ∧ Command.ofBytes text = .ok x := by
  rw [Grammar.takes_command c c' x]
  simp only [Command.ofBytes_eq_ok_iff]

/-- Where only blanks are left, no command is. -/
theorem scriptText_end {c : Cursor} (h : (skipBlanks c).rest = []) {cs : List Command} :
    (∃ texts, ScriptText c.rest texts cs) ↔ cs = [] := by
  constructor
  · rintro ⟨texts, hscript⟩
    rcases scriptText_iff.1 hscript with ⟨-, -, hcs⟩ | ⟨text, rest, _, x, _, htext, hx, -⟩
    · exact hcs
    · rw [frame_of_ofBytes hx] at htext
      exact absurd (htext.symm.trans h) (by simp)
  · rintro rfl
    exact ⟨[], scriptText_iff.2 (.inl ⟨h, rfl, rfl⟩)⟩

/-- Where blanks do not end the script, it goes on with the command that is read there. -/
theorem scriptText_step {c : Cursor} (h : (skipBlanks c).rest ≠ []) {cs : List Command} :
    (∃ texts, ScriptText c.rest texts cs) ↔
      ∃ x c' more, Grammar.command.read (skipBlanks c) = (.ok x, c') ∧ cs = x :: more ∧
        ∃ texts, ScriptText c'.rest texts more := by
  constructor
  · rintro ⟨texts, hscript⟩
    rcases scriptText_iff.1 hscript with ⟨hempty, -, -⟩ |
      ⟨text, rest, texts', x, more, htext, hx, hrest, -, hcs⟩
    · exact absurd hempty h
    · exact ⟨x, ⟨(skipBlanks c).position + text.length, rest⟩, more,
        read_command_iff.2 ⟨text, ⟨htext, rfl⟩, hx⟩, hcs, texts', hrest⟩
  · rintro ⟨x, c', more, hread, rfl, texts, hrest⟩
    obtain ⟨text, hpasses, hx⟩ := read_command_iff.1 hread
    exact ⟨text :: texts,
      scriptText_iff.2 (.inr ⟨text, c'.rest, texts, x, more, hpasses.1, hx, hrest, rfl, rfl⟩)⟩

/-- A command that is read has a byte. -/
theorem length_lt_of_read {c c' : Cursor} {x : Command}
    (h : Grammar.command.read (skipBlanks c) = (.ok x, c')) : c'.rest.length < c.rest.length := by
  obtain ⟨text, hpasses, hx⟩ := read_command_iff.1 h
  calc c'.rest.length < (text ++ c'.rest).length := by
        rw [frame_of_ofBytes hx, List.cons_append, List.length_cons, List.length_append]; omega
    _ = (c.rest.dropWhile isBlank).length := by rw [← hpasses.1]; rfl
    _ ≤ c.rest.length := (List.dropWhile_suffix isBlank).length_le

/-- The commands ahead join those already read, if they are no more than `limit`. -/
theorem commandsOnto_eq_ok_iff (done : Array Command) (limit : Nat) {c : Cursor} {cs : List Command}
    (hlimit : c.rest.length ≤ limit) :
    commandsOnto done limit c = .ok cs ↔
      ∃ more, cs = done.toList ++ more ∧ ∃ texts, ScriptText c.rest texts more := by
  -- on the limit, which each command lowers by one and the bytes ahead by at least one
  induction limit generalizing done c with
  | zero =>
    have hrest : c.rest = [] := List.eq_nil_of_length_eq_zero (Nat.le_zero.1 hlimit)
    have hempty : (skipBlanks c).rest = [] := by rw [skipBlanks, hrest]; rfl
    simp [commandsOnto, hempty, scriptText_end hempty, eq_comm]
  | succ limit ih =>
    by_cases hempty : (skipBlanks c).rest = []
    · simp [commandsOnto, hempty, scriptText_end hempty, eq_comm]
    · simp only [scriptText_step hempty]
      rw [commandsOnto, if_neg (by rwa [List.isEmpty_iff])]
      rcases hread : Grammar.command.read (skipBlanks c) with ⟨e | x, c'⟩
      · simp
      · have hlt := length_lt_of_read hread
        simp only
        rw [ih (done.push x) (by omega)]
        simp only [Prod.mk.injEq, Except.ok.injEq, Array.toList_push, List.append_assoc,
          List.singleton_append]
        constructor
        · rintro ⟨more, hcs, htexts⟩
          exact ⟨x :: more, hcs, x, c', more, ⟨rfl, rfl⟩, rfl, htexts⟩
        · rintro ⟨_, hcs, _, _, more, ⟨rfl, rfl⟩, rfl, htexts⟩
          exact ⟨more, hcs, htexts⟩

/-- **The commands of a script are read, and those of nothing else.** -/
theorem commands_eq_ok_iff {script : List UInt8} {cs : List Command} :
    commands script = .ok cs ↔ ∃ texts, ScriptText script texts cs := by
  rw [commands, commandsOnto_eq_ok_iff #[] script.length (Nat.le_refl _)]
  simp [Cursor.ofBytes]

end Script

/-! ### Frame after frame -/

namespace Framer

/-- The framer waits for a frame, and has room for `limit` bytes. -/
structure Ready (limit : Nat) (f : Framer) : Prop where
  /-- No frame is under way. -/
  idle : f.current = none
  /-- A frame of `limit` bytes fits. -/
  room : limit ≤ f.maxLength

variable {limit : Nat} {f : Framer}

/-- Bytes outside frames are dropped up to the next `<`. -/
theorem Ready.noise (h : Ready limit f) {w : List UInt8} (hw : ∀ b ∈ w, b ≠ Grammar.opener) :
    eventsOf (f.replies (w.map (0, ·))) = [] ∧ Ready limit (f.after (w.map (0, ·))) := by
  induction w generalizing f with
  | nil => exact ⟨rfl, h⟩
  | cons b w ih =>
    obtain ⟨hb, hw⟩ := List.forall_mem_cons.1 hw
    have hfeed : f.feed 0 b =
        (none, { f with discarded := Counter.addUpTo Counter.cap32 f.discarded 1 }) := by
      simp only [feed, h.idle, if_neg hb]
    rw [List.map_cons, replies, after, hfeed]
    exact ih (f := { f with discarded := _ }) ⟨h.idle, h.room⟩ hw

/-- A frame under way ends with the next `>`, if it fits. -/
theorem ends_frame {o : OpenFrame} (busy : f.current = some o) {body : List UInt8}
    (hbody : ∀ b ∈ body, ¬ IsDelimiter b) (hfit : o.bytes.size + body.length < f.maxLength) :
    eventsOf (f.replies ((body ++ [Grammar.closer]).map (0, ·))) =
        [.ok ⟨o.bytes.toList ++ (body ++ [Grammar.closer])⟩] ∧
      Ready f.maxLength (f.after ((body ++ [Grammar.closer]).map (0, ·))) := by
  induction body generalizing f o with
  | nil =>
    rw [List.length_nil, Nat.add_zero] at hfit
    have hfeed : f.feed 0 Grammar.closer =
        (some (.ok ⟨(o.bytes.push Grammar.closer).toList⟩), f.reset) := by
      simp only [feed, busy, if_neg closer_ne_opener, if_true]
      rw [if_neg (Nat.not_le_of_lt hfit)]
    simp only [List.nil_append, List.map_cons, List.map_nil, replies, after, hfeed, eventsOf]
    exact ⟨by simp, rfl, Nat.le_refl _⟩
  | cons b body ih =>
    obtain ⟨hb, hbody⟩ := List.forall_mem_cons.1 hbody
    rw [List.length_cons] at hfit
    have hfeed : f.feed 0 b = (none, { f with current := some ⟨o.bytes.push b, 0⟩ }) := by
      simp only [feed, busy]
      rw [if_neg fun h => hb (.inl h), if_neg (by omega), if_neg fun h => hb (.inr h)]
    have hfit' : (o.bytes.push b).size + body.length < f.maxLength := by
      rw [Array.size_push]; omega
    obtain ⟨hevents, hready⟩ :=
      ih (f := { f with current := some ⟨o.bytes.push b, 0⟩ }) rfl hbody hfit'
    rw [List.cons_append, List.map_cons, replies, after, hfeed]
    exact ⟨by simpa [eventsOf] using hevents, hready⟩

/-- A whole frame is told of, if it fits. -/
theorem Ready.frame (h : Ready limit f) {body : List UInt8} (hbody : ∀ b ∈ body, ¬ IsDelimiter b)
    (hfit : body.length + 2 ≤ limit) :
    eventsOf (f.replies ((Grammar.opener :: (body ++ [Grammar.closer])).map (0, ·))) =
        [.ok ⟨Grammar.opener :: (body ++ [Grammar.closer])⟩] ∧
      Ready limit (f.after ((Grammar.opener :: (body ++ [Grammar.closer])).map (0, ·))) := by
  have hfeed : f.feed 0 Grammar.opener = (none, f.openFrame 0) := by
    simp only [feed, h.idle, if_true]
  have hroom := h.room
  have hfit' : 1 + body.length < f.maxLength := by omega
  obtain ⟨hevents, hready⟩ :=
    ends_frame (f := f.openFrame 0) (o := ⟨#[Grammar.opener], 0⟩) rfl hbody hfit'
  rw [List.map_cons, replies, after, hfeed]
  exact ⟨by simpa [eventsOf] using hevents, hready.idle, hroom.trans hready.room⟩

end Framer

namespace Script

/-- A framer with room for it tells of every command of a script. -/
theorem events_replies {script : List UInt8} {texts : List (List UInt8)} {cs : List Command}
    (h : ScriptText script texts cs)
    (plain : ∀ text ∈ texts, ∀ b ∈ (Frame.mk text).body, ¬ IsDelimiter b)
    {f : Framer} {limit : Nat} (ready : Framer.Ready limit f) (hlimit : script.length ≤ limit) :
    Framer.eventsOf (f.replies (script.map (0, ·))) = texts.map fun text => .ok ⟨text⟩ := by
  have hblank {w : List UInt8} (hw : ∀ b ∈ w, isBlank b = true) : ∀ b ∈ w, b ≠ Grammar.opener := by
    rintro b hb rfl
    exact absurd (hw _ hb) (by decide)
  induction h generalizing f with
  | blanks hw => exact (ready.noise (hblank hw)).1
  | @cons w text rest texts c cs hw hc hrest ih =>
    obtain ⟨hplain, plain⟩ := List.forall_mem_cons.1 plain
    have hframe := frame_of_ofBytes hc
    set body := (Frame.mk text).body
    have hlen : text.length = body.length + 2 := by simp [hframe]
    simp only [List.length_append] at hlimit
    obtain ⟨hnone, ready⟩ := ready.noise (hblank hw)
    obtain ⟨hone, ready⟩ := ready.frame hplain (by omega)
    rw [← hframe] at hone ready
    have hmore := ih plain ready (by omega)
    simp only [List.map_append, Framer.replies_append, Framer.eventsOf, List.filterMap_append]
      at hnone hone hmore ⊢
    rw [hnone, hone, hmore]
    rfl

/-- **A script is cut into the texts of its commands**, if none of them has a delimiter inside. -/
theorem events_eq {script : List UInt8} {texts : List (List UInt8)} {cs : List Command}
    (h : ScriptText script texts cs)
    (plain : ∀ text ∈ texts, ∀ b ∈ (Frame.mk text).body, ¬ IsDelimiter b) :
    events script = texts.map fun text => .ok ⟨text⟩ := by
  have ready : Framer.Ready script.length (Framer.new script.length 0) :=
    ⟨rfl, Nat.le_max_left _ _⟩
  rw [← events_replies h plain ready (Nat.le_refl _), events, Array.toList_map]
  exact (Framer.feedAll_eq _ _ _).1

/-- `<A01B00000000>>` is one command, whose keyframe ends with a `>`; a framer cuts it there. -/
example :
    let text : List UInt8 := [60, 65, 48, 49, 66, 48, 48, 48, 48, 48, 48, 48, 48, 62, 62]
    (commands text).toOption.map List.length = some 1 ∧ events text = [.ok ⟨text.dropLast⟩] := by
  decide +kernel

end Script

end Wire

end Marquee
