import Marquee.Proofs.Wire.Acceptance

/-!
# Commands delimit themselves

A reader is **steady** (`Reader.Steady`) if bytes that did not run out tell all that more bytes would:
unless it fails with an early end, it finds the same and stops at the same place whatever is put behind
the bytes. Readers made of steady ones are steady. Looking ahead keeps this as long as the end of the
bytes is not taken for an answer (`Reader.Steady.lookahead`).

* `Grammar.steady_command` : the reader of commands is steady.
* `Grammar.commands_delimit_themselves` : **a command ends at one place**, whatever follows it; all that
  is shorter ends too early, and what is refused stays refused for the same reason.
-/

namespace Marquee

namespace Wire

/-- The same place, with more bytes at the end. -/
def Cursor.extend (c : Cursor) (more : List UInt8) : Cursor := ⟨c.position, c.rest ++ more⟩

namespace Reader

variable {α β : Type}

/-- The reader goes forward only, and bytes that are enough for it stay enough when more follow. -/
structure Steady (r : Reader α) : Prop where
  /-- What lies behind the reader was ahead of it. -/
  passes : ∀ c : Cursor, ∃ text, c.Passes text (r.read c).2
  /-- Unless the bytes end too early, the reader does not see whether more follow. -/
  extend : ∀ (c : Cursor) more, (r.read c).1 ≠ .error .unexpectedEnd →
    r.read (c.extend more) = ((r.read c).1, (r.read c).2.extend more)

/-! ### Composed readers -/

theorem Steady.pure (v : α) : Steady (pure v) :=
  ⟨fun _ => ⟨[], Cursor.passes_nil_iff.2 rfl⟩, fun _ _ _ => rfl⟩

theorem Steady.throw (e : GrammarFault) : Steady (throw e : Reader α) :=
  ⟨fun _ => ⟨[], Cursor.passes_nil_iff.2 rfl⟩, fun _ _ _ => rfl⟩

variable {r r' : Reader α}

theorem Steady.bind {f : α → Reader β} (hr : Steady r) (hf : ∀ v, Steady (f v)) :
    Steady (r >>= f) := by
  -- the second reader starts where the first one stops, also with more bytes at the end
  refine ⟨fun c => ?_, fun c more => ?_⟩
  · obtain ⟨text, hp⟩ := hr.passes c
    rw [read_bind]
    rcases hread : r.read c with ⟨e | v, c₁⟩
    · exact ⟨text, by rwa [hread] at hp⟩
    · obtain ⟨text', hp'⟩ := (hf v).passes c₁
      rw [hread] at hp
      exact ⟨text ++ text', hp.trans hp'⟩
  · have hfirst := hr.extend c more
    rw [read_bind, read_bind]
    rcases hread : r.read c with ⟨e | v, c₁⟩
    · intro hend
      rw [hread] at hfirst
      rw [hfirst fun h => hend (by rw [Except.error.inj h])]
    · intro hend
      rw [hread] at hfirst
      rw [hfirst (fun h => nomatch h)]
      exact (hf v).extend c₁ more hend

theorem Steady.map (hr : Steady r) (g : α → β) : Steady (r >>= fun v => Pure.pure (g v)) :=
  hr.bind fun v => Steady.pure (g v)

theorem Steady.ite {p : Prop} [Decidable p] (h : Steady r) (h' : Steady r') :
    Steady (if p then r else r') := by
  split
  · exact h
  · exact h'

/-- A loop of steady readers is steady. -/
theorem Steady.foldlM {σ ι : Type} {step : σ → ι → Reader σ} (xs : List ι)
    (h : ∀ s x, Steady (step s x)) (s : σ) : Steady (xs.foldlM step s) := by
  induction xs generalizing s with
  | nil => exact .pure s
  | cons x xs ih =>
    rw [List.foldlM_cons]
    exact (h s x).bind ih

/-- A reader may look ahead if it fails with an early end where there is nothing to look at. -/
theorem Steady.lookahead {f : Option UInt8 → Reader α} (hf : ∀ o, Steady (f o))
    (hnone : ∀ position, ((f none).read ⟨position, []⟩).1 = .error .unexpectedEnd) :
    Steady (peek? >>= f) := by
  have hread (c : Cursor) : (peek? >>= f).read c = (f c.rest.head?).read c := by
    rw [read_bind]
    rfl
  refine ⟨fun c => ?_, fun c more hend => ?_⟩
  · rw [hread]
    exact (hf _).passes c
  · rw [hread] at hend
    rw [hread, hread]
    -- what is looked at differs only where the bytes end
    obtain ⟨position, _ | ⟨b, rest⟩⟩ := c
    · exact absurd (hnone position) hend
    · exact (hf (some b)).extend _ more hend

/-! ### Bytes and digits -/

theorem steady_peek : Steady peek := by
  refine .lookahead (fun o => ?_) fun _ => rfl
  cases o with
  | none => exact .throw _
  | some b => exact .pure b

theorem steady_anyByte : Steady anyByte := by
  refine ⟨?_, ?_⟩
  · rintro ⟨position, _ | ⟨b, rest⟩⟩
    · exact ⟨[], rfl, rfl⟩
    · exact ⟨[b], rfl, rfl⟩
  · rintro ⟨position, _ | ⟨b, rest⟩⟩ more hend
    · exact absurd rfl hend
    · rfl

theorem steady_bytes (n : Nat) : Steady (bytes n) := by
  refine ⟨fun c => ?_, fun c more => ?_⟩
  · rw [read_bytes]
    split_ifs with hn
    · exact ⟨c.rest.take n, (List.take_append_drop n _).symm, by rw [List.length_take_of_le hn]⟩
    · exact ⟨[], Cursor.passes_nil_iff.2 rfl⟩
  · rw [read_bytes, read_bytes]
    split_ifs with hn hmore hmore
    · intro _
      rw [Cursor.extend, List.take_append_of_le_length hn, List.drop_append_of_le_length hn]
      rfl
    · rw [Cursor.extend, List.length_append] at hmore
      omega
    · exact fun hend => absurd rfl hend
    · exact fun hend => absurd rfl hend

theorem steady_moreThan (n : Nat) : Steady (moreThan n) := by
  refine ⟨fun c => ?_, fun c more => ?_⟩
  · rw [read_moreThan]
    exact ⟨[], Cursor.passes_nil_iff.2 rfl⟩
  · rw [read_moreThan, read_moreThan]
    by_cases hn : n < c.rest.length
    · have hmore : n < (c.extend more).rest.length := by
        rw [Cursor.extend, List.length_append]
        omega
      rw [if_pos hn, if_pos hmore]
      exact fun _ => rfl
    · rw [if_neg hn]
      exact fun hend => absurd rfl hend

theorem steady_expect (b : UInt8) : Steady (expect b) :=
  steady_anyByte.bind fun _ => (Steady.pure ()).ite (.throw _)

theorem steady_numberFrom (value width : Nat) : Steady (numberFrom value width) := by
  induction width generalizing value with
  | zero => exact .pure value
  | succ width ih =>
    refine steady_anyByte.bind fun b => ?_
    cases Hex.digit? b with
    | none => exact .throw _
    | some d => exact ih _

theorem steady_digit : Steady digit := steady_numberFrom 0 1

theorem steady_byte : Steady byte := (steady_numberFrom 0 2).map _

theorem steady_measure : Steady measure := steady_numberFrom 0 3

end Reader

namespace Grammar

open Reader

/-! ### Parts of commands -/

theorem steady_color : Steady color :=
  steady_byte.bind fun _ => steady_byte.bind fun _ => steady_byte.map _

/-- Without a byte to look at, a color is read, which is not there. -/
theorem steady_palette : Steady palette :=
  (steady_expect _).bind fun _ =>
    .lookahead (fun _ => (Steady.pure _).ite (steady_color.map _)) fun _ => rfl

theorem steady_modify : Steady modify :=
  (steady_expect _).bind fun _ => steady_byte.bind fun _ => steady_color.map _

theorem steady_tile (width column row : Nat) (m : Mosaic) : Steady (tile width column row m) := by
  refine (steady_bytes _).bind fun digits => ?_
  rcases Hex.decodeOver m.tile digits with ⟨e | ⟨⟩, values⟩
  · exact .throw e
  · exact .pure _

theorem steady_tiles (wide high : Nat) : Steady (tiles wide high) :=
  (Steady.foldlM _ (fun m column => .foldlM _ (fun m row => steady_tile _ column row m) m) _).map _

theorem steady_bitmap : Steady bitmap :=
  (steady_expect _).bind fun _ => steady_measure.bind fun _ => steady_measure.bind fun _ =>
    steady_byte.bind fun _ => steady_byte.bind fun _ => steady_digit.bind fun _ =>
      (steady_moreThan _).bind fun _ => (steady_tiles _ _).map _

theorem steady_upTo {α : Type} {component : Reader α} (h : Steady component) (n : Nat) :
    Steady (upTo component n) := by
  induction n with
  | zero => exact steady_peek.bind fun _ => (Steady.pure _).ite (h.bind fun _ => .throw _)
  | succ n ih => exact steady_peek.bind fun _ => (Steady.pure _).ite (h.bind fun _ => ih.map _)

theorem steady_shape : Steady shape := by
  refine steady_anyByte.bind fun _ => (steady_measure.bind fun _ => steady_byte.map _).ite
    ((steady_digit.bind fun n => ?_).ite (.throw _))
  cases Sector.ofDigit? n with
  | none => exact .throw _
  | some area => exact steady_byte.map _

theorem steady_template : Steady template :=
  (steady_expect _).bind fun _ => steady_measure.bind fun _ => steady_measure.bind fun _ =>
    steady_measure.bind fun _ => steady_byte.bind fun _ => (steady_upTo steady_shape _).map _

theorem steady_keyframe : Steady keyframe :=
  steady_anyByte.bind fun _ =>
    (steady_byte.bind fun _ => steady_measure.bind fun _ => steady_measure.bind fun _ =>
      steady_anyByte.map _).ite
    ((steady_byte.bind fun _ => steady_color.map _).ite (.throw _))

theorem steady_animation : Steady animation :=
  (steady_expect _).bind fun _ => steady_byte.bind fun _ => (steady_upTo steady_keyframe _).map _

/-! ### Commands -/

theorem steady_body : Steady body :=
  steady_peek.bind fun _ => steady_palette.ite <| steady_modify.ite <|
    ((steady_expect _).map _).ite <| (steady_bitmap.map _).ite <| (steady_template.map _).ite <|
      (steady_animation.map _).ite (.throw _)

theorem steady_command : Steady command :=
  (steady_expect _).bind fun _ => steady_body.bind fun _ => (steady_expect _).map _

/-- A command that is cut off before its end ends too early. -/
theorem read_cut {start p n : Nat} {s : List UInt8} {c : Command}
    (h : command.read ⟨start, s⟩ = (.ok c, ⟨start + p, s.drop p⟩)) (hn : n < p) :
    (command.read ⟨start, s.take n⟩).1 = .error .unexpectedEnd := by
  by_contra hend
  -- with what was cut off behind it again, it would be read as it is now
  have hextend := steady_command.extend ⟨start, s.take n⟩ (s.drop n) hend
  rw [Cursor.extend, List.take_append_drop, h] at hextend
  obtain ⟨text, htext, hposition⟩ := steady_command.passes ⟨start, s.take n⟩
  have hstop : start + p = (command.read ⟨start, s.take n⟩).2.position :=
    congrArg (fun answer => answer.2.position) hextend
  have hlen : text.length ≤ n := by
    have := congrArg List.length htext
    simp only [List.length_append, List.length_take] at this
    omega
  simp only at hposition
  omega

/-- **Commands delimit themselves.** If bytes begin with a command that is read up to a place `p`, then
the bytes up to there are read as the same command up to the same place, whatever is put behind them,
and no fewer bytes will do: cut off anywhere before, they end too early. If bytes are refused for
another reason than an early end, they stay refused for this reason and at the same place, whatever is
put behind them. -/
theorem commands_delimit_themselves (start : Nat) (s u : List UInt8) :
    (∀ c stop, command.read ⟨start, s⟩ = (.ok c, stop) →
      ∃ p ≤ s.length, stop = ⟨start + p, s.drop p⟩ ∧
        command.read ⟨start, s.take p ++ u⟩ = (.ok c, ⟨start + p, u⟩) ∧
        ∀ n < p, (command.read ⟨start, s.take n⟩).1 = .error .unexpectedEnd) ∧
      ∀ e stop, e ≠ .unexpectedEnd → command.read ⟨start, s⟩ = (.error e, stop) →
        ∃ p ≤ s.length, stop = ⟨start + p, s.drop p⟩ ∧
          command.read ⟨start, s ++ u⟩ = (.error e, ⟨start + p, s.drop p ++ u⟩) := by
  have hplace (stop : Cursor) (text : List UInt8) (hp : Cursor.Passes ⟨start, s⟩ text stop) :
      text.length ≤ s.length ∧ s.take text.length = text ∧
        stop = ⟨start + text.length, s.drop text.length⟩ := by
    obtain ⟨position, rest⟩ := stop
    obtain ⟨htext, hposition⟩ := hp
    simp only at htext hposition
    subst htext hposition
    simp
  refine ⟨fun c stop h => ?_, fun e stop he h => ?_⟩
  · obtain ⟨text, hp, hspells⟩ := (takes_command _ _ _).1 h
    obtain ⟨hle, htake, rfl⟩ := hplace stop text hp
    refine ⟨text.length, hle, rfl, ?_, fun n hn => read_cut h hn⟩
    rw [htake]
    exact (takes_command _ _ _).2 ⟨text, ⟨rfl, rfl⟩, hspells⟩
  · obtain ⟨text, hp⟩ := steady_command.passes ⟨start, s⟩
    have hextend := steady_command.extend ⟨start, s⟩ u
    rw [h] at hp hextend
    obtain ⟨hle, -, rfl⟩ := hplace stop text hp
    exact ⟨text.length, hle, rfl, hextend fun hend => he (Except.error.inj hend)⟩

/-- A keyframe hides its sprite by a closing byte, `<A01B00000000>>`: the animation ends at the second
one, and no earlier. A sector that no digit names, `<T00000000000S4`, is refused whatever follows. -/
theorem commands_delimit_themselves_at_second_closer :
    let hidden : List UInt8 := [60, 65, 48, 49, 66, 48, 48, 48, 48, 48, 48, 48, 48, 62, 62]
    let c : Command := .animation ⟨1, [.place 0 0 0 false], by decide⟩
    let unnamed : List UInt8 := [60, 84, 48, 48, 48, 48, 48, 48, 48, 48, 48, 48, 48, 83, 52]
    let clearing : List UInt8 := [60, 90, 62]
    (command.read ⟨0, hidden⟩ = (.ok c, ⟨15, []⟩) ∧
      command.read ⟨0, hidden ++ clearing⟩ = (.ok c, ⟨15, clearing⟩) ∧
      (command.read ⟨0, hidden.take 14⟩).1 = .error .unexpectedEnd) ∧
      command.read ⟨0, unnamed⟩ = (.error .unexpectedToken, ⟨15, []⟩) ∧
      command.read ⟨0, unnamed ++ clearing⟩ = (.error .unexpectedToken, ⟨15, clearing⟩) := by
  intro hidden c unnamed clearing
  have hhidden : command.read ⟨0, hidden⟩ = (.ok c, ⟨15, []⟩) := by decide +kernel
  have hunnamed : command.read ⟨0, unnamed⟩ = (.error .unexpectedToken, ⟨15, []⟩) := by
    decide +kernel
  obtain ⟨p, -, hstop, hmore, hcut⟩ := (commands_delimit_themselves 0 hidden clearing).1 c _ hhidden
  obtain ⟨q, -, hstop', hmore'⟩ :=
    (commands_delimit_themselves 0 unnamed clearing).2 _ _ (by decide) hunnamed
  obtain rfl : p = 15 := by
    have := congrArg Cursor.position hstop
    simp only at this
    omega
  obtain rfl : q = 15 := by
    have := congrArg Cursor.position hstop'
    simp only at this
    omega
  exact ⟨⟨hhidden, hmore, hcut 14 (by decide)⟩, hunnamed, hmore'⟩

end Grammar

end Wire

end Marquee
