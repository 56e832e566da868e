import Marquee.Proofs.Wire.Arrivals
import Marquee.Proofs.Wire.Takes

/-!
# Readers on closed texts

A frame that a framer delivers has one closing byte, at its end. Most readers stop at that byte because
it is not what they ask for, so they fail with another fault than an early end.

* `Closed` : what is ahead of a reader inside such a frame; `Reader.RunsOut` : the closed texts on which
  a reader runs out of bytes.
* `Reader.Safe` : readers that never do, and leave a closed text. Readers made of safe ones are safe
  (`Reader.Safe.bind`, `Reader.Safe.tagged`), and behind a safe reader the next one runs out where it
  does itself (`Reader.RunsOut.bind`).
* `Reader.safe_numberFrom` : numbers are safe to read, and with them the other readers of digits.
-/

namespace Marquee

namespace Wire

open Grammar

/-! ### Closed texts -/

/-- Bytes up to the end of a delivered frame. -/
def Closed (text : List UInt8) : Prop :=
  ∃ inner, (∀ b ∈ inner, ¬ IsDelimiter b) ∧ text = inner ++ [closer]

namespace Closed

variable {text rest : List UInt8} {b : UInt8}

theorem ne_nil (h : Closed text) : text ≠ [] := by
  obtain ⟨inner, -, rfl⟩ := h
  simp

/-- A closed text starts with its closing byte, or goes on behind its first one. -/
theorem of_cons (h : Closed (b :: rest)) : (b = closer ∧ rest = []) ∨ (b ≠ closer ∧ Closed rest) := by
  obtain ⟨_ | ⟨a, inner⟩, hinner, htext⟩ := h
  · exact .inl (List.cons.inj htext)
  · obtain ⟨rfl, rfl⟩ := List.cons.inj htext
    obtain ⟨ha, hinner⟩ := List.forall_mem_cons.1 hinner
    exact .inr ⟨fun h => ha (.inr h), inner, hinner, rfl⟩

/-- What lies behind a part of a closed text is closed, unless nothing does. -/
theorem of_append (h : Closed (text ++ rest)) (hrest : rest ≠ []) : Closed rest := by
  induction text with
  | nil => exact h
  | cons a text ih =>
    obtain ⟨-, hnil⟩ | ⟨-, h⟩ := of_cons h
    · exact absurd (List.append_eq_nil_iff.1 hnil).2 hrest
    · exact ih h

theorem getLast?_eq (h : Closed text) : text.getLast? = some closer := by
  obtain ⟨inner, -, rfl⟩ := h
  simp

end Closed

/-- A text does not end in the closing byte if its last part is a number. -/
theorem Numeral.getLast?_ne {width n : Nat} {text : List UInt8} (h : Numeral (width + 1) text n)
    (pre : List UInt8) : (pre ++ text).getLast? ≠ some closer := by
  obtain ⟨digits, hd, hlen, -⟩ := h
  have hdigit : ∀ b ∈ text, ∃ d, IsDigit b d := by
    clear hlen
    induction hd with
    | nil => exact List.forall_mem_nil _
    | cons hb _ ih => exact List.forall_mem_cons.2 ⟨⟨_, hb⟩, ih⟩
  have hne : text ≠ [] := List.ne_nil_of_length_pos (by rw [hd.length_eq, hlen]; exact width.succ_pos)
  rw [List.getLast?_append_of_ne_nil _ hne]
  intro hlast
  obtain ⟨d, hcloser⟩ := hdigit _ (List.mem_of_getLast? hlast)
  have hvalue : closer.toNat = 62 := rfl
  unfold IsDigit at hcloser
  omega

namespace Reader

variable {α β : Type}

/-! ### Readers on closed texts -/

/-- On closed texts, the reader runs out of bytes just if the text satisfies `U`. -/
def RunsOut (r : Reader α) (U : List UInt8 → Prop) : Prop :=
  ∀ c : Cursor, Closed c.rest → ((r.read c).1 = .error .unexpectedEnd ↔ U c.rest)

/-- On closed texts, the reader does not run out of bytes, and leaves a closed text. -/
structure Safe (r : Reader α) : Prop where
  /-- The bytes are enough. -/
  runsOut : RunsOut r fun _ => False
  /-- The closing byte is not read. -/
  closed : ∀ {c c' : Cursor} {v : α}, Closed c.rest → r.read c = (.ok v, c') → Closed c'.rest

variable {r r' : Reader α} {U U' : List UInt8 → Prop}

theorem RunsOut.congr (h : RunsOut r U) (hU : ∀ text, Closed text → (U text ↔ U' text)) :
    RunsOut r U' :=
  fun c hc => (h c hc).trans (hU c.rest hc)

theorem RunsOut.throw {e : GrammarFault} (he : e ≠ .unexpectedEnd) :
    RunsOut (throw e : Reader α) fun _ => False := by
  intro c _
  change (Except.error e : Except GrammarFault α) = .error .unexpectedEnd ↔ False
  simp [he]

theorem RunsOut.ite {p : Prop} [Decidable p] (h : RunsOut r U) (h' : RunsOut r' U') :
    RunsOut (if p then r else r') fun text => (p ∧ U text) ∨ (¬p ∧ U' text) := by
  by_cases hp : p
  · rw [if_pos hp]
    exact h.congr fun _ _ => by simp [hp]
  · rw [if_neg hp]
    exact h'.congr fun _ _ => by simp [hp]

/-- Behind a safe reader, the next one runs out of bytes where it does itself. -/
theorem RunsOut.bind {f : α → Reader β} {T : List UInt8 → List UInt8 → α → Prop}
    {V : α → List UInt8 → Prop} (safe : Safe r) (takes : Takes r T) (hf : ∀ v, RunsOut (f v) (V v)) :
    RunsOut (r >>= f) fun text => ∃ v text₁ rest, text = text₁ ++ rest ∧ T text₁ rest v ∧ V v rest := by
  intro c hc
  rw [read_bind]
  rcases hread : r.read c with ⟨e | v, c₁⟩
  · have he : e ≠ .unexpectedEnd := by
      rintro rfl
      exact (safe.runsOut c hc).1 (by rw [hread])
    refine iff_of_false (by simp [he]) ?_
    rintro ⟨v, text, rest, hrest, hT, -⟩
    cases hread.symm.trans (takes.read_eq hrest hT)
  · refine (hf v c₁ (safe.closed hc hread)).trans ⟨fun hV => ?_, ?_⟩
    · obtain ⟨text, hp, hT⟩ := (takes c c₁ v).1 hread
      exact ⟨v, text, c₁.rest, hp.1, hT, hV⟩
    · -- a reader that succeeds does so in one way
      rintro ⟨w, text, rest, hrest, hT, hV⟩
      cases hread.symm.trans (takes.read_eq hrest hT)
      exact hV

/-- Behind any one byte, the closing one apart, which is refused. -/
theorem RunsOut.tagged {f : UInt8 → Reader β} {V : UInt8 → List UInt8 → Prop}
    (hf : ∀ b, b ≠ closer → RunsOut (f b) (V b)) {e : GrammarFault}
    (hstop : ∀ c, ((f closer).read c).1 = .error e) (he : e ≠ .unexpectedEnd) :
    RunsOut (anyByte >>= f) fun text => ∃ b rest, text = b :: rest ∧ b ≠ closer ∧ V b rest := by
  rintro ⟨position, _ | ⟨b, rest⟩⟩ hc
  · exact absurd rfl hc.ne_nil
  · have hread : (anyByte >>= f).read ⟨position, b :: rest⟩ = (f b).read ⟨position + 1, rest⟩ := by
      rw [read_bind]
      rfl
    rw [hread]
    obtain ⟨rfl, rfl⟩ | ⟨hb, hrest⟩ := hc.of_cons
    · rw [hstop]
      refine iff_of_false (by simp [he]) ?_
      rintro ⟨b, rest, htext, hb, -⟩
      exact hb (List.cons.inj htext).1.symm
    · rw [hf b hb _ hrest]
      constructor
      · exact fun hV => ⟨b, rest, rfl, hb, hV⟩
      · rintro ⟨b', rest', htext, -, hV⟩
        obtain ⟨rfl, rfl⟩ := List.cons.inj htext
        exact hV

/-- To put in place what was read takes no bytes. -/
theorem read_map_eq_error_iff (g : α → β) {c : Cursor} {e : GrammarFault} :
    ((r >>= fun v => Pure.pure (g v)).read c).1 = .error e ↔ (r.read c).1 = .error e := by
  rw [read_bind]
  rcases r.read c with ⟨e' | v, c₁⟩
  · simp
  · exact iff_of_false nofun nofun

theorem RunsOut.map (h : RunsOut r U) (g : α → β) :
    RunsOut (r >>= fun v => Pure.pure (g v)) U :=
  fun c hc => (read_map_eq_error_iff g).trans (h c hc)

/-- A fault of another kind, behind a reader that does not run out of bytes. -/
theorem RunsOut.thenThrow (h : RunsOut r fun _ => False) {e : GrammarFault} (he : e ≠ .unexpectedEnd) :
    RunsOut (r >>= fun _ => (MonadExcept.throw e : Reader β)) fun _ => False := by
  intro c hc
  rw [read_bind]
  rcases hread : r.read c with ⟨e' | v, c₁⟩
  · have he' : e' ≠ .unexpectedEnd := by
      rintro rfl
      exact (h c hc).1 (by rw [hread])
    exact iff_of_false (by simp [he']) not_false
  · exact iff_of_false (mt Except.error.inj he) not_false

/-- Where enough bytes must be ahead, the bytes run out if there are fewer. -/
theorem RunsOut.moreThan {n : Nat} {f : Unit → Reader β}
    (hf : ∀ c : Cursor, n < c.rest.length → ((f ()).read c).1 ≠ .error .unexpectedEnd) :
    RunsOut (moreThan n >>= f) fun text => text.length ≤ n := by
  intro c _
  rw [read_bind, read_moreThan]
  split_ifs with hmore
  · exact iff_of_false (hf c hmore) (Nat.not_le_of_lt hmore)
  · exact iff_of_true rfl (Nat.le_of_not_lt hmore)

/-! ### Safe readers -/

theorem Safe.pure (v : α) : Safe (pure v) := by
  refine ⟨fun c _ => ?_, ?_⟩
  · change (Except.ok v : Except GrammarFault α) = .error .unexpectedEnd ↔ False
    simp
  · intro c c' w hc hread
    obtain ⟨_, hp, rfl, -⟩ := (Takes.pure v c c' w).1 hread
    rwa [← Cursor.passes_nil_iff.1 hp]

theorem Safe.throw {e : GrammarFault} (he : e ≠ .unexpectedEnd) : Safe (throw e : Reader α) := by
  refine ⟨.throw he, ?_⟩
  intro c c' v _ hread
  obtain ⟨_, -, ⟨⟩⟩ := (Takes.throw e c c' v).1 hread

theorem Safe.ite {p : Prop} [Decidable p] (h : Safe r) (h' : Safe r') :
    Safe (if p then r else r') := by
  split
  · exact h
  · exact h'

theorem Safe.bind {f : α → Reader β} (hr : Safe r) (hf : ∀ v, Safe (f v)) : Safe (r >>= f) := by
  refine ⟨fun c hc => iff_of_false (fun hend => ?_) not_false, ?_⟩
  · rw [read_bind] at hend
    rcases hread : r.read c with ⟨e | v, c₁⟩
    · simp only [hread] at hend
      exact (hr.runsOut c hc).1 (by rw [hread, Except.error.inj hend])
    · rw [hread] at hend
      exact ((hf v).runsOut c₁ (hr.closed hc hread)).1 hend
  · intro c c' w hc hread
    obtain ⟨v, c₁, hfirst, hnext⟩ := read_bind_eq_ok_iff.1 hread
    exact (hf v).closed (hr.closed hc hfirst) hnext

theorem Safe.map (hr : Safe r) (g : α → β) : Safe (r >>= fun v => Pure.pure (g v)) :=
  hr.bind fun v => .pure (g v)

/-- One byte is safe to read if the closing byte is refused. -/
theorem Safe.tagged {f : UInt8 → Reader β} (hf : ∀ b, b ≠ closer → Safe (f b)) {e : GrammarFault}
    (hstop : ∀ c, ((f closer).read c).1 = .error e) (he : e ≠ .unexpectedEnd) : Safe (anyByte >>= f) := by
  refine ⟨(RunsOut.tagged (fun b hb => (hf b hb).runsOut) hstop he).congr (by simp), ?_⟩
  intro c c' v hc hread
  obtain ⟨b, c₁, hbyte, hnext⟩ := read_bind_eq_ok_iff.1 hread
  obtain ⟨_, ⟨htext, -⟩, rfl⟩ := (takes_anyByte c c₁ b).1 hbyte
  rw [htext] at hc
  obtain ⟨rfl, -⟩ | ⟨hb, hrest⟩ := hc.of_cons
  · have hfault := hstop c₁
    rw [hnext] at hfault
    cases hfault
  · exact (hf b hb).closed hrest hnext

theorem safe_peek? : Safe peek? := by
  refine ⟨fun c _ => iff_of_false (by simp [read, peek?]) not_false, ?_⟩
  intro c c' o hc hread
  obtain ⟨_, hp, rfl, -⟩ := (takes_peek? c c' o).1 hread
  rwa [← Cursor.passes_nil_iff.1 hp]

theorem safe_peek : Safe peek := by
  refine ⟨fun c hc => iff_of_false ?_ not_false, ?_⟩
  · obtain ⟨b, rest, hrest⟩ := List.exists_cons_of_ne_nil hc.ne_nil
    rw [takes_peek.read_eq hrest ⟨List.nil_append _, rfl⟩]
    simp
  · intro c c' b hc hread
    obtain ⟨_, hp, rfl, -⟩ := (takes_peek c c' b).1 hread
    rwa [← Cursor.passes_nil_iff.1 hp]

theorem safe_expect {b : UInt8} (hb : b ≠ closer) : Safe (expect b) := by
  refine .tagged (e := .unexpectedToken) (fun a _ => (Safe.pure ()).ite (.throw ?_)) ?_ ?_
  · decide
  · intro c
    rw [if_neg (Ne.symm hb)]
    rfl
  · decide

theorem safe_numberFrom (value width : Nat) : Safe (numberFrom value width) := by
  induction width generalizing value with
  | zero => exact .pure value
  | succ width ih =>
    refine .tagged (e := .malformedNumber) (fun b _ => ?_) (fun _ => rfl) (by decide)
    cases Hex.digit? b with
    | none => exact .throw (by decide)
    | some d => exact ih _

theorem safe_digit : Safe digit := safe_numberFrom 0 1

theorem safe_byte : Safe byte := (safe_numberFrom 0 2).map _

theorem safe_measure : Safe measure := safe_numberFrom 0 3

end Reader

end Wire

end Marquee
