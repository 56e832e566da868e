import Marquee.Proofs.Wire.Numeral
import Marquee.Wire.Cursor
import Mathlib.Tactic.SplitIfs

/-!
# The texts that readers take

A reader that succeeds has passed a text. `Reader.Takes r T` says which: `r` reads `v` and leaves
`rest` ahead if and only if what it passed is a `text` with `T text rest v`. That `T` sees what
follows the text is for readers that look ahead.

* `Takes.pure`, `Takes.bind`, `Takes.ite` : the texts of a composed reader;
* `takes_number` : a number is taken from its numerals, and likewise for the other readers of bytes
  and digits.
-/

namespace Marquee

namespace Wire

/-- The text lies between two places: ahead of `c`, and behind `c'`. -/
def Cursor.Passes (c : Cursor) (text : List UInt8) (c' : Cursor) : Prop :=
  c.rest = text ++ c'.rest ∧ c'.position = c.position + text.length

namespace Cursor

variable {c c₁ c' : Cursor} {text text' : List UInt8}

theorem passes_nil_iff : c.Passes [] c' ↔ c = c' := by
  obtain ⟨p, rest⟩ := c
  obtain ⟨p', rest'⟩ := c'
  simp only [Passes, List.nil_append, List.length_nil, Nat.add_zero, mk.injEq]
  exact ⟨fun h => ⟨h.2.symm, h.1⟩, fun h => ⟨h.2, h.1.symm⟩⟩

theorem Passes.trans (h : c.Passes text c₁) (h' : c₁.Passes text' c') :
    c.Passes (text ++ text') c' := by
  refine ⟨by rw [h.1, h'.1, List.append_assoc], ?_⟩
  rw [h'.2, h.2, List.length_append, Nat.add_assoc]

/-- A passed text can be passed part by part. -/
theorem Passes.split (h : c.Passes (text ++ text') c') :
    c.Passes text ⟨c.position + text.length, text' ++ c'.rest⟩ ∧
      Passes ⟨c.position + text.length, text' ++ c'.rest⟩ text' c' := by
  refine ⟨⟨by rw [h.1, List.append_assoc], rfl⟩, rfl, ?_⟩
  rw [h.2, List.length_append, Nat.add_assoc]

end Cursor

namespace Reader

variable {α β : Type}

/-! ### Composed readers -/

/-- The reader succeeds if and only if it passes a text of `T`. -/
def Takes (r : Reader α) (T : List UInt8 → List UInt8 → α → Prop) : Prop :=
  ∀ c c' v, r.read c = (.ok v, c') ↔ ∃ text, c.Passes text c' ∧ T text c'.rest v

theorem read_bind (r : Reader α) (f : α → Reader β) (c : Cursor) :
    (r >>= f).read c =
      match r.read c with
      | (.ok v, c₁) => (f v).read c₁
      | (.error e, c₁) => (.error e, c₁) := by
  change ExceptT.bindCont f (r.read c).1 (r.read c).2 = _
  rcases r.read c with ⟨_ | _, _⟩ <;> rfl

/-- Two readers in order succeed if and only if the first does and then the second. -/
theorem read_bind_eq_ok_iff {r : Reader α} {f : α → Reader β} {c c' : Cursor} {w : β} :
    (r >>= f).read c = (.ok w, c') ↔
      ∃ v c₁, r.read c = (.ok v, c₁) ∧ (f v).read c₁ = (.ok w, c') := by
  rw [read_bind]
  rcases r.read c with ⟨e | v, c₁⟩
  · simp
  · simp

variable {r r' : Reader α} {T T' U : List UInt8 → List UInt8 → α → Prop}

theorem Takes.congr (h : Takes r T) (hTU : ∀ text rest v, T text rest v ↔ U text rest v) :
    Takes r U := by
  intro c c' v
  simp only [h c c' v, hTU]

/-- Where a text of `T` is ahead, the reader passes it and reads its value. -/
theorem Takes.read_eq (h : Takes r T) {c : Cursor} {text rest : List UInt8} {v : α}
    (ahead : c.rest = text ++ rest) (hT : T text rest v) :
    r.read c = (.ok v, ⟨c.position + text.length, rest⟩) :=
  (h c ⟨c.position + text.length, rest⟩ v).2 ⟨text, ⟨ahead, rfl⟩, hT⟩

theorem Takes.pure (v : α) : Takes (pure v) fun text _ w => text = [] ∧ w = v := by
  intro c c' w
  change ((.ok v, c) : Except GrammarFault α × Cursor) = (.ok w, c') ↔ _
  constructor
  · intro h
    simp only [Prod.mk.injEq, Except.ok.injEq] at h
    obtain ⟨rfl, rfl⟩ := h
    exact ⟨[], Cursor.passes_nil_iff.2 rfl, rfl, rfl⟩
  · rintro ⟨_, hp, rfl, rfl⟩
    rw [Cursor.passes_nil_iff.1 hp]

theorem Takes.throw (e : GrammarFault) :
    Takes (throw e : Reader α) fun _ _ _ => False := by
  intro c c' v
  change ((.error e, c) : Except GrammarFault α × Cursor) = (.ok v, c') ↔ _
  simp

/-- One reader behind another takes the two texts behind each other. Of the second reader only the
values matter that the first one can read. -/
theorem Takes.bind_of {f : α → Reader β} {V : α → List UInt8 → List UInt8 → β → Prop}
    (hr : Takes r T) (hf : ∀ v text rest, T text rest v → Takes (f v) (V v)) :
    Takes (r >>= f) fun text rest w =>
      ∃ v text₁ text₂, text = text₁ ++ text₂ ∧ T text₁ (text₂ ++ rest) v ∧ V v text₂ rest w := by
  intro c c' w
  rw [read_bind_eq_ok_iff]
  constructor
  · rintro ⟨v, c₁, h₁, h₂⟩
    obtain ⟨text₁, hp₁, hT⟩ := (hr c c₁ v).1 h₁
    obtain ⟨text₂, hp₂, hV⟩ := (hf v _ _ hT c₁ c' w).1 h₂
    exact ⟨_, hp₁.trans hp₂, v, text₁, text₂, rfl, hp₂.1 ▸ hT, hV⟩
  · -- the place between the readers lies behind the first text
    rintro ⟨_, hp, v, text₁, text₂, rfl, hT, hV⟩
    obtain ⟨hp₁, hp₂⟩ := hp.split
    exact ⟨v, _, (hr _ _ v).2 ⟨text₁, hp₁, hT⟩, (hf v _ _ hT _ _ w).2 ⟨text₂, hp₂, hV⟩⟩

theorem Takes.bind {f : α → Reader β} {V : α → List UInt8 → List UInt8 → β → Prop}
    (hr : Takes r T) (hf : ∀ v, Takes (f v) (V v)) :
    Takes (r >>= f) fun text rest w =>
      ∃ v text₁ text₂, text = text₁ ++ text₂ ∧ T text₁ (text₂ ++ rest) v ∧ V v text₂ rest w :=
  hr.bind_of fun v _ _ _ => hf v

/-- What is read last can be put in place. -/
theorem Takes.map (hr : Takes r T) (g : α → β) :
    Takes (r >>= fun v => Pure.pure (g v)) fun text rest w => ∃ v, T text rest v ∧ w = g v := by
  refine (hr.bind fun v => Takes.pure (g v)).congr fun text rest w => ?_
  constructor
  · rintro ⟨v, text, _, rfl, hT, rfl, rfl⟩
    exact ⟨v, by rwa [List.append_nil], rfl⟩
  · rintro ⟨v, hT, rfl⟩
    exact ⟨v, text, [], (List.append_nil text).symm, hT, rfl, rfl⟩

theorem Takes.ite {p : Prop} [Decidable p] (h : Takes r T) (h' : Takes r' T') :
    Takes (if p then r else r') fun text rest v => (p ∧ T text rest v) ∨ (¬p ∧ T' text rest v) := by
  by_cases hp : p
  · rw [if_pos hp]
    exact h.congr fun text rest v => by simp [hp]
  · rw [if_neg hp]
    exact h'.congr fun text rest v => by simp [hp]

/-! ### Bytes and digits -/

theorem takes_peek? : Takes peek? fun text rest o => text = [] ∧ o = rest.head? := by
  intro c c' o
  change ((.ok c.peek?, c) : Except GrammarFault _ × Cursor) = (.ok o, c') ↔ _
  constructor
  · intro h
    simp only [Prod.mk.injEq, Except.ok.injEq] at h
    obtain ⟨rfl, rfl⟩ := h
    exact ⟨[], Cursor.passes_nil_iff.2 rfl, rfl, rfl⟩
  · rintro ⟨_, hp, rfl, rfl⟩
    rw [Cursor.passes_nil_iff.1 hp]
    rfl

theorem takes_peek : Takes peek fun text rest b => text = [] ∧ rest.head? = some b := by
  have hpeek : Takes peek fun text rest b => ∃ o text₁ text₂, text = text₁ ++ text₂ ∧
      (text₁ = [] ∧ o = (text₂ ++ rest).head?) ∧ text₂ = [] ∧ o = some b := by
    refine takes_peek?.bind fun o => ?_
    cases o with
    | none => exact (Takes.throw _).congr (by simp)
    | some a => exact (Takes.pure a).congr (by simp [eq_comm])
  exact hpeek.congr (by simp)

theorem takes_anyByte : Takes anyByte fun text _ b => text = [b] := by
  rintro ⟨position, rest⟩ ⟨position', rest'⟩ b
  cases rest with
  | nil =>
    change ((.error .unexpectedEnd, _) : Except GrammarFault UInt8 × Cursor) = _ ↔ _
    simp [Cursor.Passes]
  | cons a rest =>
    change ((.ok a, ⟨position + 1, rest⟩) : Except GrammarFault UInt8 × Cursor) = (.ok b, ⟨position', rest'⟩) ↔ _
    constructor
    · intro h
      simp only [Prod.mk.injEq, Except.ok.injEq, Cursor.mk.injEq] at h
      obtain ⟨rfl, rfl, rfl⟩ := h
      exact ⟨[a], ⟨rfl, rfl⟩, rfl⟩
    · rintro ⟨_, ⟨hrest, hposition⟩, rfl⟩
      obtain ⟨rfl, rfl⟩ := List.cons.inj hrest
      simp only at hposition
      rw [hposition]
      rfl

theorem read_bytes (n : Nat) (c : Cursor) :
    (bytes n).read c =
      if n ≤ c.rest.length then (.ok (c.rest.take n), ⟨c.position + n, c.rest.drop n⟩)
      else (.error .unexpectedEnd, c) := by
  simp only [read, bytes, Cursor.take?, List.length_take]
  split_ifs with h h' h'
  · rfl
  · omega
  · omega
  · rfl

theorem takes_bytes (n : Nat) : Takes (bytes n) fun text _ bs => text.length = n ∧ bs = text := by
  rintro ⟨position, rest⟩ ⟨position', rest'⟩ bs
  rw [read_bytes]
  split_ifs with hn
  · constructor
    · intro h
      simp only [Prod.mk.injEq, Except.ok.injEq, Cursor.mk.injEq] at h
      obtain ⟨rfl, rfl, rfl⟩ := h
      have hlen := List.length_take_of_le hn
      exact ⟨_, ⟨(List.take_append_drop n rest).symm, by rw [hlen]⟩, hlen, rfl⟩
    · rintro ⟨text, ⟨hrest, hposition⟩, rfl, rfl⟩
      simp only at hrest hposition
      subst hrest hposition
      simp
  · simp only [Prod.mk.injEq, reduceCtorEq, false_and, false_iff]
    rintro ⟨text, ⟨hrest, -⟩, rfl, -⟩
    simp only at hrest hn
    rw [hrest, List.length_append] at hn
    omega

theorem read_moreThan (n : Nat) (c : Cursor) :
    (moreThan n).read c = (if n < c.rest.length then .ok () else .error .unexpectedEnd, c) := by
  have hempty : (c.rest.drop n).isEmpty = true ↔ c.rest.length ≤ n := by
    rw [List.isEmpty_iff, List.drop_eq_nil_iff]
  simp only [read, moreThan, hempty]
  split_ifs with h h' h'
  · omega
  · rfl
  · rfl
  · omega

theorem takes_moreThan (n : Nat) :
    Takes (moreThan n) fun text rest _ => text = [] ∧ n < rest.length := by
  intro c c' v
  rw [read_moreThan]
  split_ifs with hn
  · constructor
    · intro h
      obtain rfl : c = c' := congrArg Prod.snd h
      exact ⟨[], Cursor.passes_nil_iff.2 rfl, rfl, hn⟩
    · rintro ⟨_, hp, rfl, -⟩
      rw [Cursor.passes_nil_iff.1 hp]
  · simp only [Prod.mk.injEq, reduceCtorEq, false_and, false_iff]
    rintro ⟨_, hp, rfl, hlt⟩
    rw [← Cursor.passes_nil_iff.1 hp] at hlt
    exact hn hlt

theorem takes_expect (b : UInt8) : Takes (expect b) fun text _ _ => text = [b] := by
  refine (takes_anyByte.bind fun a => (Takes.pure ()).ite (Takes.throw _)).congr fun text _ _ => ?_
  constructor
  · rintro ⟨a, _, _, rfl, rfl, ⟨rfl, rfl, -⟩ | ⟨-, ⟨⟩⟩⟩
    rfl
  · rintro rfl
    exact ⟨b, [b], [], rfl, rfl, .inl ⟨rfl, rfl, rfl⟩⟩

theorem takes_numberFrom (value width : Nat) :
    Takes (numberFrom value width) fun text _ n => ∃ digits, List.Forall₂ IsDigit text digits ∧
      digits.length = width ∧ value * 16 ^ width + Nat.ofDigits 16 digits.reverse = n := by
  induction width generalizing value with
  | zero =>
    refine (Takes.pure value).congr fun text _ n => ?_
    constructor
    · rintro ⟨rfl, rfl⟩
      exact ⟨[], .nil, rfl, by simp⟩
    · rintro ⟨digits, hd, hlen, rfl⟩
      obtain rfl := List.length_eq_zero_iff.1 hlen
      exact ⟨List.forall₂_nil_right_iff.1 hd, by simp⟩
  | succ width ih =>
    -- the digits that follow depend on the first byte only if it is a digit
    have hstep : Takes (numberFrom value (width + 1)) fun text _ n => ∃ b text₁ text₂,
        text = text₁ ++ text₂ ∧ text₁ = [b] ∧ ∃ d, IsDigit b d ∧
          ∃ digits, List.Forall₂ IsDigit text₂ digits ∧ digits.length = width ∧
            (16 * value + d) * 16 ^ width + Nat.ofDigits 16 digits.reverse = n := by
      refine takes_anyByte.bind fun b => ?_
      cases hb : Hex.digit? b with
      | none =>
        refine (Takes.throw _).congr fun text _ n => ?_
        simp [← Hex.digit?_eq_some_iff, hb]
      | some d =>
        refine (ih (16 * value + d)).congr fun text _ n => ?_
        simp [← Hex.digit?_eq_some_iff, hb]
    refine hstep.congr fun text _ n => ?_
    constructor
    · rintro ⟨b, _, text₂, rfl, rfl, d, hb, digits, hd, rfl, rfl⟩
      exact ⟨d :: digits, .cons hb hd, rfl, ofDigits_cons_reverse value d digits⟩
    · rintro ⟨_, hd, hlen, rfl⟩
      cases hd with
      | nil => cases hlen
      | @cons b d text digits hb hd =>
        obtain rfl : digits.length = width := Nat.succ.inj hlen
        exact ⟨b, [b], text, rfl, rfl, d, hb, digits, hd, rfl,
          (ofDigits_cons_reverse value d digits).symm⟩

theorem takes_number (width : Nat) :
    Takes (number width) fun text _ n => Numeral width text n := by
  refine (takes_numberFrom 0 width).congr fun text _ n => ?_
  simp only [Nat.zero_mul, Nat.zero_add]
  rfl

theorem takes_digit : Takes digit fun text _ n => Numeral 1 text n := takes_number 1

theorem takes_byte : Takes byte fun text _ b => Numeral 2 text b.toNat := by
  refine ((takes_number 2).map Nat.toUInt8).congr fun text _ b => ?_
  constructor
  · rintro ⟨n, hn, rfl⟩
    rwa [hn.toNat_eq_iff.2 rfl]
  · intro h
    exact ⟨b.toNat, h, h.toNat_eq_iff.1 rfl⟩

theorem takes_measure : Takes measure fun text _ n => Numeral 3 text n := takes_number 3

end Reader

end Wire

end Marquee
