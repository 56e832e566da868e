import Marquee.Settings.Field
import Mathlib.Data.List.Forall2
import Mathlib.Data.Nat.Digits.Lemmas

/-!
# What literals of settings stand for

Numbers and switches, said without a reader.

* `Literal.IsDigit`, `Literal.Digits` : digits of a base, and texts of them with their value.
* `Literal.Number` : a text with the number that it stands for; `Literal.number?` reads exactly those
  that are below its limit (`Literal.number?_eq_some_iff`).
* `Field.Writes` : a text with the value of a field that it stands for; `Field.read?` reads exactly
  these (`Field.read?_eq_some_iff`).
-/

namespace Marquee

namespace Literal

/-! ### Digits -/

/-- The character is the digit of value `d` of the base: one of `0` to `9`, `A` to `F` and `a` to `f`. -/
def IsDigit (base : Nat) (c : Char) (d : Nat) : Prop :=
  d < base ∧ ((d < 10 ∧ c.toNat = '0'.toNat + d) ∨
    (10 ≤ d ∧ d < 16 ∧ (c.toNat + 10 = 'A'.toNat + d ∨ c.toNat + 10 = 'a'.toNat + d)))

theorem digit?_eq_some_iff {base : Nat} {c : Char} {d : Nat} :
    digit? base c = some d ↔ IsDigit base c d := by
  have hzero : '0'.toNat = 48 := rfl
  have hA : 'A'.toNat = 65 := rfl
  have ha : 'a'.toNat = 97 := rfl
  simp only [digit?, IsDigit, hzero, hA, ha]
  split_ifs <;> simp only [Option.some.injEq, false_iff] <;> omega

/-- The text is one or more digits of the base that stand for `n`, the highest first. -/
def Digits (base : Nat) (text : List Char) (n : Nat) : Prop :=
  text ≠ [] ∧ ∃ digits, List.Forall₂ (IsDigit base) text digits ∧ Nat.ofDigits base digits.reverse = n

theorem Digits.isDigit {base n : Nat} {text : List Char} (h : Digits base text n) :
    ∀ c ∈ text, ∃ d, IsDigit base c d := by
  obtain ⟨-, digits, hd, -⟩ := h
  intro c hc
  induction hd with
  | nil => cases hc
  | cons hfirst _ ih =>
    rcases List.mem_cons.1 hc with rfl | hc
    · exact ⟨_, hfirst⟩
    · exact ih hc

/-- A digit behind digits that stand for `value` shifts it. -/
theorem ofDigits_cons_reverse (base value d : Nat) (digits : List Nat) :
    value * base ^ (d :: digits).length + Nat.ofDigits base (d :: digits).reverse =
      (base * value + d) * base ^ digits.length + Nat.ofDigits base digits.reverse := by
  rw [List.reverse_cons, Nat.ofDigits_append, Nat.ofDigits_singleton, List.length_reverse,
    List.length_cons]
  ring

theorem digitsFrom_eq_some_iff {base value n : Nat} {text : List Char} :
    digitsFrom base value text = some n ↔
      ∃ digits, List.Forall₂ (IsDigit base) text digits ∧
        value * base ^ digits.length + Nat.ofDigits base digits.reverse = n := by
  induction text generalizing value with
  | nil => simp [digitsFrom, eq_comm]
  | cons c cs ih =>
    rw [digitsFrom]
    constructor
    · intro h
      cases hd : digit? base c with
      | none => simp [hd] at h
      | some d =>
        rw [hd] at h
        obtain ⟨digits, hdigits, rfl⟩ := ih.1 h
        exact ⟨d :: digits, .cons (digit?_eq_some_iff.1 hd) hdigits, ofDigits_cons_reverse ..⟩
    · rintro ⟨digits, hdigits, rfl⟩
      obtain ⟨d, digits, hd, hrest, rfl⟩ := List.forall₂_cons_left_iff.1 hdigits
      rw [digit?_eq_some_iff.2 hd]
      exact ih.2 ⟨digits, hrest, (ofDigits_cons_reverse ..).symm⟩

theorem digits?_eq_some_iff {base n : Nat} {text : List Char} :
    digits? base text = some n ↔ Digits base text n := by
  rw [digits?, Digits]
  cases text with
  | nil => simp
  | cons c cs => simp [digitsFrom_eq_some_iff]

/-! ### Numbers -/

/-- A `+` may stand before digits. -/
def Signed (base : Nat) (text : List Char) (n : Nat) : Prop :=
  ∃ sign digits, text = sign ++ digits ∧ (sign = [] ∨ sign = ['+']) ∧ Digits base digits n

theorem not_isDigit_plus {base d : Nat} : ¬ IsDigit base '+' d := by
  have hplus : '+'.toNat = 43 := rfl
  have hzero : '0'.toNat = 48 := rfl
  have hA : 'A'.toNat = 65 := rfl
  have ha : 'a'.toNat = 97 := rfl
  unfold IsDigit
  omega

theorem digits?_dropPlus_eq_some_iff {base n : Nat} {text : List Char} :
    digits? base (dropPlus text) = some n ↔ Signed base text n := by
  rw [digits?_eq_some_iff]
  constructor
  · intro h
    unfold dropPlus at h
    split at h
    · exact ⟨['+'], _, rfl, .inr rfl, h⟩
    · exact ⟨[], _, rfl, .inl rfl, h⟩
  · rintro ⟨sign, digits, rfl, rfl | rfl, hd⟩
    · unfold dropPlus
      split
      · rename_i rest htext
        rw [List.nil_append] at htext
        subst htext
        obtain ⟨d, hplus⟩ := hd.isDigit '+' List.mem_cons_self
        exact absurd hplus not_isDigit_plus
      · exact hd
    · exact hd

/-- The text, without underscores, is in decimal, or in hex behind `0x` or `0X`. -/
def Unsigned (cs : List Char) (n : Nat) : Prop :=
  Signed 10 cs n ∨ ∃ x rest, cs = '0' :: x :: rest ∧ (x = 'x' ∨ x = 'X') ∧ Signed 16 rest n

/-- What follows `0x` is in hex alone, since `x` is no digit. -/
theorem unsigned_hex_iff {x : Char} (hx : x = 'x' ∨ x = 'X') {rest : List Char} {n : Nat} :
    Unsigned ('0' :: x :: rest) n ↔ Signed 16 rest n := by
  constructor
  · rintro (⟨sign, digits, htext, rfl | rfl, hd⟩ | ⟨_, _, htext, -, h⟩)
    · rw [List.nil_append] at htext
      subst htext
      obtain ⟨d, hlt, hdigit⟩ := hd.isDigit x (List.mem_cons_of_mem _ List.mem_cons_self)
      have hcode : x.toNat = 120 ∨ x.toNat = 88 := by rcases hx with rfl | rfl <;> decide
      have hzero : '0'.toNat = 48 := rfl
      omega
    · exact absurd (List.cons.inj htext).1 (by decide)
    · obtain ⟨-, rfl⟩ := List.cons.inj (List.cons.inj htext).2
      exact h
  · exact fun h => .inr ⟨x, rest, rfl, hx, h⟩

theorem unsigned?_eq_some_iff {cs : List Char} {n : Nat} :
    unsigned? cs = some n ↔ Unsigned cs n := by
  unfold unsigned?
  split
  · rw [digits?_dropPlus_eq_some_iff, unsigned_hex_iff (.inl rfl)]
  · rw [digits?_dropPlus_eq_some_iff, unsigned_hex_iff (.inr rfl)]
  · rename_i hx hX
    rw [digits?_dropPlus_eq_some_iff]
    refine ⟨.inl, fun h => h.resolve_right ?_⟩
    rintro ⟨x, rest, rfl, rfl | rfl, -⟩
    · exact hx rest rfl
    · exact hX rest rfl

/-- The text is a number of value `n`. Underscores mean nothing; without them it has at most `maxBytes`
bytes. -/
def Number (text : List Char) (n : Nat) : Prop :=
  utf8Size (text.filter (· ≠ '_')) ≤ maxBytes ∧ Unsigned (text.filter (· ≠ '_')) n

/-- **Numbers below the limit are read**, and nothing else. -/
theorem number?_eq_some_iff {limit n : Nat} {text : List Char} :
    number? limit text = some n ↔ Number text n ∧ n < limit := by
  simp only [number?, Number, Option.bind_eq_bind, Option.bind_eq_some_iff, Option.pure_def,
    Option.guard_eq_some', Option.some.injEq, unsigned?_eq_some_iff]
  constructor
  · rintro ⟨_, hsize, m, hm, _, hlt, rfl⟩
    exact ⟨⟨hsize, hm⟩, hlt⟩
  · rintro ⟨⟨hsize, hn⟩, hlt⟩
    exact ⟨(), hsize, n, hn, (), hlt, rfl⟩

theorem switch?_eq_some_iff {text : List Char} {b : Bool} :
    switch? text = some b ↔ text = (if b then "true" else "false").toList := by
  have htrue : "true".toList = ['t', 'r', 'u', 'e'] := rfl
  have hfalse : "false".toList = ['f', 'a', 'l', 's', 'e'] := rfl
  unfold switch?
  cases b <;> simp only [Bool.false_eq_true, ↓reduceIte, htrue, hfalse] <;> split_ifs <;> simp_all

end Literal

/-! ### Fields -/

theorem Color.packed_ofPacked {n : Nat} (h : n < 0x1000000) : (ofPacked n).packed = n := by
  simp only [packed, ofPacked, Nat.toUInt8, UInt8.toNat_ofNat']
  omega

namespace Field

/-- The text is a literal of the value. Numbers have to be in the range of the field: those of all its
values, and for a color the 24-bit numbers. -/
def Writes (text : List Char) : (f : Field) → f.Value → Prop
  | timeUnitNs, v | minCues, v | maxSpritePixels, v | baudRate, v | frameTimeoutMs, v
  | maxFrameLength, v | maxBytesPerPoll, v | width, v | height, v => Literal.Number text v.toNat
  | background, v => Literal.Number text v.packed
  | showSplash, v => text = (if v then "true" else "false").toList

theorem word?_eq_some_iff {α : Type} {bits : Nat} {ofNat : Nat → α} {toNat : α → Nat}
    (left : ∀ v, ofNat (toNat v) = v) (lt : ∀ v, toNat v < 1 <<< bits)
    (right : ∀ n < 1 <<< bits, toNat (ofNat n) = n) {text : List Char} {v : α} :
    word? bits ofNat text = some v ↔ Literal.Number text (toNat v) := by
  simp only [word?, Option.map_eq_some_iff, Literal.number?_eq_some_iff]
  constructor
  · rintro ⟨n, ⟨hn, hlt⟩, rfl⟩
    rwa [right n hlt]
  · exact fun h => ⟨toNat v, ⟨h, lt v⟩, left v⟩

/-- **Literals of a field are read**, and nothing else. -/
theorem read?_eq_some_iff {f : Field} {text : List Char} {v : f.Value} :
    f.read? text = some v ↔ f.Writes text v := by
  cases f with
  | timeUnitNs =>
    exact word?_eq_some_iff (fun _ => UInt64.ofNat_toNat) UInt64.toNat_lt fun _ =>
      UInt64.toNat_ofNat_of_lt'
  | minCues =>
    exact word?_eq_some_iff (fun _ => UInt8.ofNat_toNat) UInt8.toNat_lt fun _ => UInt8.toNat_ofNat_of_lt'
  | maxSpritePixels | baudRate | frameTimeoutMs | maxFrameLength =>
    exact word?_eq_some_iff (fun _ => UInt32.ofNat_toNat) UInt32.toNat_lt fun _ =>
      UInt32.toNat_ofNat_of_lt'
  | maxBytesPerPoll | width | height =>
    exact word?_eq_some_iff (fun _ => UInt16.ofNat_toNat) UInt16.toNat_lt fun _ =>
      UInt16.toNat_ofNat_of_lt'
  | background =>
    exact word?_eq_some_iff Color.ofPacked_packed Color.packed_lt fun _ => Color.packed_ofPacked
  | showSplash => exact Literal.switch?_eq_some_iff

end Field

end Marquee
