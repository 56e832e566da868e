import Marquee.Proofs.Settings.Literals
import Marquee.Settings.Document

/-!
# Numbers in settings

A number of a setting has to fit the word that holds it. This file says which texts are numbers of words
of 8, 16, 32 and 64 bits, and that no number is changed to fit.

* `Literal.Number.unique` : a text stands for one number at most.
* `Literal.accumulate?` : digits read into a word of 64 bits, with the overflow of each step refused;
  `Literal.map_accumulate?` says that this refuses exactly the numbers that do not fit.
* `Field.Exact` : what it is to read words exactly; `Field.exact_word?` proves it for words of any width.
* `Field.numbers_are_exact` : **a number is read if and only if it is a literal whose value fits**.
-/

namespace Marquee

namespace Literal

/-! ### Values -/

theorem Number.unique {text : List Char} {n n' : Nat} (h : Number text n) (h' : Number text n') :
    n = n' :=
  Option.some.inj ((unsigned?_eq_some_iff.2 h.2).symm.trans (unsigned?_eq_some_iff.2 h'.2))

theorem utf8Size_eq (cs : List Char) : utf8Size cs = (String.ofList cs).utf8ByteSize := by
  have behind (n : Nat) :
      cs.foldl (fun n c => n + c.utf8Size) n = n + (String.ofList cs).utf8ByteSize := by
    induction cs generalizing n with
    | nil => rfl
    | cons c cs ih =>
      rw [List.foldl_cons, ih, String.ofList_cons, String.utf8ByteSize_append,
        String.utf8ByteSize_singleton, Nat.add_assoc]
  rw [utf8Size, behind, Nat.zero_add]

/-! ### Words of 64 bits -/

/-- Read digits into a word of 64 bits, behind digits that stand for `value`. A step that would overflow
is refused. -/
def accumulate? (base : Nat) (value : UInt64) : List Char → Option UInt64
  | [] => some value
  | c :: cs =>
    match digit? base c with
    | some d =>
      if base * value.toNat + d < 2 ^ 64 then
        accumulate? base (base.toUInt64 * value + d.toUInt64) cs
      else none
    | none => none

theorem le_of_digitsFrom {base value n : Nat} (hbase : 0 < base) {cs : List Char}
    (h : digitsFrom base value cs = some n) : value ≤ n := by
  obtain ⟨digits, -, rfl⟩ := digitsFrom_eq_some_iff.1 h
  exact (Nat.le_mul_of_pos_right _ (Nat.pow_pos hbase)).trans (Nat.le_add_right _ _)

/-- **Refusing the overflow of each step refuses exactly what does not fit in the end**, since more
digits never make a number smaller. -/
theorem map_accumulate? {base : Nat} (hbase : 0 < base) (value : UInt64) (cs : List Char) :
    (accumulate? base value cs).map UInt64.toNat =
      (digitsFrom base value.toNat cs).filter (· < 2 ^ 64) := by
  induction cs generalizing value with
  | nil => simp [accumulate?, digitsFrom, Option.filter_some, UInt64.toNat_lt value]
  | cons c cs ih =>
    rw [accumulate?, digitsFrom]
    cases digit? base c with
    | none => rfl
    | some d =>
      simp only
      split_ifs with hfits
      · have hstep : (base.toUInt64 * value + d.toUInt64).toNat = base * value.toNat + d := by
          simp only [Nat.toUInt64, UInt64.toNat_add, UInt64.toNat_mul, UInt64.toNat_ofNat',
            Nat.add_mod_mod, Nat.mod_add_mod, Nat.mod_mul_mod, Nat.mod_eq_of_lt hfits]
        rw [ih, hstep]
      · -- what does not fit now will not fit in the end
        symm
        rw [Option.map_none, Option.filter_eq_none_iff]
        intro n hn hlt
        have hle := le_of_digitsFrom hbase hn
        exact hfits (lt_of_le_of_lt hle (of_decide_eq_true hlt))

end Literal

namespace Field

/-- Words of so many bits are read exactly from the text. -/
structure Exact {α : Type} (bits : Nat) (ofNat : Nat → α) (toNat : α → Nat) (text : List Char) :
    Prop where
  /-- A word is read just if the text is a number of its value. -/
  reads : ∀ v, word? bits ofNat text = some v ↔ Literal.Number text (toNat v)
  /-- Nothing is read just if the text is no number, or one that does not fit. -/
  refuses : word? bits ofNat text = none ↔ ∀ n, Literal.Number text n → 2 ^ bits ≤ n

theorem word?_eq_none_iff {α : Type} {bits : Nat} {ofNat : Nat → α} {text : List Char} :
    word? bits ofNat text = none ↔ ∀ n, Literal.Number text n → 2 ^ bits ≤ n := by
  rw [word?, Option.map_eq_none_iff, Option.eq_none_iff_forall_ne_some, Nat.one_shiftLeft]
  simp only [ne_eq, Literal.number?_eq_some_iff, not_and, Nat.not_lt]

theorem exact_word? {α : Type} {bits : Nat} {ofNat : Nat → α} {toNat : α → Nat}
    (left : ∀ v, ofNat (toNat v) = v) (lt : ∀ v, toNat v < 2 ^ bits)
    (right : ∀ n < 2 ^ bits, toNat (ofNat n) = n) (text : List Char) :
    Exact bits ofNat toNat text := by
  rw [← Nat.one_shiftLeft] at lt right
  exact ⟨fun v => word?_eq_some_iff left lt right, word?_eq_none_iff⟩

/-- The bits of the numbers that a field takes; a switch takes none. -/
def bits? : Field → Option Nat
  | timeUnitNs => some 64
  | minCues => some 8
  | maxSpritePixels | baudRate | frameTimeoutMs | maxFrameLength => some 32
  | maxBytesPerPoll | width | height => some 16
  | background => some 24
  | showSplash => none

theorem read?_eq_none_iff {f : Field} {bits : Nat} (h : f.bits? = some bits) {text : List Char} :
    f.read? text = none ↔ ∀ n, Literal.Number text n → 2 ^ bits ≤ n := by
  cases f with
  | showSplash => cases h
  | _ =>
    obtain rfl := Option.some.inj h
    exact word?_eq_none_iff

theorem readAssignment_eq_invalidValue_iff {f : Field} {text : List Char} :
    Settings.readAssignment (some f.heading) f.key.toList text = .error .invalidValue ↔
      f.read? text = none := by
  rw [Settings.readAssignment, Option.bind_some, String.ofList_toList, find?_key]
  dsimp only
  cases f.read? text <;> simp

/-- **Numbers are exact.**

* A text is a number of value `n` if and only if, without its underscores, it takes at most 24 bytes and is
  either decimal or, behind `0x` or `0X`, hex, both times with or without a `+` and with at least one digit,
  and the digits stand for `n`. No text has two values.
* For words of 8, 16, 32 and 64 bits, a word is read if and only if the text is a number of its value.
  Nothing is read if and only if the text is no number, or one that does not fit.
* The value of an entry is invalid if and only if the text is no number, or one beyond those that the field
  takes.
* It is the same to read digits into a word of 64 bits and to refuse the overflow of each step. -/
theorem numbers_are_exact (text : List Char) :
    (∀ n, Literal.Number text n ↔
        (String.ofList (text.filter (· ≠ '_'))).utf8ByteSize ≤ 24 ∧
          (Literal.Signed 10 (text.filter (· ≠ '_')) n ∨
            ∃ x rest, text.filter (· ≠ '_') = '0' :: x :: rest ∧ (x = 'x' ∨ x = 'X') ∧
              Literal.Signed 16 rest n)) ∧
      (∀ n n', Literal.Number text n → Literal.Number text n' → n = n') ∧
      (Exact 8 Nat.toUInt8 UInt8.toNat text ∧ Exact 16 Nat.toUInt16 UInt16.toNat text ∧
        Exact 32 Nat.toUInt32 UInt32.toNat text ∧ Exact 64 Nat.toUInt64 UInt64.toNat text) ∧
      (∀ (f : Field) (bits : Nat), f.bits? = some bits →
        (Settings.readAssignment (some f.heading) f.key.toList text = .error .invalidValue ↔
          ∀ n, Literal.Number text n → 2 ^ bits ≤ n)) ∧
      ∀ base, base = 10 ∨ base = 16 → ∀ digits,
        (Literal.accumulate? base 0 digits).map UInt64.toNat =
          (Literal.digitsFrom base 0 digits).filter (· < 2 ^ 64) := by
  refine ⟨fun n => ?_, fun _ _ => Literal.Number.unique, ⟨?_, ?_, ?_, ?_⟩, fun f bits hbits => ?_,
    fun base hbase digits => ?_⟩
  · rw [Literal.Number, Literal.utf8Size_eq]
    rfl
  · exact exact_word? (fun _ => UInt8.ofNat_toNat) UInt8.toNat_lt (fun _ => UInt8.toNat_ofNat_of_lt') text
  · exact exact_word? (fun _ => UInt16.ofNat_toNat) UInt16.toNat_lt (fun _ => UInt16.toNat_ofNat_of_lt')
      text
  · exact exact_word? (fun _ => UInt32.ofNat_toNat) UInt32.toNat_lt (fun _ => UInt32.toNat_ofNat_of_lt')
      text
  · exact exact_word? (fun _ => UInt64.ofNat_toNat) UInt64.toNat_lt (fun _ => UInt64.toNat_ofNat_of_lt')
      text
  · rw [readAssignment_eq_invalidValue_iff, read?_eq_none_iff hbits]
  · exact Literal.map_accumulate? (by omega) 0 digits

/-- The largest byte in hex, the number behind it, and a number behind the largest word. -/
example :
    word? 8 Nat.toUInt8 "0X+0_0fF".toList = some 255 ∧ word? 8 Nat.toUInt8 "2_56".toList = none ∧
      word? 64 Nat.toUInt64 "+18446744073709551616".toList = none := by decide +kernel

end Field

end Marquee
