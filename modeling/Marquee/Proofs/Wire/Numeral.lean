import Marquee.Wire.Hex
import Mathlib.Data.List.Forall2
import Mathlib.Data.Nat.Digits.Lemmas
import Mathlib.Tactic.SplitIfs

/-!
# Numerals

What hex digits stand for, said without a reader.

* `IsDigit` : the digits of either case with their values; `Hex.digit?` knows exactly them
  (`Hex.digit?_eq_some_iff`);
* `Numeral` : a text of a given number of digits with its value, the highest digit first; a text has
  one value (`Numeral.unique`), below the power of 16 (`Numeral.lt`);
* `PairText` : a text with the bytes that its digit pairs stand for, in order; exactly such texts are
  decoded (`Hex.decodeOver_eq_ok_iff`).
-/

namespace Marquee

namespace Wire

/-! ### Digits -/

/-- The byte is the hex digit of value `d`: one of `0` to `9`, `A` to `F` and `a` to `f`. -/
def IsDigit (b : UInt8) (d : Nat) : Prop :=
  (d < 10 ∧ b.toNat = 48 + d) ∨ (10 ≤ d ∧ d < 16 ∧ (b.toNat = 55 + d ∨ b.toNat = 87 + d))

theorem IsDigit.lt {b : UInt8} {d : Nat} (h : IsDigit b d) : d < 16 := by
  unfold IsDigit at h
  omega

theorem IsDigit.unique : Relator.RightUnique IsDigit := by
  intro b d d' h h'
  unfold IsDigit at h h'
  omega

theorem Hex.digit?_eq_some_iff {b : UInt8} {d : Nat} : Hex.digit? b = some d ↔ IsDigit b d := by
  simp only [Hex.digit?, IsDigit]
  split
  · rw [Option.some.injEq]; omega
  · split
    · rw [Option.some.injEq]; omega
    · split
      · rw [Option.some.injEq]; omega
      · simp only [reduceCtorEq, false_iff]; omega

theorem digits_lt {text : List UInt8} {digits : List Nat} (h : List.Forall₂ IsDigit text digits) :
    ∀ d ∈ digits, d < 16 := by
  induction h with
  | nil => exact List.forall_mem_nil _
  | cons hd _ ih => exact List.forall_mem_cons.2 ⟨hd.lt, ih⟩

/-! ### Numbers -/

/-- The text is `width` hex digits that stand for `n`, the highest first. -/
def Numeral (width : Nat) (text : List UInt8) (n : Nat) : Prop :=
  ∃ digits, List.Forall₂ IsDigit text digits ∧ digits.length = width ∧
    Nat.ofDigits 16 digits.reverse = n

namespace Numeral

variable {width n : Nat} {text : List UInt8}

theorem length (h : Numeral width text n) : text.length = width := by
  obtain ⟨digits, hd, hw, -⟩ := h
  rw [hd.length_eq, hw]

theorem unique {n' : Nat} (h : Numeral width text n) (h' : Numeral width text n') : n = n' := by
  obtain ⟨digits, hd, -, rfl⟩ := h
  obtain ⟨digits', hd', -, rfl⟩ := h'
  rw [IsDigit.unique.forall₂ hd hd']

theorem lt (h : Numeral width text n) : n < 16 ^ width := by
  obtain ⟨digits, hd, rfl, rfl⟩ := h
  rw [← List.length_reverse]
  exact Nat.ofDigits_lt_base_pow_length (by omega) fun d hmem =>
    digits_lt hd d (List.mem_reverse.1 hmem)

/-- A byte has the value of a numeral of two digits if it is that value, as a byte. -/
theorem toNat_eq_iff (h : Numeral 2 text n) {b : UInt8} : b.toNat = n ↔ b = n.toUInt8 := by
  have hn : n < 256 := h.lt
  rw [← UInt8.toNat_inj, Nat.toUInt8, UInt8.toNat_ofNat', Nat.mod_eq_of_lt hn]

/-- A numeral that is not empty starts with a digit. -/
theorem exists_digit (h : Numeral (width + 1) text n) :
    ∃ b rest d, text = b :: rest ∧ IsDigit b d := by
  obtain ⟨digits, hd, hw, -⟩ := h
  cases hd with
  | nil => cases hw
  | cons hb _ => exact ⟨_, _, _, rfl, hb⟩

end Numeral

/-- Reading digits behind digits that stand for `value` shifts it. -/
theorem ofDigits_cons_reverse (value d : Nat) (digits : List Nat) :
    value * 16 ^ (d :: digits).length + Nat.ofDigits 16 (d :: digits).reverse =
      (16 * value + d) * 16 ^ digits.length + Nat.ofDigits 16 digits.reverse := by
  rw [List.reverse_cons, Nat.ofDigits_append, Nat.ofDigits_singleton, List.length_reverse,
    List.length_cons]
  ring

/-! ### Pairs -/

theorem Hex.pair?_of_digits {high low : UInt8} {d e : Nat} (hh : IsDigit high d)
    (hl : IsDigit low e) : Hex.pair? high low = some (16 * d + e).toUInt8 := by
  simp [Hex.pair?, Hex.digit?_eq_some_iff.2 hh, Hex.digit?_eq_some_iff.2 hl]

theorem Hex.pair?_eq_some_iff {high low b : UInt8} :
    Hex.pair? high low = some b ↔ Numeral 2 [high, low] b.toNat := by
  constructor
  · intro h
    simp only [Hex.pair?, Option.bind_eq_bind, Option.bind_eq_some_iff, Option.pure_def,
      Option.some.injEq] at h
    obtain ⟨d, hd, e, he, rfl⟩ := h
    have hn : Numeral 2 [high, low] (16 * d + e) :=
      ⟨[d, e], .cons (Hex.digit?_eq_some_iff.1 hd) (.cons (Hex.digit?_eq_some_iff.1 he) .nil), rfl,
        by simp [Nat.ofDigits_cons]; omega⟩
    rwa [hn.toNat_eq_iff.2 rfl]
  · intro h
    obtain ⟨digits, hd, -, hb⟩ := id h
    obtain ⟨d, _, hh, hrest, rfl⟩ := List.forall₂_cons_left_iff.1 hd
    obtain ⟨e, _, hl, hnil, rfl⟩ := List.forall₂_cons_left_iff.1 hrest
    obtain rfl := List.forall₂_nil_left_iff.1 hnil
    have hval : 16 * d + e = b.toNat := by
      rw [← hb]
      simp [Nat.ofDigits_cons]
      omega
    rw [Hex.pair?_of_digits hh hl, hval, Nat.toUInt8, UInt8.ofNat_toNat]

/-- The text is a numeral of two digits for each of the values, in order. -/
inductive PairText : List UInt8 → List UInt8 → Prop
  /-- No digits stand for no values. -/
  | nil : PairText [] []
  /-- One pair more in front stands for one value more in front. -/
  | cons {high low value : UInt8} {text values : List UInt8} :
      Numeral 2 [high, low] value.toNat → PairText text values →
      PairText (high :: low :: text) (value :: values)

namespace PairText

variable {text values : List UInt8}

theorem length (h : PairText text values) : text.length = 2 * values.length := by
  induction h with
  | nil => rfl
  | cons _ _ ih => simp only [List.length_cons, ih]; omega

theorem append {text' values' : List UInt8} (h : PairText text values)
    (h' : PairText text' values') : PairText (text ++ text') (values ++ values') := by
  induction h with
  | nil => exact h'
  | cons hv _ ih => exact .cons hv ih

/-- The value at a place is that of the pair at this place. -/
theorem getElem? (h : PairText text values) {i : Nat} {v : UInt8} (hv : values[i]? = some v) :
    Numeral 2 ((text.drop (2 * i)).take 2) v.toNat := by
  induction h generalizing i with
  | nil => cases hv
  | cons hpair _ ih =>
    cases i with
    | zero =>
      obtain rfl := Option.some.inj hv
      exact hpair
    | succ i => exact ih hv

/-- Digits in even number are pairs. -/
theorem exists_of_digits : ∀ {n : Nat} {text : List UInt8}, text.length = 2 * n →
    (∀ b ∈ text, ∃ d, IsDigit b d) → ∃ values, PairText text values
  | 0, text, hn, _ => by
    obtain rfl := List.length_eq_zero_iff.1 hn
    exact ⟨[], .nil⟩
  | n + 1, high :: low :: text, hn, hd => by
    obtain ⟨d, hh⟩ := hd high (by simp)
    obtain ⟨e, hl⟩ := hd low (by simp)
    have hlen : text.length = 2 * n := by simp only [List.length_cons] at hn; omega
    obtain ⟨values, hvalues⟩ := exists_of_digits hlen fun b hb => hd b (by simp [hb])
    exact ⟨_, .cons (Hex.pair?_eq_some_iff.1 (Hex.pair?_of_digits hh hl)) hvalues⟩

/-- The text of pairs is all digits. -/
theorem digits (h : PairText text values) : ∀ b ∈ text, ∃ d, IsDigit b d := by
  induction h with
  | nil => exact List.forall_mem_nil _
  | cons hpair _ ih =>
    obtain ⟨digits, hd, -, -⟩ := hpair
    obtain ⟨d, _, hh, hrest, rfl⟩ := List.forall₂_cons_left_iff.1 hd
    obtain ⟨e, _, hl, -, rfl⟩ := List.forall₂_cons_left_iff.1 hrest
    exact List.forall_mem_cons.2 ⟨⟨d, hh⟩, List.forall_mem_cons.2 ⟨⟨e, hl⟩, ih⟩⟩

end PairText

namespace Hex

/-- Without a byte that has a pair, no byte is left. -/
theorem eq_nil_of_no_pair {earlier digits : List UInt8} (hroom : digits.length = 2 * earlier.length)
    (hshort : ∀ old earlier' high low digits',
      earlier = old :: earlier' → digits = high :: low :: digits' → False) : earlier = [] := by
  rcases earlier with _ | ⟨old, earlier⟩
  · rfl
  · rcases digits with _ | ⟨high, _ | ⟨low, digits⟩⟩
    · cases hroom
    · simp only [List.length_cons, List.length_nil] at hroom
      omega
    · exact (hshort old earlier high low digits rfl rfl).elim

/-- With room for exactly the bytes of a text, all goes well if and only if the text is all pairs: by
induction on pairs and bytes together. -/
theorem overwrite_eq_ok_iff {earlier digits values : List UInt8}
    (hroom : digits.length = 2 * earlier.length) :
    overwrite earlier digits = (.ok (), values) ↔ PairText digits values := by
  fun_induction overwrite earlier digits generalizing values with
  | case1 old earlier high low digits v hpair answer bytes hrest ih =>
    have hpairs (values : List UInt8) : (answer, bytes) = (.ok (), values) ↔ PairText digits values :=
      hrest ▸ ih (by simp only [List.length_cons] at hroom; omega)
    constructor
    · intro h
      obtain ⟨rfl, rfl⟩ := Prod.mk.inj h
      exact .cons (pair?_eq_some_iff.1 hpair) ((hpairs bytes).1 rfl)
    · intro htext
      cases htext with
      | @cons _ _ w _ values hw hvalues =>
        have hvw : some v = some w := hpair.symm.trans (pair?_eq_some_iff.2 hw)
        obtain rfl := Option.some.inj hvw
        obtain ⟨rfl, rfl⟩ := Prod.mk.inj ((hpairs values).2 hvalues)
        rfl
  | case2 old earlier high low digits hpair =>
    refine iff_of_false (by simp) fun htext => ?_
    cases htext with
    | cons hw _ =>
      rw [pair?_eq_some_iff.2 hw] at hpair
      cases hpair
  | case3 digits earlier hshort =>
    obtain rfl := eq_nil_of_no_pair hroom hshort
    obtain rfl := List.length_eq_zero_iff.1 hroom
    constructor
    · intro h
      obtain ⟨-, rfl⟩ := Prod.mk.inj h
      exact .nil
    · intro htext
      cases htext
      rfl

/-- Decoding gives the bytes of a text of pairs for them, and fails on any other text. -/
theorem decodeOver_eq_ok_iff {earlier digits values : List UInt8} :
    decodeOver earlier digits = (.ok (), values) ↔
      PairText digits values ∧ values.length = earlier.length := by
  unfold decodeOver
  split_ifs with hroom
  · rw [overwrite_eq_ok_iff hroom, iff_self_and]
    intro htext
    have hlen := htext.length
    omega
  · refine iff_of_false (by simp) fun ⟨htext, hlen⟩ => hroom ?_
    rw [htext.length, hlen]

end Hex

end Wire

end Marquee
