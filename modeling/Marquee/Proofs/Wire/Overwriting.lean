import Marquee.Proofs.Wire.Numeral

/-!
# Decoding over earlier bytes

Digit pairs are decoded over bytes that are there already, up to the first pair that is not one.

* `Hex.PairAt` : the byte that the two digits of a pair stand for.
* `Hex.exists_split` : a text is cut at its first bad pair, and what was written are the pairs in front.
* `Hex.Written` : pairs written over the front of bytes, with all else kept; `Hex.written_of_split` proves
  it of what decoding leaves.
* `Hex.spell` : the digits of bytes, with each letter in upper or lower case.
* `Hex.decoding_stops_at_bad_pair` : **decoding writes the pairs in front of the first bad one, and keeps
  all other bytes**.
-/

namespace Marquee

namespace Wire

namespace Hex

/-! ### Where decoding stops -/

/-- Decoding stops behind the last pair, or at one that has a byte that is no digit. What it wrote are the
pairs in front: by induction on pairs and bytes together. -/
theorem exists_split {earlier digits : List UInt8} (hroom : digits.length = 2 * earlier.length) :
    ∃ good values rest, digits = good ++ rest ∧ PairText good values ∧
      (overwrite earlier digits).2 = values ++ earlier.drop values.length ∧
      (rest = [] ∧ (overwrite earlier digits).1 = .ok () ∨
        (∃ high low tail, rest = high :: low :: tail ∧ pair? high low = none) ∧
          (overwrite earlier digits).1 = .error .malformedNumber) := by
  fun_induction overwrite earlier digits with
  | case1 old earlier high low digits v hpair answer bytes hrest ih =>
    obtain ⟨good, values, rest, rfl, hgood, hbytes, hstop⟩ :=
      ih (by simp only [List.length_cons] at hroom; omega)
    rw [hrest] at hbytes hstop
    exact ⟨high :: low :: good, v :: values, rest, rfl, .cons (pair?_eq_some_iff.1 hpair) hgood,
      congrArg (v :: ·) hbytes, hstop⟩
  | case2 old earlier high low digits hpair =>
    exact ⟨[], [], _, rfl, .nil, rfl, .inr ⟨⟨high, low, digits, rfl, hpair⟩, rfl⟩⟩
  | case3 digits earlier hshort =>
    refine ⟨[], [], digits, rfl, .nil, rfl, .inl ⟨?_, rfl⟩⟩
    obtain rfl := eq_nil_of_no_pair hroom hshort
    exact List.length_eq_zero_iff.1 hroom

/-- A bad pair has a byte that is no digit. -/
theorem not_isDigit_of_pair? {high low : UInt8} (h : pair? high low = none) :
    ∃ b ∈ [high, low], ∀ d, ¬ IsDigit b d := by
  by_contra hall
  simp only [not_exists, not_and, not_forall, not_not] at hall
  obtain ⟨d, hd⟩ := hall high (by simp)
  obtain ⟨e, he⟩ := hall low (by simp)
  rw [pair?_of_digits hd he] at h
  cases h

/-! ### What is left -/

/-- The digits in places `2 * i` and `2 * i + 1` stand for the byte. -/
def PairAt (digits : List UInt8) (i : Nat) (v : UInt8) : Prop :=
  Numeral 2 ((digits.drop (2 * i)).take 2) v.toNat

/-- The pairs before pair `k` are written over the front of `earlier`, and all else is kept. -/
structure Written (earlier digits : List UInt8) (k : Nat) (bytes : List UInt8) : Prop where
  /-- There are as many bytes as before. -/
  length : bytes.length = earlier.length
  /-- Each byte in front is that of its pair. -/
  pairs : ∀ i < k, ∃ v, bytes[i]? = some v ∧ PairAt digits i v
  /-- The others are those of before. -/
  kept : ∀ i, k ≤ i → bytes[i]? = earlier[i]?

theorem written_of_split {earlier good values rest : List UInt8} (hgood : PairText good values)
    (hroom : values.length ≤ earlier.length) :
    Written earlier (good ++ rest) values.length (values ++ earlier.drop values.length) := by
  refine ⟨by simp [hroom], fun i hi => ⟨values[i], ?_, ?_⟩, fun i hi => ?_⟩
  · rw [List.getElem?_append_left hi, List.getElem?_eq_getElem hi]
  · have hpair := hgood.getElem? (List.getElem?_eq_getElem hi)
    have hlen := hgood.length
    rwa [PairAt, List.drop_append_of_le_length (by omega),
      List.take_append_of_le_length (by rw [List.length_drop]; omega)]
  · rw [List.getElem?_append_right hi, List.getElem?_drop, Nat.add_sub_of_le hi]

/-- **The pairs of a text with room for all of them are written up to its first bad pair.** -/
theorem decodeOver_of_length {earlier digits : List UInt8} (hlen : digits.length = 2 * earlier.length) :
    (decodeOver earlier digits).1 = .ok () ∧ (∀ b ∈ digits, ∃ d, IsDigit b d) ∧
        Written earlier digits earlier.length (decodeOver earlier digits).2 ∨
      (decodeOver earlier digits).1 = .error .malformedNumber ∧
        (∃ b ∈ digits, ∀ d, ¬ IsDigit b d) ∧
        ∃ k < earlier.length, (∀ v, ¬ PairAt digits k v) ∧
          Written earlier digits k (decodeOver earlier digits).2 := by
  obtain ⟨good, values, rest, rfl, hgood, hbytes, hstop⟩ := exists_split hlen
  rw [decodeOver, if_pos hlen, hbytes]
  rw [List.length_append, hgood.length] at hlen
  have written : Written earlier (good ++ rest) values.length (values ++ earlier.drop values.length) :=
    written_of_split hgood (by omega)
  rcases hstop with ⟨rfl, hanswer⟩ | ⟨⟨high, low, tail, rfl, hbad⟩, hanswer⟩
  · have hall : values.length = earlier.length := by simpa using hlen
    refine .inl ⟨hanswer, by simpa using hgood.digits, ?_⟩
    rwa [hall] at written ⊢
  · obtain ⟨b, hb, hno⟩ := not_isDigit_of_pair? hbad
    refine .inr ⟨hanswer, ⟨b, List.mem_append_right _ ?_, hno⟩, values.length, ?_, fun v hv => ?_,
      written⟩
    · simp only [List.mem_cons, List.not_mem_nil, or_false] at hb ⊢
      tauto
    · simp only [List.length_cons] at hlen
      omega
    · -- a byte for this pair would make it a good one
      rw [PairAt, ← hgood.length, List.drop_left] at hv
      rw [pair?_eq_some_iff.2 hv] at hbad
      cases hbad

/-! ### Spellings -/

/-- The digit of a value below 16. Beyond 9 it is a letter, in upper or lower case. -/
def spellDigit (upper : Bool) (d : Nat) : UInt8 :=
  (if d < 10 then 48 + d else if upper then 55 + d else 87 + d).toUInt8

/-- Two digits for each byte. `upper` says of each place, counted from `place`, which case a letter has
there. -/
def spellFrom (upper : Nat → Bool) (place : Nat) : List UInt8 → List UInt8
  | [] => []
  | v :: values =>
    spellDigit (upper place) (v.toNat / 16) :: spellDigit (upper (place + 1)) (v.toNat % 16) ::
      spellFrom upper (place + 2) values

/-- The digits of bytes, with the letters in these cases. -/
def spell (upper : Nat → Bool) (values : List UInt8) : List UInt8 := spellFrom upper 0 values

theorem isDigit_spellDigit (upper : Bool) {d : Nat} (h : d < 16) : IsDigit (spellDigit upper d) d := by
  rw [IsDigit, spellDigit, Nat.toUInt8, UInt8.toNat_ofNat']
  cases upper <;> split_ifs <;> simp_all <;> omega

theorem pairText_spellFrom (upper : Nat → Bool) (place : Nat) (values : List UInt8) :
    PairText (spellFrom upper place values) values := by
  induction values generalizing place with
  | nil => exact .nil
  | cons v values ih =>
    have hv := v.toNat_lt
    refine .cons (pair?_eq_some_iff.1 ?_) (ih (place + 2))
    rw [pair?_of_digits (isDigit_spellDigit _ (by omega)) (isDigit_spellDigit _ (by omega)),
      Nat.div_add_mod, Nat.toUInt8, UInt8.ofNat_toNat]

/-! ### Decoding -/

/-- **Decoding writes the pairs in front of the first bad one, and keeps all other bytes.** Digits are
decoded over any earlier bytes.

* All goes well if and only if there are two digits for each byte and no other bytes among them. Then each
  byte is the one that its two digits stand for.
* So any spelling of as many bytes gives these bytes, whichever of its letters are in upper case.
* If the text is not twice as long as the bytes, it ends too early, even if it is longer, and the bytes are
  as before.
* If it is, but some byte of it is no digit, there is a bad digit. Then the pairs in front of the first one
  with a bad digit are decoded, and all bytes from there on are as before. -/
theorem decoding_stops_at_bad_pair (earlier digits : List UInt8) :
    let answer := (decodeOver earlier digits).1
    let bytes := (decodeOver earlier digits).2
    let Fits := digits.length = 2 * earlier.length
    let Clean := ∀ b ∈ digits, ∃ d, IsDigit b d
    (answer = .ok () ↔ Fits ∧ Clean) ∧
      (Fits ∧ Clean → bytes.length = earlier.length ∧
        ∀ i < earlier.length, ∃ v, bytes[i]? = some v ∧ PairAt digits i v) ∧
      (∀ (upper : Nat → Bool) (values : List UInt8), values.length = earlier.length →
        decodeOver earlier (spell upper values) = (.ok (), values)) ∧
      (¬ Fits → answer = .error .unexpectedEnd ∧ bytes = earlier) ∧
      (Fits ∧ ¬ Clean → answer = .error .malformedNumber ∧ bytes.length = earlier.length ∧
        ∃ k < earlier.length, (∀ v, ¬ PairAt digits k v) ∧
          (∀ i < k, ∃ v, bytes[i]? = some v ∧ PairAt digits i v) ∧
          ∀ i, k ≤ i → bytes[i]? = earlier[i]?) := by
  intro answer bytes Fits Clean
  have onClean (fits : Fits) (clean : Clean) :
      answer = .ok () ∧ Written earlier digits earlier.length bytes := by
    rcases decodeOver_of_length fits with ⟨hanswer, -, written⟩ | ⟨-, ⟨b, hb, hno⟩, -⟩
    · exact ⟨hanswer, written⟩
    · obtain ⟨d, hd⟩ := clean b hb
      exact absurd hd (hno d)
  have onDirty (fits : Fits) (dirty : ¬ Clean) : answer = .error .malformedNumber ∧
      ∃ k < earlier.length, (∀ v, ¬ PairAt digits k v) ∧ Written earlier digits k bytes := by
    rcases decodeOver_of_length fits with ⟨-, clean, -⟩ | ⟨hanswer, -, stop⟩
    · exact absurd clean dirty
    · exact ⟨hanswer, stop⟩
  have onMisfit (misfit : ¬ Fits) : decodeOver earlier digits = (.error .unexpectedEnd, earlier) :=
    if_neg misfit
  refine ⟨⟨fun hok => ?_, fun h => (onClean h.1 h.2).1⟩, fun ⟨fits, clean⟩ => ?_,
    fun upper values hroom => ?_, fun misfit => ?_, fun ⟨fits, dirty⟩ => ?_⟩
  · have fits : Fits := by
      by_contra misfit
      exact absurd ((congrArg Prod.fst (onMisfit misfit)).symm.trans hok) nofun
    refine ⟨fits, ?_⟩
    by_contra dirty
    exact absurd ((onDirty fits dirty).1.symm.trans hok) nofun
  · obtain ⟨-, written⟩ := onClean fits clean
    exact ⟨written.length, written.pairs⟩
  · exact decodeOver_eq_ok_iff.2 ⟨pairText_spellFrom upper 0 values, hroom⟩
  · exact ⟨congrArg Prod.fst (onMisfit misfit), congrArg Prod.snd (onMisfit misfit)⟩
  · obtain ⟨hanswer, k, hk, bad, written⟩ := onDirty fits dirty
    exact ⟨hanswer, written.length, k, hk, bad, written.pairs, written.kept⟩

/-- The second pair is bad in its low digit only. The first is written, and the third is not looked at. -/
example :
    decodeOver [0xAA, 0xBB, 0xCC] [0x31, 0x66, 0x30, 0x47, 0x32, 0x32] =
      (.error .malformedNumber, [0x1F, 0xBB, 0xCC]) := by decide +kernel

end Hex

end Wire

end Marquee
