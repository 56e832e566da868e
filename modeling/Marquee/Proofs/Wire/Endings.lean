import Marquee.Proofs.Wire.Acceptance
import Marquee.Proofs.Wire.ClosedTexts
import Marquee.Proofs.Wire.Timed

/-!
# Frames that end early

A frame that is delivered is closed, so hardly any of its commands can run out of bytes. This file says
which do.

* `CutKeyframe`, `EndsEarly` : the bodies that lack digits of a bitmap, or the last byte of a keyframe.
* `Grammar.runsOut_bitmap`, `Grammar.runsOut_animation` : where the two commands run out of bytes; the
  others are safe.
* `Framer.Plain` : a framer holds no delimiter but the first byte of its frame, so that it delivers
  frames with delimiters at their ends only.
* `Framer.frames_end_early` : **a delivered frame fails with an early end just if its body is one of
  these**.
-/

namespace Marquee

namespace Wire

open Grammar

namespace Grammar

open Reader

/-! ### Commands that do not run out of bytes -/

theorem safe_color : Safe color :=
  safe_byte.bind fun _ => safe_byte.bind fun _ => safe_byte.map _

theorem safe_palette : Safe palette :=
  (safe_expect (by decide)).bind fun _ => safe_peek?.bind fun _ =>
    (Safe.pure _).ite (safe_color.map _)

theorem safe_modify : Safe modify :=
  (safe_expect (by decide)).bind fun _ => safe_byte.bind fun _ => safe_color.map _

theorem safe_upTo {α : Type} {component : Reader α} (h : Safe component) (n : Nat) :
    Safe (upTo component n) := by
  induction n with
  | zero =>
    exact safe_peek.bind fun _ => (Safe.pure _).ite (h.bind fun _ => .throw (by decide))
  | succ n ih => exact safe_peek.bind fun _ => (Safe.pure _).ite (h.bind fun _ => ih.map _)

theorem safe_shape : Safe shape := by
  refine .tagged (e := .unknownShape) (fun _ _ =>
    (safe_measure.bind fun _ => safe_byte.map _).ite
      ((safe_digit.bind fun n => ?_).ite (.throw (by decide)))) (fun _ => rfl) (by decide)
  cases Sector.ofDigit? n with
  | none => exact .throw (by decide)
  | some area => exact safe_byte.map _

theorem safe_template : Safe template :=
  (safe_expect (by decide)).bind fun _ => safe_measure.bind fun _ => safe_measure.bind fun _ =>
    safe_measure.bind fun _ => safe_byte.bind fun _ => (safe_upTo safe_shape _).map _

/-! ### Bitmaps -/

/-- Tiles do not run out of bytes if there are enough of them: by induction on their order. -/
theorem read_order_ne (width : Nat) {order : List (Nat × Nat)} {m : Mosaic} {c : Cursor}
    (hm : m.tile.length = Command.tileArea) (h : order.length * tileDigits ≤ c.rest.length) :
    ((order.foldlM (fun m t => tile width t.1 t.2 m) m).read c).1 ≠ .error .unexpectedEnd := by
  induction order generalizing m c with
  | nil => exact nofun
  | cons t order ih =>
    rw [List.length_cons, Nat.succ_mul] at h
    have hone : tileDigits ≤ c.rest.length := by omega
    have hdigits : (c.rest.take tileDigits).length = 2 * m.tile.length := by
      rw [List.length_take_of_le hone, hm, tileDigits]
    have hlen := Hex.length_decodeOver m.tile (c.rest.take tileDigits)
    have hanswer := Hex.decodeOver_ne_end hdigits
    rw [List.foldlM_cons, read_bind, tile, read_bind, read_bytes, if_pos hone]
    simp only
    generalize Hex.decodeOver m.tile (c.rest.take tileDigits) = decoded at hlen hanswer ⊢
    obtain ⟨e | ⟨⟩, values⟩ := decoded
    · exact fun hend => hanswer (congrArg Except.error (Except.error.inj hend))
    · exact ih (hlen.trans hm) (by rw [List.length_drop]; omega)

theorem read_tiles_ne {wide high : Nat} {c : Cursor}
    (h : wide * high * tileDigits ≤ c.rest.length) :
    ((tiles wide high).read c).1 ≠ .error .unexpectedEnd := by
  rw [tiles_eq, ne_eq, read_map_eq_error_iff]
  exact read_order_ne _ List.length_replicate (by rwa [length_tileOrder])

/-- A bitmap runs out of bytes just if its numbers are there, and not all of its tiles. -/
theorem runsOut_bitmap : RunsOut bitmap fun text =>
    ∃ (x y w h d rest : List UInt8) (column row wide high bits : Nat),
      text = [letterB] ++ x ++ y ++ w ++ h ++ d ++ rest ∧ Numeral 3 x column ∧ Numeral 3 y row ∧
        Numeral 2 w wide ∧ Numeral 2 h high ∧ Numeral 1 d bits ∧
        rest.length ≤ 512 * wide * high := by
  refine (RunsOut.bind (safe_expect (by decide)) (takes_expect letterB) fun _ =>
    .bind safe_measure takes_measure fun x => .bind safe_measure takes_measure fun y =>
      .bind safe_byte takes_byte fun w => .bind safe_byte takes_byte fun h =>
        .bind safe_digit takes_digit fun bits => .moreThan fun c hmore =>
          mt (read_map_eq_error_iff _).1 (read_tiles_ne (Nat.le_of_lt hmore))).congr fun text _ => ?_
  constructor
  · rintro ⟨_, _, _, rfl, rfl, column, x, _, rfl, hx, row, y, _, rfl, hy, wide, w, _, rfl, hw, high, h,
      _, rfl, hh, bits, d, rest, rfl, hd, hshort⟩
    refine ⟨x, y, w, h, d, rest, column, row, wide.toNat, high.toNat, bits,
      by simp only [List.append_assoc], hx, hy, hw, hh, hd, hshort.trans_eq ?_⟩
    simp only [tileDigits, Command.tileArea, Command.tileEdge]
    ring
  · rintro ⟨x, y, w, h, d, rest, column, row, wide, high, bits, rfl, hx, hy, hw, hh, hd, hshort⟩
    have hwide : wide.toUInt8.toNat = wide := hw.toNat_eq_iff.2 rfl
    have hhigh : high.toUInt8.toNat = high := hh.toNat_eq_iff.2 rfl
    refine ⟨(), [letterB], x ++ (y ++ (w ++ (h ++ (d ++ rest)))), by simp only [List.append_assoc], rfl,
      column, x, _, rfl, hx, row, y, _, rfl, hy, wide.toUInt8, w, _, rfl, hwide.symm ▸ hw,
      high.toUInt8, h, _, rfl, hhigh.symm ▸ hh, bits, d, rest, rfl, hd, hshort.trans_eq ?_⟩
    rw [hwide, hhigh]
    simp only [tileDigits, Command.tileArea, Command.tileEdge]
    ring

/-! ### Keyframes -/

/-- A keyframe that places a sprite, but for its last byte. -/
inductive CutKeyframe : List UInt8 → Prop
  | mk {s x y : List UInt8} {sprite column row : Nat} :
      Numeral 2 s sprite → Numeral 3 x column → Numeral 3 y row →
      CutKeyframe ([ascii 'B'] ++ s ++ x ++ y)

/-- The closing byte makes a keyframe of it, which hides the sprite. -/
theorem CutKeyframe.keyframeText {last : List UInt8} (h : CutKeyframe last) :
    ∃ k, KeyframeText (last ++ [closer]) k := by
  obtain @⟨s, x, y, sprite, column, row, hs, hx, hy⟩ := h
  have hsprite : sprite.toUInt8.toNat = sprite := hs.toNat_eq_iff.2 rfl
  exact ⟨.place sprite.toUInt8 column row false, .place (hsprite.symm ▸ hs) hx hy (by decide)⟩

theorem CutKeyframe.read_eq {last : List UInt8} (h : CutKeyframe last) {c : Cursor}
    (htext : c.rest = last ++ [closer]) : ∃ k position, keyframe.read c = (.ok k, ⟨position, []⟩) := by
  obtain ⟨k, hk⟩ := h.keyframeText
  exact ⟨k, _, takes_keyframe.read_eq (by rw [htext, List.append_nil]) hk⟩

/-- Only such a keyframe ends in the closing byte. -/
theorem cutKeyframe_of_closed {text : List UInt8} {k : Keyframe} (h : KeyframeText text k)
    (hclosed : Closed text) : ∃ last, CutKeyframe last ∧ text = last ++ [closer] := by
  have hlast := hclosed.getLast?_eq
  cases h with
  | place hs hx hy _ =>
    rw [List.getLast?_concat, Option.some.injEq] at hlast
    subst hlast
    exact ⟨_, .mk hs hx hy, rfl⟩
  | recolor _ hc =>
    obtain ⟨-, -, hblue⟩ := hc
    rw [← List.append_assoc] at hlast
    exact absurd hlast (hblue.getLast?_ne _)

theorem runsOut_keyframe : RunsOut keyframe fun _ => False := by
  have hany : RunsOut anyByte fun _ => False := by
    rintro ⟨position, _ | ⟨b, rest⟩⟩ hc
    · exact absurd rfl hc.ne_nil
    · exact iff_of_false nofun not_false
  refine (RunsOut.tagged (e := .unknownKeyframe) (fun tag _ =>
    (RunsOut.bind safe_byte takes_byte fun sprite => .bind safe_measure takes_measure fun x =>
      .bind safe_measure takes_measure fun y => hany.map _).ite
    ((safe_byte.bind fun _ => safe_color.map _).runsOut.ite (.throw (by decide)))) (fun _ => rfl)
      (by decide)).congr (by simp)

/-- Behind a keyframe, a reader also runs out of bytes if the keyframe took the closing byte. -/
theorem runsOut_behind_keyframe {β : Type} {f : Keyframe → Reader β} {V : List UInt8 → Prop}
    (hf : ∀ k, RunsOut (f k) V)
    (hnil : ∀ k position, ((f k).read ⟨position, []⟩).1 = .error .unexpectedEnd) :
    RunsOut (keyframe >>= f) fun text =>
      (∃ last, CutKeyframe last ∧ text = last ++ [closer]) ∨
        ∃ k text₁ rest, text = text₁ ++ rest ∧ KeyframeText text₁ k ∧ rest ≠ [] ∧ V rest := by
  intro c hc
  rw [read_bind]
  rcases hread : keyframe.read c with ⟨e | k, c₁⟩
  · have he : e ≠ .unexpectedEnd := by
      rintro rfl
      exact (runsOut_keyframe c hc).1 (by rw [hread])
    refine iff_of_false (by simp [he]) ?_
    rintro (⟨last, hlast, htext⟩ | ⟨k, text, rest, htext, hk, -, -⟩)
    · obtain ⟨k, position, hok⟩ := hlast.read_eq htext
      cases hread.symm.trans hok
    · cases hread.symm.trans (takes_keyframe.read_eq htext hk)
  · obtain ⟨text, ⟨htext, -⟩, hk⟩ := (takes_keyframe c c₁ k).1 hread
    obtain ⟨position, rest⟩ := c₁
    simp only at htext
    by_cases hrest : rest = []
    · subst hrest
      rw [List.append_nil] at htext
      refine iff_of_true (hnil k position) (.inl ?_)
      rw [htext]
      exact cutKeyframe_of_closed hk (htext ▸ hc)
    · refine (hf k _ ((htext ▸ hc).of_append hrest)).trans ⟨fun hV => ?_, ?_⟩
      · exact .inr ⟨k, text, rest, htext, hk, hrest, hV⟩
      · rintro (⟨last, hlast, htext'⟩ | ⟨k', text', rest', htext', hk', -, hV⟩)
        · obtain ⟨k', position', hok⟩ := hlast.read_eq htext'
          cases hread.symm.trans hok
          exact absurd rfl hrest
        · cases hread.symm.trans (takes_keyframe.read_eq htext' hk')
          exact hV

/-- Keyframes run out of bytes just if one of those that are taken is cut. -/
theorem runsOut_upTo_keyframe (n : Nat) : RunsOut (upTo keyframe n) fun text =>
    ∃ (texts last : List UInt8) (keyframes : List Keyframe), text = texts ++ last ++ [closer] ∧
      ListText KeyframeText texts keyframes ∧ keyframes.length < n ∧ CutKeyframe last := by
  induction n with
  | zero =>
    have hmany := runsOut_keyframe.thenThrow (β := UpTo 0 Keyframe) (e := .tooManyComponents) (by decide)
    exact (RunsOut.bind safe_peek takes_peek fun b => (Safe.pure _).runsOut.ite hmany).congr (by simp)
  | succ n ih =>
    have hmore := runsOut_behind_keyframe (f := fun k => upTo keyframe n >>= fun ks =>
      pure (⟨k :: ks.val, Nat.succ_le_succ ks.property⟩ : UpTo (n + 1) Keyframe)) (fun k => ih.map _)
        fun k position => (read_map_eq_error_iff _).2 (by cases n <;> rfl)
    refine (RunsOut.bind safe_peek takes_peek fun b =>
      (Safe.pure (⟨[], Nat.zero_le (n + 1)⟩ : UpTo (n + 1) Keyframe)).runsOut.ite (p := b = closer)
        hmore).congr fun text hclosed => ?_
    constructor
    · rintro ⟨b, _, rest, rfl, ⟨rfl, -⟩, ⟨-, ⟨⟩⟩ | ⟨-, ⟨last, hlast, rfl⟩ |
        ⟨k, first, _, rfl, hk, -, texts, last, keyframes, rfl, hks, hn, hlast⟩⟩⟩
      · exact ⟨[], last, [], rfl, listText_nil_iff.2 rfl, n.succ_pos, hlast⟩
      · exact ⟨first ++ texts, last, k :: keyframes, by simp only [List.append_assoc, List.nil_append],
          listText_cons_iff.2 ⟨first, texts, rfl, hk, hks⟩, Nat.succ_lt_succ hn, hlast⟩
    · rintro ⟨texts, last, _ | ⟨k, keyframes⟩, rfl, hks, hn, hlast⟩
      · obtain rfl := listText_nil_iff.1 hks
        obtain ⟨k, hk⟩ := hlast.keyframeText
        obtain ⟨b, rest, hb, hne⟩ := hk.head
        exact ⟨b, [], _, rfl, ⟨rfl, congrArg List.head? hb⟩,
          .inr ⟨hne, .inl ⟨last, hlast, rfl⟩⟩⟩
      · -- the first keyframe shows by its first byte that the list goes on
        obtain ⟨first, texts, rfl, hk, hmany⟩ := listText_cons_iff.1 hks
        obtain ⟨b, rest, rfl, hne⟩ := hk.head
        exact ⟨b, [], _, rfl, ⟨rfl, rfl⟩, .inr ⟨hne, .inr ⟨k, b :: rest, texts ++ last ++ [closer],
          by simp, hk, by simp, texts, last, keyframes, rfl, hmany, Nat.lt_of_succ_lt_succ hn,
          hlast⟩⟩⟩

/-- An animation runs out of bytes just if one of its keyframes is cut. -/
theorem runsOut_animation : RunsOut animation fun text =>
    ∃ (u texts last : List UInt8) (units : Nat) (keyframes : List Keyframe),
      text = [letterA] ++ u ++ texts ++ last ++ [closer] ∧ Numeral 2 u units ∧
        ListText KeyframeText texts keyframes ∧ keyframes.length ≤ 63 ∧ CutKeyframe last := by
  refine (RunsOut.bind (safe_expect (by decide)) (takes_expect letterA) fun _ =>
    .bind safe_byte takes_byte fun units =>
      (runsOut_upTo_keyframe Command.maxKeyframes).map _).congr fun text _ => ?_
  constructor
  · rintro ⟨_, _, _, rfl, rfl, units, u, _, rfl, hu, texts, last, keyframes, rfl, hks, hn, hlast⟩
    exact ⟨u, texts, last, units.toNat, keyframes, by simp only [List.append_assoc], hu, hks,
      Nat.le_of_lt_succ hn, hlast⟩
  · rintro ⟨u, texts, last, units, keyframes, rfl, hu, hks, hn, hlast⟩
    have hunits : units.toUInt8.toNat = units := hu.toNat_eq_iff.2 rfl
    exact ⟨(), [letterA], u ++ (texts ++ last ++ [closer]), by simp only [List.append_assoc], rfl,
      units.toUInt8, u, _, rfl, hunits.symm ▸ hu, texts, last, keyframes, rfl, hks,
      Nat.lt_succ_of_le hn, hlast⟩

/-! ### Commands -/

/-- Behind what stands in a command, there are bytes left. -/
theorem rest_ne_nil_of_body {c c' : Cursor} {x : Command} (hc : Closed c.rest)
    (hread : body.read c = (.ok x, c')) : c'.rest ≠ [] := by
  obtain ⟨text, hp, htext, hends⟩ := (takes_body c c' x).1 hread
  cases x with
  | paletteReset | template | animation =>
    intro hnil
    rw [Ends, hnil] at hends
    cases hends
  | bitmap => exact hends
  | paletteAppend color =>
    exact (safe_palette.closed hc ((takes_palette c c' _).2
      ⟨text, hp, .inr ⟨color, rfl⟩, htext, trivial⟩)).ne_nil
  | paletteModify index color =>
    exact (safe_modify.closed hc ((takes_modify c c' _).2
      ⟨text, hp, ⟨index, color, rfl⟩, htext⟩)).ne_nil
  | clear =>
    cases htext
    exact ((safe_expect (b := letterZ) (by decide)).closed hc ((takes_expect letterZ c c' ()).2
      ⟨_, hp, rfl⟩)).ne_nil

end Grammar

/-! ### Frames -/

/-- The bodies of frames that end early. -/
inductive EndsEarly : List UInt8 → Prop
  /-- A bitmap whose tiles are not all there, whatever their bytes are. -/
  | bitmap {x y w h d rest : List UInt8} {column row wide high bits : Nat} :
      Numeral 3 x column → Numeral 3 y row → Numeral 2 w wide → Numeral 2 h high →
      Numeral 1 d bits → rest.length < 512 * wide * high →
      EndsEarly ([ascii 'B'] ++ x ++ y ++ w ++ h ++ d ++ rest)
  /-- An animation with a last keyframe, one of the first 64, that lacks its last byte. -/
  | animation {u texts last : List UInt8} {units : Nat} {keyframes : List Keyframe} :
      Numeral 2 u units → ListText KeyframeText texts keyframes → keyframes.length ≤ 63 →
      CutKeyframe last → EndsEarly ([ascii 'A'] ++ u ++ texts ++ last)

namespace Grammar

open Reader

theorem runsOut_body : RunsOut body fun text => ∃ inner, EndsEarly inner ∧ text = inner ++ [closer] := by
  refine (RunsOut.bind safe_peek takes_peek fun first =>
    safe_palette.runsOut.ite (p := first = letterP) <|
      safe_modify.runsOut.ite (p := first = letterM) <|
        ((safe_expect (b := letterZ) (by decide)).map fun _ => Command.clear).runsOut.ite
          (p := first = letterZ) <|
          (runsOut_bitmap.map Command.bitmap).ite (p := first = letterB) <|
            (safe_template.map Command.template).runsOut.ite (p := first = letterT) <|
              (runsOut_animation.map Command.animation).ite (p := first = letterA)
                (.throw (e := .unknownCommand) (by decide))).congr fun text hclosed => ?_
  simp only [and_false, false_or]
  constructor
  · rintro ⟨first, _, rest, htext, ⟨rfl, -⟩, -, -, -, ⟨-, x, y, w, h, d, payload, column, row, wide, high,
      bits, rfl, hx, hy, hw, hh, hd, hshort⟩ | ⟨-, -, ⟨-, u, texts, last, units, keyframes, rfl, hu, hks,
        hn, hlast⟩ | ⟨-, ⟨⟩⟩⟩⟩ <;> obtain rfl := htext.trans (List.nil_append _)
    · -- the depth is a digit, so the closing byte lies behind it
      have hpayload : payload ≠ [] := by
        rintro rfl
        rw [List.append_nil] at hclosed
        exact hd.getLast?_ne _ hclosed.getLast?_eq
      obtain ⟨inner, -, rfl⟩ := hclosed.of_append hpayload
      rw [List.length_append, List.length_singleton] at hshort
      exact ⟨_, .bitmap hx hy hw hh hd hshort, (List.append_assoc ..).symm⟩
    · exact ⟨_, .animation hu hks hn hlast, rfl⟩
  · rintro ⟨inner, hinner, rfl⟩
    cases hinner with
    | @bitmap x y w h d rest column row wide high bits hx hy hw hh hd hshort =>
      refine ⟨letterB, [], _, (List.nil_append _).symm, ⟨rfl, rfl⟩, by decide, by decide, by decide,
        .inl ⟨rfl, x, y, w, h, d, rest ++ [closer], column, row, wide, high, bits,
          List.append_assoc .., hx, hy, hw, hh, hd, ?_⟩⟩
      rw [List.length_append]
      exact hshort
    | @animation u texts last units keyframes hu hks hn hlast =>
      exact ⟨letterA, [], _, rfl, ⟨rfl, rfl⟩, by decide, by decide, by decide, .inr ⟨by decide, by decide,
        .inl ⟨rfl, u, texts, last, units, keyframes, rfl, hu, hks, hn, hlast⟩⟩⟩

end Grammar

namespace Framer

/-! ### Delivered frames -/

/-- The frame under way has no delimiter but its first byte. -/
def Plain (f : Framer) : Prop :=
  ∀ o, f.current = some o → ∃ inner, (∀ b ∈ inner, ¬ IsDelimiter b) ∧ o.bytes.toList = opener :: inner

theorem plain_openFrame (f : Framer) (now : Nat) : (f.openFrame now).Plain := by
  intro o ho
  obtain rfl := Option.some.inj ho
  exact ⟨[], List.forall_mem_nil _, rfl⟩

theorem Plain.step {f : Framer} (h : f.Plain) (i : FramerInput) : (f.step i).Plain := by
  cases i with
  | byte now b =>
    have fed := f.fed_feed now b
    rw [Framer.step]
    generalize f.feed now b = r at fed ⊢
    obtain ⟨told, f'⟩ := r
    cases fed with
    | dropped idle => exact fun o ho => absurd (ho.symm.trans idle) (Option.some_ne_none o)
    | opened => exact plain_openFrame f now
    | interrupted => exact plain_openFrame _ now
    | overflowed | ended => exact fun o ho => absurd ho.symm (Option.some_ne_none o)
    | grown busy inner =>
      intro o ho
      obtain rfl := Option.some.inj ho
      obtain ⟨body, hbody, hbytes⟩ := h _ busy
      refine ⟨body ++ [b], ?_, by rw [Array.toList_push, hbytes, List.cons_append]⟩
      rw [List.forall_mem_append]
      exact ⟨hbody, List.forall_mem_singleton.2 inner⟩
  | check now =>
    have checked := f.checked_checkTimeout now
    rw [Framer.step]
    generalize f.checkTimeout now = r at checked ⊢
    obtain ⟨told, f'⟩ := r
    cases checked with
    | kept => exact h
    | cut => exact fun o ho => absurd ho.symm (Option.some_ne_none o)

/-- A frame is delivered with delimiters at its ends only. -/
theorem Plain.answer {f : Framer} (h : f.Plain) {i : FramerInput} {frame : Frame}
    (told : f.answer i = some (.ok frame)) :
    ∃ body, (∀ b ∈ body, ¬ IsDelimiter b) ∧ frame.bytes = [opener] ++ body ++ [closer] := by
  cases i with
  | byte now b =>
    have fed := f.fed_feed now b
    rw [Framer.answer] at told
    generalize f.feed now b = r at fed told
    obtain ⟨event, f'⟩ := r
    subst told
    cases fed with
    | ended busy stop =>
      obtain ⟨body, hbody, hbytes⟩ := h _ busy
      exact ⟨body, hbody, by simp [hbytes, stop]⟩
  | check now =>
    rw [Framer.answer, Option.map_eq_some_iff] at told
    obtain ⟨_, -, ⟨⟩⟩ := told

theorem exists_body_of_mem_answers {f : Framer} (h : f.Plain) {inputs : List FramerInput} {frame : Frame}
    (told : some (.ok frame) ∈ f.answers inputs) :
    ∃ body, (∀ b ∈ body, ¬ IsDelimiter b) ∧ frame.bytes = [opener] ++ body ++ [closer] := by
  induction inputs generalizing f with
  | nil => exact nomatch told
  | cons i rest ih =>
    rw [answers, List.mem_cons] at told
    obtain told | told := told
    · exact h.answer told.symm
    · exact ih (h.step i) told

end Framer

/-! ### Early ends -/

theorem Reader.read_expect_ne {b : UInt8} {c : Cursor} (h : c.rest ≠ []) :
    ((Reader.expect b).read c).1 ≠ .error .unexpectedEnd := by
  obtain ⟨position, _ | ⟨a, rest⟩⟩ := c
  · exact absurd rfl h
  · rw [Reader.expect, Reader.read_bind]
    change ((if a = b then pure () else throw .unexpectedToken : Reader Unit).read _).1 ≠ _
    split <;> exact nofun

namespace Grammar

/-- The closing byte of a command is there. -/
theorem runsOut_body_closer : Reader.RunsOut (body >>= fun c => Reader.expect closer >>= fun _ => pure c)
    fun text => ∃ inner, EndsEarly inner ∧ text = inner ++ [closer] := by
  intro c hc
  rw [← runsOut_body c hc, Reader.read_bind]
  rcases hread : body.read c with ⟨e | x, c₁⟩
  · rfl
  · have hexpect := Reader.read_expect_ne (b := closer) (rest_ne_nil_of_body hc hread)
    exact iff_of_false (mt (Reader.read_map_eq_error_iff fun _ => x).1 hexpect) nofun

theorem read_command_eq_end_iff {inner : List UInt8} (plain : ∀ b ∈ inner, ¬ IsDelimiter b) :
    (command.read (.ofBytes ([opener] ++ inner ++ [closer]))).1 = .error .unexpectedEnd ↔
      EndsEarly inner := by
  have hopen := (Reader.takes_expect opener).read_eq (c := .ofBytes ([opener] ++ inner ++ [closer]))
    (List.append_assoc ..) (v := ()) rfl
  rw [command, Reader.read_bind, hopen]
  refine (runsOut_body_closer ⟨_, inner ++ [closer]⟩ ⟨inner, plain, rfl⟩).trans ?_
  simp only [List.append_cancel_right_eq, exists_eq_right']

end Grammar

theorem Command.ofBytes_eq_end_iff {bytes : List UInt8} :
    Command.ofBytes bytes = .error .unexpectedEnd ↔
      (Grammar.command.read (.ofBytes bytes)).1 = .error .unexpectedEnd := by
  unfold Command.ofBytes
  rcases Grammar.command.read (.ofBytes bytes) with ⟨e | c, c₁⟩
  · simp
  · simp only
    split <;> simp

namespace Framer

/-- **When a delivered frame ends early.** Whatever bytes reach a framer and whenever it looks at the
clock, it delivers frames with delimiters at their ends only. Such a frame fails with an early end just
if it is a bitmap whose tiles are not all there, or an animation whose last keyframe, one of the first 64,
lacks the byte that shows or hides its sprite. Any other frame is a command or fails for another
reason. -/
theorem frames_end_early :
    (∀ (maxLength timeoutMs : Nat) (inputs : List FramerInput) (frame : Frame),
      some (.ok frame) ∈ (new maxLength timeoutMs).answers inputs →
        ∃ body, (∀ b ∈ body, ¬ IsDelimiter b) ∧ frame.bytes = [opener] ++ body ++ [closer]) ∧
    ∀ body : List UInt8, (∀ b ∈ body, ¬ IsDelimiter b) →
      (Command.ofBytes ([opener] ++ body ++ [closer]) = .error .unexpectedEnd ↔ EndsEarly body) := by
  refine ⟨fun maxLength timeoutMs inputs frame told => ?_, fun body plain => ?_⟩
  · exact exists_body_of_mem_answers (f := new maxLength timeoutMs) (fun o ho => by cases ho) told
  · rw [Command.ofBytes_eq_end_iff, read_command_eq_end_iff plain]

/-- `<A01B00000000>` is delivered and lacks the byte that shows its sprite, and `<B000000010180>` lacks
the 512 digits of its tile. -/
theorem frames_end_early_without_visibility :
    let animation : List UInt8 := [65, 48, 49, 66, 48, 48, 48, 48, 48, 48, 48, 48]
    let bitmap : List UInt8 := [66, 48, 48, 48, 48, 48, 48, 48, 49, 48, 49, 56, 48]
    some (.ok ⟨[opener] ++ animation ++ [closer]⟩) ∈
        (new 64 100).answers (([opener] ++ animation ++ [closer]).map (.byte 7)) ∧
      (∀ b ∈ animation, ¬ IsDelimiter b) ∧ (∀ b ∈ bitmap, ¬ IsDelimiter b) ∧
      Command.ofBytes ([opener] ++ animation ++ [closer]) = .error .unexpectedEnd ∧
      Command.ofBytes ([opener] ++ bitmap ++ [closer]) = .error .unexpectedEnd := by
  intro animation bitmap
  have told : some (.ok ⟨[opener] ++ animation ++ [closer]⟩) ∈
      (new 64 100).answers (([opener] ++ animation ++ [closer]).map (.byte 7)) := by decide +kernel
  obtain ⟨hdelivered, hearly⟩ := frames_end_early
  obtain ⟨body, hbody, hbytes⟩ := hdelivered 64 100 _ _ told
  obtain rfl : animation = body := by simpa using hbytes
  have plain : ∀ b ∈ bitmap, ¬ IsDelimiter b := by decide +kernel
  have zero : IsDigit 48 0 := .inl ⟨by decide, rfl⟩
  have one : IsDigit 49 1 := .inl ⟨by decide, rfl⟩
  have zeros₂ : Numeral 2 [48, 48] 0 := ⟨[0, 0], .cons zero (.cons zero .nil), rfl, rfl⟩
  have zeros₃ : Numeral 3 [48, 48, 48] 0 :=
    ⟨[0, 0, 0], .cons zero (.cons zero (.cons zero .nil)), rfl, rfl⟩
  have first : Numeral 2 [48, 49] 1 := ⟨[0, 1], .cons zero (.cons one .nil), rfl, rfl⟩
  have depth : Numeral 1 [56] 8 := ⟨[8], .cons (.inl ⟨by decide, rfl⟩) .nil, rfl, rfl⟩
  refine ⟨told, hbody, plain, (hearly _ hbody).2 ?_, (hearly bitmap plain).2 ?_⟩
  · exact .animation first (listText_nil_iff.2 rfl) (Nat.zero_le 63) (.mk zeros₂ zeros₃ zeros₃)
  · have short : ([48] : List UInt8).length < 512 * 1 * 1 := by decide
    exact .bitmap zeros₃ zeros₃ first first depth short

end Framer

end Wire

end Marquee
