import Marquee.Proofs.Wire.Tiling

/-!
# The commands that are accepted

The readers of the grammar take exactly the language of commands.

* `takes_shape`, `takes_keyframe`, `takes_upTo`, `takes_bitmap`, `takes_template`, `takes_animation` :
  the parts of commands;
* `takes_body` : what stands in a command. Where it ends can show only in what follows (`Ends`);
* `takes_command`, `Command.accepts_exactly_language` : the commands.
-/

namespace Marquee

namespace Wire

namespace Grammar

open Reader

/-! ### Colors, shapes and keyframes -/

theorem takes_color : Takes color fun text _ c => ColorText text c := by
  refine (takes_byte.bind fun red => takes_byte.bind fun green => takes_byte.map fun blue =>
    Color.mk red green blue).congr fun text _ c => ?_
  constructor
  · rintro ⟨red, _, _, rfl, hr, green, _, _, rfl, hg, blue, hb, rfl⟩
    rw [← List.append_assoc]
    exact .mk hr hg hb
  · rintro ⟨hr, hg, hb⟩
    exact ⟨_, _, _, List.append_assoc .., hr, _, _, _, rfl, hg, _, hb, rfl⟩

theorem ofDigit?_eq (n : Nat) :
    Sector.ofDigit? n = [Sector.topRight, .topLeft, .bottomLeft, .bottomHalf][n]? := by
  rcases n with _ | _ | _ | _ | n <;> rfl

/-- Behind its digit, a sector is read if the digit names one. -/
theorem takes_sectorOf (n : Nat) :
    Takes
      (match Sector.ofDigit? n with
        | some area => do return Shape.sector area (← byte)
        | none => throw .unexpectedToken)
      fun text _ s => ∃ area,
        [Sector.topRight, .topLeft, .bottomLeft, .bottomHalf][n]? = some area ∧
          ∃ c, Numeral 2 text c.toNat ∧ s = .sector area c := by
  rw [ofDigit?_eq]
  cases [Sector.topRight, .topLeft, .bottomLeft, .bottomHalf][n]? with
  | none => exact (Takes.throw _).congr (by simp)
  | some area => exact (takes_byte.map (Shape.sector area)).congr (by simp)

theorem takes_shape : Takes shape fun text _ s => ShapeText text s := by
  refine (takes_anyByte.bind fun tag =>
    (takes_measure.bind fun radius => takes_byte.map (Shape.disk radius)).ite
      ((takes_digit.bind takes_sectorOf).ite (Takes.throw _))).congr fun text _ s => ?_
  constructor
  · rintro ⟨tag, _, _, rfl, rfl, ⟨rfl, radius, _, _, rfl, hr, color, hc, rfl⟩ |
      ⟨-, ⟨rfl, number, _, _, rfl, hd, area, harea, color, hc, rfl⟩ | ⟨-, ⟨⟩⟩⟩⟩
    · rw [← List.append_assoc]
      exact .disk hr hc
    · rw [← List.append_assoc]
      exact .sector hd harea hc
  · intro h
    cases h with
    | disk hr hc =>
      exact ⟨_, _, _, List.append_assoc .., rfl, .inl ⟨rfl, _, _, _, rfl, hr, _, hc, rfl⟩⟩
    | sector hd harea hc =>
      exact ⟨_, _, _, List.append_assoc .., rfl,
        .inr ⟨by decide, .inl ⟨rfl, _, _, _, rfl, hd, _, harea, _, hc, rfl⟩⟩⟩

theorem takes_keyframe : Takes keyframe fun text _ k => KeyframeText text k := by
  refine (takes_anyByte.bind fun tag =>
    (takes_byte.bind fun sprite => takes_measure.bind fun x => takes_measure.bind fun y =>
      takes_anyByte.map fun last => Keyframe.place sprite x y (last = letterV)).ite
    ((takes_byte.bind fun index => takes_color.map (Keyframe.recolor index)).ite
      (Takes.throw _))).congr fun text _ k => ?_
  constructor
  · rintro ⟨tag, _, _, rfl, rfl, ⟨rfl, sprite, _, _, rfl, hs, x, _, _, rfl, hx, y, _, _, rfl, hy,
      last, rfl, rfl⟩ | ⟨-, ⟨rfl, index, _, _, rfl, hi, color, hc, rfl⟩ | ⟨-, ⟨⟩⟩⟩⟩
    · rw [← List.append_assoc, ← List.append_assoc, ← List.append_assoc]
      exact .place hs hx hy decide_eq_true_iff
    · rw [← List.append_assoc]
      exact .recolor hi hc
  · intro h
    cases h with
    | @place s x y last sprite column row visible hs hx hy hv =>
      refine ⟨_, [ascii 'B'], s ++ (x ++ (y ++ [last])), by simp only [List.append_assoc], rfl,
        .inl ⟨rfl, _, _, _, rfl, hs, _, _, _, rfl, hx, _, _, _, rfl, hy, _, rfl, ?_⟩⟩
      have hvisible : visible = decide (last = letterV) := by
        rw [Bool.eq_iff_iff, hv, decide_eq_true_iff]
        rfl
      rw [hvisible]
    | recolor hi hc =>
      exact ⟨_, _, _, List.append_assoc .., rfl,
        .inr ⟨by decide, .inl ⟨rfl, _, _, _, rfl, hi, _, hc, rfl⟩⟩⟩

/-! ### Lists of components -/

@[simp] theorem listText_nil_iff {α : Type} {T : List UInt8 → α → Prop} {text : List UInt8} :
    ListText T text [] ↔ text = [] := by
  constructor
  · rintro ⟨_, ⟨⟩, rfl⟩
    rfl
  · rintro rfl
    exact ⟨[], .nil, rfl⟩

theorem listText_cons_iff {α : Type} {T : List UInt8 → α → Prop} {text : List UInt8} {x : α}
    {xs : List α} :
    ListText T text (x :: xs) ↔
      ∃ text₁ text₂, text = text₁ ++ text₂ ∧ T text₁ x ∧ ListText T text₂ xs := by
  constructor
  · rintro ⟨_, htexts, rfl⟩
    cases htexts with
    | cons hx hxs => exact ⟨_, _, rfl, hx, _, hxs, rfl⟩
  · rintro ⟨text₁, _, rfl, hx, texts, hxs, rfl⟩
    exact ⟨text₁ :: texts, .cons hx hxs, rfl⟩

/-- Components are read up to the closing byte, which none of them starts with. -/
theorem takes_upTo {α : Type} {component : Reader α} {T : List UInt8 → α → Prop}
    (h : Takes component fun text _ x => T text x)
    (hT : ∀ {text x}, T text x → ∃ b rest, text = b :: rest ∧ b ≠ closer) (n : Nat) :
    Takes (upTo component n) fun text rest xs =>
      ListText T text xs.val ∧ rest.head? = some closer := by
  induction n with
  | zero =>
    refine (takes_peek.bind fun b => (Takes.pure (⟨[], Nat.zero_le 0⟩ : UpTo 0 α)).ite
      (p := b = closer) (h.bind fun _ => Takes.throw _)).congr fun text rest xs => ?_
    obtain ⟨xs, hxs⟩ := xs
    obtain rfl := List.length_eq_zero_iff.1 (Nat.le_zero.1 hxs)
    constructor
    · rintro ⟨_, _, _, rfl, ⟨rfl, hb⟩, ⟨rfl, rfl, -⟩ | ⟨-, _, _, _, -, -, ⟨⟩⟩⟩
      exact ⟨listText_nil_iff.2 rfl, hb⟩
    · rintro ⟨htext, hrest⟩
      obtain rfl := listText_nil_iff.1 htext
      exact ⟨closer, [], [], rfl, ⟨rfl, hrest⟩, .inl ⟨rfl, rfl, rfl⟩⟩
  | succ n ih =>
    refine (takes_peek.bind fun b => (Takes.pure (⟨[], Nat.zero_le (n + 1)⟩ : UpTo (n + 1) α)).ite
      (p := b = closer) (h.bind fun x => ih.map fun xs =>
        (⟨x :: xs.val, Nat.succ_le_succ xs.property⟩ : UpTo (n + 1) α))).congr
          fun text rest xs => ?_
    constructor
    · rintro ⟨_, _, _, rfl, ⟨rfl, hb⟩, ⟨rfl, rfl, rfl⟩ |
        ⟨-, x, text₁, text₂, rfl, hx, xs, ⟨hxs, hrest⟩, rfl⟩⟩
      · exact ⟨listText_nil_iff.2 rfl, hb⟩
      · exact ⟨listText_cons_iff.2 ⟨text₁, text₂, rfl, hx, hxs⟩, hrest⟩
    · rintro ⟨htext, hrest⟩
      obtain ⟨_ | ⟨x, xs⟩, hlen⟩ := xs
      · obtain rfl := listText_nil_iff.1 htext
        exact ⟨closer, [], [], rfl, ⟨rfl, hrest⟩, .inl ⟨rfl, rfl, rfl⟩⟩
      · -- the first component shows by its first byte that the list goes on
        obtain ⟨text₁, text₂, rfl, hx, hxs⟩ := listText_cons_iff.1 htext
        obtain ⟨b, text₁', rfl, hb⟩ := hT hx
        exact ⟨b, [], _, rfl, ⟨rfl, rfl⟩, .inr ⟨hb, x, _, text₂, rfl, hx,
          ⟨xs, Nat.le_of_succ_le_succ hlen⟩, ⟨hxs, hrest⟩, rfl⟩⟩

/-! ### Bitmaps, templates and animations -/

theorem eq_ofBits_iff {depth : Depth} {bits : Nat} :
    depth = .ofBits bits ↔ (depth = .four ↔ bits ≤ 4) := by
  unfold Depth.ofBits
  cases depth <;> split <;> simp_all

theorem takes_bitmap : Takes bitmap fun text rest b => BitmapText text b ∧ rest ≠ [] := by
  refine ((takes_expect letterB).bind fun _ => takes_measure.bind fun x => takes_measure.bind fun y =>
    takes_byte.bind fun w => takes_byte.bind fun h => takes_digit.bind fun bits =>
      (takes_moreThan (w.toNat * h.toNat * tileDigits)).bind fun _ =>
        (takes_tiles w.toNat h.toNat).map fun pixels =>
          Bitmap.mk x y w h (Depth.ofBits bits) pixels).congr fun text rest b => ?_
  constructor
  · rintro ⟨_, _, _, rfl, rfl, x, _, _, rfl, hx, y, _, _, rfl, hy, w, _, _, rfl, hw, h, _, _, rfl, hh,
      bits, _, _, rfl, hd, _, _, payload, rfl, ⟨rfl, hmore⟩, _, ⟨hlen, values, hvalues, rfl⟩, rfl⟩
    have hcount := hvalues.length_of_tiles hlen
    refine ⟨?_, ?_⟩
    · simp only [List.nil_append, ← List.append_assoc]
      refine .mk hx hy hw hh hd (eq_ofBits_iff.1 rfl) ?_ hvalues.digits
        ((tiled_iff (b := ⟨x, y, w, h, _, _⟩) hvalues hcount).2 rfl)
      exact hvalues.length.trans ((congrArg (2 * ·) hcount).trans (by ring))
    · -- more than the tiles had to be there
      rintro rfl
      rw [List.append_nil, hlen] at hmore
      exact Nat.lt_irrefl _ hmore
  · obtain ⟨x, y, w, h, depth, pixels⟩ := b
    rintro ⟨@⟨tx, ty, tw, th, td, payload, bits, _, hx, hy, hw, hh, hd, hdepth, hlen, hdigits, hb⟩,
      hrest⟩
    have hsize : payload.length = 2 * (w.toNat * h.toNat * 256) := hlen.trans (by ring)
    obtain ⟨values, hvalues⟩ := PairText.exists_of_digits hsize hdigits
    have hcount : values.length = w.toNat * h.toNat * 256 := by
      have := hvalues.length
      omega
    have hpixels : pixels = rowMajor w.toNat h.toNat values.toArray :=
      (tiled_iff (b := ⟨x, y, w, h, depth, pixels⟩) hvalues hcount).1 hb
    have htiles : payload.length = w.toNat * h.toNat * tileDigits :=
      hsize.trans (Nat.mul_left_comm ..)
    refine ⟨(), [letterB], tx ++ (ty ++ (tw ++ (th ++ (td ++ payload)))),
      by simp only [List.append_assoc]; rfl, rfl, x, _, _, rfl, hx, y, _, _, rfl, hy, w, _, _, rfl, hw,
      h, _, _, rfl, hh, bits, _, _, rfl, hd, (), [], payload, rfl, ⟨rfl, ?_⟩, _,
      ⟨htiles, values, hvalues, rfl⟩, ?_⟩
    · rw [List.length_append, htiles]
      have := List.length_pos_of_ne_nil hrest
      omega
    · obtain rfl : depth = .ofBits bits := eq_ofBits_iff.2 hdepth
      rw [hpixels]

theorem takes_template :
    Takes template fun text rest t => TemplateText text t ∧ rest.head? = some closer := by
  refine ((takes_expect letterT).bind fun _ => takes_measure.bind fun x => takes_measure.bind fun y =>
    takes_measure.bind fun size => takes_byte.bind fun background =>
      (takes_upTo takes_shape ShapeText.head Command.maxShapes).map
        (Template.mk x y size background)).congr fun text rest t => ?_
  constructor
  · rintro ⟨_, _, _, rfl, rfl, x, _, _, rfl, hx, y, _, _, rfl, hy, size, _, _, rfl, hs, background,
      _, _, rfl, hb, shapes, ⟨hl, hrest⟩, rfl⟩
    simp only [← List.append_assoc]
    exact ⟨.mk hx hy hs hb hl shapes.property, hrest⟩
  · rintro ⟨@⟨x, y, s, c, shapes, t, hx, hy, hs, hb, hl, -⟩, hrest⟩
    exact ⟨(), [letterT], x ++ (y ++ (s ++ (c ++ shapes))), by simp only [List.append_assoc]; rfl,
      rfl, _, _, _, rfl, hx, _, _, _, rfl, hy, _, _, _, rfl, hs, _, _, _, rfl, hb, _, ⟨hl, hrest⟩,
      rfl⟩

theorem takes_animation :
    Takes animation fun text rest a => AnimationText text a ∧ rest.head? = some closer := by
  refine ((takes_expect letterA).bind fun _ => takes_byte.bind fun units =>
    (takes_upTo takes_keyframe KeyframeText.head Command.maxKeyframes).map
      (Animation.mk units)).congr fun text rest a => ?_
  constructor
  · rintro ⟨_, _, _, rfl, rfl, units, _, _, rfl, hu, keyframes, ⟨hk, hrest⟩, rfl⟩
    rw [← List.append_assoc]
    exact ⟨.mk hu hk keyframes.property, hrest⟩
  · rintro ⟨⟨hu, hk, -⟩, hrest⟩
    exact ⟨(), _, _, List.append_assoc .., rfl, _, _, _, rfl, hu, _, ⟨hk, hrest⟩, rfl⟩

/-! ### Commands -/

/-- What must follow the text of a command for its end to be seen. -/
def Ends (rest : List UInt8) : Command → Prop
  | .paletteReset | .template _ | .animation _ => rest.head? = some closer
  | .bitmap _ => rest ≠ []
  | .paletteAppend _ | .paletteModify _ _ | .clear => True

theorem takes_palette : Takes palette fun text rest c =>
    (c = .paletteReset ∨ ∃ color, c = .paletteAppend color) ∧ BodyText text c ∧ Ends rest c := by
  refine ((takes_expect letterP).bind fun _ => takes_peek?.bind fun o =>
    (Takes.pure Command.paletteReset).ite (p := o = some closer)
      (takes_color.map Command.paletteAppend)).congr fun text rest c => ?_
  constructor
  · rintro ⟨_, _, _, rfl, rfl, _, _, _, rfl, ⟨rfl, rfl⟩, ⟨hrest, rfl, rfl⟩ | ⟨-, color, hc, rfl⟩⟩
    · exact ⟨.inl rfl, .paletteReset, hrest⟩
    · exact ⟨.inr ⟨color, rfl⟩, .paletteAppend hc, trivial⟩
  · rintro ⟨rfl | ⟨color, rfl⟩, htext, hends⟩
    · cases htext
      exact ⟨(), _, [], rfl, rfl, _, [], [], rfl, ⟨rfl, rfl⟩, .inl ⟨hends, rfl, rfl⟩⟩
    · obtain ⟨⟩ | hc := htext
      -- a color starts with a digit, so it is not taken for the end
      obtain ⟨b, c, rfl, hb⟩ := hc.head
      refine ⟨(), _, _, rfl, rfl, _, [], _, rfl, ⟨rfl, rfl⟩, .inr ⟨?_, _, hc, rfl⟩⟩
      exact fun h => hb (Option.some.inj h)

theorem takes_modify : Takes modify fun text _ c =>
    (∃ index color, c = .paletteModify index color) ∧ BodyText text c := by
  refine ((takes_expect letterM).bind fun _ => takes_byte.bind fun index =>
    takes_color.map (Command.paletteModify index)).congr fun text rest c => ?_
  constructor
  · rintro ⟨_, _, _, rfl, rfl, index, _, _, rfl, hi, color, hc, rfl⟩
    rw [← List.append_assoc]
    exact ⟨⟨index, color, rfl⟩, .paletteModify hi hc⟩
  · rintro ⟨⟨index, color, rfl⟩, htext⟩
    cases htext with
    | paletteModify hi hc =>
      exact ⟨(), _, _, List.append_assoc .., rfl, _, _, _, rfl, hi, _, hc, rfl⟩

/-- What stands in a command is read if and only if its end can be seen. -/
theorem takes_body : Takes body fun text rest c => BodyText text c ∧ Ends rest c := by
  refine (takes_peek.bind fun first => takes_palette.ite (p := first = letterP)
    (takes_modify.ite (p := first = letterM)
      (((takes_expect letterZ).map fun _ => Command.clear).ite (p := first = letterZ)
        ((takes_bitmap.map Command.bitmap).ite (p := first = letterB)
          ((takes_template.map Command.template).ite (p := first = letterT)
            ((takes_animation.map Command.animation).ite (p := first = letterA)
              (Takes.throw _))))))).congr fun text rest c => ?_
  constructor
  · rintro ⟨_, _, _, rfl, ⟨rfl, -⟩, ⟨-, -, h⟩ | ⟨-, ⟨-, ⟨_, _, rfl⟩, h⟩ | ⟨-, ⟨-, _, rfl, rfl⟩ |
      ⟨-, ⟨-, _, ⟨h, hends⟩, rfl⟩ | ⟨-, ⟨-, _, ⟨h, hends⟩, rfl⟩ | ⟨-, ⟨-, _, ⟨h, hends⟩, rfl⟩ |
        ⟨-, ⟨⟩⟩⟩⟩⟩⟩⟩⟩
    · exact h
    · exact ⟨h, trivial⟩
    · exact ⟨.clear, trivial⟩
    · exact ⟨.bitmap h, hends⟩
    · exact ⟨.template h, hends⟩
    · exact ⟨.animation h, hends⟩
  · rintro ⟨h, hends⟩
    obtain ⟨text', htext⟩ := h.head
    have hpeek : (text ++ rest).head? = some (letter c) := by
      rw [htext]
      rfl
    -- each branch is reached because the letters before it are others
    cases c with
    | paletteReset => exact ⟨letterP, [], text, rfl, ⟨rfl, hpeek⟩, .inl ⟨rfl, .inl rfl, h, hends⟩⟩
    | paletteAppend color =>
      exact ⟨letterP, [], text, rfl, ⟨rfl, hpeek⟩, .inl ⟨rfl, .inr ⟨color, rfl⟩, h, hends⟩⟩
    | paletteModify index color =>
      exact ⟨letterM, [], text, rfl, ⟨rfl, hpeek⟩, .inr ⟨by decide, .inl ⟨rfl, ⟨index, color, rfl⟩, h⟩⟩⟩
    | clear =>
      cases h
      exact ⟨letterZ, [], _, rfl, ⟨rfl, hpeek⟩,
        .inr ⟨by decide, .inr ⟨by decide, .inl ⟨rfl, (), rfl, rfl⟩⟩⟩⟩
    | bitmap b =>
      cases h with
      | bitmap h =>
        exact ⟨letterB, [], text, rfl, ⟨rfl, hpeek⟩, .inr ⟨by decide, .inr ⟨by decide,
          .inr ⟨by decide, .inl ⟨rfl, b, ⟨h, hends⟩, rfl⟩⟩⟩⟩⟩
    | template t =>
      cases h with
      | template h =>
        exact ⟨letterT, [], text, rfl, ⟨rfl, hpeek⟩, .inr ⟨by decide, .inr ⟨by decide,
          .inr ⟨by decide, .inr ⟨by decide, .inl ⟨rfl, t, ⟨h, hends⟩, rfl⟩⟩⟩⟩⟩⟩
    | animation a =>
      cases h with
      | animation h =>
        exact ⟨letterA, [], text, rfl, ⟨rfl, hpeek⟩, .inr ⟨by decide, .inr ⟨by decide,
          .inr ⟨by decide, .inr ⟨by decide, .inr ⟨by decide, .inl ⟨rfl, a, ⟨h, hends⟩, rfl⟩⟩⟩⟩⟩⟩⟩

theorem takes_command : Takes command fun text _ c => Spells text c := by
  refine ((takes_expect opener).bind fun _ => takes_body.bind fun c =>
    (takes_expect closer).map fun _ => c).congr fun text rest c => ?_
  constructor
  · rintro ⟨_, _, _, rfl, rfl, _, body, _, rfl, ⟨h, -⟩, _, rfl, rfl⟩
    exact ⟨body, h, (List.append_assoc ..).symm⟩
  · rintro ⟨body, h, rfl⟩
    refine ⟨(), _, _, List.append_assoc .., rfl, c, body, _, rfl, ⟨h, ?_⟩, (), rfl, rfl⟩
    cases c <;> simp [Ends, ascii, closer]

end Grammar

theorem Command.ofBytes_eq_ok_iff {bytes : List UInt8} {c : Command} :
    Command.ofBytes bytes = .ok c ↔ Spells bytes c := by
  have hread : Command.ofBytes bytes = .ok c ↔
      ∃ c', Grammar.command.read (.ofBytes bytes) = (.ok c, c') ∧ c'.rest = [] := by
    unfold Command.ofBytes
    rcases Grammar.command.read (.ofBytes bytes) with ⟨e | c₁, c'⟩
    · simp
    · by_cases hempty : c'.rest = [] <;> simp [hempty]
  rw [hread]
  constructor
  · rintro ⟨c', h, hrest⟩
    obtain ⟨text, hp, hs⟩ := (Grammar.takes_command _ _ _).1 h
    have htext : bytes = text := hp.1.trans (by rw [hrest, List.append_nil])
    rwa [htext]
  · intro hs
    exact ⟨⟨0 + bytes.length, []⟩, (Grammar.takes_command _ _ _).2
      ⟨bytes, ⟨(List.append_nil _).symm, rfl⟩, hs⟩, rfl⟩

/-- **Exactly the language of commands is accepted.** The bytes are read as the command `c` if and only
if they spell it, and they are refused if and only if they spell no command. -/
theorem Command.accepts_exactly_language (bytes : List UInt8) :
    (∀ c, Command.ofBytes bytes = .ok c ↔ Spells bytes c) ∧
      ((∃ e, Command.ofBytes bytes = .error e) ↔ ∀ c, ¬Spells bytes c) := by
  refine ⟨fun c => Command.ofBytes_eq_ok_iff, ?_⟩
  simp only [← Command.ofBytes_eq_ok_iff]
  cases Command.ofBytes bytes <;> simp

end Wire

end Marquee
