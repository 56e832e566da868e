import Marquee.Proofs.Stage.Binding
import Marquee.Proofs.Stage.WellFormed

/-!
# Templates have no holes

A pixel whose index has no color is transparent. The colors of a template are checked before it is
drawn, and drawing brings no other index than those. So a sprite that was drawn from a template has a
color everywhere, until the palette is emptied: a snapshot that it is bound to later has no fewer
colors than the palette had when the template was checked.

* `Stage.size_palette_le_step` : only emptying the palette takes colors away.
* `Stage.Opaque` : a sprite has a color everywhere, and will have under every snapshot that may follow;
  kept by all other inputs (`Stage.Opaque.step`).
* `Stage.templates_stay_opaque` : **a sprite drawn from a template has a color at each of its pixels.**
-/

namespace Marquee

open Wire

theorem Palette.size_append {p q : Palette} {color : Color} {index : UInt8}
    (h : p.append color = (.ok index, q)) : q.size = p.size + 1 := by
  unfold append at h
  split_ifs at h
  · obtain ⟨-, rfl⟩ := Prod.mk.inj h
    exact Array.size_push color
  · simp only [Prod.mk.injEq, reduceCtorEq, false_and] at h

theorem Canvas.All.mono {P Q : UInt8 → Prop} {c : Canvas} (h : c.All P)
    (hPQ : ∀ index, P index → Q index) : c.All Q :=
  fun x y index hindex => hPQ index (h x y index hindex)

theorem Wire.Depth.and_mask_eight (index : UInt8) : index &&& Depth.eight.mask = index := by
  rw [← UInt8.toNat_inj, UInt8.toNat_and]
  change index.toNat &&& (2 ^ 8 - 1) = index.toNat
  rw [Nat.and_two_pow_sub_one_eq_mod, Nat.mod_eq_of_lt index.toNat_lt]

namespace Stage

variable {s : Stage}

/-- **Only emptying the palette takes colors away.** -/
theorem size_palette_le_step (s : Stage) {i : StageInput} (keeps : i ≠ .command .paletteReset) :
    s.palette.size ≤ (s.step i).palette.size := by
  cases i with
  | command c =>
    have happlied := s.applied_apply c
    rw [step]
    generalize (s.apply c).1 = answer at happlied
    generalize (s.apply c).2 = s' at happlied ⊢
    cases happlied with
    | reset => exact absurd rfl keeps
    | appended room => exact Nat.le_of_lt (Palette.size_append room).ge
    | @overwritten index color found =>
      obtain ⟨-, hsize, -, -, -⟩ := outline_eq_iff.1 (outline_writeColor s index color)
      exact hsize.ge
    | refused | missed | cleared | bitmap | template | animation => exact Nat.le_refl _
  | tick now =>
    obtain ⟨-, hsize, -, -, -⟩ := outline_eq_iff.1 (outline_tick s now)
    exact hsize.ge

/-- The sprite at a place is drawn on a canvas, and all of its indices have colors: in the snapshot
that it is bound to, and in the palette, from which it may be colored anew. -/
structure Opaque (s : Stage) (k : Nat) (canvas : Canvas) : Prop where
  outline : s.outlines[k]? = some (canvas, .eight)
  bound : ∃ b, s.bindings[k]? = some b ∧ canvas.All fun index => index.toNat < b.size
  colored : canvas.All fun index => index.toNat < s.palette.size
  inStep : s.InStep

/-- **A sprite stays opaque** until the scene is cleared or the palette is emptied. -/
theorem Opaque.step {k : Nat} {canvas : Canvas} (h : s.Opaque k canvas) {i : StageInput}
    (stays : i ≠ .command .clear) (keeps : i ≠ .command .paletteReset) :
    (s.step i).Opaque k canvas := by
  have hinStep : (s.step i).InStep := h.inStep.step i
  have hcolored : canvas.All fun index => index.toNat < (s.step i).palette.size :=
    h.colored.mono fun _ hindex => Nat.lt_of_lt_of_le hindex (s.size_palette_le_step keeps)
  have hstays : Turn.Stays ⟨s, i⟩ := Turn.stays _ stays
  obtain ⟨b, hb, hbound⟩ := h.bound
  refine ⟨?_, ?_, hcolored, hinStep⟩
  · have hk : k < s.outlines.length := (List.getElem?_eq_some_iff.1 h.outline).1
    exact (congrArg (·[k]?) hstays.outlines).trans
      ((List.getElem?_append_left hk).trans h.outline)
  · by_cases hover : Turn.Overwrites ⟨s, i⟩
    · -- all sprites are bound to the new snapshot, which has the palette's colors
      cases Turn.bound ⟨s, i⟩ with
      | anew _ _ hanew =>
        refine ⟨(s.step i).snapshot, ?_, ?_⟩
        · exact (congrArg (·[k]?) hanew).trans (by rw [Array.getElem?_map, hb]; rfl)
        · rwa [Snapshot.size, hinStep]
      | added plain | dropped plain | kept plain => exact absurd hover plain
    · exact ⟨b, Turn.getElem?_bindings_after hover stays hb, hbound⟩

theorem Opaque.after {k : Nat} {canvas : Canvas} (h : s.Opaque k canvas) {inputs : List StageInput}
    (stays : .command .clear ∉ inputs) (keeps : .command .paletteReset ∉ inputs) :
    (s.after inputs).Opaque k canvas := by
  induction inputs generalizing s with
  | nil => exact h
  | cons i rest ih =>
    rw [List.mem_cons, not_or] at stays keeps
    exact ih (h.step (Ne.symm stays.1) (Ne.symm keeps.1)) stays.2 keeps.2

/-- A template that is accepted puts an opaque sprite on top. -/
theorem InStep.opaque_template (h : s.InStep) {t : Template} {outcome : Outcome}
    (accepted : (s.apply (.template t)).1 = .ok outcome) :
    ∃ canvas : Canvas, Canvas.ofTemplate t = .ok canvas ∧
      (s.step (.command (.template t))).Opaque s.scene.size canvas := by
  have happlied := s.applied_apply (.template t)
  rw [accepted] at happlied
  rw [Stage.step]
  generalize (s.apply (.template t)).2 = s' at happlied ⊢
  cases happlied with
  | @template _ canvas drawn =>
    obtain ⟨hbackground, hshapes, -, htemplate⟩ := templateCanvas_eq_ok_iff.1 drawn
    have hcolored : canvas.All fun index => index.toNat < s.palette.size :=
      Canvas.all_ofTemplate htemplate (of_decide_eq_true hbackground)
        fun shape hshape => of_decide_eq_true (hshapes shape hshape)
    refine ⟨canvas, htemplate, ?_, ⟨s.snapshot, ?_, ?_⟩, hcolored, h⟩
    · have hlength : s.outlines.length = s.scene.size := List.length_map _
      rw [outlines_addSprite, ← hlength]
      exact List.getElem?_concat_length
    · rw [getElem?_bindings]
      simp [addSprite, Scene.push, Scene.size]
    · rwa [Snapshot.size, h]

/-- An opaque sprite has a color at each of its pixels. -/
theorem Opaque.exists_sprite {k : Nat} {canvas : Canvas} (h : s.Opaque k canvas) :
    ∃ sprite, s.scene.sprites[k]? = some sprite ∧ sprite.canvas = canvas ∧
      ∀ x y : Int, 0 ≤ x → x < canvas.width → 0 ≤ y → y < canvas.height →
        (sprite.colorAt x y).isSome := by
  obtain ⟨b, hb, hbound⟩ := h.bound
  obtain ⟨sprite, hsprite, rfl⟩ :
      ∃ sprite, s.scene.sprites[k]? = some sprite ∧ sprite.palette = b := by
    rwa [getElem?_bindings, Option.map_eq_some_iff] at hb
  have houtline := h.outline
  rw [outlines, List.getElem?_map, Array.getElem?_toList, hsprite, Option.map_some, Option.some.injEq,
    Sprite.outline, Prod.mk.injEq] at houtline
  obtain ⟨rfl, hdepth⟩ := houtline
  refine ⟨sprite, hsprite, rfl, ?_⟩
  intro x y hx hwidth hy hheight
  obtain ⟨index, hindex⟩ :=
    Option.isSome_iff_exists.1 (Canvas.isSome_get?_iff.2 ⟨hx, hwidth, hy, hheight⟩)
  have hlt : index.toNat < sprite.palette.colors.size := hbound x y index hindex
  rw [Sprite.colorAt, hindex, hdepth]
  change (sprite.palette.get? (index &&& Depth.eight.mask)).isSome = true
  rw [Depth.and_mask_eight, Snapshot.get?, isSome_getElem?]
  exact hlt

/-- **Templates have no holes.** When a template is accepted, it becomes the sprite at the next place.
Whatever is carried out and played later, as long as the scene is not cleared and the palette is not
emptied, the sprite at that place shows the drawing of the template, in its size, and has a color at
each of its pixels. -/
theorem templates_stay_opaque (settings : StageSettings) (before later : List StageInput)
    {t : Template} {outcome : Outcome}
    (accepted : (((new settings).after before).apply (.template t)).1 = .ok outcome)
    (stays : .command .clear ∉ later) (keeps : .command .paletteReset ∉ later) :
    let k := ((new settings).after before).scene.size
    let s := (new settings).after (before ++ .command (.template t) :: later)
    ∃ sprite, s.scene.sprites[k]? = some sprite ∧ Canvas.ofTemplate t = .ok sprite.canvas ∧
      sprite.canvas.width = t.size ∧ sprite.canvas.height = t.size ∧
      ∀ x y : Int, 0 ≤ x → x < t.size → 0 ≤ y → y < t.size → (sprite.colorAt x y).isSome := by
  intro k s
  obtain ⟨canvas, htemplate, hopaque⟩ := (inStep_after settings before).opaque_template accepted
  obtain ⟨hwidth, hheight⟩ := Canvas.size_of_ofTemplate htemplate
  have hs : s.Opaque k canvas := by
    change ((new settings).after (before ++ .command (.template t) :: later)).Opaque _ _
    rw [after_append]
    exact hopaque.after stays keeps
  obtain ⟨sprite, hsprite, rfl, hcolor⟩ := hs.exists_sprite
  refine ⟨sprite, hsprite, htemplate, hwidth, hheight, ?_⟩
  intro x y hx hxlt hy hylt
  exact hcolor x y hx (by rwa [hwidth]) hy (by rwa [hheight])

/-- A template of odd size with two shapes. Its colors are overwritten by a command and by the timeline,
which also hides it, and a color is appended. -/
theorem templates_stay_opaque_while_played :
    let before : List StageInput :=
      [.command (.paletteAppend .black), .command (.paletteAppend ⟨255, 0, 0⟩)]
    let t : Template := ⟨8, 8, 5, 0, ⟨[.disk 2 1, .sector .bottomLeft 0], by decide⟩⟩
    let later : List StageInput :=
      [.command (.paletteModify 1 ⟨0, 255, 0⟩),
        .command (.animation ⟨1, ⟨[.recolor 0 ⟨0, 0, 255⟩, .place 0 4 4 false], by decide⟩⟩), .tick 7,
        .command (.paletteAppend .black)]
    let s := (new { minCues := 1 }).after (before ++ .command (.template t) :: later)
    ∃ sprite, s.scene.sprites[0]? = some sprite ∧ sprite.visible = false ∧
      sprite.canvas.width = 5 ∧ (sprite.colorAt 4 4).isSome = true ∧
      sprite.colorAt 2 1 = some ⟨0, 255, 0⟩ := by
  intro before t later s
  have accepted : (((new { minCues := 1 }).after before).apply (.template t)).1 =
      .ok (.spriteAdded ⟨0, 0⟩ 5 5) := by decide +kernel
  obtain ⟨sprite, hsprite, -, hwidth, -, hcolor⟩ :=
    templates_stay_opaque { minCues := 1 } before later accepted (by decide +kernel) (by decide +kernel)
  have hfirst : ((new { minCues := 1 }).after before).scene.size = 0 := by decide +kernel
  have hs : (new { minCues := 1 }).after (before ++ .command (.template t) :: later) = s := rfl
  rw [hfirst, hs] at hsprite
  have hplayed : (s.scene.sprites[0]?.map fun p => (p.visible, p.colorAt 2 1)) =
      some (false, some ⟨0, 255, 0⟩) := by decide +kernel
  rw [hsprite, Option.map_some, Option.some.injEq, Prod.mk.injEq] at hplayed
  exact ⟨sprite, hsprite, hplayed.1, hwidth, hcolor 4 4 (by decide) (by decide) (by decide) (by decide),
    hplayed.2⟩

end Stage

end Marquee
