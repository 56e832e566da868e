import Marquee.Proofs.Canvas.Drawing
import Marquee.Proofs.Stage.References
import Marquee.Proofs.Timeline.Order

/-!
# What holds of every stage

A stage is checked where it grows: pictures by the settings and by their sizes, colors by the palette,
keyframes by the command that brings them. What is checked once stays true, whatever is carried out
or played later.

* `Stage.bitmapCanvas_eq_ok_iff`, `Stage.templateCanvas_eq_ok_iff` : which pictures may be added.
* `Stage.clock_tick`, `Stage.clock_apply` : who moves the clock.
* `Stage.WellFormed` : pictures are within the limit, and the active cue is a stored one that lasts;
  kept by every input (`Stage.WellFormed.step`).
* `Stage.stays_within_bounds` : **behind any run sprites, palette, cues and the active cue are within
  their bounds.**
-/

namespace Marquee

open Wire

/-- A cue that lasts is still there when more are appended. -/
theorem Timeline.Lasts.of_isPrefix {t u : Timeline} (h : t.cues.toList <+: u.cues.toList) {j : Nat}
    (hj : t.Lasts j) : u.Lasts j := by
  obtain ⟨cue, hget, hpos⟩ := hj
  have hstored : t.cues.toList[j]? = some cue := by rwa [Array.getElem?_toList]
  obtain ⟨hlt, rfl⟩ := List.getElem?_eq_some_iff.1 hstored
  refine ⟨_, ?_, hpos⟩
  rw [get?, ← Array.getElem?_toList]
  exact List.prefix_iff_getElem?.1 h j hlt

/-- Only cues that last are shown. -/
theorem Playhead.lasts_of_shown {p : Playhead} {now j : Nat} {t : Timeline}
    (h : (p.tick now t).1 = some j) : t.Lasts j := by
  rcases tick_of_shown h with ⟨-, hcue, -⟩ | ⟨hcue, -⟩
  · exact Timeline.lasts_of_cueAt? hcue
  · exact Timeline.lasts_of_cueAt? hcue

theorem StageSettings.durationNs_eq (settings : StageSettings) (units : UInt8) :
    settings.durationNs units = units.toNat * settings.timeUnitNs.toNat % 2 ^ 64 := by
  rw [durationNs, UInt64.toNat_mul, UInt8.toNat_toUInt64]

namespace Stage

/-! ### Checks -/

section

variable {s : Stage}

/-- What follows a check counts only if the check is passed. -/
theorem check_then_eq_ok_iff {α : Type} {check : Except StageFault Unit} {rest : Except StageFault α}
    {a : α} : (do check; rest) = .ok a ↔ check = .ok () ∧ rest = .ok a := by
  cases check <;> simp [bind, Except.bind]

/-- A list passes a check just if each of its entries does. -/
theorem forM_eq_ok_iff {α : Type} {check : α → Except StageFault Unit} {xs : List α} :
    xs.forM check = .ok () ↔ ∀ x ∈ xs, check x = .ok () := by
  induction xs with
  | nil => simp [List.forM, pure, Except.pure]
  | cons x rest ih =>
    change (do check x; rest.forM check) = .ok () ↔ _
    rw [check_then_eq_ok_iff, ih, List.forall_mem_cons]

theorem checkSize_eq_ok_iff {width height : Nat} :
    s.checkSize width height = .ok () ↔ width * height ≤ s.settings.maxSpritePixels.toNat := by
  unfold checkSize
  split_ifs with h <;> simp [h]

theorem checkIndex_eq_ok_iff {index : UInt8} :
    s.checkIndex index = .ok () ↔ s.palette.contains index = true := by
  unfold checkIndex
  split_ifs with h <;> simp [h]

/-- A bitmap is added within the limit, and as the picture that it says it is. -/
theorem bitmapCanvas_eq_ok_iff {b : Bitmap} {canvas : Canvas} :
    s.bitmapCanvas b = .ok canvas ↔
      b.width * b.height ≤ s.settings.maxSpritePixels.toNat ∧
        Canvas.ofPixels b.width b.height b.pixels = .ok canvas := by
  rw [bitmapCanvas, check_then_eq_ok_iff, checkSize_eq_ok_iff]

/-- A template is added in colors that are there, and within the limit. -/
theorem templateCanvas_eq_ok_iff {t : Template} {canvas : Canvas} :
    s.templateCanvas t = .ok canvas ↔
      s.palette.contains t.background = true ∧
        (∀ shape ∈ t.shapes.val, s.palette.contains shape.color = true) ∧
        t.size * t.size ≤ s.settings.maxSpritePixels.toNat ∧ Canvas.ofTemplate t = .ok canvas := by
  rw [templateCanvas, check_then_eq_ok_iff, check_then_eq_ok_iff, check_then_eq_ok_iff,
    checkIndex_eq_ok_iff, forM_eq_ok_iff, checkSize_eq_ok_iff]
  simp only [checkIndex_eq_ok_iff]

end

/-! ### The clock -/

/-- The clock, and the cue that it found at the last tick. -/
def clock (s : Stage) : Playhead × Option Nat := (s.playhead, s.activeCue)

theorem clock_writeColor (s : Stage) (index : UInt8) (color : Color) :
    (s.writeColor index color).2.clock = s.clock := by
  unfold writeColor
  split
  · rfl
  · split <;> rfl

theorem clock_performAll (s : Stage) (recolored : Bool) (actions : List Action) :
    (s.performAll recolored actions).2.clock = s.clock := by
  induction actions generalizing recolored s with
  | nil => rfl
  | cons a rest ih =>
    rw [performAll, ih]
    cases a with
    | place => rfl
    | recolor index color => exact clock_writeColor s index color

/-- A tick moves the clock, and the actions of a cue do not. -/
theorem clock_tick (s : Stage) (now : Nat) :
    (s.tick now).2.clock =
      ((s.playhead.tick now s.timeline).2, (s.playhead.tick now s.timeline).1) := by
  rw [snd_tick]
  cases s.dueCue now with
  | none => rfl
  | some cue =>
    have hall := clock_performAll (s.told now) false cue.actions
    rw [Option.elim_some, performCue]
    split
    · exact hall
    · exact hall

/-- A command leaves the clock alone, unless it clears the scene. -/
theorem clock_apply (s : Stage) {c : Command} (hc : c ≠ .clear) : (s.apply c).2.clock = s.clock := by
  have happlied := s.applied_apply c
  generalize (s.apply c).1 = answer at happlied
  generalize (s.apply c).2 = s' at happlied ⊢
  cases happlied with
  | cleared => exact absurd rfl hc
  | overwritten => exact clock_writeColor s _ _
  | _ => rfl

/-! ### The invariant -/

/-- What every input keeps. -/
structure WellFormed (s : Stage) : Prop where
  /-- No picture has more pixels than the settings allow. -/
  fits : ∀ picture ∈ s.outlines,
    picture.1.width * picture.1.height ≤ s.settings.maxSpritePixels.toNat
  /-- The active cue is stored, and lasts. -/
  lasts : ∀ j, s.activeCue = some j → s.timeline.Lasts j

theorem wellFormed_new (settings : StageSettings) : (new settings).WellFormed :=
  ⟨fun _ h => (List.not_mem_nil h).elim, fun _ h => nomatch h⟩

variable {s : Stage}

theorem outlines_addSprite (s : Stage) (x y : Nat) (canvas : Canvas) (depth : Depth) :
    (s.addSprite x y canvas depth).2.outlines = s.outlines ++ [(canvas, depth)] := by
  simp [outlines, addSprite, Scene.push, Sprite.outline]

/-- Only pictures within the limit are added. -/
theorem WellFormed.fits_apply (h : s.WellFormed) (c : Command) :
    ∀ picture ∈ (s.apply c).2.outlines,
      picture.1.width * picture.1.height ≤ s.settings.maxSpritePixels.toNat := by
  have hadd (x y : Nat) (canvas : Canvas) (depth : Depth)
      (hcanvas : canvas.width * canvas.height ≤ s.settings.maxSpritePixels.toNat) :
      ∀ picture ∈ (s.addSprite x y canvas depth).2.outlines,
        picture.1.width * picture.1.height ≤ s.settings.maxSpritePixels.toNat := by
    rw [outlines_addSprite, List.forall_mem_append, List.forall_mem_singleton]
    exact ⟨h.fits, hcanvas⟩
  have happlied := s.applied_apply c
  generalize (s.apply c).1 = answer at happlied
  generalize (s.apply c).2 = s' at happlied ⊢
  cases happlied with
  | refused | reset | appended | missed | animation => exact h.fits
  | @overwritten index color found =>
    rw [outlines_congr ((outline_rebind _).trans (outline_writeColor s index color))]
    exact h.fits
  | cleared => exact fun _ hmem => (List.not_mem_nil hmem).elim
  | @bitmap b canvas drawn =>
    obtain ⟨hle, hpixels⟩ := bitmapCanvas_eq_ok_iff.1 drawn
    obtain ⟨hwidth, hheight⟩ := Canvas.size_of_ofPixels hpixels
    exact hadd _ _ _ _ (by rwa [hwidth, hheight])
  | @template t canvas drawn =>
    obtain ⟨-, -, hle, htemplate⟩ := templateCanvas_eq_ok_iff.1 drawn
    obtain ⟨hwidth, hheight⟩ := Canvas.size_of_ofTemplate htemplate
    exact hadd _ _ _ _ (by rwa [hwidth, hheight])

/-- **Every input keeps the invariant.** -/
theorem WellFormed.step (h : s.WellFormed) (i : StageInput) : (s.step i).WellFormed := by
  refine ⟨?_, ?_⟩
  · rw [settings_step]
    cases i with
    | command c => exact h.fits_apply c
    | tick now =>
      rw [Stage.step, outlines_congr (outline_tick s now)]
      exact h.fits
  · intro j hj
    cases i with
    | command c =>
      by_cases hc : c = .clear
      · subst hc
        cases hj
      · have hactive : s.activeCue = some j := (congrArg Prod.snd (s.clock_apply hc)).symm.trans hj
        have hstays := Turn.stays_command s c hc
        exact (h.lasts j hactive).of_isPrefix ⟨_, hstays.cues.symm⟩
    | tick now =>
      have hshown : (s.playhead.tick now s.timeline).1 = some j :=
        (congrArg Prod.snd (s.clock_tick now)).symm.trans hj
      obtain ⟨-, -, -, -, htime⟩ := outline_eq_iff.1 (outline_tick s now)
      rw [Stage.step, htime]
      exact Playhead.lasts_of_shown hshown

theorem wellFormed_after (settings : StageSettings) (inputs : List StageInput) :
    ((new settings).after inputs).WellFormed := by
  induction inputs using List.reverseRecOn with
  | nil => exact wellFormed_new settings
  | append_singleton inputs i ih =>
    rw [after_concat]
    exact ih.step i

/-- A stored cue keeps the bounds of the animation that it comes from. -/
theorem cue_of_animation (settings : StageSettings) (inputs : List StageInput) {cue : Cue}
    (stored : cue ∈ ((new settings).after inputs).timeline.cues) :
    cue.actions.length ≤ 64 ∧
      ∃ units : UInt8, cue.durationNs = units.toNat * settings.timeUnitNs.toNat % 2 ^ 64 := by
  have hset := settings_after (new settings) inputs
  have hfollows := follows_after settings inputs
  rw [← Array.mem_toList_iff, hfollows.cues, List.mem_map] at stored
  obtain ⟨a, -, rfl⟩ := stored
  refine ⟨?_, a.units, ?_⟩
  · rw [cueOf, List.length_map]
    exact a.keyframes.property
  · rw [cueOf, hset]
    exact settings.durationNs_eq a.units

/-- **What holds of every stage.** Behind any run of a new stage each sprite has at least one column and
one row, one index for each pixel and no more pixels than the settings allow, so that a look-up finds
an index exactly within its width and height; the palette holds no more than 256 colors; each cue has
no more than 64 actions and lasts a number of time units that one byte can tell, as a word of 64 bits if
so many nanoseconds do not fit; and the active cue, if there is one, is stored and has a duration. -/
theorem stays_within_bounds (settings : StageSettings) (inputs : List StageInput) :
    let s := (new settings).after inputs
    (∀ sprite ∈ s.scene.sprites,
      let canvas := sprite.canvas
      1 ≤ canvas.width ∧ 1 ≤ canvas.height ∧ canvas.data.size = canvas.width * canvas.height ∧
        canvas.data.size ≤ settings.maxSpritePixels.toNat ∧
        ∀ x y : Int, (canvas.get? x y).isSome ↔
          0 ≤ x ∧ x < canvas.width ∧ 0 ≤ y ∧ y < canvas.height) ∧
      s.palette.size ≤ 256 ∧
      (∀ cue ∈ s.timeline.cues, cue.actions.length ≤ 64 ∧
        ∃ units : UInt8,
          let product := units.toNat * settings.timeUnitNs.toNat
          cue.durationNs = product % 2 ^ 64 ∧ (product < 2 ^ 64 → cue.durationNs = product)) ∧
      (s.activeCue = none ∨ ∃ j cue, s.activeCue = some j ∧ s.timeline.get? j = some cue ∧
        0 < cue.durationNs) := by
  intro s
  have hset : s.settings = settings := settings_after _ inputs
  have h : s.WellFormed := wellFormed_after settings inputs
  refine ⟨?_, s.palette.size_le, fun cue stored => ?_, ?_⟩
  · intro sprite hsprite canvas
    have hfits := h.fits sprite.outline (List.mem_map_of_mem (Array.mem_toList_iff.2 hsprite))
    rw [hset] at hfits
    exact ⟨canvas.width_pos, canvas.height_pos, canvas.size_eq, canvas.size_eq ▸ hfits,
      fun _ _ => Canvas.isSome_get?_iff⟩
  · obtain ⟨hactions, units, hduration⟩ := cue_of_animation settings inputs stored
    exact ⟨hactions, units, hduration, fun fits => hduration.trans (Nat.mod_eq_of_lt fits)⟩
  · cases hactive : s.activeCue with
    | none => exact .inl rfl
    | some j =>
      obtain ⟨cue, hget, hpos⟩ := h.lasts j hactive
      exact .inr ⟨j, cue, rfl, hget, hpos⟩

end Stage

end Marquee
