import Marquee.Proofs.Scene.Changes
import Marquee.Stage.Frames
import Marquee.Stage.Playback

/-!
# What commands can see of a stage

Commands and the timeline change one stage, yet a command never asks what the timeline did. The
`Outline` of a stage is the part of it that commands look at and that their results depend on: how
many colors there are (but not which), the pixels of the sprites (but not where they are, whether
they are shown, or what colors them), and the cues.

* `Stage.outline_tick` : playing the timeline keeps the outline.
* `Stage.apply_congr` : **on stages of one outline a command has one result, and leaves stages of
  one outline.**
* `Stage.applyFrame_congr` : the same for the command of a frame.
-/

namespace Marquee

open Wire

/-- The part of a stage that commands look at. -/
structure Outline where
  /-- The settings. -/
  settings : StageSettings
  /-- The number of colors. -/
  colors : Nat
  /-- The epoch of the scene. -/
  epoch : UInt32
  /-- Size, pixels and depth of each sprite. -/
  sprites : Array (Canvas × Depth)
  /-- The cues. -/
  timeline : Timeline
  deriving DecidableEq

/-- What commands look at in a sprite. -/
def Sprite.outline (s : Sprite) : Canvas × Depth := (s.canvas, s.depth)

namespace Stage

/-- The outline of a stage. -/
def outline (s : Stage) : Outline :=
  ⟨s.settings, s.palette.size, s.scene.epoch, s.scene.sprites.map Sprite.outline, s.timeline⟩

/-! ### What keeps the outline -/

@[simp] theorem outline_refresh (s : Stage) : s.refresh.outline = s.outline := rfl

@[simp] theorem outline_rebind (s : Stage) : s.rebind.outline = s.outline := by
  have hsprites : (s.scene.rebind s.snapshot).sprites.map Sprite.outline =
      s.scene.sprites.map Sprite.outline := by
    rw [Scene.rebind, Array.map_map]
    rfl
  simp only [outline, rebind, hsprites, Scene.epoch_rebind]

@[simp] theorem outline_writeColor (s : Stage) (index : UInt8) (color : Color) :
    (s.writeColor index color).2.outline = s.outline := by
  unfold writeColor
  split
  · rfl
  · split
    · rfl
    · rw [outline_refresh]
      simp [outline, Palette.size, Palette.modify]

/-- A color is overwritten where there is one. -/
theorem fst_writeColor (s : Stage) (index : UInt8) (color : Color) :
    (s.writeColor index color).1 = s.palette.contains index := by
  rw [Bool.eq_iff_iff, Palette.contains_iff]
  unfold writeColor
  cases s.palette.get? index with
  | none => simp
  | some old => by_cases hold : old = color <;> simp [hold]

/-- What is read of each sprite does not change with a change that does not show in it. -/
theorem map_update {α : Type} (scene : Scene) (ref : SpriteRef) {f : Sprite → Sprite}
    {g : Sprite → α} (hf : ∀ p, g (f p) = g p) :
    (scene.update ref f).sprites.map g = scene.sprites.map g := by
  apply Array.ext_getElem?
  intro k
  rw [Array.getElem?_map, Array.getElem?_map, Scene.map_getElem?_update]
  simp only [hf, ite_self]

@[simp] theorem outline_perform (s : Stage) (a : Action) : (s.perform a).2.outline = s.outline := by
  cases a with
  | place sprite x y visible =>
    have hsprites : (s.perform (.place sprite x y visible)).2.scene.sprites.map Sprite.outline =
        s.scene.sprites.map Sprite.outline := map_update s.scene sprite fun _ => rfl
    simp only [outline, hsprites]
    simp only [perform, Scene.epoch_update]
  | recolor index color => exact outline_writeColor s index color

@[simp] theorem outline_performAll (recolored : Bool) (s : Stage) (actions : List Action) :
    (s.performAll recolored actions).2.outline = s.outline := by
  induction actions generalizing recolored s with
  | nil => rfl
  | cons a rest ih =>
    rw [performAll, ih]
    exact outline_perform s a

/-- **Playing the timeline keeps the outline.** -/
@[simp] theorem outline_tick (s : Stage) (now : Nat) : (s.tick now).2.outline = s.outline := by
  unfold tick
  simp only
  split
  · rfl
  · split
    · rw [outline_rebind, outline_performAll]
      rfl
    · rw [outline_performAll]
      rfl

/-! ### Commands on stages of one outline -/

variable {s t : Stage}

theorem outline_eq_iff : s.outline = t.outline ↔
    s.settings = t.settings ∧ s.palette.size = t.palette.size ∧ s.scene.epoch = t.scene.epoch ∧
      s.scene.sprites.map Sprite.outline = t.scene.sprites.map Sprite.outline ∧
      s.timeline = t.timeline := by
  simp only [outline, Outline.mk.injEq]

/-- Whether an index has a color depends on their number only. -/
theorem contains_congr (hsize : s.palette.size = t.palette.size) (index : UInt8) :
    s.palette.contains index = t.palette.contains index := by
  change decide (index.toNat < s.palette.size) = decide (index.toNat < t.palette.size)
  rw [hsize]

theorem checkIndex_congr (hsize : s.palette.size = t.palette.size) :
    s.checkIndex = t.checkIndex := by
  funext index
  simp only [checkIndex, contains_congr hsize]

theorem checkSize_congr (hset : s.settings = t.settings) : s.checkSize = t.checkSize := by
  funext width height
  simp only [checkSize, hset]

theorem bitmapCanvas_congr (hset : s.settings = t.settings) (b : Bitmap) :
    s.bitmapCanvas b = t.bitmapCanvas b := by
  simp only [bitmapCanvas, checkSize_congr hset]

theorem templateCanvas_congr (hset : s.settings = t.settings)
    (hsize : s.palette.size = t.palette.size) (p : Template) :
    s.templateCanvas p = t.templateCanvas p := by
  simp only [templateCanvas, checkIndex_congr hsize, checkSize_congr hset]

theorem addSprite_congr (h : s.outline = t.outline) (x y : Nat) (canvas : Canvas) (depth : Depth) :
    (s.addSprite x y canvas depth).1 = (t.addSprite x y canvas depth).1 ∧
      (s.addSprite x y canvas depth).2.outline = (t.addSprite x y canvas depth).2.outline := by
  obtain ⟨hset, hsize, hepoch, hsprites, htime⟩ := outline_eq_iff.1 h
  have hcount : s.scene.sprites.size = t.scene.sprites.size := by
    simpa using congrArg Array.size hsprites
  constructor
  · simp only [addSprite, Scene.push, hepoch, hcount]
  · rw [outline_eq_iff]
    refine ⟨hset, hsize, hepoch, ?_, htime⟩
    simp only [addSprite, Scene.push, Array.map_push, hsprites]
    rfl

/-- Keyframes name sprites by their places, and by the epoch that is. -/
theorem action_congr (h : s.scene.epoch = t.scene.epoch) : s.action = t.action := by
  funext k
  cases k <;> simp only [action, Scene.refAt, h]

theorem addCue_congr (h : s.outline = t.outline) (a : Animation) :
    (s.addCue a).1 = (t.addCue a).1 ∧ (s.addCue a).2.outline = (t.addCue a).2.outline := by
  obtain ⟨hset, hsize, hepoch, hsprites, htime⟩ := outline_eq_iff.1 h
  constructor
  · simp only [addCue, hset, htime]
  · rw [outline_eq_iff]
    refine ⟨hset, hsize, hepoch, hsprites, ?_⟩
    simp only [addCue, hset, htime, action_congr hepoch]

theorem modifyColor_congr (h : s.outline = t.outline) (index : UInt8) (color : Color) :
    (s.modifyColor index color).1 = (t.modifyColor index color).1 ∧
      (s.modifyColor index color).2.outline = (t.modifyColor index color).2.outline := by
  have kept : ∀ u : Stage, (u.modifyColor index color).2.outline = u.outline := by
    intro u
    unfold modifyColor
    simp only
    split <;> simp
  refine ⟨?_, by rw [kept, kept, h]⟩
  obtain ⟨-, hsize, -, -, -⟩ := outline_eq_iff.1 h
  simp only [modifyColor, fst_writeColor, contains_congr hsize]

theorem append_congr (h : s.outline = t.outline) (color : Color) :
    (s.palette.append color).1 = (t.palette.append color).1 ∧
      (s.palette.append color).2.size = (t.palette.append color).2.size := by
  obtain ⟨-, hsize, -, -, -⟩ := outline_eq_iff.1 h
  simp only [Palette.size] at hsize ⊢
  unfold Palette.append
  by_cases hfull : s.palette.colors.size < Palette.maxSize
  · rw [dif_pos hfull, dif_pos (hsize ▸ hfull)]
    simp [hsize]
  · rw [dif_neg hfull, dif_neg (hsize ▸ hfull)]
    exact ⟨rfl, hsize⟩

/-- **On stages of one outline a command has one result, and leaves stages of one outline.** -/
theorem apply_congr (h : s.outline = t.outline) (c : Command) :
    (s.apply c).1 = (t.apply c).1 ∧ (s.apply c).2.outline = (t.apply c).2.outline := by
  obtain ⟨hset, hsize, hepoch, hsprites, htime⟩ := outline_eq_iff.1 h
  cases c with
  | paletteReset =>
    refine ⟨rfl, outline_eq_iff.2 ⟨hset, rfl, hepoch, hsprites, htime⟩⟩
  | paletteAppend color =>
    obtain ⟨hresult, hcount⟩ := append_congr h color
    simp only [apply]
    generalize s.palette.append color = a at hresult hcount ⊢
    generalize t.palette.append color = b at hresult hcount ⊢
    obtain ⟨r, p⟩ := a
    obtain ⟨r', p'⟩ := b
    obtain rfl : r = r' := hresult
    cases r with
    | ok index => exact ⟨rfl, outline_eq_iff.2 ⟨hset, hcount, hepoch, hsprites, htime⟩⟩
    | error e => exact ⟨rfl, outline_eq_iff.2 ⟨hset, hcount, hepoch, hsprites, htime⟩⟩
  | paletteModify index color =>
    obtain ⟨houtcome, houtline⟩ := modifyColor_congr h index color
    exact ⟨congrArg Except.ok houtcome, houtline⟩
  | clear =>
    refine ⟨rfl, outline_eq_iff.2 ⟨hset, hsize, ?_, rfl, rfl⟩⟩
    simp only [apply, Scene.clear, hepoch]
  | bitmap b =>
    simp only [apply, bitmapCanvas_congr hset]
    cases t.bitmapCanvas b with
    | ok canvas =>
      obtain ⟨houtcome, houtline⟩ := addSprite_congr h b.x b.y canvas b.depth
      exact ⟨congrArg Except.ok houtcome, houtline⟩
    | error e => exact ⟨rfl, h⟩
  | template p =>
    simp only [apply, templateCanvas_congr hset hsize]
    cases t.templateCanvas p with
    | ok canvas =>
      obtain ⟨houtcome, houtline⟩ := addSprite_congr h p.x p.y canvas .eight
      exact ⟨congrArg Except.ok houtcome, houtline⟩
    | error e => exact ⟨rfl, h⟩
  | animation a =>
    obtain ⟨houtcome, houtline⟩ := addCue_congr h a
    exact ⟨congrArg Except.ok houtcome, houtline⟩

theorem applyFrame_congr (h : s.outline = t.outline) (f : Frame) :
    (s.applyFrame f).1 = (t.applyFrame f).1 ∧
      (s.applyFrame f).2.outline = (t.applyFrame f).2.outline := by
  unfold applyFrame
  cases Command.ofBytes f.bytes with
  | error e => exact ⟨rfl, h⟩
  | ok c =>
    obtain ⟨hresult, houtline⟩ := apply_congr h c
    simp only
    generalize s.apply c = a at hresult houtline ⊢
    generalize t.apply c = b at hresult houtline ⊢
    obtain ⟨r, s'⟩ := a
    obtain ⟨r', t'⟩ := b
    obtain rfl : r = r' := hresult
    cases r with
    | ok outcome => exact ⟨rfl, houtline⟩
    | error e => exact ⟨rfl, houtline⟩

end Stage

end Marquee
