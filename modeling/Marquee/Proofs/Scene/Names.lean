import Marquee.Proofs.Stage.Outline
import Mathlib.Algebra.Group.Nat.Defs
import Mathlib.Data.List.DropRight
import Mathlib.Data.List.Induction

/-!
# What names of sprites stand for

A scene names a sprite when it is pushed, and it names any place ahead of its sprite. Names are held
while the scene changes in all the ways that it can: sprites are pushed, moved, shown, hidden and
colored, and the scene is cleared.

* `Scene.Names` : a scene gives a name to a place.
* `Scene.outlines_after` : the sprites of a scene are those pushed since it was cleared, in order.
* `Scene.toNat_epoch_after` : the epoch counts how often the scene was cleared, and wraps.
* `Scene.names_resolve` : **until the scene is cleared a name stands for the sprite that is pushed at
  its place, and after that for none**, as long as the epoch does not come round to its own again.
-/

namespace Marquee

/-- What happens to a scene. -/
inductive SceneInput where
  /-- A sprite is put on top. -/
  | push (sprite : Sprite)
  /-- The sprite of a name is centered elsewhere. -/
  | moveTo (ref : SpriteRef) (x y : Nat)
  /-- The sprite of a name is shown or hidden. -/
  | setVisible (ref : SpriteRef) (visible : Bool)
  /-- The sprite of a name is colored by another snapshot. -/
  | bind (ref : SpriteRef) (palette : Snapshot)
  /-- All sprites are colored by one snapshot. -/
  | rebind (palette : Snapshot)
  /-- All sprites are dropped. -/
  | clear
  deriving DecidableEq, Repr

/-- The sprite that is put on top, if one is. -/
def SceneInput.sprite? : SceneInput → Option Sprite
  | .push sprite => some sprite
  | _ => none

namespace Scene

/-! ### Runs -/

/-- The scene behind one input. -/
def step (s : Scene) : SceneInput → Scene
  | .push sprite => (s.push sprite).2
  | .moveTo ref x y => s.update ref fun p => p.moveTo x y
  | .setVisible ref visible => s.update ref fun p => p.setVisible visible
  | .bind ref palette => s.update ref fun p => p.bind palette
  | .rebind palette => s.rebind palette
  | .clear => s.clear

/-- The scene behind all inputs of a run. -/
def after (s : Scene) (inputs : List SceneInput) : Scene := inputs.foldl step s

/-- The sprites that a run pushed and did not clear away, in order. -/
def pushed (inputs : List SceneInput) : List Sprite :=
  (inputs.rtakeWhile fun i => !decide (i = .clear)).filterMap SceneInput.sprite?

theorem after_append (s : Scene) (before later : List SceneInput) :
    s.after (before ++ later) = (s.after before).after later := List.foldl_append

theorem after_concat (s : Scene) (inputs : List SceneInput) (i : SceneInput) :
    s.after (inputs ++ [i]) = (s.after inputs).step i := after_append s inputs [i]

theorem pushed_concat (inputs : List SceneInput) (i : SceneInput) :
    pushed (inputs ++ [i]) = if i = .clear then [] else pushed inputs ++ i.sprite?.toList := by
  rw [pushed, List.rtakeWhile_concat, pushed]
  by_cases h : i = .clear
  · simp [h]
  · cases hsprite : i.sprite? <;> simp [h, hsprite]

/-! ### One input -/

/-- Only a push adds a sprite, and only clearing drops some. -/
theorem outlines_step (s : Scene) (i : SceneInput) :
    (s.step i).sprites.toList.map Sprite.outline =
      if i = .clear then []
      else s.sprites.toList.map Sprite.outline ++ i.sprite?.toList.map Sprite.outline := by
  have hupdate (ref : SpriteRef) (f : Sprite → Sprite) (hf : ∀ p, (f p).outline = p.outline) :
      (s.update ref f).sprites.toList.map Sprite.outline = s.sprites.toList.map Sprite.outline := by
    rw [← Array.toList_map, Stage.map_update s ref hf, Array.toList_map]
  cases i with
  | push sprite => simp [step, push, SceneInput.sprite?]
  | moveTo ref x y => simpa [step, SceneInput.sprite?] using hupdate ref (·.moveTo x y) fun _ => rfl
  | setVisible ref visible =>
    simpa [step, SceneInput.sprite?] using hupdate ref (·.setVisible visible) fun _ => rfl
  | bind ref palette =>
    simpa [step, SceneInput.sprite?] using hupdate ref (·.bind palette) fun _ => rfl
  | rebind palette => simp [step, Scene.rebind, SceneInput.sprite?, Sprite.bind, Sprite.outline]
  | clear => rfl

/-- Only clearing begins a new epoch. -/
theorem epoch_step (s : Scene) (i : SceneInput) :
    (s.step i).epoch = if i = .clear then s.epoch + 1 else s.epoch := by
  cases i <;> simp [step, clear]

/-! ### Whole runs -/

/-- **The sprites of a scene are those pushed since it was cleared**, with the canvas and the depth
that they were pushed with. -/
theorem outlines_after (inputs : List SceneInput) :
    (empty.after inputs).sprites.toList.map Sprite.outline =
      (pushed inputs).map Sprite.outline := by
  induction inputs using List.reverseRecOn with
  | nil => rfl
  | append_singleton inputs i ih =>
    rw [after_concat, outlines_step, pushed_concat, ih]
    split
    · rfl
    · rw [List.map_append]

/-- **The epoch counts how often a scene was cleared.** -/
theorem toNat_epoch_after (s : Scene) (inputs : List SceneInput) :
    (s.after inputs).epoch.toNat = (s.epoch.toNat + inputs.count .clear) % 2 ^ 32 := by
  induction inputs using List.reverseRecOn with
  | nil => exact (Nat.mod_eq_of_lt s.epoch.toNat_lt).symm
  | append_singleton inputs i ih =>
    rw [after_concat, epoch_step, List.count_append, List.count_singleton]
    split
    case isTrue hclear =>
      rw [UInt32.toNat_add, ih, hclear, UInt32.toNat_one]
      simp only [beq_self_eq_true, if_true]
      omega
    case isFalse hclear => simp [ih, hclear]

/-! ### Names -/

/-- A scene gives a name to a place: ahead of its sprite, or when the sprite is pushed. A name has
room for 65536 places. -/
inductive Names (s : Scene) : SpriteRef → Nat → Prop where
  /-- The place of a keyframe. -/
  | ahead (index : UInt8) : Names s (s.refAt index) index.toNat
  /-- The place of a sprite that is pushed. -/
  | onPush (sprite : Sprite) (room : s.size < 65536) : Names s (s.push sprite).1 s.size

theorem Names.epoch_eq {s : Scene} {ref : SpriteRef} {place : Nat} (h : s.Names ref place) :
    ref.epoch = s.epoch := by
  cases h <;> rfl

theorem Names.toNat_index {s : Scene} {ref : SpriteRef} {place : Nat} (h : s.Names ref place) :
    ref.index.toNat = place := by
  cases h with
  | ahead index => simp [refAt]
  | onPush sprite room =>
    simp only [push]
    exact UInt16.toNat_ofNat_of_lt' room

section

variable {s : Scene} {ref : SpriteRef}

theorem get?_of_epoch_eq (h : ref.epoch = s.epoch) : s.get? ref = s.sprites[ref.index.toNat]? :=
  if_pos h

theorem get?_of_epoch_ne (h : ref.epoch ≠ s.epoch) : s.get? ref = none := if_neg h

theorem update_of_epoch_ne (h : ref.epoch ≠ s.epoch) (f : Sprite → Sprite) : s.update ref f = s :=
  if_neg h

/-- In its epoch a name changes the sprite that it stands for, and no other. -/
theorem getElem?_update (h : ref.epoch = s.epoch) (f : Sprite → Sprite) (k : Nat) :
    (s.update ref f).sprites[k]? =
      if k = ref.index.toNat then (s.get? ref).map f else s.sprites[k]? := by
  rw [getElem?_sprites_update, get?_of_epoch_eq h]
  by_cases hk : k = ref.index.toNat
  · simp [Reaches, h, hk]
  · simp [Reaches, h, hk, Ne.symm hk]

end

/-- **What names of sprites stand for.** A scene, new at first, gives a name to a place, and then more
happens to it. As long as it is not cleared, the name stands for a sprite exactly while there are more
sprites than lie below the place, and this is the one that was pushed there, with its canvas and depth;
changes by the name reach that sprite and no other. Once the scene has been cleared, fewer than `2 ^ 32`
times, the name stands for no sprite, and changes by it reach none. -/
theorem names_resolve (before later : List SceneInput) {ref : SpriteRef} {place : Nat}
    (named : (empty.after before).Names ref place) :
    let s := empty.after (before ++ later)
    let clears := later.count .clear
    ref.index.toNat = place ∧
      (clears = 0 →
        ((s.get? ref).isSome ↔ place < s.size) ∧
          (s.get? ref).map Sprite.outline =
            (pushed (before ++ later))[place]?.map Sprite.outline ∧
          ∀ f k, (s.update ref f).sprites[k]? =
            if k = place then (s.get? ref).map f else s.sprites[k]?) ∧
      (1 ≤ clears → clears < 2 ^ 32 → s.get? ref = none ∧ ∀ f, s.update ref f = s) := by
  intro s clears
  have hcount : s.epoch.toNat = (ref.epoch.toNat + clears) % 2 ^ 32 := by
    rw [named.epoch_eq]
    exact (congrArg (·.epoch.toNat) (after_append empty before later)).trans (toNat_epoch_after _ later)
  have hlt : ref.epoch.toNat < 2 ^ 32 := ref.epoch.toNat_lt
  refine ⟨named.toNat_index, fun hnone => ?_, fun hsome hfew => ?_⟩
  · have hepoch : ref.epoch = s.epoch := UInt32.toNat_inj.1 (by omega)
    have hget : s.get? ref = s.sprites[place]? := by
      rw [get?_of_epoch_eq hepoch, named.toNat_index]
    refine ⟨?_, ?_, ?_⟩
    · rw [hget, isSome_getElem?]
      rfl
    · rw [hget, ← List.getElem?_map, ← outlines_after, List.getElem?_map, Array.getElem?_toList]
    · intro f k
      rw [getElem?_update hepoch, named.toNat_index]
  · have hepoch : ref.epoch ≠ s.epoch := by
      intro h
      have := congrArg UInt32.toNat h
      omega
    exact ⟨get?_of_epoch_ne hepoch, update_of_epoch_ne hepoch⟩

/-- A name is given ahead in the second epoch. Its sprite is pushed, moved by the name, and cleared
away with the others; what is pushed to its place then has another name. -/
theorem names_resolve_until_clear :
    let canvas : Canvas := ⟨1, 1, #[7], by decide, by decide, rfl⟩
    let sprite : Sprite := ⟨120, 120, canvas, ⟨0, #[]⟩, .four, true⟩
    let before : List SceneInput := [.push sprite, .clear, .push sprite]
    let ref : SpriteRef := ⟨1, 1⟩
    let later : List SceneInput := [.push { sprite with depth := .eight }, .moveTo ref 3 4]
    let s := empty.after (before ++ later)
    let s' := empty.after (before ++ (later ++ [.clear, .push sprite, .push sprite]))
    (empty.after before).Names ref 1 ∧
      (s.get? ref).map Sprite.outline = some (canvas, .eight) ∧
      (s.get? ref).map Sprite.x = some 3 ∧ s'.get? ref = none ∧ s'.size = 2 := by
  intro canvas sprite before ref later s s'
  have named : (empty.after before).Names ref 1 := .ahead 1
  obtain ⟨-, resolves, -⟩ := names_resolve before later named
  obtain ⟨-, -, ends⟩ := names_resolve before (later ++ [.clear, .push sprite, .push sprite]) named
  obtain ⟨-, houtline, -⟩ := resolves (by decide +kernel)
  obtain ⟨hnone, -⟩ := ends (by decide +kernel) (by decide +kernel)
  exact ⟨named, houtline.trans (by decide +kernel), by decide +kernel, hnone, by decide +kernel⟩

end Scene

end Marquee
