import Marquee.Scene

/-!
# Changes of a scene

A scene is changed by the name of a sprite (`Scene.update`) or in all its sprites at once
(`Scene.rebind`). This file follows the sprite at one place through both.

* `Scene.Reaches` : the name stands for the sprite at a place.
* `Scene.getElem?_sprites_update` : what a change by name makes of each sprite, and
  `Scene.map_getElem?_update` of what is read of it.
* `Scene.update_update`, `Scene.update_rebind` : changes that are put together, or change places.
-/

namespace Marquee

namespace Scene

/-- The name stands for this place, as long as the scene is not cleared. -/
def Reaches (s : Scene) (ref : SpriteRef) (k : Nat) : Prop :=
  ref.epoch = s.epoch ∧ ref.index.toNat = k

instance (s : Scene) (ref : SpriteRef) (k : Nat) : Decidable (s.Reaches ref k) :=
  inferInstanceAs (Decidable (_ ∧ _))

theorem ext_getElem? {s t : Scene} (hepoch : s.epoch = t.epoch)
    (h : ∀ k : Nat, s.sprites[k]? = t.sprites[k]?) : s = t := by
  obtain ⟨sprites, epoch⟩ := s
  obtain ⟨sprites', epoch'⟩ := t
  obtain rfl : epoch = epoch' := hepoch
  obtain rfl : sprites = sprites' := Array.ext_getElem? h
  rfl

/-- A change by a name is a change of the sprite at its place. -/
theorem getElem?_sprites_update (s : Scene) (ref : SpriteRef) (f : Sprite → Sprite) (k : Nat) :
    (s.update ref f).sprites[k]? =
      s.sprites[k]?.map fun p => if s.Reaches ref k then f p else p := by
  unfold update Reaches
  split
  case isTrue hepoch =>
    rw [Array.getElem?_modify]
    by_cases hk : ref.index.toNat = k <;> simp [hepoch, hk]
  case isFalse hepoch => simp [hepoch]

/-- So is what is read of the sprite. -/
theorem map_getElem?_update {α : Type} (s : Scene) (ref : SpriteRef) (f : Sprite → Sprite)
    (g : Sprite → α) (k : Nat) :
    (s.update ref f).sprites[k]?.map g =
      s.sprites[k]?.map fun p => if s.Reaches ref k then g (f p) else g p := by
  rw [getElem?_sprites_update, Option.map_map]
  exact congrArg (Option.map · _) (funext fun p => apply_ite g _ (f p) p)

/-- What is read of a sprite, but for what colors it, stays when all sprites are colored anew. -/
theorem map_getElem?_rebind {α : Type} (s : Scene) (b : Snapshot) {g : Sprite → α}
    (hg : ∀ p, g (p.bind b) = g p) (k : Nat) :
    (s.rebind b).sprites[k]?.map g = s.sprites[k]?.map g := by
  rw [rebind, Array.getElem?_map, Option.map_map]
  exact congrArg (Option.map · _) (funext hg)

/-- Two changes by one name are one change. -/
theorem update_update (s : Scene) (ref : SpriteRef) (f g : Sprite → Sprite) :
    (s.update ref f).update ref g = s.update ref fun p => g (f p) := by
  refine ext_getElem? (by simp) fun k => ?_
  simp only [getElem?_sprites_update, Option.map_map, Reaches, epoch_update]
  refine congrArg (Option.map · _) (funext fun p => ?_)
  by_cases h : ref.epoch = s.epoch ∧ ref.index.toNat = k <;> simp [h]

@[simp] theorem rebind_rebind (s : Scene) (b c : Snapshot) : (s.rebind b).rebind c = s.rebind c := by
  rw [rebind, rebind, rebind, Array.map_map]
  rfl

/-- Sprites may be bound before or behind a change that does not look at what colors them. -/
theorem update_rebind (s : Scene) (b : Snapshot) (ref : SpriteRef) {f : Sprite → Sprite}
    (hf : ∀ p, f (p.bind b) = (f p).bind b) :
    (s.rebind b).update ref f = (s.update ref f).rebind b := by
  refine ext_getElem? (by simp) fun k => ?_
  simp only [getElem?_sprites_update, rebind, Array.getElem?_map, Option.map_map, Reaches]
  refine congrArg (Option.map · _) (funext fun p => ?_)
  by_cases h : ref.epoch = s.epoch ∧ ref.index.toNat = k <;> simp [h, hf]

end Scene

end Marquee
