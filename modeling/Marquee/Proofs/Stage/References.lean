import Marquee.Proofs.Stage.Runs
import Mathlib.Data.List.DropRight

/-!
# What the stored cues name

A cue names sprites by their places in the scene, and it may name a place before there is a sprite.
Clearing the scene also empties the timeline, so a stored cue is always one that was sent for the
sprites of this scene, however often the scene was cleared and whatever its epoch has wrapped to.

* `Stage.sinceClear` : the turns of a run behind the last one that cleared the scene.
* `Stage.Turn.stays` : what the other turns add to sprites and cues, and that they change no more.
* `Stage.cueOf` : the cue that an animation becomes.
* `Stage.Follows`, `Stage.follows_after` : the sprites and cues of a stage are those of the turns
  since it was cleared, in order.
* `Stage.places_resolve` : **a stored cue names the sprites that were added since the scene was
  cleared, by the order in which they were added**, and moves or hides no others.
-/

namespace Marquee

open Wire

namespace Scene

theorem get?_refAt (s : Scene) (k : UInt8) : s.get? (s.refAt k) = s.sprites[k.toNat]? := by
  simp only [get?, refAt, if_true, UInt8.toNat_toUInt16]

end Scene

namespace Stage

/-! ### One turn -/

/-- What commands look at in each sprite, from the bottom to the top. -/
def outlines (s : Stage) : List (Canvas × Depth) := s.scene.sprites.toList.map Sprite.outline

/-- The cue that an animation becomes. -/
def cueOf (s : Stage) (a : Animation) : Cue :=
  ⟨s.settings.durationNs a.units, a.keyframes.val.map s.action⟩

/-- The name of the sprite at a place, in the epoch that is. -/
def nameOf (s : Stage) (place : Nat) : SpriteRef := ⟨s.scene.epoch, place.toUInt16⟩

theorem outlines_congr {s t : Stage} (h : s.outline = t.outline) : s.outlines = t.outlines := by
  obtain ⟨-, -, -, hsprites, -⟩ := outline_eq_iff.1 h
  rw [outlines, ← Array.toList_map, hsprites, Array.toList_map, outlines]

/-- Animations become cues by the time unit that is set and the epoch that is. -/
theorem cueOf_congr {s t : Stage} (hset : s.settings = t.settings)
    (hepoch : s.scene.epoch = t.scene.epoch) : s.cueOf = t.cueOf := by
  funext a
  simp only [cueOf, hset, action_congr hepoch]

namespace Turn

/-- The sprite that a turn puts on top, as it is then. -/
def newSprite? (t : Turn) : Option Sprite :=
  t.newName?.bind fun _ => t.after.scene.sprites.back?

/-- The animation that a turn carries out. -/
def animation? (t : Turn) : Option Animation :=
  match t.input with
  | .command (.animation a) => some a
  | _ => none

/-- What a turn does that does not clear the scene: at most it adds a sprite on top, or a cue in the
epoch that is. -/
structure Stays (t : Turn) : Prop where
  epoch : t.after.scene.epoch = t.stage.scene.epoch
  outlines : t.after.outlines = t.stage.outlines ++ (t.newSprite?.map Sprite.outline).toList
  name : t.newName? = t.newSprite?.map fun _ => t.stage.nameOf t.stage.outlines.length
  cues : t.after.timeline.cues.toList =
    t.stage.timeline.cues.toList ++ (t.animation?.map t.stage.cueOf).toList

/-- Where neither sprites nor cues are added, it is enough that none are lost. -/
theorem Stays.of_eq {t : Turn} (noName : t.newName? = none) (noAnimation : t.animation? = none)
    (epoch : t.after.scene.epoch = t.stage.scene.epoch)
    (outlines : t.after.outlines = t.stage.outlines)
    (timeline : t.after.timeline = t.stage.timeline) : Stays t := by
  refine ⟨epoch, ?_, ?_, ?_⟩
  · rw [outlines, newSprite?, noName]
    simp
  · rw [newSprite?, noName]
    rfl
  · rw [timeline, noAnimation]
    simp

/-- A sprite that is put on top is all that changes. -/
theorem Stays.of_addSprite {t : Turn} {x y : Nat} {canvas : Canvas} {depth : Depth}
    (hname : t.newName? = nameIn (.ok (t.stage.addSprite x y canvas depth).1))
    (noAnimation : t.animation? = none)
    (hafter : t.after = (t.stage.addSprite x y canvas depth).2) : Stays t := by
  have hnew : t.newSprite? = some ⟨x, y, canvas, t.stage.snapshot, depth, true⟩ := by
    rw [newSprite?, hname, hafter]
    simp [addSprite, nameIn, Scene.push]
  refine ⟨by rw [hafter]; rfl, ?_, ?_, ?_⟩
  · rw [hnew, hafter]
    simp [Stage.outlines, addSprite, Scene.push, Sprite.outline]
  · rw [hname, hnew]
    simp [addSprite, nameIn, Scene.push, nameOf, Stage.outlines]
  · rw [hafter, noAnimation]
    simp [addSprite]

theorem stays_command (s : Stage) (c : Command) (hc : c ≠ .clear) : Stays ⟨s, .command c⟩ := by
  have happlied := s.applied_apply c
  have hname : newName? ⟨s, .command c⟩ = nameIn (s.apply c).1 := rfl
  have hafter : after ⟨s, .command c⟩ = (s.apply c).2 := rfl
  generalize (s.apply c).1 = answer at happlied hname
  generalize (s.apply c).2 = s' at happlied hafter
  cases happlied with
  | refused refusable =>
    have noAnimation : animation? ⟨s, .command c⟩ = none := by
      cases c with
      | animation => simp [Refusable] at refusable
      | _ => rfl
    exact .of_eq hname noAnimation (by rw [hafter]) (by rw [hafter]) (by rw [hafter])
  | reset | appended =>
    exact .of_eq hname rfl (by rw [hafter]; rfl) (by rw [hafter]; rfl) (by rw [hafter]; rfl)
  | missed => exact .of_eq hname rfl (by rw [hafter]) (by rw [hafter]) (by rw [hafter])
  | @overwritten index color found =>
    obtain ⟨-, -, hepoch, -, htime⟩ := outline_eq_iff.1 (outline_writeColor s index color)
    refine .of_eq hname rfl (by rw [hafter]; exact hepoch) ?_ (by rw [hafter]; exact htime)
    rw [hafter]
    exact outlines_congr ((outline_rebind _).trans (outline_writeColor s index color))
  | cleared => exact absurd rfl hc
  | bitmap drawn => exact .of_addSprite hname rfl hafter
  | template drawn => exact .of_addSprite hname rfl hafter
  | animation a =>
    have hnone : newName? ⟨s, .command (.animation a)⟩ = none := hname
    refine ⟨by rw [hafter]; rfl, ?_, ?_, ?_⟩
    · rw [hafter, newSprite?, hnone]
      simp [Stage.outlines, addCue]
    · rw [newSprite?, hnone]
      rfl
    · rw [hafter]
      simp [addCue, Timeline.push, animation?, cueOf]

theorem stays_tick (s : Stage) (now : Nat) : Stays ⟨s, .tick now⟩ := by
  have houtline : (s.tick now).2.outline = s.outline := outline_tick s now
  obtain ⟨-, -, hepoch, -, htime⟩ := outline_eq_iff.1 houtline
  exact .of_eq rfl rfl hepoch (outlines_congr houtline) htime

/-- **A turn that does not clear the scene adds at most a sprite or a cue.** -/
theorem stays (t : Turn) (h : ¬ t.Clears) : Stays t := by
  obtain ⟨s, i⟩ := t
  cases i with
  | command c => exact stays_command s c fun hc => h (congrArg StageInput.command hc)
  | tick now => exact stays_tick s now

end Turn

/-! ### Whole runs -/

/-- The turns behind the last one that cleared the scene, or all if none did. -/
def sinceClear (turns : List Turn) : List Turn := turns.rtakeWhile fun t => !decide t.Clears

theorem sinceClear_concat (turns : List Turn) (t : Turn) :
    sinceClear (turns ++ [t]) = if t.Clears then [] else sinceClear turns ++ [t] := by
  rw [sinceClear, List.rtakeWhile_concat, sinceClear]
  by_cases h : t.Clears <;> simp [h]

theorem nameOf_congr {s t : Stage} (h : s.scene.epoch = t.scene.epoch) : s.nameOf = t.nameOf := by
  funext place
  simp only [nameOf, h]

/-- What a stage shows of the turns since it was cleared. -/
structure Follows (s : Stage) (recent : List Turn) : Prop where
  /-- The sprites are those that were added, the oldest at the bottom. -/
  outlines : s.outlines = (recent.filterMap Turn.newSprite?).map Sprite.outline
  /-- Each was told its place in the epoch that is. -/
  names : recent.filterMap Turn.newName? = (List.range s.outlines.length).map s.nameOf
  /-- The cues are those of the animations that were sent, and name sprites in the epoch that is. -/
  cues : s.timeline.cues.toList = (recent.filterMap Turn.animation?).map s.cueOf

theorem Follows.of_clears {t : Turn} (h : t.Clears) : Follows t.after [] := by
  obtain ⟨s, i⟩ := t
  obtain rfl : i = .command .clear := h
  exact ⟨rfl, rfl, rfl⟩

theorem Follows.of_stays {t : Turn} {recent : List Turn} (h : Follows t.stage recent)
    (hstays : t.Stays) : Follows t.after (recent ++ [t]) := by
  have hcueOf : t.after.cueOf = t.stage.cueOf :=
    cueOf_congr (settings_step t.stage t.input) hstays.epoch
  have hnameOf : t.after.nameOf = t.stage.nameOf := nameOf_congr hstays.epoch
  refine ⟨?_, ?_, ?_⟩
  · rw [hstays.outlines, h.outlines, List.filterMap_append, List.map_append]
    cases hnew : t.newSprite? <;> simp [hnew]
  · have hname := hstays.name
    rw [hstays.outlines, hnameOf, List.filterMap_append, h.names]
    cases hnew : t.newSprite? with
    | none =>
      rw [hnew, Option.map_none] at hname
      simp [hname]
    | some sprite =>
      rw [hnew, Option.map_some] at hname
      simp [hname, List.range_succ]
  · rw [hstays.cues, h.cues, hcueOf, List.filterMap_append, List.map_append]
    cases hsent : t.animation? <;> simp [hsent]

/-- **A stage shows the turns since it was last cleared**, however often that was. -/
theorem follows_after (settings : StageSettings) (inputs : List StageInput) :
    Follows ((new settings).after inputs) (sinceClear ((new settings).turns inputs)) := by
  induction inputs using List.reverseRecOn with
  | nil => exact ⟨rfl, rfl, rfl⟩
  | append_singleton inputs i ih =>
    rw [after_concat, turns_concat, sinceClear_concat]
    change Follows (Turn.after ⟨(new settings).after inputs, i⟩) _
    by_cases hclears : Turn.Clears ⟨(new settings).after inputs, i⟩
    · rw [if_pos hclears]
      exact .of_clears hclears
    · rw [if_neg hclears]
      exact ih.of_stays (Turn.stays _ hclears)

/-! ### What the timeline moves -/

/-- Where a sprite is, and whether it is shown. -/
def placement (p : Sprite) : Nat × Nat × Bool := (p.x, p.y, p.visible)

/-- Only a sprite that an action names is moved, shown or hidden by it. -/
theorem placement_perform (s : Stage) (a : Action) (i : Nat)
    (unnamed : ∀ ref x y visible, a = .place ref x y visible → ref.index.toNat ≠ i) :
    (s.perform a).2.scene.sprites[i]?.map placement = s.scene.sprites[i]?.map placement := by
  cases a with
  | place ref x y visible =>
    have hother : ¬s.scene.Reaches ref i := fun h => unnamed ref x y visible rfl h.2
    simp only [perform, Scene.map_getElem?_update, if_neg hother]
  | recolor index color =>
    simp only [perform, writeColor]
    split
    · rfl
    · split <;> rfl

theorem placement_performAll (s : Stage) (recolored : Bool) (actions : List Action) (i : Nat)
    (unnamed : ∀ ref x y visible, .place ref x y visible ∈ actions → ref.index.toNat ≠ i) :
    (s.performAll recolored actions).2.scene.sprites[i]?.map placement =
      s.scene.sprites[i]?.map placement := by
  induction actions generalizing recolored s with
  | nil => rfl
  | cons a rest ih =>
    rw [performAll, ih, placement_perform]
    · intro ref x y visible ha
      exact unnamed ref x y visible (ha ▸ List.mem_cons_self)
    · intro ref x y visible ha
      exact unnamed ref x y visible (List.mem_cons_of_mem a ha)

/-- Only sprites that the due cue names are moved, shown or hidden by a tick. -/
theorem placement_tick (s : Stage) (now i : Nat)
    (unnamed : ∀ cue, s.dueCue now = some cue → ∀ ref x y visible,
      .place ref x y visible ∈ cue.actions → ref.index.toNat ≠ i) :
    (s.tick now).2.scene.sprites[i]?.map placement = s.scene.sprites[i]?.map placement := by
  rw [snd_tick]
  cases hdue : s.dueCue now with
  | none => rfl
  | some cue =>
    have hall := placement_performAll (s.told now) false cue.actions i (unnamed cue hdue)
    rw [Option.elim_some, performCue]
    split
    · exact (Scene.map_getElem?_rebind _ _ (fun _ => rfl) i).trans hall
    · exact hall

/-! ### What stored cues name -/

/-- A stored cue is that of an animation that was sent since the stage was cleared. -/
theorem Follows.animation_of_cue {s : Stage} {recent : List Turn} (h : Follows s recent) {j : Nat}
    {cue : Cue} (hcue : s.timeline.get? j = some cue) :
    ∃ a, (recent.filterMap Turn.animation?)[j]? = some a ∧
      cue.actions = a.keyframes.val.map s.action := by
  have hstored : s.timeline.cues.toList[j]? = some cue := by
    rw [Array.getElem?_toList]
    exact hcue
  rw [h.cues, List.getElem?_map, Option.map_eq_some_iff] at hstored
  obtain ⟨a, ha, rfl⟩ := hstored
  exact ⟨a, ha, rfl⟩

/-- An action that places a sprite comes from a keyframe that does, and names it in the epoch that
is. -/
theorem keyframe_of_place {s : Stage} {k : Keyframe} {ref : SpriteRef} {x y : Nat} {visible : Bool}
    (h : s.action k = .place ref x y visible) :
    ∃ index, k = .place index x y visible ∧ ref = s.scene.refAt index := by
  cases k with
  | place index x' y' visible' =>
    simp only [action, Action.place.injEq] at h
    obtain ⟨hindex, rfl, rfl, rfl⟩ := h
    exact ⟨index, rfl, hindex.symm⟩
  | recolor => simp [action] at h

/-- Keyframes name a sprite as it was named when it was added. -/
theorem Follows.newName_getElem? {s : Stage} {recent : List Turn} (h : Follows s recent) (k : UInt8) :
    (recent.filterMap Turn.newName?)[k.toNat]? =
      (s.scene.get? (s.scene.refAt k)).map fun _ => s.scene.refAt k := by
  have hname : s.nameOf k.toNat = s.scene.refAt k := by
    simp only [nameOf, Scene.refAt, SpriteRef.mk.injEq, true_and]
    exact UInt16.toNat_inj.1 (by simp)
  rw [h.names, Scene.get?_refAt, List.getElem?_map, ← Array.getElem?_toList]
  by_cases hk : k.toNat < s.scene.sprites.toList.length
  · rw [List.getElem?_range (by rwa [Stage.outlines, List.length_map]), List.getElem?_eq_getElem hk,
      Option.map_some, Option.map_some, hname]
  · rw [List.getElem?_eq_none (by simpa [Stage.outlines] using hk),
      List.getElem?_eq_none (Nat.le_of_not_lt hk)]
    rfl

theorem Follows.newSprite_getElem? {s : Stage} {recent : List Turn} (h : Follows s recent)
    (k : UInt8) :
    (s.scene.get? (s.scene.refAt k)).map Sprite.outline =
      (recent.filterMap Turn.newSprite?)[k.toNat]?.map Sprite.outline := by
  rw [Scene.get?_refAt, ← List.getElem?_map, ← h.outlines, Stage.outlines, List.getElem?_map,
    Array.getElem?_toList]

/-- **What stored cues name.** Behind any run of a new stage, each stored cue is that of an animation
sent since the scene was cleared. An action that came from a keyframe for place `k` names, in the epoch
that is, the sprite number `k`, counted from zero, of all that were added since then, before the
animation or behind it; while there are not more than `k`, it names none. So a tick moves, shows or
hides a sprite only if the animation of the cue that is due says so, and that was sent for the sprites
of this scene. -/
theorem places_resolve (settings : StageSettings) (inputs : List StageInput) :
    let s := (new settings).after inputs
    let recent := sinceClear ((new settings).turns inputs)
    let added := recent.filterMap Turn.newSprite?
    let names := recent.filterMap Turn.newName?
    let sent := recent.filterMap Turn.animation?
    (∀ j cue, s.timeline.get? j = some cue → ∃ a, sent[j]? = some a ∧
      ∀ (m : Nat) ref x y visible, cue.actions[m]? = some (Action.place ref x y visible) →
        ∃ k : UInt8, a.keyframes.val[m]? = some (Keyframe.place k x y visible) ∧
          ref.epoch = s.scene.epoch ∧
          ((s.scene.get? ref).isSome ↔ k.toNat < added.length) ∧
          (s.scene.get? ref).map Sprite.outline = added[k.toNat]?.map Sprite.outline ∧
          names[k.toNat]? = (s.scene.get? ref).map fun _ => ref) ∧
      ∀ now i sprite sprite', s.scene.sprites[i]? = some sprite →
        (s.tick now).2.scene.sprites[i]? = some sprite' → placement sprite' ≠ placement sprite →
          ∃ j a k x y visible, (s.playhead.tick now s.timeline).1 = some j ∧ sent[j]? = some a ∧
            Keyframe.place k x y visible ∈ a.keyframes.val ∧ k.toNat = i := by
  intro s recent added names sent
  have h : Follows s recent := follows_after settings inputs
  constructor
  · intro j cue hcue
    obtain ⟨a, ha, hactions⟩ := h.animation_of_cue hcue
    refine ⟨a, ha, ?_⟩
    intro m ref x y visible hplace
    rw [hactions, List.getElem?_map, Option.map_eq_some_iff] at hplace
    obtain ⟨keyframe, hkeyframe, haction⟩ := hplace
    obtain ⟨k, rfl, rfl⟩ := keyframe_of_place haction
    have hsprite := h.newSprite_getElem? k
    refine ⟨k, hkeyframe, rfl, ?_, hsprite, h.newName_getElem? k⟩
    have hsome := congrArg Option.isSome hsprite
    rw [Option.isSome_map, Option.isSome_map] at hsome
    rw [hsome, isSome_getElem?]
  · intro now i sprite sprite' hsprite hsprite' hmoved
    by_contra hnone
    refine hmoved ?_
    have hkept := placement_tick s now i ?_
    · rw [hsprite, hsprite', Option.map_some, Option.map_some, Option.some.injEq] at hkept
      exact hkept
    · intro cue hdue ref x y visible hplace hindex
      refine hnone ?_
      obtain ⟨j, hj, hcue⟩ := Option.bind_eq_some_iff.1 hdue
      obtain ⟨a, ha, hactions⟩ := h.animation_of_cue hcue
      rw [hactions, List.mem_map] at hplace
      obtain ⟨keyframe, hkeyframe, haction⟩ := hplace
      obtain ⟨k, rfl, rfl⟩ := keyframe_of_place haction
      refine ⟨j, a, k, x, y, visible, hj, ha, hkeyframe, ?_⟩
      simpa [Scene.refAt] using hindex

/-- An animation of the second epoch moves a sprite that is added after it. -/
theorem places_resolve_ahead :
    let mover : Animation := ⟨6, ⟨[.place 0 30 40 true], by decide⟩⟩
    let inputs : List StageInput :=
      [.command (.animation mover), .command .clear, .command (.animation mover),
        .command (.bitmap ⟨120, 120, 1, 1, .eight, .replicate 256 0⟩)]
    let s := (new {}).after inputs
    ∃ cue, s.timeline.get? 0 = some cue ∧ ∃ ref, cue.actions = [.place ref 30 40 true] ∧
      ref.epoch = s.scene.epoch ∧ (s.scene.get? ref).isSome = true := by
  intro mover inputs
  obtain ⟨hcues, -⟩ := places_resolve {} inputs
  have hcue : ((new {}).after inputs).timeline.get? 0 =
      some ⟨99999996, [.place ⟨1, 0⟩ 30 40 true]⟩ := by decide +kernel
  obtain ⟨a, ha, hplaces⟩ := hcues 0 _ hcue
  obtain ⟨k, hk, hepoch, hsome, -⟩ := hplaces 0 ⟨1, 0⟩ 30 40 true rfl
  -- the keyframe is the one that was sent
  have hsent : some a = some mover := ha.symm.trans (by decide +kernel)
  obtain rfl : a = mover := Option.some.inj hsent
  obtain rfl : k = 0 := by
    have := Option.some.inj hk
    simp only [Keyframe.place.injEq] at this
    exact this.1.symm
  refine ⟨_, hcue, ⟨1, 0⟩, rfl, hepoch, hsome.2 ?_⟩
  decide +kernel

end Stage

end Marquee
