import Marquee.Proofs.Stage.Playback
import Marquee.Proofs.Stage.Renewal

/-!
# A cue that is played again

While a cue is active, each tick carries out all of its actions. They need not agree with each other: a
cue may give one color twice, or one sprite two places. Still the second time shows nothing new, since of
all actions for a color or a sprite the last one decides, whatever was there before.

* `Action.last?` : what the last action gives that gives anything.
* `Stage.Governed` : a part of a stage that each action sets or leaves alone. Colors and placements are such
  parts; behind a cue they are what the last action gives (`Stage.Governed.performCue`), so behind the same
  cue again they are the same (`Stage.Governed.again`).
* `Stage.Idle` : an action that changes no color. A cue of such actions makes no snapshot, and any other
  leaves a snapshot with the colors of the palette (`Stage.performAll_of_idle`,
  `Stage.inStep_performAll`).
* `Stage.look_performTwice` : so the look behind a cue is the look behind the same cue again.
* `Stage.replay_changes_nothing` : **the same cue again leaves the same look**, and the same snapshots too
  unless it gives one color two values.
-/

namespace Marquee

open Wire

namespace Action

variable {α : Type}

/-- What the last of some actions gives that gives anything. -/
def last? (gives : Action → Option α) (actions : List Action) : Option α :=
  actions.reverse.findSome? gives

theorem last?_cons (gives : Action → Option α) (a : Action) (rest : List Action) :
    last? gives (a :: rest) = (last? gives rest).or (gives a) := by
  rw [last?, List.reverse_cons, List.findSome?_append, last?]
  simp

theorem exists_of_last? {gives : Action → Option α} {actions : List Action} {v : α}
    (h : last? gives actions = some v) : ∃ a ∈ actions, gives a = some v := by
  obtain ⟨a, ha, hgives⟩ := List.exists_of_findSome?_eq_some h
  exact ⟨a, List.mem_reverse.1 ha, hgives⟩

theorem isSome_last? {gives : Action → Option α} {actions : List Action} {a : Action}
    (ha : a ∈ actions) (h : (gives a).isSome) : (last? gives actions).isSome := by
  rw [last?, List.findSome?_isSome_iff]
  exact ⟨a, List.mem_reverse.2 ha, h⟩

/-- The color that an action gives to the index `k`, if it gives one. -/
def color? (k : Nat) : Action → Option Color
  | .place .. => none
  | .recolor index color => if index.toNat = k then some color else none

theorem eq_recolor_of_color? {a : Action} {index : UInt8} {color : Color}
    (h : a.color? index.toNat = some color) : a = .recolor index color := by
  cases a with
  | place => simp [color?] at h
  | recolor index' color' =>
    simp only [color?, Option.ite_none_right_eq_some, Option.some.injEq] at h
    obtain ⟨hindex, rfl⟩ := h
    rw [UInt8.toNat_inj.1 hindex]

/-- Where an action puts the sprite at a place of the scene, and whether it shows it. -/
def placement? (epoch : UInt32) (k : Nat) : Action → Option (Nat × Nat × Bool)
  | .place ref x y visible =>
    if ref.epoch = epoch ∧ ref.index.toNat = k then some (x, y, visible) else none
  | .recolor .. => none

end Action

namespace Stage

/-! ### The last action decides -/

/-- A part of a stage that each action sets to a value of its own or leaves alone, in this epoch. Neither
the clock nor what colors the sprites shows in it. -/
structure Governed {α : Type} (epoch : UInt32) (read : Stage → Option α)
    (gives : Action → Option α) : Prop where
  perform : ∀ (s : Stage) (a : Action), s.scene.epoch = epoch →
    read (s.perform a).2 = (read s).map (gives a).getD
  rebind : ∀ s : Stage, read s.rebind = read s
  told : ∀ (s : Stage) (now : Nat), read (s.told now) = read s

section

variable {s : Stage} {α : Type} {epoch : UInt32} {read : Stage → Option α}
  {gives : Action → Option α}

/-- What is given nothing is left alone. -/
theorem map_getD_none (o : Option α) : o.map (none : Option α).getD = o := by
  cases o <;> rfl

theorem epoch_perform (s : Stage) (a : Action) : (s.perform a).2.scene.epoch = s.scene.epoch :=
  (outline_eq_iff.1 (outline_perform s a)).2.2.1

@[simp] theorem outline_performCue (s : Stage) (cue : Cue) : (s.performCue cue).outline = s.outline := by
  unfold performCue
  split <;> simp

theorem Governed.performAll (h : Governed epoch read gives) (hepoch : s.scene.epoch = epoch)
    (recolored : Bool) (actions : List Action) :
    read (s.performAll recolored actions).2 = (read s).map (Action.last? gives actions).getD := by
  induction actions generalizing recolored s with
  | nil => exact (map_getD_none _).symm
  | cons a rest ih =>
    rw [performAll_cons, ih ((epoch_perform s a).trans hepoch), h.perform s a hepoch, Option.map_map,
      Action.last?_cons]
    exact congrArg (Option.map · _) (funext fun _ => Option.getD_or.symm)

/-- **Behind a cue is what the last action gives.** -/
theorem Governed.performCue (h : Governed epoch read gives) (hepoch : s.scene.epoch = epoch) (cue : Cue) :
    read (s.performCue cue) = (read s).map (Action.last? gives cue.actions).getD := by
  unfold Stage.performCue
  split
  · rw [h.rebind, h.performAll hepoch]
  · exact h.performAll hepoch _ _

end

/-! ### Colors and placements -/

theorem colors_writeColor (s : Stage) (index : UInt8) (color : Color) :
    (s.writeColor index color).2.palette.colors =
      s.palette.colors.setIfInBounds index.toNat color := by
  unfold writeColor
  split
  case h_1 hnone =>
    exact (Array.setIfInBounds_eq_of_size_le (Array.getElem?_eq_none_iff.1 hnone)).symm
  case h_2 old hold =>
    split
    case isTrue hsame =>
      obtain ⟨hlt, hget⟩ := Array.getElem?_eq_some_iff.1 hold
      rw [← hsame, ← hget, Array.setIfInBounds, dif_pos hlt, Array.set_getElem_self]
    case isFalse => rfl

/-- A color is governed by the actions that overwrite it. -/
theorem governed_color (epoch : UInt32) (k : Nat) :
    Governed epoch (fun s => s.palette.colors[k]?) (Action.color? k) where
  perform s a _ := by
    cases a with
    | place => exact (map_getD_none _).symm
    | recolor index color =>
      simp only [perform, colors_writeColor, Action.color?, Array.getElem?_setIfInBounds]
      by_cases hk : index.toNat = k
      · subst hk
        by_cases hlt : index.toNat < s.palette.colors.size <;> simp [hlt]
      · simp [hk, map_getD_none]
  rebind _ := rfl
  told _ _ := rfl

/-- Where a sprite is and whether it is shown is governed by the actions that name it. -/
theorem governed_placement (epoch : UInt32) (k : Nat) :
    Governed epoch (fun s => s.scene.sprites[k]?.map placement) (Action.placement? epoch k) where
  perform s a hepoch := by
    cases a with
    | place ref x y visible =>
      subst hepoch
      have hgives : Action.placement? s.scene.epoch k (.place ref x y visible) =
          if s.scene.Reaches ref k then some (x, y, visible) else none := rfl
      simp only [perform, Scene.map_getElem?_update, Option.map_map, hgives]
      refine congrArg (Option.map · _) (funext fun p => ?_)
      by_cases h : s.scene.Reaches ref k
      · rw [if_pos h, Function.comp, if_pos h]
        rfl
      · rw [if_neg h, Function.comp, if_neg h]
        rfl
    | recolor index color =>
      rw [placement_perform s (.recolor index color) k (by simp)]
      exact (map_getD_none _).symm
  rebind s := s.scene.map_getElem?_rebind s.snapshot (fun _ => rfl) k
  told _ _ := rfl

/-! ### When a snapshot is made -/

/-- An action that overwrites no color by another one. -/
def Idle (p : Palette) : Action → Prop
  | .place .. => True
  | .recolor index color => ∀ old ∈ p.get? index, old = color

section

variable {s : Stage} {a : Action} {actions : List Action}

theorem perform_of_idle (h : Idle s.palette a) :
    (s.perform a).2.palette = s.palette ∧ (s.perform a).2.snapshot = s.snapshot := by
  cases a with
  | place => exact ⟨rfl, rfl⟩
  | recolor index color =>
    simp only [perform, writeColor]
    split
    · exact ⟨rfl, rfl⟩
    case h_2 old hold =>
      rw [if_pos (h old hold)]
      exact ⟨rfl, rfl⟩

theorem inStep_perform (h : ¬ Idle s.palette a) : (s.perform a).2.InStep := by
  cases a with
  | place => exact absurd trivial h
  | recolor index color =>
    simp only [Idle, not_forall] at h
    obtain ⟨old, hold, hother⟩ := h
    simp only [perform, writeColor, Option.mem_def.1 hold, if_neg hother]
    exact inStep_refresh _

/-- Where no color changes, neither does the snapshot. -/
theorem performAll_of_idle (h : ∀ a ∈ actions, Idle s.palette a) (recolored : Bool) :
    (s.performAll recolored actions).2.palette = s.palette ∧
      (s.performAll recolored actions).2.snapshot = s.snapshot := by
  induction actions generalizing recolored s with
  | nil => exact ⟨rfl, rfl⟩
  | cons a rest ih =>
    obtain ⟨hpalette, hsnapshot⟩ := perform_of_idle (h a List.mem_cons_self)
    rw [performAll_cons, ← hpalette, ← hsnapshot]
    refine ih (fun a' ha => ?_) _
    rw [hpalette]
    exact h a' (List.mem_cons_of_mem a ha)

/-- Where a color changes, the snapshot behind all actions has the colors of the palette. -/
theorem inStep_performAll (h : ¬ ∀ a ∈ actions, Idle s.palette a) (recolored : Bool) :
    (s.performAll recolored actions).2.InStep := by
  induction actions generalizing recolored s with
  | nil => exact absurd (fun _ ha => absurd ha List.not_mem_nil) h
  | cons a rest ih =>
    rw [performAll_cons]
    by_cases hidle : Idle s.palette a
    · refine ih (fun hrest => h ?_) _
      rw [(perform_of_idle hidle).1] at hrest
      exact List.forall_mem_cons.2 ⟨hidle, hrest⟩
    · exact (inStep_perform hidle).performAll _ _

end

/-! ### The same cue again -/

theorem palette_performCue (s : Stage) (cue : Cue) :
    (s.performCue cue).palette = (s.performAll false cue.actions).2.palette := by
  unfold performCue
  split <;> rfl

theorem snapshot_performCue (s : Stage) (cue : Cue) :
    (s.performCue cue).snapshot = (s.performAll false cue.actions).2.snapshot := by
  unfold performCue
  split <;> rfl

/-- A cue that overwrites a color binds all sprites to the snapshot behind it, and no other cue binds
any. -/
theorem bindings_performCue (s : Stage) (cue : Cue) :
    (s.performCue cue).bindings =
      if (s.performAll false cue.actions).1 then s.bindings.map fun _ => (s.performCue cue).snapshot
      else s.bindings := by
  rw [snapshot_performCue]
  unfold performCue
  split
  · rw [bindings_rebind, bindings_performAll]
  · exact bindings_performAll s false cue.actions

/-- Whether a cue overwrites a color depends on the outline only. -/
theorem fst_performAll_congr {s t : Stage} (h : s.outline = t.outline) (actions : List Action) :
    (s.performAll false actions).1 = (t.performAll false actions).1 := by
  rw [Bool.eq_iff_iff, fst_performAll, fst_performAll, recolors_congr h]

theorem performCue_of_idle {s : Stage} {cue : Cue} (h : ∀ a ∈ cue.actions, Idle s.palette a) :
    (s.performCue cue).palette = s.palette ∧ (s.performCue cue).snapshot = s.snapshot := by
  rw [palette_performCue, snapshot_performCue]
  exact performAll_of_idle h false

theorem inStep_performCue {s : Stage} {cue : Cue} (h : ¬ ∀ a ∈ cue.actions, Idle s.palette a) :
    (s.performCue cue).InStep := by
  unfold InStep
  rw [palette_performCue, snapshot_performCue]
  exact inStep_performAll h false

/-- A cue gives no color two values. -/
def Unanimous (s : Stage) (cue : Cue) : Prop :=
  ∀ index c d, s.palette.contains index = true → .recolor index c ∈ cue.actions →
    .recolor index d ∈ cue.actions → c = d

/-- The stage behind a cue and, when it is played at `now`, behind the same cue again. -/
def performTwice (s : Stage) (cue : Cue) (now : Nat) : Stage :=
  ((s.performCue cue).told now).performCue cue

/-- The same cue gives the same again. -/
theorem Governed.again {s : Stage} {α : Type} {epoch : UInt32} {read : Stage → Option α}
    {gives : Action → Option α} (h : Governed epoch read gives) (hepoch : s.scene.epoch = epoch)
    (cue : Cue) (now : Nat) : read (s.performTwice cue now) = read (s.performCue cue) := by
  have hepoch' : ((s.performCue cue).told now).scene.epoch = epoch :=
    (outline_eq_iff.1 (outline_performCue s cue)).2.2.1.trans hepoch
  rw [performTwice, h.performCue hepoch', h.told, h.performCue hepoch, Option.map_map]
  refine congrArg (Option.map · _) (funext fun old => ?_)
  cases Action.last? gives cue.actions <;> rfl

section

variable (s : Stage) (cue : Cue) (now : Nat)

theorem outline_performTwice : (s.performTwice cue now).outline = (s.performCue cue).outline :=
  outline_performCue ((s.performCue cue).told now) cue

theorem colors_performTwice :
    (s.performTwice cue now).palette.colors = (s.performCue cue).palette.colors :=
  Array.ext_getElem? fun k => (governed_color s.scene.epoch k).again rfl cue now

/-- The current snapshot has the same colors again, even where they are not those of the palette. -/
theorem snapshot_colors_performTwice :
    (s.performTwice cue now).snapshot.colors = (s.performCue cue).snapshot.colors := by
  by_cases hidle : ∀ a ∈ cue.actions, Idle (s.performCue cue).palette a
  · exact congrArg Snapshot.colors (performCue_of_idle (s := (s.performCue cue).told now) hidle).2
  · -- the second time a color changes, so the first time one did as well
    have hfirst : (s.performCue cue).InStep := by
      refine inStep_performCue fun hall => hidle ?_
      rwa [(performCue_of_idle hall).1]
    have hsecond : (s.performTwice cue now).InStep := inStep_performCue hidle
    rw [hfirst, hsecond, colors_performTwice]

/-- What is read of the snapshots that color the sprites is the same again, if it is the same of the
current snapshot. -/
theorem map_bindings_performTwice {α : Type} {f : Snapshot → α}
    (hf : f (s.performTwice cue now).snapshot = f (s.performCue cue).snapshot) :
    (s.performTwice cue now).bindings.map f = (s.performCue cue).bindings.map f := by
  have hflag := fst_performAll_congr
    (show ((s.performCue cue).told now).outline = s.outline from outline_performCue s cue) cue.actions
  have hbefore : ((s.performCue cue).told now).bindings = (s.performCue cue).bindings := rfl
  rw [performTwice] at hf ⊢
  rw [bindings_performCue, hflag, hbefore, bindings_performCue s]
  split
  · simp only [Array.map_map, Function.comp_def, hf]
  · rfl

end

/-- Sprites that are drawn, placed and shown alike differ at most in what colors them. -/
theorem map_bind_congr {s t : Stage} {f : Snapshot → Snapshot} (houtline : s.outline = t.outline)
    (hplacement : ∀ k : Nat,
      s.scene.sprites[k]?.map placement = t.scene.sprites[k]?.map placement)
    (hbindings : s.bindings.map f = t.bindings.map f) :
    (s.scene.sprites.map fun p => p.bind (f p.palette)) =
      t.scene.sprites.map fun p => p.bind (f p.palette) := by
  apply Array.ext_getElem?
  intro k
  have hdrawn := congrArg (·[k]?) (outline_eq_iff.1 houtline).2.2.2.1
  have hbound := congrArg (·[k]?) hbindings
  have hplaced := hplacement k
  simp only [bindings, Array.getElem?_map, Option.map_map] at hdrawn hbound ⊢
  cases hs : s.scene.sprites[k]? with
  | none =>
    rw [hs, Option.map_none, eq_comm, Option.map_eq_none_iff] at hplaced
    rw [hplaced]
  | some p =>
    obtain ⟨q, ht, hpq⟩ : ∃ q, t.scene.sprites[k]? = some q ∧ placement q = placement p := by
      rwa [hs, Option.map_some, eq_comm, Option.map_eq_some_iff] at hplaced
    simp only [hs, ht, Option.map_some, Option.some.injEq, Function.comp] at hdrawn hbound ⊢
    simp only [placement, Sprite.outline, Prod.mk.injEq] at hpq hdrawn
    simp only [Sprite.bind, hbound, Sprite.mk.injEq, true_and]
    exact ⟨hpq.1.symm, hpq.2.1.symm, hdrawn.1, hdrawn.2, hpq.2.2.symm⟩

section

variable (s : Stage) (cue : Cue) (now : Nat)

theorem sprites_performTwice {f : Snapshot → Snapshot}
    (hf : f (s.performTwice cue now).snapshot = f (s.performCue cue).snapshot) :
    ((s.performTwice cue now).scene.sprites.map fun p => p.bind (f p.palette)) =
      (s.performCue cue).scene.sprites.map fun p => p.bind (f p.palette) :=
  map_bind_congr (outline_performTwice s cue now)
    (fun k => (governed_placement s.scene.epoch k).again rfl cue now)
    (map_bindings_performTwice s cue now hf)

/-- **Nothing that is seen is different again.** -/
theorem look_performTwice : (s.performTwice cue now).look = (s.performCue cue).look := by
  have hcurrent := snapshot_colors_performTwice s cue now
  exact look_eq_iff.2 ⟨colors_performTwice s cue now, hcurrent,
    sprites_performTwice (f := fun b => ⟨0, b.colors⟩) s cue now (congrArg (Snapshot.mk 0) hcurrent)⟩

variable {s cue}

/-- A cue that gives no color two values finds all colors as it wants them. -/
theorem Unanimous.idle (h : s.Unanimous cue) : ∀ a ∈ cue.actions, Idle (s.performCue cue).palette a := by
  intro a ha
  cases a with
  | place => trivial
  | recolor index color =>
    intro old hold
    have hread := (governed_color s.scene.epoch index.toNat).performCue (s := s) rfl cue
    have hsome : (Action.last? (Action.color? index.toNat) cue.actions).isSome :=
      Action.isSome_last? ha (by simp [Action.color?])
    obtain ⟨last, hlast⟩ := Option.isSome_iff_exists.1 hsome
    obtain ⟨a', ha', hgives⟩ := Action.exists_of_last? hlast
    obtain rfl : a' = .recolor index last := Action.eq_recolor_of_color? hgives
    change (s.performCue cue).palette.colors[index.toNat]? = some old at hold
    rw [hread, hlast, Option.map_eq_some_iff] at hold
    obtain ⟨before, hbefore, rfl⟩ := hold
    refine h index last color ?_ ha' ha
    rw [Palette.contains_iff, Palette.get?, hbefore]
    rfl

/-- Such a cue leaves the snapshots, too. -/
theorem Unanimous.performTwice (h : s.Unanimous cue) :
    (s.performTwice cue now).palette = (s.performCue cue).palette ∧
      (s.performTwice cue now).snapshot = (s.performCue cue).snapshot ∧
      (s.performTwice cue now).scene = (s.performCue cue).scene := by
  obtain ⟨hpalette, hsnapshot⟩ := performCue_of_idle (s := (s.performCue cue).told now) h.idle
  have hepoch := (outline_eq_iff.1 (outline_performTwice s cue now)).2.2.1
  have hsprites := sprites_performTwice (f := id) s cue now hsnapshot
  have hself (scene : Scene) : scene.sprites.map (fun p => p.bind (id p.palette)) = scene.sprites :=
    Array.map_id scene.sprites
  rw [hself, hself] at hsprites
  exact ⟨hpalette, hsnapshot, Scene.ext_getElem? hepoch fun k => by rw [hsprites]⟩

end

/-- **The same cue again changes nothing that is seen.** A stage is played twice in a row, and both times
tells the same cue. Then the second time leaves all colors of the palette, and the place, the visibility
and the colors of each sprite, as the first time left them, so all places of the screen have the color
that they had. If the cue gives no color of the palette two values, the second time leaves the snapshots
themselves. -/
theorem replay_changes_nothing (s : Stage) {now later i : Nat} (first : (s.tick now).1 = some i)
    (second : ((s.tick now).2.tick later).1 = some i) :
    let s₁ := (s.tick now).2
    let s₂ := (s₁.tick later).2
    s₂.look = s₁.look ∧ (∀ x y, s₂.colorAt x y = s₁.colorAt x y) ∧
      ((∀ cue, s.timeline.get? i = some cue → s.Unanimous cue) →
        s₂.palette = s₁.palette ∧ s₂.snapshot = s₁.snapshot ∧ s₂.scene = s₁.scene) := by
  obtain ⟨cue, hcue, hdue, -⟩ := dueCue_of_tick first
  obtain ⟨cue', hcue', hdue', -⟩ := dueCue_of_tick second
  have htimeline : (s.tick now).2.timeline = s.timeline :=
    (outline_eq_iff.1 (outline_tick s now)).2.2.2.2
  rw [htimeline, hcue, Option.some.injEq] at hcue'
  subst hcue'
  intro s₁ s₂
  have hs₁ : s₁ = (s.told now).performCue cue := snd_tick_of_dueCue hdue
  have hs₂ : s₂ = (s.told now).performTwice cue later := by
    rw [performTwice, ← hs₁]
    exact snd_tick_of_dueCue hdue'
  have hlook : s₂.look = s₁.look := by
    rw [hs₂, hs₁]
    exact look_performTwice (s.told now) cue later
  refine ⟨hlook, colorAt_of_look hlook, fun unanimous => ?_⟩
  rw [hs₂, hs₁]
  exact Unanimous.performTwice (s := s.told now) later (unanimous cue hcue)

/-- A cue gives a color two values, and a sprite two places. Its second time makes snapshots again, of the
same colors. -/
theorem replay_changes_nothing_of_quarrel :
    let red : Color := ⟨255, 0, 0⟩
    let quarrel : Animation := ⟨6, ⟨[.recolor 0 red, .place 0 30 40 false, .place 0 50 60 true,
      .recolor 0 .black, .place 3 0 0 true, .recolor 5 red], by decide⟩⟩
    let s := (new { minCues := 1 }).after
      [.command (.paletteAppend .black), .command (.bitmap ⟨120, 120, 1, 1, .eight, .replicate 256 0⟩),
        .command (.animation quarrel)]
    let s₁ := (s.tick 7).2
    let s₂ := (s₁.tick 9).2
    (s.tick 7).1 = some 0 ∧ (s₁.tick 9).1 = some 0 ∧ s₂.look = s₁.look ∧
      s₁.scene.sprites.map placement = #[(50, 60, true)] ∧
      s₁.snapshot.serial = 3 ∧ s₂.snapshot.serial = 5 := by
  intro red quarrel s s₁ s₂
  have first : (s.tick 7).1 = some 0 := by decide +kernel
  have second : (s₁.tick 9).1 = some 0 := by decide +kernel
  obtain ⟨hlook, -, -⟩ := replay_changes_nothing s first second
  exact ⟨first, second, hlook, by decide +kernel, by decide +kernel, by decide +kernel⟩

end Stage

end Marquee
