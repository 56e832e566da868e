import Marquee.Proofs.Stage.Runs

/-!
# What colors the sprites

A sprite is colored by the snapshot that it is bound to, which may be older than the palette. Sprites
are bound when they are added, and all of them anew whenever a color is overwritten, by a command or by
the timeline.

* `Stage.InStep.step` : the current snapshot always has the palette's colors.
* `Stage.Turn.Bound`, `Stage.Turn.bound` : the four things that a turn can do to what colors the
  sprites.
* `Stage.binding_follows_writes` : **a sprite has the colors of the palette as they were when it was
  added or when a color was overwritten last, whichever came later.**
-/

namespace Marquee

open Wire

namespace Stage

/-! ### The current snapshot -/

section

variable {s : Stage}

theorem InStep.performAll (h : s.InStep) (recolored : Bool) (actions : List Action) :
    (s.performAll recolored actions).2.InStep := by
  induction actions generalizing recolored s with
  | nil => exact h
  | cons a rest ih =>
    rw [Stage.performAll]
    refine ih ?_ _
    cases a with
    | place => exact h
    | recolor index color => exact h.writeColor index color

theorem InStep.performCue (h : s.InStep) (cue : Cue) : (s.performCue cue).InStep := by
  have hall := h.performAll false cue.actions
  unfold Stage.performCue
  split
  · exact hall
  · exact hall

/-- **The current snapshot keeps the palette's colors.** -/
theorem InStep.step (h : s.InStep) (i : StageInput) : (s.step i).InStep := by
  cases i with
  | command c =>
    have happlied := s.applied_apply c
    rw [Stage.step]
    generalize (s.apply c).1 = answer at happlied
    generalize (s.apply c).2 = s' at happlied ⊢
    cases happlied with
    | reset | appended => exact inStep_refresh _
    | overwritten => exact h.writeColor _ _
    | refused | missed | cleared | bitmap | template | animation => exact h
  | tick now =>
    rw [Stage.step, snd_tick]
    cases s.dueCue now with
    | none => exact h
    | some cue => exact InStep.performCue (s := s.told now) h cue

theorem inStep_after (settings : StageSettings) (inputs : List StageInput) :
    ((new settings).after inputs).InStep := by
  induction inputs using List.reverseRecOn with
  | nil => exact inStep_new settings
  | append_singleton inputs i ih =>
    rw [after_concat]
    exact ih.step i

end

/-! ### One turn -/

/-- What colors the sprites, from the bottom to the top. -/
def bindings (s : Stage) : Array Snapshot := s.scene.sprites.map Sprite.palette

theorem getElem?_bindings (s : Stage) (k : Nat) :
    s.bindings[k]? = s.scene.sprites[k]?.map Sprite.palette := Array.getElem?_map

theorem size_bindings (s : Stage) : s.bindings.size = s.scene.size := Array.size_map

theorem bindings_rebind (s : Stage) : s.rebind.bindings = s.bindings.map fun _ => s.snapshot := by
  rw [bindings, rebind, Scene.rebind, bindings, Array.map_map, Array.map_map]
  rfl

theorem bindings_writeColor (s : Stage) (index : UInt8) (color : Color) :
    (s.writeColor index color).2.bindings = s.bindings := by
  unfold writeColor
  split
  · rfl
  · split <;> rfl

theorem bindings_performAll (s : Stage) (recolored : Bool) (actions : List Action) :
    (s.performAll recolored actions).2.bindings = s.bindings := by
  induction actions generalizing recolored s with
  | nil => rfl
  | cons a rest ih =>
    rw [performAll, ih]
    cases a with
    | place sprite x y visible => exact map_update s.scene sprite fun _ => rfl
    | recolor index color => exact bindings_writeColor s index color

namespace Turn

/-- What a turn does to what colors the sprites. -/
inductive Bound (t : Turn) : Prop where
  /-- A color is overwritten: all sprites are bound to the new snapshot. -/
  | anew (overwrites : t.Overwrites) (none : t.adds = false)
      (bound : t.after.bindings = t.stage.bindings.map fun _ => t.after.snapshot)
  /-- A sprite is added: it is bound to the current snapshot. -/
  | added (plain : ¬ t.Overwrites) (adds : t.adds = true)
      (bound : t.after.bindings = t.stage.bindings.push t.after.snapshot)
  /-- The scene is cleared. -/
  | dropped (plain : ¬ t.Overwrites) (clears : t.Clears) (bound : t.after.bindings = #[])
  /-- Nothing is bound. -/
  | kept (plain : ¬ t.Overwrites) (none : t.adds = false)
      (bound : t.after.bindings = t.stage.bindings)

theorem bound_command (s : Stage) (c : Command) : Bound ⟨s, .command c⟩ := by
  have happlied := s.applied_apply c
  have hadds : adds ⟨s, .command c⟩ = (nameIn (s.apply c).1).isSome := rfl
  have hafter : after ⟨s, .command c⟩ = (s.apply c).2 := rfl
  generalize (s.apply c).1 = answer at happlied hadds
  generalize (s.apply c).2 = s' at happlied hafter
  cases happlied with
  | refused refusable =>
    have hplain : ¬ Overwrites ⟨s, .command c⟩ := by
      cases c with
      | paletteModify => simp [Refusable] at refusable
      | _ => exact id
    exact .kept hplain hadds (by rw [hafter])
  | reset => exact .kept id hadds (by rw [hafter]; rfl)
  | appended room => exact .kept id hadds (by rw [hafter]; rfl)
  | overwritten found =>
    refine .anew found hadds ?_
    rw [hafter, bindings_rebind, bindings_writeColor]
    rfl
  | @missed index color missing =>
    have hplain : ¬ Overwrites ⟨s, .command (.paletteModify index color)⟩ := by
      simp [Overwrites, missing]
    exact .kept hplain hadds (by rw [hafter])
  | cleared => exact .dropped id rfl (by rw [hafter]; exact Array.map_empty)
  | bitmap drawn =>
    exact .added id hadds (by rw [hafter, bindings, addSprite, Scene.push, Array.map_push]; rfl)
  | template drawn =>
    exact .added id hadds (by rw [hafter, bindings, addSprite, Scene.push, Array.map_push]; rfl)
  | animation a => exact .kept id hadds (by rw [hafter]; rfl)

theorem bound_tick (s : Stage) (now : Nat) : Bound ⟨s, .tick now⟩ := by
  have hafter : after ⟨s, .tick now⟩ = (s.dueCue now).elim (s.told now) (s.told now).performCue :=
    s.snd_tick now
  cases hdue : s.dueCue now with
  | none =>
    rw [hdue] at hafter
    have hplain : ¬ Overwrites ⟨s, .tick now⟩ := by
      rintro ⟨cue, hcue, -⟩
      rw [hdue] at hcue
      cases hcue
    exact .kept hplain rfl (by rw [hafter]; rfl)
  | some cue =>
    rw [hdue] at hafter
    have hflag : ((s.told now).performAll false cue.actions).1 = true ↔
        Overwrites ⟨s, .tick now⟩ := by
      rw [fst_performAll, recolors_congr (show (s.told now).outline = s.outline from rfl)]
      simp [Overwrites, hdue]
    have hkept : ((s.told now).performAll false cue.actions).2.bindings = s.bindings :=
      bindings_performAll (s.told now) false cue.actions
    change after ⟨s, .tick now⟩ = (s.told now).performCue cue at hafter
    unfold performCue at hafter
    by_cases hover : Overwrites ⟨s, .tick now⟩
    · rw [if_pos (hflag.2 hover)] at hafter
      refine .anew hover rfl ?_
      rw [hafter, bindings_rebind, hkept]
      rfl
    · rw [if_neg (fun h => hover (hflag.1 h))] at hafter
      exact .kept hover rfl (by rw [hafter, hkept])

/-- **A turn does one of the four things.** -/
theorem bound (t : Turn) : Bound t := by
  obtain ⟨s, i⟩ := t
  cases i with
  | command c => exact bound_command s c
  | tick now => exact bound_tick s now

/-- A turn binds the sprite at a place: it puts it there, or overwrites a color. -/
def BindsAt (k : Nat) (t : Turn) : Prop :=
  (t.adds = true ∧ t.stage.scene.size = k) ∨ t.Overwrites

end Turn

/-! ### Whole runs -/

/-- Of all turns with a property this is the last. -/
def IsLast (p : Turn → Prop) (turns : List Turn) (t : Turn) : Prop :=
  p t ∧ ∃ before behind, turns = before ++ t :: behind ∧ ∀ u ∈ behind, ¬ p u

theorem isLast_concat {p : Turn → Prop} (turns : List Turn) {t : Turn} (h : p t) :
    IsLast p (turns ++ [t]) t :=
  ⟨h, turns, [], rfl, fun _ hu => absurd hu List.not_mem_nil⟩

theorem IsLast.concat {p : Turn → Prop} {turns : List Turn} {t u : Turn} (h : IsLast p turns t)
    (hu : ¬ p u) : IsLast p (turns ++ [u]) t := by
  obtain ⟨ht, before, behind, rfl, hbehind⟩ := h
  refine ⟨ht, before, behind ++ [u], by simp, ?_⟩
  intro v hv
  rcases List.mem_append.1 hv with hv | hv
  · exact hbehind v hv
  · rwa [List.mem_singleton.1 hv]

/-- The colors of a sprite are those that the palette had behind the last turn that bound it. -/
theorem exists_isLast_bindsAt (settings : StageSettings) (inputs : List StageInput) (k : Nat)
    {b : Snapshot} (hb : ((new settings).after inputs).bindings[k]? = some b) :
    ∃ t, IsLast (Turn.BindsAt k) ((new settings).turns inputs) t ∧
      b.colors = t.after.palette.colors := by
  induction inputs using List.reverseRecOn generalizing b with
  | nil => simp [after, bindings, new, Scene.empty] at hb
  | append_singleton inputs i ih =>
    rw [turns_concat]
    have hstep : ((new settings).after inputs).step i =
      Turn.after ⟨(new settings).after inputs, i⟩ := rfl
    have hsync : (Turn.after ⟨(new settings).after inputs, i⟩).InStep :=
      (inStep_after settings inputs).step i
    rw [after_concat, hstep] at hb
    have hbound := Turn.bound ⟨(new settings).after inputs, i⟩
    generalize hs : (new settings).after inputs = s at hb hsync hbound ih ⊢
    cases hbound with
    | anew overwrites none bound =>
      refine ⟨_, isLast_concat _ (.inr overwrites), ?_⟩
      rw [bound, Array.getElem?_map, Option.map_eq_some_iff] at hb
      obtain ⟨-, -, rfl⟩ := hb
      exact hsync
    | added plain adds bound =>
      rw [bound, Array.getElem?_push, size_bindings] at hb
      by_cases hk : k = s.scene.size
      · rw [if_pos hk, Option.some.injEq] at hb
        subst hb
        exact ⟨_, isLast_concat _ (.inl ⟨adds, hk.symm⟩), hsync⟩
      · -- the sprite below was not touched
        rw [if_neg hk] at hb
        obtain ⟨t, hlast, hcolors⟩ := ih hb
        refine ⟨t, hlast.concat ?_, hcolors⟩
        rintro (⟨-, hsize⟩ | hover)
        · exact hk hsize.symm
        · exact plain hover
    | dropped plain clears bound => simp [bound] at hb
    | kept plain none bound =>
      rw [bound] at hb
      obtain ⟨t, hlast, hcolors⟩ := ih hb
      refine ⟨t, hlast.concat ?_, hcolors⟩
      rintro (⟨hadds, -⟩ | hover)
      · rw [none] at hadds
        cases hadds
      · exact plain hover

/-- Where no color is overwritten and the scene stays, so does what colors each sprite. -/
theorem Turn.getElem?_bindings_after {t : Turn} (plain : ¬ t.Overwrites) (stays : ¬ t.Clears)
    {k : Nat} {b : Snapshot} (hb : t.stage.bindings[k]? = some b) : t.after.bindings[k]? = some b := by
  have hk : k < t.stage.bindings.size := (Array.getElem?_eq_some_iff.1 hb).1
  cases t.bound with
  | anew overwrites => exact absurd overwrites plain
  | added _ _ bound => rwa [bound, Array.getElem?_push, if_neg (Nat.ne_of_lt hk)]
  | dropped _ clears => exact absurd clears stays
  | kept _ _ bound => rwa [bound]

/-- Where a color is overwritten, all sprites are bound to the new snapshot. -/
theorem Turn.palette_eq_snapshot {t : Turn} (overwrites : t.Overwrites) {sprite : Sprite}
    (h : sprite ∈ t.after.scene.sprites) : sprite.palette = t.after.snapshot := by
  have hb : sprite.palette ∈ t.after.bindings := Array.mem_map_of_mem h
  cases t.bound with
  | anew _ _ bound =>
    rw [bound] at hb
    obtain ⟨_, _, heq⟩ := Array.mem_map.1 hb
    exact heq.symm
  | added plain | dropped plain | kept plain => exact absurd overwrites plain

/-- **What colors the sprites.** Behind any run of a new stage the current snapshot has the palette's
colors, and a sprite those that the palette had when it was added or when a color was overwritten last,
whichever came later. Turns that overwrite a color bind all sprites to one snapshot. All other turns
leave the sprites that they keep bound as they were, and an index without a color cannot be
overwritten. -/
theorem binding_follows_writes (settings : StageSettings) (inputs : List StageInput) :
    let s := (new settings).after inputs
    let turns := (new settings).turns inputs
    s.InStep ∧
      (∀ (k : Nat) (sprite : Sprite), s.scene.sprites[k]? = some sprite →
        ∃ t, IsLast (Turn.BindsAt k) turns t ∧ sprite.palette.colors = t.after.palette.colors) ∧
      (∀ t ∈ turns, t.Overwrites →
        ∀ sprite ∈ t.after.scene.sprites, sprite.palette = t.after.snapshot) ∧
      (∀ t ∈ turns, ¬ t.Overwrites → ¬ t.Clears → ∀ (k : Nat) (sprite : Sprite),
        t.stage.scene.sprites[k]? = some sprite →
          ∃ sprite', t.after.scene.sprites[k]? = some sprite' ∧ sprite'.palette = sprite.palette) ∧
      ∀ (u : Stage) index color, u.palette.contains index = false →
        u.perform (.recolor index color) = (false, u) := by
  intro s turns
  refine ⟨inStep_after settings inputs, ?_, ?_, ?_, ?_⟩
  · intro k sprite hsprite
    refine exists_isLast_bindsAt settings inputs k ?_
    rw [getElem?_bindings, hsprite, Option.map_some]
  · intro t _ overwrites sprite hsprite
    exact Turn.palette_eq_snapshot overwrites hsprite
  · intro t _ plain stays k sprite hsprite
    have hb : t.stage.bindings[k]? = some sprite.palette := by
      rw [getElem?_bindings, hsprite, Option.map_some]
    have hafter := Turn.getElem?_bindings_after plain stays hb
    rwa [getElem?_bindings, Option.map_eq_some_iff] at hafter
  · intro u index color missing
    exact writeColor_of_not_contains missing color

/-- A color is overwritten by itself. The sprite, which was added before the second color, sees both
from then on. -/
theorem binding_follows_writes_of_same_color :
    let red : Color := ⟨255, 0, 0⟩
    let before : List StageInput :=
      [.command (.paletteAppend red), .command (.bitmap ⟨120, 120, 1, 1, .eight, .replicate 256 0⟩),
        .command (.paletteAppend .black)]
    let t : Turn := ⟨(new {}).after before, .command (.paletteModify 0 red)⟩
    t.after.scene.size = 1 ∧ ∀ sprite ∈ t.after.scene.sprites,
      sprite.palette = t.after.snapshot ∧ sprite.palette.colors.size = 2 := by
  intro red before t
  obtain ⟨-, -, hanew, -, -⟩ := binding_follows_writes {} (before ++ [t.input])
  have hlast : t ∈ (new {}).turns (before ++ [t.input]) := by
    rw [turns_concat]
    exact List.mem_append_right _ List.mem_cons_self
  have hover : t.Overwrites := by
    change Palette.contains _ 0 = true
    decide +kernel
  have hcolors : t.after.snapshot.colors.size = 2 := by decide +kernel
  refine ⟨by decide +kernel, ?_⟩
  intro sprite hsprite
  have hpalette := hanew t hlast hover sprite hsprite
  exact ⟨hpalette, by rw [hpalette, hcolors]⟩

end Stage

end Marquee
