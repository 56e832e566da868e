import Marquee.Proofs.Scene.Names
import Marquee.Proofs.Stage.Runs

/-!
# A cue, action by action

Playing a cue puts one thing off: however many of its actions overwrite a color, sprites are colored
anew once, behind the last of them. Nothing is lost by that. Until then the actions neither look at what
colors the sprites nor change it.

* `Stage.enact` : an action carried out at once, by the scene or by the command for it.
* `Stage.settle` : what is put off is done.
* `Stage.settle_perform_rebind` : before an action it need not be done; so `Stage.settle_performAll` follows
  all actions of a cue with what was put off before them.
* `Stage.tick_enacts_in_turn` : **playing a cue comes to the same as its actions one at a time**, with the
  same snapshots.
-/

namespace Marquee

open Wire

namespace Stage

/-! ### One action -/

/-- Carry out an action with nothing put off: the sprite of a name is centered elsewhere, and then shown
or hidden; a color is overwritten by the command for that. -/
def enact (s : Stage) : Action → Stage
  | .place ref x y visible =>
    { s with scene := s.scene.after [.moveTo ref x y, .setVisible ref visible] }
  | .recolor index color => (s.apply (.paletteModify index color)).2

/-- Color all sprites anew if that was put off. -/
def settle (r : Bool × Stage) : Stage := if r.1 then r.2.rebind else r.2

@[simp] theorem settle_true (s : Stage) : settle (true, s) = s.rebind := rfl

@[simp] theorem settle_false (s : Stage) : settle (false, s) = s := rfl

@[simp] theorem rebind_rebind (s : Stage) : s.rebind.rebind = s.rebind := by
  simp only [rebind, Scene.rebind_rebind]

/-- An action leaves at most one thing for later. -/
theorem enact_eq (s : Stage) (a : Action) : s.enact a = settle (s.perform a) := by
  cases a with
  | place ref x y visible =>
    have hscene : s.scene.after [.moveTo ref x y, .setVisible ref visible] =
        s.scene.update ref fun p => (p.moveTo x y).setVisible visible :=
      s.scene.update_update ref (·.moveTo x y) (·.setVisible visible)
    rw [enact, hscene]
    rfl
  | recolor index color => rfl

/-- What was put off before an action may be put off behind it. -/
theorem settle_perform_rebind (s : Stage) (a : Action) :
    settle (s.rebind.perform a) = (s.perform a).2.rebind := by
  cases a with
  | place ref x y visible =>
    have hscene : (s.scene.rebind s.snapshot).update ref
          (fun p => (p.moveTo x y).setVisible visible) =
        (s.scene.update ref fun p => (p.moveTo x y).setVisible visible).rebind s.snapshot :=
      s.scene.update_rebind s.snapshot ref fun _ => rfl
    simp only [perform, settle_false, rebind, hscene]
  | recolor index color =>
    have hpalette : s.rebind.palette = s.palette := rfl
    simp only [perform, writeColor, hpalette]
    cases s.palette.get? index with
    | none => rfl
    | some old =>
      by_cases hold : old = color
      · simp only [hold, if_true, settle_true, rebind_rebind]
      · simp only [hold, if_false, settle_true]
        simp only [rebind, refresh, Scene.rebind_rebind]

/-! ### All actions of a cue -/

theorem performAll_cons (recolored : Bool) (s : Stage) (a : Action) (rest : List Action) :
    s.performAll recolored (a :: rest) =
      (s.perform a).2.performAll (recolored || (s.perform a).1) rest := rfl

/-- **What is put off can wait until the last action.** -/
theorem settle_performAll (recolored : Bool) (s : Stage) (actions : List Action) :
    settle (s.performAll recolored actions) = actions.foldl enact (settle (recolored, s)) := by
  induction actions generalizing recolored s with
  | nil => rfl
  | cons a rest ih =>
    have hfirst : settle (recolored || (s.perform a).1, (s.perform a).2) =
        (settle (recolored, s)).enact a := by
      rw [enact_eq]
      cases recolored with
      | false => rfl
      | true => exact (settle_perform_rebind s a).symm
    rw [performAll_cons, ih, hfirst, List.foldl_cons]

theorem performCue_eq (s : Stage) (cue : Cue) : s.performCue cue = cue.actions.foldl enact s :=
  settle_performAll false s cue.actions

/-- Actions do not look at the clock. -/
theorem enact_clock (s : Stage) (a : Action) (p : Playhead) (active : Option Nat) :
    ({ s with playhead := p, activeCue := active } : Stage).enact a =
      { s.enact a with playhead := p, activeCue := active } := by
  rw [enact_eq, enact_eq]
  cases a with
  | place => rfl
  | recolor index color =>
    simp only [perform, writeColor]
    cases s.palette.get? index with
    | none => rfl
    | some old => by_cases hold : old = color <;> simp [hold, rebind, refresh]

theorem foldl_enact_clock (s : Stage) (actions : List Action) (p : Playhead) (active : Option Nat) :
    actions.foldl enact { s with playhead := p, activeCue := active } =
      { actions.foldl enact s with playhead := p, activeCue := active } := by
  induction actions generalizing s with
  | nil => rfl
  | cons a rest ih => rw [List.foldl_cons, enact_clock, ih, List.foldl_cons]

/-- The cue that a tick tells is the one that it carries out. -/
theorem dueCue_of_tick {s : Stage} {now i : Nat} (selected : (s.tick now).1 = some i) :
    ∃ cue, s.timeline.get? i = some cue ∧ s.dueCue now = some cue ∧
      (s.playhead.tick now s.timeline).1 = some i := by
  rw [fst_tick, Option.bind_eq_some_iff] at selected
  obtain ⟨cue, hdue, hshown⟩ := selected
  refine ⟨cue, ?_, hdue, hshown⟩
  rwa [dueCue, hshown, Option.bind_some] at hdue

theorem snd_tick_of_dueCue {s : Stage} {now : Nat} {cue : Cue} (h : s.dueCue now = some cue) :
    (s.tick now).2 = (s.told now).performCue cue := by
  rw [snd_tick, h, Option.elim_some]

/-- **Playing a cue is carrying out its actions one at a time.** At whatever time a stage is played and
tells a cue, this is a stored one, and what is left is the stage that its actions leave one by one, each
color overwritten by a command that colors all sprites anew at once, and each sprite that is named moved,
and shown or hidden. Palette, snapshots, sprites and what they are bound to are the same; only the clock
was told the time. -/
theorem tick_enacts_in_turn (s : Stage) {now i : Nat} (selected : (s.tick now).1 = some i) :
    ∃ cue, s.timeline.get? i = some cue ∧
      (s.tick now).2 =
        { cue.actions.foldl enact s with
          playhead := (s.playhead.tick now s.timeline).2
          activeCue := some i } := by
  obtain ⟨cue, hcue, hdue, hshown⟩ := dueCue_of_tick selected
  refine ⟨cue, hcue, ?_⟩
  rw [snd_tick_of_dueCue hdue, performCue_eq, told, hshown, foldl_enact_clock]

/-- A cue overwrites a color and takes that back, moves and hides a sprite, and names a color and a sprite
that are not there. The sprites were bound to two snapshots; then both are bound to the newest one. -/
theorem tick_enacts_in_turn_on_stale_sprite :
    let red : Color := ⟨255, 0, 0⟩
    let dot : Bitmap := ⟨120, 120, 1, 1, .eight, .replicate 256 0⟩
    let blink : Animation := ⟨6, ⟨[.recolor 0 red, .place 1 30 40 false, .recolor 7 red,
      .place 9 0 0 true, .recolor 0 .black], by decide⟩⟩
    let s := (new { minCues := 1 }).after
      [.command (.paletteAppend .black), .command (.bitmap dot), .command (.paletteAppend red),
        .command (.bitmap dot), .command (.animation blink)]
    let s' := (s.tick 7).2
    (s.tick 7).1 = some 0 ∧
      (∃ cue, s.timeline.get? 0 = some cue ∧
        s' =
          { cue.actions.foldl enact s with
            playhead := (s.playhead.tick 7 s.timeline).2
            activeCue := some 0 }) ∧
      s.scene.sprites.map (·.palette.serial) = #[1, 2] ∧
      s'.scene.sprites.map (·.palette.serial) = #[4, 4] ∧
      s'.scene.sprites.map (fun p => (p.x, p.y)) = #[(120, 120), (30, 40)] ∧
      s'.scene.sprites.map Sprite.visible = #[true, false] := by
  intro red dot blink s s'
  have selected : (s.tick 7).1 = some 0 := by decide +kernel
  exact ⟨selected, tick_enacts_in_turn s selected, by decide +kernel, by decide +kernel,
    by decide +kernel, by decide +kernel⟩

end Stage

end Marquee
