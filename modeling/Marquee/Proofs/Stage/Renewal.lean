import Marquee.Proofs.Stage.Binding
import Marquee.Proofs.Stage.WellFormed

/-!
# Clearing leaves nothing behind

Clearing keeps the colors, and drops all else that a stage has gathered: sprites, cues and the clock.
What stays different from a new stage of the same colors are two numbers that nothing shows: the epoch,
which stored cues carry in the names of sprites, and the identities of snapshots.

* `Stage.look` : what can be seen of a stage, without the identities of snapshots. Actions of one
  keyframe keep equal looks equal, whatever the epochs are (`Stage.look_perform_congr`).
* `Stage.Resembles` : two stages that differ in those numbers only. Every input is answered alike by
  both, but for the epoch, and leaves them so (`Stage.Resembles.reply_eq`, `Stage.Resembles.step`).
* `Stage.clear_leaves_no_residue` : **a stage that was cleared cannot be told from a new one of its
  colors.**
-/

namespace Marquee

open Wire

/-! ### What can be seen -/

/-- The sprite, with the identity of its snapshot forgotten. -/
def Sprite.look (p : Sprite) : Sprite := p.bind ⟨0, p.palette.colors⟩

/-- What can be seen of a stage, or will be seen of it when sprites are bound anew. -/
structure Look where
  /-- The colors of the palette. -/
  colors : Array Color
  /-- The colors of the current snapshot. -/
  current : Array Color
  /-- The sprites, with the identities of their snapshots forgotten. -/
  sprites : Array Sprite
  deriving DecidableEq

/-- The outcome, with the epoch forgotten that names the sprite. -/
def Outcome.sansEpoch : Outcome → Outcome
  | .spriteAdded sprite width height => .spriteAdded { sprite with epoch := 0 } width height
  | o => o

/-- What an input is answered. -/
inductive Reply where
  /-- What a command did, or why it was refused. -/
  | command (answer : Except StageFault Outcome)
  /-- The active cue. -/
  | tick (active : Option Nat)
  deriving DecidableEq

/-- The reply, with the epoch forgotten. -/
def Reply.sansEpoch : Reply → Reply
  | .command answer => .command (answer.map Outcome.sansEpoch)
  | .tick active => .tick active

/-- A clock looks at the durations of the cues only. -/
theorem Playhead.tick_congr (p : Playhead) (now : Nat) {t u : Timeline}
    (h : t.cues.toList.map Cue.durationNs = u.cues.toList.map Cue.durationNs) :
    p.tick now t = p.tick now u := by
  have hsize : t.size = u.size := by
    simpa only [List.length_map, Array.length_toList, Timeline.size] using congrArg List.length h
  have hstart (index : Nat) : t.windowStart index = u.windowStart index := by
    simp only [Timeline.windowStart, Timeline.boundary, List.map_take, h]
  have htotal : t.totalNs = u.totalNs := by
    rw [Timeline.totalNs_eq, Timeline.totalNs_eq, hstart, hsize]
  have hcue (elapsed : Nat) : t.cueAt? elapsed = u.cueAt? elapsed := by
    apply Option.ext
    intro j
    rw [Timeline.cueAt?_eq_some_iff, Timeline.cueAt?_eq_some_iff, hstart, hstart]
  simp only [tick, hsize, htotal, hcue]

namespace Stage

/-- What an input is answered. -/
def reply (s : Stage) : StageInput → Reply
  | .command c => .command (s.apply c).1
  | .tick now => .tick (s.tick now).1

/-- What the inputs of a run are answered. -/
def replies (s : Stage) (inputs : List StageInput) : List Reply :=
  (s.turns inputs).map fun t => t.stage.reply t.input

/-- What can be seen of a stage. -/
def look (s : Stage) : Look :=
  ⟨s.palette.colors, s.snapshot.colors, s.scene.sprites.map Sprite.look⟩

section

variable {s t : Stage}

theorem look_eq_iff : s.look = t.look ↔
    s.palette.colors = t.palette.colors ∧ s.snapshot.colors = t.snapshot.colors ∧
      s.scene.sprites.map Sprite.look = t.scene.sprites.map Sprite.look := by
  simp only [look, Look.mk.injEq]

theorem size_sprites_of_look (h : s.look = t.look) : s.scene.sprites.size = t.scene.sprites.size := by
  simpa only [Array.size_map] using congrArg Array.size (look_eq_iff.1 h).2.2

/-- Stages of one look show the same color at every place. -/
theorem colorAt_of_look (h : s.look = t.look) (x y : Int) : s.colorAt x y = t.colorAt x y := by
  have hseen (u : Stage) : u.colorAt x y = u.look.sprites.findSomeRev? (·.screenColor x y) := by
    simp only [look, Array.findSomeRev?_eq_findSome?_reverse, ← Array.map_reverse, Array.findSome?_map]
    exact Array.findSomeRev?_eq_findSome?_reverse
  rw [hseen, hseen, h]

theorem pixelBytes_of_look (h : s.look = t.look) : s.scene.pixelBytes = t.scene.pixelBytes := by
  have hseen (u : Stage) :
      u.scene.pixelBytes = u.look.sprites.foldl (fun n sprite => n + sprite.canvas.area) 0 := by
    rw [look, Array.foldl_map]
    rfl
  rw [hseen, hseen, h]

/-! ### What actions do to the look -/

theorem look_rebind_congr (h : s.look = t.look) : s.rebind.look = t.rebind.look := by
  obtain ⟨hcolors, hcurrent, hsprites⟩ := look_eq_iff.1 h
  have hbound (u : Stage) : u.rebind.scene.sprites.map Sprite.look =
      (u.scene.sprites.map Sprite.look).map (·.bind ⟨0, u.snapshot.colors⟩) := by
    rw [rebind, Scene.rebind, Array.map_map, Array.map_map]
    rfl
  exact look_eq_iff.2 ⟨hcolors, hcurrent, by rw [hbound, hbound, hsprites, hcurrent]⟩

theorem look_writeColor_congr (h : s.look = t.look) (index : UInt8) (color : Color) :
    (s.writeColor index color).2.look = (t.writeColor index color).2.look := by
  obtain ⟨hcolors, -, hsprites⟩ := look_eq_iff.1 h
  have hget : s.palette.get? index = t.palette.get? index := by simp only [Palette.get?, hcolors]
  unfold writeColor
  rw [hget]
  cases t.palette.get? index with
  | none => exact h
  | some old =>
    by_cases hold : old = color
    · simp only [hold, if_true]
      exact h
    · simp only [hold, if_false]
      have hset := congrArg (·.setIfInBounds index.toNat color) hcolors
      exact look_eq_iff.2 ⟨hset, hset, hsprites⟩

theorem fst_writeColor_congr (h : s.look = t.look) (index : UInt8) (color : Color) :
    (s.writeColor index color).1 = (t.writeColor index color).1 := by
  rw [fst_writeColor, fst_writeColor, contains_congr (congrArg (·.colors.size) h)]

/-- A sprite that is named by its place in the epoch that is can be changed in the look as well. -/
theorem map_look_update (scene : Scene) (k : UInt8) {f : Sprite → Sprite}
    (hf : ∀ p, (f p).look = f p.look) :
    (scene.update (scene.refAt k) f).sprites.map Sprite.look =
      (scene.sprites.map Sprite.look).modify k.toNat f := by
  apply Array.ext_getElem?
  intro i
  have hreaches : scene.Reaches (scene.refAt k) i ↔ k.toNat = i := by
    simp [Scene.Reaches, Scene.refAt]
  rw [Array.getElem?_map, Scene.map_getElem?_update, Array.getElem?_modify, Array.getElem?_map]
  by_cases hk : k.toNat = i
  · simp only [hreaches, hk, if_true, hf, Option.map_map, Function.comp_def]
  · simp only [hreaches, hk, if_false]

/-- **A keyframe does the same to stages of one look**, each of which names sprites in its own epoch. -/
theorem look_perform_congr (h : s.look = t.look) (k : Keyframe) :
    (s.perform (s.action k)).1 = (t.perform (t.action k)).1 ∧
      (s.perform (s.action k)).2.look = (t.perform (t.action k)).2.look := by
  cases k with
  | place index x y visible =>
    obtain ⟨hcolors, hcurrent, hsprites⟩ := look_eq_iff.1 h
    have hplaced (u : Stage) : (u.perform (u.action (.place index x y visible))).2.scene.sprites.map
        Sprite.look = (u.scene.sprites.map Sprite.look).modify index.toNat
          fun p => (p.moveTo x y).setVisible visible :=
      map_look_update u.scene index fun _ => rfl
    exact ⟨rfl, look_eq_iff.2 ⟨hcolors, hcurrent, by rw [hplaced, hplaced, hsprites]⟩⟩
  | recolor index color =>
    exact ⟨fst_writeColor_congr h index color, look_writeColor_congr h index color⟩

theorem action_perform (s : Stage) (a : Action) : (s.perform a).2.action = s.action := by
  obtain ⟨-, -, hepoch, -, -⟩ := outline_eq_iff.1 (outline_perform s a)
  exact action_congr hepoch

theorem look_performAll_congr (h : s.look = t.look) (recolored : Bool) (keyframes : List Keyframe) :
    (s.performAll recolored (keyframes.map s.action)).1 =
        (t.performAll recolored (keyframes.map t.action)).1 ∧
      (s.performAll recolored (keyframes.map s.action)).2.look =
        (t.performAll recolored (keyframes.map t.action)).2.look := by
  induction keyframes generalizing s t recolored with
  | nil => exact ⟨rfl, h⟩
  | cons k rest ih =>
    obtain ⟨hflag, hlook⟩ := look_perform_congr h k
    have hunfold (u : Stage) : u.performAll recolored ((k :: rest).map u.action) =
        (u.perform (u.action k)).2.performAll (recolored || (u.perform (u.action k)).1)
          (rest.map (u.perform (u.action k)).2.action) := by
      rw [action_perform]
      rfl
    rw [hunfold, hunfold, hflag]
    exact ih hlook _

/-- The cue of an animation does the same to stages of one look. -/
theorem look_performCue_congr (h : s.look = t.look) (a : Animation) :
    (s.performCue (s.cueOf a)).look = (t.performCue (t.cueOf a)).look := by
  obtain ⟨hflag, hlook⟩ :
      (s.performAll false (s.cueOf a).actions).1 = (t.performAll false (t.cueOf a).actions).1 ∧
        (s.performAll false (s.cueOf a).actions).2.look =
          (t.performAll false (t.cueOf a).actions).2.look :=
    look_performAll_congr h false a.keyframes.val
  unfold performCue
  by_cases hrecolored : (t.performAll false (t.cueOf a).actions).1
  · rw [if_pos hrecolored, if_pos (hflag.trans hrecolored)]
    exact look_rebind_congr hlook
  · rw [if_neg hrecolored, if_neg (hflag ▸ hrecolored)]
    exact hlook

end

/-! ### Stages that resemble each other -/

/-- Two stages that differ in their epochs and in the identities of snapshots only. -/
structure Resembles (s t : Stage) : Prop where
  settings : s.settings = t.settings
  look : s.look = t.look
  clock : s.clock = t.clock
  /-- The cues are those of the same animations. -/
  cues : ∃ sent : List Animation, s.timeline.cues.toList = sent.map s.cueOf ∧
    t.timeline.cues.toList = sent.map t.cueOf

namespace Resembles

variable {s t : Stage}

theorem durations (h : s.Resembles t) :
    s.timeline.cues.toList.map Cue.durationNs = t.timeline.cues.toList.map Cue.durationNs := by
  obtain ⟨sent, hs, ht⟩ := h.cues
  rw [hs, ht, List.map_map, List.map_map]
  apply List.map_congr_left
  intro a _
  simp only [Function.comp, cueOf, h.settings]

theorem size_timeline (h : s.Resembles t) : s.timeline.size = t.timeline.size := by
  simpa only [List.length_map, Array.length_toList, Timeline.size] using congrArg List.length h.durations

theorem tick_playhead (h : s.Resembles t) (now : Nat) :
    s.playhead.tick now s.timeline = t.playhead.tick now t.timeline := by
  rw [show s.playhead = t.playhead from congrArg Prod.fst h.clock,
    Playhead.tick_congr _ _ h.durations]

/-- The same animation is due on both. -/
theorem dueCue_eq (h : s.Resembles t) (now : Nat) :
    ∃ due : Option Animation, s.dueCue now = due.map s.cueOf ∧ t.dueCue now = due.map t.cueOf := by
  obtain ⟨sent, hs, ht⟩ := h.cues
  have hdue (u : Stage) (hu : u.timeline.cues.toList = sent.map u.cueOf) :
      u.dueCue now = ((u.playhead.tick now u.timeline).1.bind (sent[·]?)).map u.cueOf := by
    rw [dueCue, Option.map_bind]
    refine congrArg (Option.bind _) (funext fun j => ?_)
    rw [Timeline.get?, ← Array.getElem?_toList, hu, List.getElem?_map]
    rfl
  refine ⟨_, hdue s hs, ?_⟩
  rw [hdue t ht, h.tick_playhead]

/-! ### One input -/

theorem look_tick (h : s.Resembles t) (now : Nat) : (s.tick now).2.look = (t.tick now).2.look := by
  obtain ⟨due, hs, ht⟩ := h.dueCue_eq now
  rw [snd_tick, snd_tick, hs, ht]
  have htold : (s.told now).look = (t.told now).look := h.look
  cases due with
  | none => exact htold
  | some a => exact look_performCue_congr htold a

theorem addSprite (h : s.Resembles t) (x y : Nat) (canvas : Canvas) (depth : Depth) :
    (s.addSprite x y canvas depth).1.sansEpoch = (t.addSprite x y canvas depth).1.sansEpoch ∧
      (s.addSprite x y canvas depth).2.look = (t.addSprite x y canvas depth).2.look := by
  obtain ⟨hcolors, hcurrent, hsprites⟩ := look_eq_iff.1 h.look
  refine ⟨?_, look_eq_iff.2 ⟨hcolors, hcurrent, ?_⟩⟩
  · simp only [Stage.addSprite, Scene.push, Outcome.sansEpoch, size_sprites_of_look h.look]
  · simp only [Stage.addSprite, Scene.push, Array.map_push, hsprites, Sprite.look, Sprite.bind, hcurrent]

/-- **A command is answered alike, and leaves the same look.** -/
theorem apply (h : s.Resembles t) (c : Command) :
    (s.apply c).1.map Outcome.sansEpoch = (t.apply c).1.map Outcome.sansEpoch ∧
      (s.apply c).2.look = (t.apply c).2.look := by
  obtain ⟨hcolors, hcurrent, hsprites⟩ := look_eq_iff.1 h.look
  cases c with
  | paletteReset => exact ⟨rfl, look_eq_iff.2 ⟨rfl, rfl, hsprites⟩⟩
  | paletteAppend color =>
    by_cases hroom : s.palette.colors.size < Palette.maxSize
    · have hgrown := congrArg (·.push color) hcolors
      simp only [Stage.apply, Palette.append, dif_pos hroom, dif_pos (hcolors ▸ hroom)]
      refine ⟨?_, look_eq_iff.2 ⟨hgrown, hgrown, hsprites⟩⟩
      rw [hcolors]
    · simp only [Stage.apply, Palette.append, dif_neg hroom, dif_neg (hcolors ▸ hroom)]
      exact ⟨trivial, look_eq_iff.2 ⟨hcolors, hcurrent, hsprites⟩⟩
  | paletteModify index color =>
    have hfound := fst_writeColor_congr h.look index color
    have hwritten := look_writeColor_congr h.look index color
    simp only [Stage.apply, modifyColor, hfound]
    refine ⟨trivial, ?_⟩
    split
    · exact look_rebind_congr hwritten
    · exact hwritten
  | clear => exact ⟨rfl, look_eq_iff.2 ⟨hcolors, hcurrent, rfl⟩⟩
  | bitmap b =>
    simp only [Stage.apply, bitmapCanvas_congr h.settings]
    cases t.bitmapCanvas b with
    | ok canvas =>
      obtain ⟨houtcome, hlook⟩ := h.addSprite b.x b.y canvas b.depth
      exact ⟨congrArg Except.ok houtcome, hlook⟩
    | error e => exact ⟨rfl, h.look⟩
  | template p =>
    simp only [Stage.apply, templateCanvas_congr h.settings (congrArg Array.size hcolors)]
    cases t.templateCanvas p with
    | ok canvas =>
      obtain ⟨houtcome, hlook⟩ := h.addSprite p.x p.y canvas .eight
      exact ⟨congrArg Except.ok houtcome, hlook⟩
    | error e => exact ⟨rfl, h.look⟩
  | animation a =>
    refine ⟨?_, h.look⟩
    simp only [Stage.apply, addCue, h.settings, h.size_timeline]

/-- **Both answer alike**, but for the epoch. -/
theorem reply_eq (h : s.Resembles t) (i : StageInput) :
    (s.reply i).sansEpoch = (t.reply i).sansEpoch := by
  cases i with
  | command c => exact congrArg Reply.command (h.apply c).1
  | tick now =>
    obtain ⟨due, hs, ht⟩ := h.dueCue_eq now
    refine congrArg Reply.tick ?_
    rw [fst_tick, fst_tick, h.tick_playhead, hs, ht, Option.bind_map, Option.bind_map]
    rfl

theorem clock_step (h : s.Resembles t) (i : StageInput) : (s.step i).clock = (t.step i).clock := by
  cases i with
  | command c =>
    by_cases hc : c = .clear
    · subst hc
      exact congrArg (fun clock => (clock.1.reset, none)) h.clock
    · exact (s.clock_apply hc).trans (h.clock.trans (t.clock_apply hc).symm)
  | tick now => exact (s.clock_tick now).trans (by rw [h.tick_playhead, ← t.clock_tick]; rfl)

theorem cues_step (h : s.Resembles t) (i : StageInput) :
    ∃ sent : List Animation, (s.step i).timeline.cues.toList = sent.map (s.step i).cueOf ∧
      (t.step i).timeline.cues.toList = sent.map (t.step i).cueOf := by
  by_cases hc : i = .command .clear
  · subst hc
    exact ⟨[], rfl, rfl⟩
  · obtain ⟨sent, hs, ht⟩ := h.cues
    have hcues (u : Stage) (hu : u.timeline.cues.toList = sent.map u.cueOf) :
        (u.step i).timeline.cues.toList =
          (sent ++ (Turn.animation? ⟨s, i⟩).toList).map (u.step i).cueOf := by
      have hstays : Turn.Stays ⟨u, i⟩ := Turn.stays _ hc
      have hcueOf : (u.step i).cueOf = u.cueOf := cueOf_congr (settings_step u i) hstays.epoch
      have hafter := hstays.cues
      rw [hcueOf, List.map_append, ← hu, ← Option.toList_map]
      exact hafter
    exact ⟨_, hcues s hs, hcues t ht⟩

/-- **Every input keeps the resemblance.** -/
theorem step (h : s.Resembles t) (i : StageInput) : (s.step i).Resembles (t.step i) := by
  refine ⟨?_, ?_, h.clock_step i, h.cues_step i⟩
  · rw [settings_step, settings_step, h.settings]
  · cases i with
    | command c => exact (h.apply c).2
    | tick now => exact h.look_tick now

theorem after (h : s.Resembles t) (inputs : List StageInput) :
    (s.replies inputs).map Reply.sansEpoch = (t.replies inputs).map Reply.sansEpoch ∧
      (s.after inputs).Resembles (t.after inputs) := by
  induction inputs generalizing s t with
  | nil => exact ⟨rfl, h⟩
  | cons i rest ih =>
    obtain ⟨hreplies, hafter⟩ := ih (h.step i)
    refine ⟨?_, hafter⟩
    rw [replies, turns, List.map_cons, List.map_cons, h.reply_eq i]
    exact congrArg (_ :: ·) hreplies

theorem census_eq (h : s.Resembles t) : s.census = t.census := by
  have hcolors : s.palette.size = t.palette.size := congrArg (·.colors.size) h.look
  simp only [census, Scene.size, size_sprites_of_look h.look, pixelBytes_of_look h.look, hcolors,
    h.size_timeline]

end Resembles

/-! ### A stage that was cleared -/

theorem minCues_step (s : Stage) (i : StageInput) :
    (s.step i).playhead.minCues = s.playhead.minCues := by
  cases i with
  | command c =>
    by_cases hc : c = .clear
    · subst hc
      rfl
    · exact congrArg (·.1.minCues) (s.clock_apply hc)
  | tick now =>
    refine (congrArg (·.1.minCues) (s.clock_tick now)).trans ?_
    simp only [Playhead.tick]
    split_ifs <;> rfl

theorem minCues_after (s : Stage) (inputs : List StageInput) :
    (s.after inputs).playhead.minCues = s.playhead.minCues := by
  induction inputs using List.reverseRecOn with
  | nil => rfl
  | append_singleton inputs i ih => rw [after_concat, minCues_step, ih]

/-- The inputs that append colors. -/
def appends (colors : List Color) : List StageInput := colors.map fun c => .command (.paletteAppend c)

/-- Colors for which there is room are appended, and nothing else changes. -/
theorem after_appends (s : Stage) (colors : List Color)
    (room : s.palette.colors.size + colors.length ≤ Palette.maxSize) :
    (s.after (appends colors)).palette.colors = s.palette.colors ++ colors.toArray ∧
      (s.after (appends colors)).scene = s.scene ∧
      (s.after (appends colors)).timeline = s.timeline ∧
      (s.after (appends colors)).clock = s.clock := by
  induction colors generalizing s with
  | nil => simp [appends, after]
  | cons c rest ih =>
    rw [List.length_cons] at room
    have hroom : s.palette.colors.size < Palette.maxSize := by omega
    have hstep : (s.step (.command (.paletteAppend c))).palette.colors = s.palette.colors.push c ∧
        (s.step (.command (.paletteAppend c))).scene = s.scene ∧
        (s.step (.command (.paletteAppend c))).timeline = s.timeline ∧
        (s.step (.command (.paletteAppend c))).clock = s.clock := by
      simp only [step, apply, Palette.append, dif_pos hroom]
      exact ⟨rfl, rfl, rfl, rfl⟩
    obtain ⟨hcolors, hscene, htime, hclock⟩ := hstep
    obtain ⟨ihcolors, ihscene, ihtime, ihclock⟩ :=
      ih (s.step (.command (.paletteAppend c))) (by rw [hcolors, Array.size_push]; omega)
    refine ⟨?_, ihscene.trans hscene, ihtime.trans htime, ihclock.trans hclock⟩
    refine ihcolors.trans ?_
    rw [hcolors]
    simp

/-- A stage that was cleared resembles a new one to which its colors were appended. -/
theorem resembles_of_clear (settings : StageSettings) (inputs : List StageInput) :
    let e := (new settings).after inputs
    (e.step (.command .clear)).Resembles
      ((new settings).after (appends e.palette.colors.toList)) := by
  intro e
  have hinStep : e.InStep := inStep_after settings inputs
  have hminCues : e.playhead.minCues = settings.minCues.toNat := minCues_after _ inputs
  have hroom : 0 + e.palette.colors.toList.length ≤ Palette.maxSize := by
    rw [Nat.zero_add]
    exact e.palette.size_le
  obtain ⟨hcolors, hscene, htime, hclock⟩ := after_appends (new settings) _ hroom
  have hfresh := inStep_after settings (appends e.palette.colors.toList)
  have hpalette : ((new settings).after (appends e.palette.colors.toList)).palette.colors =
      e.palette.colors := by
    rw [hcolors]
    exact Array.empty_append
  refine ⟨?_, look_eq_iff.2 ⟨hpalette.symm, ?_, ?_⟩, ?_, [], rfl, ?_⟩
  · rw [settings_step, settings_after, settings_after]
  · rw [hfresh, hpalette]
    exact hinStep
  · rw [hscene]
    rfl
  · rw [hclock]
    exact congrArg (fun n => ((⟨none, n⟩ : Playhead), (none : Option Nat))) hminCues
  · rw [htime]
    rfl

/-- **Clearing leaves no residue.** Clear a stage behind any run, and append its colors to a new stage
of the same settings. Whatever is carried out and played on both from then on, they give the same
answers, but for the epoch in the name of a sprite, and at every point they show the same color at
every place, have the same palette and the same census, and the same cue is active. -/
theorem clear_leaves_no_residue (settings : StageSettings) (inputs later : List StageInput) :
    let e := (new settings).after inputs
    let cleared := (e.apply .clear).2
    let fresh := (new settings).after (appends e.palette.colors.toList)
    (cleared.replies later).map Reply.sansEpoch = (fresh.replies later).map Reply.sansEpoch ∧
      (∀ x y, (cleared.after later).colorAt x y = (fresh.after later).colorAt x y) ∧
      (cleared.after later).palette.colors = (fresh.after later).palette.colors ∧
      (cleared.after later).census = (fresh.after later).census ∧
      (cleared.after later).activeCue = (fresh.after later).activeCue := by
  intro e cleared fresh
  have hbegin : cleared.Resembles fresh := resembles_of_clear settings inputs
  obtain ⟨hreplies, h⟩ := hbegin.after later
  exact ⟨hreplies, colorAt_of_look h.look, congrArg Look.colors h.look, h.census_eq,
    congrArg Prod.snd h.clock⟩

end Stage

end Marquee
