import Marquee.Proofs.Scene.Names
import Marquee.Proofs.Stage.References

/-!
# What answers tell of a stage

A stage answers a command with the name of the sprite or the index of the cue that it added, and its
census counts both. All these numbers are words of 16 bits, and there may be more sprites and cues than
such a word can count.

* `Scene.toNat_index_push`, `Scene.get?_push` : the name that a push tells, and what it stands for.
* `Stage.Applied.sprite_added`, `Stage.Applied.cue_added` : what is added when an answer says so.
* `Stage.answers_in_words` : **names, indices and counts are the true ones modulo 65536**, so they are
  true up to that many sprites and cues.
* `Stage.after_replicate_template`, `Stage.after_replicate_animation` : one command, many times.
* `Stage.told_name_of_first`, `Stage.told_index_of_first` : **behind 65536 of a kind the next one is told
  the place of the first**, and the count begins again from none.
-/

namespace Marquee

open Wire

/-! ### Names -/

namespace Scene

/-- A name has room for the low 16 bits of a place. -/
theorem toNat_index_push (s : Scene) (sprite : Sprite) :
    (s.push sprite).1.index.toNat = s.size % 65536 := UInt16.toNat_ofNat'

/-- The name of a sprite that is pushed stands for what is at the place that it has room for. -/
theorem get?_push (s : Scene) (sprite : Sprite) :
    (s.push sprite).2.get? (s.push sprite).1 =
      (s.sprites.push sprite)[s.size % 65536]? := by
  rw [get?_of_epoch_eq rfl, toNat_index_push]
  rfl

/-- Behind no more than 65535 others, that is the sprite that was pushed. -/
theorem get?_push_of_lt {s : Scene} (room : s.size < 65536) (sprite : Sprite) :
    (s.push sprite).2.get? (s.push sprite).1 = some sprite := by
  rw [get?_push, Nat.mod_eq_of_lt room]
  exact Array.getElem?_push_size

end Scene

namespace Stage

/-! ### What is added -/

section

variable {s s' : Stage} {c : Command}

/-- Where a sprite is said to be added, one of that size is put on top. -/
theorem Applied.sprite_added {name : SpriteRef} {width height : Nat}
    (h : Applied s c (.ok (.spriteAdded name width height)) s') :
    ∃ sprite : Sprite, sprite.canvas.width = width ∧ sprite.canvas.height = height ∧
      name = (s.scene.push sprite).1 ∧ s'.scene = (s.scene.push sprite).2 := by
  generalize hanswer : (Except.ok (.spriteAdded name width height) : Except StageFault Outcome) =
    answer at h
  cases h with
  | @bitmap b canvas drawn =>
    obtain ⟨rfl, rfl, rfl⟩ := Outcome.spriteAdded.inj (Except.ok.inj hanswer)
    exact ⟨⟨b.x, b.y, canvas, s.snapshot, b.depth, true⟩, rfl, rfl, rfl, rfl⟩
  | @template t canvas drawn =>
    obtain ⟨rfl, rfl, rfl⟩ := Outcome.spriteAdded.inj (Except.ok.inj hanswer)
    exact ⟨⟨t.x, t.y, canvas, s.snapshot, .eight, true⟩, rfl, rfl, rfl, rfl⟩
  | _ => cases hanswer

/-- Where a cue is said to be added, one of that duration is appended. -/
theorem Applied.cue_added {index : UInt16} {durationNs : Nat}
    (h : Applied s c (.ok (.cueAdded index durationNs)) s') :
    ∃ cue : Cue, cue.durationNs = durationNs ∧ index = s.timeline.size.toUInt16 ∧
      s'.timeline = s.timeline.push cue := by
  generalize hanswer : (Except.ok (.cueAdded index durationNs) : Except StageFault Outcome) =
    answer at h
  cases h with
  | animation a =>
    obtain ⟨rfl, rfl⟩ := Outcome.cueAdded.inj (Except.ok.inj hanswer)
    exact ⟨s.cueOf a, rfl, rfl, rfl⟩
  | _ => cases hanswer

end

/-- **Names, indices and counts are words.** A command is carried out behind any run of a new stage.
If the answer names a sprite, one was put on top of those that were there, and the name is that of its
place modulo 65536; so up to 65535 others it stands for this sprite. If the answer tells an index, a cue
was appended, and the index is its place modulo 65536; so behind up to 65535 others it is the index of
this cue. The census counts the sprites and the cues that were added since the scene was cleared, modulo
65536. -/
theorem answers_in_words (settings : StageSettings) (inputs : List StageInput) (c : Command) :
    let s := (new settings).after inputs
    let s' := (s.apply c).2
    let recent := sinceClear ((new settings).turns inputs)
    let added := recent.filterMap Turn.newSprite?
    let sent := recent.filterMap Turn.animation?
    (∀ name width height, (s.apply c).1 = .ok (.spriteAdded name width height) →
      ∃ sprite : Sprite, sprite.canvas.width = width ∧ sprite.canvas.height = height ∧
        s'.scene.sprites = s.scene.sprites.push sprite ∧
        s'.scene.get? name = s'.scene.sprites[added.length % 65536]? ∧
        (added.length < 65536 → s'.scene.get? name = some sprite)) ∧
      (∀ index durationNs, (s.apply c).1 = .ok (.cueAdded index durationNs) →
        ∃ cue : Cue, cue.durationNs = durationNs ∧ s'.timeline = s.timeline.push cue ∧
          index.toNat = sent.length % 65536 ∧
          (sent.length < 65536 → s'.timeline.get? index.toNat = some cue)) ∧
      s.scene.size = added.length ∧ s.census.sprites.toNat = added.length % 65536 ∧
      s.timeline.size = sent.length ∧ s.census.cues.toNat = sent.length % 65536 := by
  intro s s' recent added sent
  have hfollows : Follows s recent := follows_after settings inputs
  have happlied : Applied s c (s.apply c).1 s' := s.applied_apply c
  have hadded : s.scene.size = added.length := by
    have hlength := congrArg List.length hfollows.outlines
    rwa [Stage.outlines, List.length_map, List.length_map] at hlength
  have hsent : s.timeline.size = sent.length := by
    have hlength := congrArg List.length hfollows.cues
    rwa [List.length_map] at hlength
  refine ⟨?_, ?_, hadded, ?_, hsent, ?_⟩
  · intro name width height hanswer
    rw [hanswer] at happlied
    obtain ⟨sprite, hwidth, hheight, hname, hscene⟩ := happlied.sprite_added
    have hget : s'.scene.get? name = (s.scene.sprites.push sprite)[s.scene.size % 65536]? := by
      rw [hscene, hname, Scene.get?_push]
    have hsprites : s'.scene.sprites = s.scene.sprites.push sprite := by
      rw [hscene]
      rfl
    refine ⟨sprite, hwidth, hheight, hsprites, ?_, ?_⟩
    · rw [hget, hsprites, hadded]
    · intro room
      rw [hscene, hname, Scene.get?_push_of_lt (hadded ▸ room)]
  · intro index durationNs hanswer
    rw [hanswer] at happlied
    obtain ⟨cue, hduration, rfl, htimeline⟩ := happlied.cue_added
    have hindex : s.timeline.size.toUInt16.toNat = sent.length % 65536 := by
      rw [hsent]
      exact UInt16.toNat_ofNat'
    refine ⟨cue, hduration, htimeline, hindex, ?_⟩
    intro room
    rw [hindex, htimeline, Nat.mod_eq_of_lt room, ← hsent]
    exact Array.getElem?_push_size
  · rw [census, hadded]
    exact UInt16.toNat_ofNat'
  · rw [census, hsent]
    exact UInt16.toNat_ofNat'

/-! ### One command, many times -/

/-- A template that is accepted is accepted again, as often as it is sent. -/
theorem after_replicate_template {s : Stage} {t : Template} {canvas : Canvas}
    (drawn : s.templateCanvas t = .ok canvas) (n : Nat) :
    s.after (List.replicate n (.command (.template t))) =
      { s with
        scene := ⟨s.scene.sprites ++ Array.replicate n ⟨t.x, t.y, canvas, s.snapshot, .eight, true⟩,
          s.scene.epoch⟩ } := by
  induction n with
  | zero => simp [after]
  | succ n ih =>
    rw [List.replicate_succ', after_concat, ih]
    -- what a template is checked against does not change with the sprites
    have hdrawn (scene : Scene) : { s with scene := scene }.templateCanvas t = .ok canvas := drawn
    simp only [step, apply, hdrawn, addSprite, Scene.push, Array.replicate_succ, Array.push_append]

/-- An animation is accepted as often as it is sent. -/
theorem after_replicate_animation (s : Stage) (a : Animation) (n : Nat) :
    s.after (List.replicate n (.command (.animation a))) =
      { s with timeline := ⟨s.timeline.cues ++ Array.replicate n (s.cueOf a)⟩ } := by
  induction n with
  | zero => simp [after]
  | succ n ih =>
    rw [List.replicate_succ', after_concat, ih]
    simp only [step, apply, addCue, Timeline.push, Array.replicate_succ, Array.push_append]
    rfl

/-- A template that is accepted behind many others is put on top of them, and is told the low 16 bits of
its place. -/
theorem apply_behind_templates {s : Stage} {t t' : Template} {canvas canvas' : Canvas}
    (drawn : s.templateCanvas t = .ok canvas) (drawn' : s.templateCanvas t' = .ok canvas') (n : Nat) :
    let u := s.after (List.replicate n (.command (.template t)))
    let u' := (u.apply (.template t')).2
    u.scene.size = s.scene.size + n ∧
      (u.apply (.template t')).1 = .ok (.spriteAdded ⟨s.scene.epoch, (s.scene.size + n).toUInt16⟩
        canvas'.width canvas'.height) ∧
      u'.scene.epoch = s.scene.epoch ∧
      u'.scene.sprites.back? = some ⟨t'.x, t'.y, canvas', s.snapshot, .eight, true⟩ ∧
      ∀ k < n, u'.scene.sprites[s.scene.size + k]? =
        some ⟨t.x, t.y, canvas, s.snapshot, .eight, true⟩ := by
  intro u u'
  set sprite : Sprite := ⟨t.x, t.y, canvas, s.snapshot, .eight, true⟩
  set sprite' : Sprite := ⟨t'.x, t'.y, canvas', s.snapshot, .eight, true⟩
  set earlier := s.scene.sprites ++ Array.replicate n sprite with hearlier
  have hu : u = { s with scene := ⟨earlier, s.scene.epoch⟩ } := after_replicate_template drawn n
  have hdrawn : u.templateCanvas t' = .ok canvas' := by
    rw [hu]
    exact drawn'
  have hsize : u.scene.size = s.scene.size + n := by
    rw [hu, Scene.size, hearlier, Array.size_append, Array.size_replicate]
    rfl
  have happly : u.apply (.template t') =
      (.ok (u.addSprite t'.x t'.y canvas' .eight).1, (u.addSprite t'.x t'.y canvas' .eight).2) := by
    simp only [apply, hdrawn]
  have hscene : u'.scene = ⟨earlier.push sprite', s.scene.epoch⟩ := by
    change (u.apply (.template t')).2.scene = _
    rw [happly, hu]
    rfl
  refine ⟨hsize, ?_, ?_, ?_, ?_⟩
  · rw [happly, ← hsize, hu]
    rfl
  · rw [hscene]
  · rw [hscene, Array.back?_push]
  · intro k hk
    have hplace : s.scene.sprites.size + k < earlier.size := by
      simpa [hearlier] using hk
    rw [hscene, Scene.size, Array.getElem?_push_lt hplace, Option.some.injEq]
    simp [hearlier]

/-- Behind so many sprites that a word cannot tell them from none, the census counts none, and the next
sprite is told the name of the first, which is elsewhere. -/
theorem told_name_of_first {n : Nat} (hpos : 0 < n) (hwraps : n.toUInt16 = 0) :
    let dot (x : Nat) : Template := ⟨x, 0, 1, 0, ⟨[], by decide⟩⟩
    let s := ((new {}).after [.command (.paletteAppend .black)]).after
      (List.replicate n (.command (.template (dot 0))))
    let s' := (s.apply (.template (dot 1))).2
    s.scene.size = n ∧ s.census.sprites = 0 ∧
      (s.apply (.template (dot 1))).1 = .ok (.spriteAdded ⟨0, 0⟩ 1 1) ∧
      s'.scene.sprites.back?.map Sprite.x = some 1 ∧
      (s'.scene.get? ⟨0, 0⟩).map Sprite.x = some 0 := by
  intro dot s s'
  have drawn (x : Nat) : ((new {}).after [.command (.paletteAppend .black)]).templateCanvas (dot x) =
      .ok ⟨1, 1, #[0], by decide, by decide, rfl⟩ := rfl
  obtain ⟨hsize, hanswer, hepoch, hback, hplaces⟩ := apply_behind_templates (drawn 0) (drawn 1) n
  have hempty : ((new {}).after [.command (.paletteAppend .black)]).scene.size = 0 := rfl
  rw [hempty, Nat.zero_add] at hsize
  rw [hempty, Nat.zero_add, hwraps] at hanswer
  refine ⟨hsize, ?_, hanswer, ?_, ?_⟩
  · rw [census, hsize]
    exact hwraps
  · rw [hback]
    rfl
  · have hname : s'.scene.get? ⟨0, 0⟩ = s'.scene.sprites[0]? := Scene.get?_of_epoch_eq hepoch.symm
    have hfirst : s'.scene.sprites[0]? = some _ := hplaces 0 hpos
    rw [hname, hfirst]
    rfl

/-- Sprite number 65537 is told the name of the first. -/
theorem name_of_other_sprite :
    let dot (x : Nat) : Template := ⟨x, 0, 1, 0, ⟨[], by decide⟩⟩
    let s := ((new {}).after [.command (.paletteAppend .black)]).after
      (List.replicate 65536 (.command (.template (dot 0))))
    let s' := (s.apply (.template (dot 1))).2
    s.scene.size = 65536 ∧ s.census.sprites = 0 ∧
      (s.apply (.template (dot 1))).1 = .ok (.spriteAdded ⟨0, 0⟩ 1 1) ∧
      s'.scene.sprites.back?.map Sprite.x = some 1 ∧
      (s'.scene.get? ⟨0, 0⟩).map Sprite.x = some 0 :=
  told_name_of_first (by omega) rfl

/-- Behind so many cues that a word cannot tell them from none, the census counts none, and the next cue
is told the index of the first, which has another duration. -/
theorem told_index_of_first {n : Nat} (hpos : 0 < n) (hwraps : n.toUInt16 = 0) :
    let pause (units : UInt8) : Animation := ⟨units, ⟨[], by decide⟩⟩
    let s := (new { timeUnitNs := 1 }).after
      (List.replicate n (.command (.animation (pause 0))))
    let s' := (s.apply (.animation (pause 1))).2
    s.timeline.size = n ∧ s.census.cues = 0 ∧
      (s.apply (.animation (pause 1))).1 = .ok (.cueAdded 0 1) ∧
      s'.timeline.cues.back?.map Cue.durationNs = some 1 ∧
      (s'.timeline.get? 0).map Cue.durationNs = some 0 := by
  intro pause s s'
  set cues : Array Cue := #[] ++ Array.replicate n ((new { timeUnitNs := 1 }).cueOf (pause 0)) with hcues
  have hs : s = { new { timeUnitNs := 1 } with timeline := ⟨cues⟩ } :=
    after_replicate_animation (new { timeUnitNs := 1 }) (pause 0) n
  have hsize : s.timeline.size = n := by
    rw [hs]
    simp [Timeline.size, hcues]
  have hword : s.timeline.size.toUInt16 = 0 := by rw [hsize, hwraps]
  have htimeline : s'.timeline = ⟨cues.push ⟨1, []⟩⟩ := by
    change (s.apply (.animation (pause 1))).2.timeline = _
    rw [hs]
    rfl
  refine ⟨hsize, hword, ?_, ?_, ?_⟩
  · have hanswer : (s.apply (.animation (pause 1))).1 =
        .ok (.cueAdded s.timeline.size.toUInt16 (s.settings.durationNs 1)) := rfl
    rw [hanswer, hword, hs]
    rfl
  · rw [htimeline, Array.back?_push]
    rfl
  · have hfirst : 0 < cues.size := by simpa [hcues] using hpos
    rw [htimeline, Timeline.get?, Array.getElem?_push_lt hfirst]
    simp only [hcues, Array.empty_append, Array.getElem_replicate, Option.map_some]
    rfl

end Stage

end Marquee
