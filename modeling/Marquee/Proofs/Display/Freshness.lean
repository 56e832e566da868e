import Marquee.Display.Screen

/-!
# What the panel shows, and what the screen thinks of it

A screen leaves out the writes that it thinks are not needed. To tell whether it is right, a
`Recorder` stands between the screen and its panel and logs every write, with the frame and how the
write went. The panel is any panel, so writes may fail in any way. The screen does not notice the
recorder (`Screen.forget_after`).

* `Screen.UpToDate` : the last write succeeded and carried the frame of the screen.
* `Screen.Attempted` : what a write does to the screen; a refresh makes one
  (`Screen.attempted_of_dirty`) or leaves the screen as it is (`Screen.refresh_of_clean`).
* `Screen.Sound` : the invariant of all inputs, with `Screen.Sound.after` for runs.
* `Screen.dirty_while_stale` : **a screen is dirty as long as its panel may be stale**, and a run
  that refreshes after every scene writes only what it has to.
-/

namespace Marquee

/-! ### Recorders -/

/-- A frame that a panel was given, and how that went. -/
structure Writing where
  /-- The frame. -/
  frame : Array UInt16
  /-- What the panel answered. -/
  result : Except PanelFault Unit

/-- The frame was written. -/
def Writing.succeeded (w : Writing) : Bool := w.result.isOk

/-- A panel with a log of all writes to it. -/
structure Recorder (P : Type) where
  /-- The panel. -/
  panel : P
  /-- All writes so far. -/
  log : List Writing

/-- A recorder answers what its panel answers. -/
instance {P : Type} [Panel P] : Panel (Recorder P) where
  size r := Panel.size r.panel
  write r frame :=
    let (result, panel) := Panel.write r.panel frame
    (result, ⟨panel, r.log ++ [⟨frame, result⟩]⟩)

namespace Screen

variable {P : Type}

/-! ### The invariant -/

/-- The last write succeeded, and carried the frame of the screen. -/
def UpToDate (s : Screen (Recorder P)) : Prop :=
  s.panel.log.getLast? = some ⟨s.frame, .ok ()⟩

/-- The last write failed. -/
def LastFailed (s : Screen (Recorder P)) : Prop :=
  ∃ w, s.panel.log.getLast? = some w ∧ w.succeeded = false

/-- What holds of a screen behind any run. -/
structure Sound (s : Screen (Recorder P)) : Prop where
  /-- A screen that is not dirty is up to date. -/
  upToDate : s.dirty = false → s.UpToDate
  /-- The counter tells the writes that succeeded, up to its cap. -/
  framesPushed_eq : s.framesPushed = min (s.panel.log.countP Writing.succeeded) Counter.cap32

/-- A write of the frame of `s`, with its answer and the screen behind it. -/
structure Attempted (s : Screen (Recorder P)) (result : Except PanelFault Unit)
    (s' : Screen (Recorder P)) : Prop where
  log_eq : s'.panel.log = s.panel.log ++ [⟨s.frame, result⟩]
  frame_eq : s'.frame = s.frame
  dirty_eq : s'.dirty = !result.isOk
  framesPushed_eq : s'.framesPushed =
    if result.isOk then Counter.addUpTo Counter.cap32 s.framesPushed 1 else s.framesPushed

section

variable {s s' : Screen (Recorder P)} {result : Except PanelFault Unit}

theorem Attempted.getLast?_log (h : s.Attempted result s') :
    s'.panel.log.getLast? = some ⟨s.frame, result⟩ := by
  rw [h.log_eq, List.getLast?_concat]

/-- Behind a write that succeeded the screen is up to date. -/
theorem Attempted.upToDate (h : s.Attempted (.ok ()) s') : s'.dirty = false ∧ s'.UpToDate :=
  ⟨h.dirty_eq, h.getLast?_log.trans (by rw [h.frame_eq])⟩

theorem Sound.attempted (hs : s.Sound) (h : s.Attempted result s') : s'.Sound := by
  have hcount : s'.panel.log.countP Writing.succeeded =
      s.panel.log.countP Writing.succeeded + if result.isOk then 1 else 0 := by
    rw [h.log_eq, List.countP_append, List.countP_singleton]
    rfl
  have hcounted := hs.framesPushed_eq
  have hpushed := h.framesPushed_eq
  cases result with
  | ok u =>
    refine ⟨fun _ => h.upToDate.2, ?_⟩
    simp only [Except.isOk, Except.toBool, if_true, Counter.addUpTo] at hcount hpushed
    omega
  | error e =>
    simp only [Except.isOk, Except.toBool, Bool.false_eq_true, if_false] at hcount hpushed
    exact ⟨fun hclean => (nomatch h.dirty_eq.symm.trans hclean), by omega⟩

/-- A scene that changes the frame makes the screen dirty, and no scene makes it clean. -/
theorem Sound.compose (hs : s.Sound) (scene : Scene) : (s.compose scene).Sound := by
  refine ⟨fun hclean => ?_, hs.framesPushed_eq⟩
  obtain ⟨hdirty, hframe⟩ : s.dirty = false ∧ (s.compose scene).frame = s.frame := by
    simpa [Screen.compose] using hclean
  exact (hs.upToDate hdirty).trans (by rw [hframe])

end

/-! ### Writes -/

variable [Panel P]

theorem refresh_of_clean {s : Screen P} (h : s.dirty = false) : s.refresh = (.ok (), s) := by
  rw [refresh, h]
  rfl

theorem attempted_of_dirty {s : Screen (Recorder P)} (h : s.dirty = true) :
    s.Attempted s.refresh.1 s.refresh.2 := by
  unfold refresh
  rw [if_pos h]
  split
  case h_1 panel hwrite =>
    obtain ⟨hresult, rfl⟩ := Prod.mk.inj hwrite
    exact ⟨by rw [hresult], rfl, rfl, rfl⟩
  case h_2 e panel hwrite =>
    obtain ⟨hresult, rfl⟩ := Prod.mk.inj hwrite
    exact ⟨by rw [hresult], rfl, h, rfl⟩

theorem attempted_forceRefresh (s : Screen (Recorder P)) :
    s.Attempted s.forceRefresh.1 s.forceRefresh.2 := by
  obtain ⟨hlog, hframe, hdirty, hpushed⟩ :=
    attempted_of_dirty (s := { s with dirty := true }) rfl
  exact ⟨hlog, hframe, hdirty, hpushed⟩

/-- A new screen is dirty, and has nothing written. -/
theorem dirty_and_log_of_new {panel : P} {background : Color} {s : Screen (Recorder P)}
    (made : new (⟨panel, []⟩ : Recorder P) background = .ok s) :
    s.dirty = true ∧ s.panel.log = [] ∧ s.framesPushed = 0 := by
  unfold new at made
  dsimp only at made
  split at made
  case isTrue => cases made
  case isFalse =>
    cases made
    exact ⟨rfl, rfl, rfl⟩

namespace Sound

variable {s : Screen (Recorder P)}

theorem of_new {panel : P} {background : Color}
    (made : new (⟨panel, []⟩ : Recorder P) background = .ok s) : s.Sound := by
  obtain ⟨hdirty, hlog, hpushed⟩ := dirty_and_log_of_new made
  exact ⟨fun hclean => (nomatch hdirty.symm.trans hclean), by rw [hpushed, hlog]; rfl⟩

theorem refresh (hs : s.Sound) : s.refresh.2.Sound := by
  cases h : s.dirty with
  | false => rwa [refresh_of_clean h]
  | true => exact hs.attempted (attempted_of_dirty h)

theorem upToDate_of_refresh_ok (hs : s.Sound) (h : s.refresh.1 = .ok ()) :
    s.refresh.2.dirty = false ∧ s.refresh.2.UpToDate := by
  cases hdirty : s.dirty with
  | false =>
    rw [refresh_of_clean hdirty]
    exact ⟨hdirty, hs.upToDate hdirty⟩
  | true => exact (h ▸ attempted_of_dirty hdirty).upToDate

/-- Behind a refresh the screen is dirty only if the last write failed. -/
theorem dirty_refresh (hs : s.Sound) :
    ∃ w, s.refresh.2.panel.log.getLast? = some w ∧ s.refresh.2.dirty = !w.succeeded := by
  cases hdirty : s.dirty with
  | false =>
    rw [refresh_of_clean hdirty]
    exact ⟨_, hs.upToDate hdirty, hdirty⟩
  | true =>
    have h := attempted_of_dirty hdirty
    exact ⟨_, h.getLast?_log, h.dirty_eq⟩

end Sound

/-! ### Runs -/

/-- What happens to a screen. -/
inductive Input where
  /-- A scene is composed. -/
  | compose (scene : Scene)
  /-- The frame is written, if need be. -/
  | refresh
  /-- The frame is written. -/
  | forceRefresh
  /-- The background is changed. -/
  | setBackground (color : Color)

/-- The screen behind an input. -/
def step (s : Screen P) : Input → Screen P
  | .compose scene => s.compose scene
  | .refresh => s.refresh.2
  | .forceRefresh => s.forceRefresh.2
  | .setBackground color => s.setBackground color

/-- The screen behind a run. -/
def after (s : Screen P) (inputs : List Input) : Screen P := inputs.foldl step s

/-- A run that refreshes after every scene. -/
def showing (scenes : List Scene) : List Input :=
  scenes.flatMap fun scene => [.compose scene, .refresh]

theorem after_showing_concat (s : Screen P) (scenes : List Scene) (scene : Scene) :
    s.after (showing (scenes ++ [scene])) =
      ((s.after (showing scenes)).compose scene).refresh.2 := by
  simp [after, showing, step]

/-- The screen without its recorder. -/
def forget (s : Screen (Recorder P)) : Screen P := { s with panel := s.panel.panel }

theorem forget_refresh (s : Screen (Recorder P)) : s.refresh.2.forget = s.forget.refresh.2 := by
  cases hdirty : s.dirty with
  | false => rw [refresh_of_clean hdirty, refresh_of_clean (s := s.forget) hdirty]
  | true =>
    simp only [refresh, forget, hdirty, if_true, Panel.write]
    rcases Panel.write s.panel.panel s.frame with ⟨_ | _, panel⟩ <;> rfl

/-- A screen does the same with a recorder as without. -/
theorem forget_after (s : Screen (Recorder P)) (inputs : List Input) :
    (s.after inputs).forget = s.forget.after inputs := by
  induction inputs generalizing s with
  | nil => rfl
  | cons i rest ih =>
    have hstep : (s.step i).forget = s.forget.step i := by
      cases i with
      | compose scene => rfl
      | refresh => exact s.forget_refresh
      | forceRefresh => exact forget_refresh { s with dirty := true }
      | setBackground color => rfl
    exact (ih (s.step i)).trans (by rw [hstep]; rfl)

theorem Sound.step {s : Screen (Recorder P)} (hs : s.Sound) (i : Input) : (s.step i).Sound := by
  cases i with
  | compose scene => exact hs.compose scene
  | refresh => exact hs.refresh
  | forceRefresh => exact hs.attempted s.attempted_forceRefresh
  | setBackground color => exact ⟨hs.upToDate, hs.framesPushed_eq⟩

theorem Sound.after {s : Screen (Recorder P)} (hs : s.Sound) (inputs : List Input) :
    (s.after inputs).Sound := by
  induction inputs generalizing s with
  | nil => exact hs
  | cons i rest ih => exact ih (hs.step i)

/-- Behind a run that refreshes after every scene, the screen is dirty only for a reason. -/
theorem dirty_after_showing {panel : P} {background : Color} {s : Screen (Recorder P)}
    (made : new (⟨panel, []⟩ : Recorder P) background = .ok s) (scenes : List Scene) :
    (s.after (showing scenes)).dirty = true ↔
      scenes = [] ∨ (s.after (showing scenes)).LastFailed := by
  obtain rfl | ⟨earlier, last, rfl⟩ := scenes.eq_nil_or_concat
  · exact iff_of_true (dirty_and_log_of_new made).1 (.inl rfl)
  · obtain ⟨w, hlast, hdirty⟩ :=
      (((Sound.of_new made).after (showing earlier)).compose last).dirty_refresh
    rw [List.concat_eq_append, after_showing_concat, hdirty]
    simp [LastFailed, hlast]

/-- **A screen is dirty while its panel may be stale.** The screen is new, and its panel is any
panel. Behind every run a screen that is not dirty is up to date, a refresh that succeeds, forced or
not, leaves such a screen, and the counter tells the writes that succeeded, up to its cap. A run
that refreshes after every scene writes the frame of the next scene if it is the first, if the last
write failed, or if it is another frame than before; else it writes nothing. -/
theorem dirty_while_stale {panel : P} {background : Color} {s₀ : Screen (Recorder P)}
    (made : new (⟨panel, []⟩ : Recorder P) background = .ok s₀) :
    (∀ inputs : List Input,
      let s := s₀.after inputs
      (s.dirty = false → s.UpToDate) ∧
      (s.refresh.1 = .ok () → s.refresh.2.dirty = false ∧ s.refresh.2.UpToDate) ∧
      (s.forceRefresh.1 = .ok () → s.forceRefresh.2.dirty = false ∧ s.forceRefresh.2.UpToDate) ∧
      s.framesPushed = min (s.panel.log.countP Writing.succeeded) Counter.cap32) ∧
    ∀ (scenes : List Scene) (scene : Scene),
      let s := s₀.after (showing scenes)
      let s' := s.compose scene
      let due := scenes = [] ∨ s.LastFailed ∨ s'.frame ≠ s.frame
      (due → s'.refresh.2.panel.log = s.panel.log ++ [⟨s'.frame, s'.refresh.1⟩]) ∧
      (¬ due → s'.refresh.2.panel.log = s.panel.log) := by
  constructor
  · intro inputs s
    have hs : s.Sound := (Sound.of_new made).after inputs
    refine ⟨hs.upToDate, hs.upToDate_of_refresh_ok, fun hok => ?_, hs.framesPushed_eq⟩
    exact (hok ▸ s.attempted_forceRefresh).upToDate
  · intro scenes scene s s' due
    have hdue : s'.dirty = true ↔ due := by
      rw [show s'.dirty = (s.dirty || s'.frame != s.frame) from rfl, Bool.or_eq_true, bne_iff_ne,
        dirty_after_showing made, or_assoc]
    refine ⟨fun h => (attempted_of_dirty (hdue.2 h)).log_eq, fun h => ?_⟩
    rw [refresh_of_clean (Bool.eq_false_iff.2 (mt hdue.1 h))]
    rfl

/-- A new background is shown with the next scene, which then need not be written twice. -/
theorem dirty_while_stale_of_new_background :
    let s₀ : Screen (Recorder MemoryPanel) := ⟨⟨.new 2 1, []⟩, 2, 1, 0, #[0, 0], true, 0⟩
    let s := s₀.after [.refresh, .setBackground ⟨255, 0, 0⟩, .compose .empty, .refresh]
    let s' := (s₀.after (showing [.empty])).compose .empty
    new (⟨.new 2 1, []⟩ : Recorder MemoryPanel) ⟨0, 0, 0⟩ = .ok s₀ ∧
      s.dirty = false ∧ s.UpToDate ∧ s.frame = #[0xF800, 0xF800] ∧
      s.framesPushed = min (s.panel.log.countP Writing.succeeded) Counter.cap32 ∧
      s'.refresh.2.panel.log = (s₀.after (showing [.empty])).panel.log := by
  intro s₀ s s'
  have made : new (⟨.new 2 1, []⟩ : Recorder MemoryPanel) ⟨0, 0, 0⟩ = .ok s₀ := by rfl
  obtain ⟨hruns, hshowing⟩ := dirty_while_stale made
  obtain ⟨hfresh, -, -, hcounted⟩ := hruns [.refresh, .setBackground ⟨255, 0, 0⟩, .compose .empty,
    .refresh]
  have hclean : s.dirty = false := by decide +kernel
  refine ⟨made, hclean, hfresh hclean, by decide +kernel, hcounted, ?_⟩
  refine (hshowing [.empty] .empty).2 ?_
  rintro (h | ⟨w, hw, hfailed⟩ | h)
  · cases h
  · obtain rfl := Option.some.inj hw
    cases hfailed
  · exact h (by decide +kernel)

end Screen

end Marquee
