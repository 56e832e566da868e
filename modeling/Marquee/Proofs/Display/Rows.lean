import Marquee.Proofs.Display.Composition
import Marquee.Proofs.Display.Freshness

/-!
# Composing row by row

A screen composes its frame in the space of one row: each row is painted on its own, compared with the
row that the frame has there, and copied over it if it is another one. What comes out is the frame that
is painted as a whole, and the screen is dirty if it was so before or if the frame has changed.

* `Scene.paintRow_eq_extract` : a row painted on its own is the row of the whole frame.
* `Screen.Composing.Done` : what the loop over the rows has done when it comes to a row, with
  `Screen.Composing.Done.composeRow` for one round.
* `Screen.Whole` : the frame has one word for each pixel, on every screen that was made for its panel.
* `Screen.composeRows_eq_compose` : **composing row by row is composing**, at any time of a screen
  (`Screen.composeRows_after_eq`).
-/

namespace Marquee

/-! ### Rows of arrays -/

section

variable {α : Type} {width : Nat}

/-- Entry `x` of row `y`. -/
theorem getElem?_extract_row (data : Array α) (y : Nat) {x : Nat} (hx : x < width) :
    (data.extract (y * width) ((y + 1) * width))[x]? = data[y * width + x]? := by
  rw [Array.getElem?_extract, Nat.succ_mul]
  split_ifs with h
  · rfl
  · exact (Array.getElem?_eq_none (by omega)).symm

theorem getElem?_extract_row_eq_none (data : Array α) (y : Nat) {x : Nat} (hx : ¬x < width) :
    (data.extract (y * width) ((y + 1) * width))[x]? = none := by
  rw [Array.getElem?_extract, Nat.succ_mul, if_neg (by omega)]

/-- Rows are compared entry by entry. -/
theorem extract_row_eq_iff {data data' : Array α} {y : Nat} :
    data.extract (y * width) ((y + 1) * width) = data'.extract (y * width) ((y + 1) * width) ↔
      ∀ x < width, data[y * width + x]? = data'[y * width + x]? := by
  constructor
  · intro h x hx
    rw [← getElem?_extract_row data y hx, h, getElem?_extract_row data' y hx]
  · intro h
    refine Array.ext_getElem? fun x => ?_
    by_cases hx : x < width
    · rw [getElem?_extract_row data y hx, h x hx, getElem?_extract_row data' y hx]
    · rw [getElem?_extract_row_eq_none data y hx, getElem?_extract_row_eq_none data' y hx]

/-- A row copied over another array of the size changes just this row. -/
theorem getElem?_copyAt_row {data data' : Array α} {y : Nat} (hsize : data'.size = data.size)
    (hrow : (y + 1) * width ≤ data.size) (i : Nat) :
    (copyAt data (y * width) (data'.extract (y * width) ((y + 1) * width)).toList)[i]? =
      if y * width ≤ i ∧ i < (y + 1) * width then data'[i]? else data[i]? := by
  have hlength : (data'.extract (y * width) ((y + 1) * width)).toList.length = width := by
    have hnext : (y + 1) * width = y * width + width := Nat.succ_mul ..
    rw [Array.length_toList, Array.size_extract]
    omega
  by_cases hi : i < data.size
  · rw [getElem?_copyAt _ _ _ hi, hlength, ← Nat.succ_mul]
    split_ifs with h
    · rw [Nat.succ_mul] at h
      rw [Array.getElem?_toList, getElem?_extract_row data' y (by omega), Nat.add_sub_cancel' h.1]
    · rfl
  · rw [if_neg (by omega), Array.getElem?_eq_none (by rw [size_copyAt]; omega),
      Array.getElem?_eq_none (by omega)]

end

/-! ### Sizes -/

namespace Sprite

theorem size_paintSpan (s : Sprite) (stride y : Nat) (frame : Array UInt16) (x count : Nat) :
    (s.paintSpan stride y frame x count).size = frame.size := by
  induction count generalizing frame x with
  | zero => rfl
  | succ count ih =>
    rw [paintSpan_succ, ih, paintPixel]
    split
    · exact Array.size_setIfInBounds
    · rfl

theorem size_paintRows (s : Sprite) (stride x count : Nat) (frame : Array UInt16) (y rows : Nat) :
    (s.paintRows stride x count frame y rows).size = frame.size := by
  induction rows generalizing frame y with
  | zero => rfl
  | succ rows ih => rw [paintRows, ih, size_paintSpan]

theorem size_paint (s : Sprite) (width height : Nat) (frame : Array UInt16) :
    (s.paint width height frame).size = frame.size := by
  rw [paint]
  split
  · exact s.size_paintRows ..
  · rfl

theorem size_paintRow (s : Sprite) (row : Array UInt16) (y : Nat) :
    (s.paintRow row y).size = row.size := by
  rw [paintRow]
  split
  · exact s.size_paintSpan ..
  · rfl

end Sprite

theorem Scene.size_paint (s : Scene) (width height : Nat) (background : UInt16) :
    (s.paint width height background).size = width * height := by
  refine Array.foldl_induction (motive := fun _ (frame : Array UInt16) => frame.size = width * height)
    Array.size_replicate ?_
  intro i frame hframe
  exact (Sprite.size_paint ..).trans hframe

theorem Scene.size_paintRow (s : Scene) (row : Array UInt16) (y : Nat) :
    (s.paintRow row y).size = row.size := by
  refine Array.foldl_induction (motive := fun _ (row' : Array UInt16) => row'.size = row.size) rfl ?_
  intro i row' hrow'
  exact (Sprite.size_paintRow ..).trans hrow'

/-! ### One row -/

/-- A sprite covers the row with the colors that it has there. -/
theorem Sprite.getElem?_paintRow (s : Sprite) (row : Array UInt16) (x y : Nat) :
    (s.paintRow row y)[x]? = row[x]?.map (cover (s.colorAt (x - s.left) (y - s.top))) := by
  by_cases hx : x < row.size
  · have hcolumn := clipped_iff hx s.left s.canvas.width
    rw [paintRow]
    split
    case isTrue hrow =>
      have hspan := s.getElem?_paintSpan 0 y row (clipped row.size s.left s.canvas.width).1
        (clipped row.size s.left s.canvas.width).2 x
      simp only [Nat.mul_zero, Nat.zero_add, Nat.sub_zero] at hspan
      refine hspan.trans ?_
      split_ifs with h
      · rfl
      · rw [hcolumn] at h
        rw [colorAt_eq_none s (by omega)]
        exact Option.map_id'.symm
    case isFalse hrow =>
      rw [colorAt_eq_none s (by omega)]
      exact Option.map_id'.symm
  · rw [Array.getElem?_eq_none (by rw [size_paintRow]; omega), Array.getElem?_eq_none (by omega)]
    rfl

/-- The topmost color covers a pixel of a row. -/
theorem Scene.getElem?_paintRow (s : Scene) {width x : Nat} (hx : x < width) (y : Nat)
    (background : UInt16) :
    (s.paintRow (Array.replicate width background) y)[x]? =
      some (cover (s.colorAt x y) background) := by
  -- sprites that are not shown are left out, and have no color
  have hpaint (row : Array UInt16) (sprite : Sprite) :
      (if sprite.visible then sprite.paintRow row y else row)[x]? =
        row[x]?.map (cover (sprite.screenColor x y)) := by
    rw [Sprite.screenColor]
    split
    · exact sprite.getElem?_paintRow row x y
    · exact Option.map_id'.symm
  rw [paintRow, Array.foldl_filter]
  exact getElem?_foldl_cover hpaint s.sprites.toList
    (by rw [Array.getElem?_replicate, if_pos hx])

/-- **A row painted on its own is the row of the whole frame.** -/
theorem Scene.paintRow_eq_extract (s : Scene) (width : Nat) {height y : Nat} (hy : y < height)
    (background : UInt16) :
    s.paintRow (Array.replicate width background) y =
      (s.paint width height background).extract (y * width) ((y + 1) * width) := by
  refine Array.ext_getElem? fun x => ?_
  by_cases hx : x < width
  · rw [s.getElem?_paintRow hx, getElem?_extract_row _ y hx, s.getElem?_paint hx hy]
  · rw [getElem?_extract_row_eq_none _ y hx,
      Array.getElem?_eq_none (by rw [size_paintRow, Array.size_replicate]; omega)]

namespace Screen

variable {P : Type}

/-! ### The loop -/

/-- When the loop comes to row `n`, all rows before it are those of the scene, and the screen is dirty if
it was, or if its frame is another one by now. -/
structure Composing.Done (s : Screen P) (scene : Scene) (n : Nat) (c : Composing) : Prop where
  /-- There is room for one row. -/
  size_row : c.row.size = s.width
  /-- The frame is as large as ever. -/
  size_frame : c.frame.size = s.width * s.height
  /-- The rows before row `n` are new, and the others are as before. -/
  getElem?_frame : ∀ i, c.frame[i]? =
    if i < n * s.width then (scene.paint s.width s.height s.background)[i]? else s.frame[i]?
  /-- The screen is dirty for a reason. -/
  dirty_eq : c.dirty = (s.dirty || c.frame != s.frame)

/-- What a round is for: row `n` of the scene comes to its place in the frame, and nothing else changes. -/
theorem Composing.Done.succ {s : Screen P} {scene : Scene} {n : Nat} {c : Composing}
    (h : c.Done s scene n) {frame : Array UInt16} {dirty : Bool} {row : Array UInt16}
    (hrow : row.size = s.width) (hsize : frame.size = s.width * s.height)
    (hframe : ∀ i, frame[i]? = if n * s.width ≤ i ∧ i < (n + 1) * s.width then
      (scene.paint s.width s.height s.background)[i]? else c.frame[i]?)
    (hdirty : dirty = (s.dirty || frame != s.frame)) :
    Composing.Done s scene (n + 1) ⟨row, frame, dirty⟩ := by
  refine ⟨hrow, hsize, fun i => ?_, hdirty⟩
  have hnext : (n + 1) * s.width = n * s.width + s.width := Nat.succ_mul ..
  have hbefore := h.getElem?_frame i
  rw [hframe]
  split_ifs at hbefore ⊢ <;> first | rfl | assumption | omega

/-- One round of the loop composes one more row. -/
theorem Composing.Done.composeRow {s : Screen P} {scene : Scene} {n : Nat} {c : Composing}
    (h : c.Done s scene n) (hn : n < s.height) :
    (Screen.composeRow s.width s.background scene c n).Done s scene (n + 1) := by
  have hsize : (scene.paint s.width s.height s.background).size = c.frame.size :=
    (scene.size_paint ..).trans h.size_frame.symm
  have hfits : (n + 1) * s.width ≤ c.frame.size := by
    rw [h.size_frame, Nat.mul_comm s.width]
    exact Nat.mul_le_mul_right _ hn
  have hrow : (scene.paintRow (Array.replicate s.width s.background) n).size = s.width := by
    rw [Scene.size_paintRow, Array.size_replicate]
  rw [Screen.composeRow, h.size_row]
  split
  case isTrue hsame =>
    rw [scene.paintRow_eq_extract s.width hn, extract_row_eq_iff] at hsame
    refine h.succ hrow h.size_frame (fun i => ?_) h.dirty_eq
    split_ifs with hi
    · have hplace := hsame (i - n * s.width) (by rw [Nat.succ_mul] at hi; omega)
      rwa [Nat.add_sub_cancel' hi.1] at hplace
    · rfl
  case isFalse hother =>
    have hcopied := getElem?_copyAt_row hsize hfits
    rw [scene.paintRow_eq_extract s.width hn] at hother hrow ⊢
    refine h.succ hrow ((size_copyAt ..).trans h.size_frame) hcopied ?_
    -- the frame is another one than at the start, since row `n` was still as at the start
    have hchanged : copyAt c.frame (n * s.width) ((scene.paint s.width s.height
        s.background).extract (n * s.width) ((n + 1) * s.width)).toList ≠ s.frame := by
      intro hsame
      refine hother (extract_row_eq_iff.2 fun x hx => ?_)
      have hplace := hcopied (n * s.width + x)
      rw [hsame, if_pos ⟨Nat.le_add_right .., by rw [Nat.succ_mul]; omega⟩] at hplace
      rw [h.getElem?_frame, if_neg (by omega), hplace]
    rw [bne_iff_ne.2 hchanged, Bool.or_true]

/-! ### Whole screens -/

/-- The frame has one word for each pixel. -/
def Whole (s : Screen P) : Prop := s.frame.size = s.width * s.height

/-- **Composing row by row is composing**, whatever is in the place for the row before. -/
theorem composeRows_eq_compose {s : Screen P} (whole : s.Whole) {row : Array UInt16}
    (size_row : row.size = s.width) (scene : Scene) :
    s.composeRows row scene = s.compose scene := by
  have hdone (n : Nat) (hn : n ≤ s.height) :
      ((List.range n).foldl (composeRow s.width s.background scene) ⟨row, s.frame, s.dirty⟩).Done s
        scene n := by
    induction n with
    | zero =>
      refine ⟨size_row, whole, fun i => ?_, by simp⟩
      rw [Nat.zero_mul, if_neg (Nat.not_lt_zero i)]
      rfl
    | succ n ih =>
      rw [List.range_succ, List.foldl_append]
      exact (ih (by omega)).composeRow hn
  obtain ⟨-, -, hframe, hdirty⟩ := hdone s.height (Nat.le_refl _)
  -- behind the last row all of the frame is new
  have hpainted := scene.size_paint s.width s.height s.background
  have hall : ((List.range s.height).foldl (composeRow s.width s.background scene)
      ⟨row, s.frame, s.dirty⟩).frame = scene.paint s.width s.height s.background := by
    refine Array.ext_getElem? fun i => ?_
    rw [hframe, Nat.mul_comm s.height]
    split_ifs with hi
    · rfl
    · rw [Array.getElem?_eq_none (by rw [whole]; omega), Array.getElem?_eq_none (by omega)]
  rw [hall] at hdirty
  rw [composeRows, compose, hall, hdirty]

theorem Whole.compose {s : Screen P} (scene : Scene) : (s.compose scene).Whole :=
  scene.size_paint s.width s.height s.background

variable [Panel P]

theorem whole_of_new {panel : P} {background : Color} {s : Screen P}
    (made : new panel background = .ok s) : s.Whole := by
  unfold new at made
  dsimp only at made
  split at made
  case isTrue => cases made
  case isFalse =>
    cases made
    exact Array.size_replicate

theorem Whole.refresh {s : Screen P} (whole : s.Whole) : s.refresh.2.Whole := by
  rw [Screen.refresh]
  split
  · split <;> exact whole
  · exact whole

theorem Whole.step {s : Screen P} (whole : s.Whole) (i : Input) : (s.step i).Whole := by
  cases i with
  | compose scene => exact Whole.compose scene
  | refresh => exact whole.refresh
  | forceRefresh => exact Whole.refresh (s := { s with dirty := true }) whole
  | setBackground color => exact whole

theorem Whole.after {s : Screen P} (whole : s.Whole) (inputs : List Input) :
    (s.after inputs).Whole := by
  induction inputs generalizing s with
  | nil => exact whole
  | cons i rest ih => exact ih (whole.step i)

/-- Whatever a new screen has been through, it composes the next scene row by row as a whole. -/
theorem composeRows_after_eq {panel : P} {background : Color} {s₀ : Screen P}
    (made : new panel background = .ok s₀) (inputs : List Input) {row : Array UInt16}
    (size_row : row.size = (s₀.after inputs).width) (scene : Scene) :
    (s₀.after inputs).composeRows row scene = (s₀.after inputs).compose scene :=
  composeRows_eq_compose ((whole_of_new made).after inputs) size_row scene

end Screen

end Marquee
