import Marquee.Display.Screen
import Marquee.Proofs.Places
import Marquee.Stage.Basic
import Mathlib.Data.List.Induction
import Mathlib.Tactic.SplitIfs

/-!
# What a composed frame shows

The frame is painted sprite by sprite from the bottom to the top, and each sprite span by span where
it meets the frame. A stage, asked for the color at a place, searches its sprites from the top.

* `Sprite.getElem?_paint` : a sprite covers exactly the pixels that it gives a color to;
* `Scene.getElem?_paint` : what covers a pixel in the end is the topmost color;
* `Screen.pixel?_compose`, `Screen.compose_shows_stage` : the frame shows what the stage tells.
-/

namespace Marquee

/-- The word of a pixel of the given word below a color, or below none. -/
def cover (color : Option Color) (below : UInt16) : UInt16 :=
  match color with
  | some c => c.rgb565
  | none => below

theorem cover_cover (upper lower : Option Color) (below : UInt16) :
    cover upper (cover lower below) = cover (upper.or lower) below := by
  cases upper <;> rfl

namespace Sprite

/-! ### Pixels, spans and rows -/

/-- Paint the pixel of screen row `y` in column `x`. -/
def paintPixel (s : Sprite) (stride y : Nat) (frame : Array UInt16) (x : Nat) : Array UInt16 :=
  match s.colorAt (x - s.left) (y - s.top) with
  | some c => frame.setIfInBounds (y * stride + x) c.rgb565
  | none => frame

/-- A span is painted pixel by pixel. -/
theorem paintSpan_succ (s : Sprite) (stride y : Nat) (frame : Array UInt16) (x count : Nat) :
    s.paintSpan stride y frame x (count + 1) =
      s.paintSpan stride y (s.paintPixel stride y frame x) (x + 1) count := by
  rw [paintSpan, paintPixel]
  cases s.colorAt (x - s.left) (y - s.top) <;> rfl

theorem getElem?_paintPixel (s : Sprite) (stride y : Nat) (frame : Array UInt16) (x i : Nat) :
    (s.paintPixel stride y frame x)[i]? =
      if i = y * stride + x then frame[i]?.map (cover (s.colorAt (x - s.left) (y - s.top)))
      else frame[i]? := by
  rw [paintPixel]
  cases s.colorAt (x - s.left) (y - s.top) with
  | none =>
    split_ifs
    · exact Option.map_id'.symm
    · rfl
  | some c =>
    split_ifs with h
    · -- a place beyond the frame is not written, and it has no word to cover
      rw [h, Array.getElem?_setIfInBounds_self]
      by_cases hsize : y * stride + x < frame.size
      · rw [if_pos hsize, Array.getElem?_eq_getElem hsize]
        rfl
      · rw [if_neg hsize, Array.getElem?_eq_none (by omega)]
        rfl
    · exact Array.getElem?_setIfInBounds_ne (Ne.symm h)

/-- A span covers its pixels with the colors of the sprite, and leaves all other entries. -/
theorem getElem?_paintSpan (s : Sprite) (stride y : Nat) (frame : Array UInt16) (x₀ count i : Nat) :
    (s.paintSpan stride y frame x₀ count)[i]? =
      if y * stride + x₀ ≤ i ∧ i < y * stride + x₀ + count then
        frame[i]?.map (cover (s.colorAt ((i - y * stride : Nat) - s.left) (y - s.top)))
      else frame[i]? := by
  induction count generalizing frame x₀ with
  | zero => rw [if_neg (by omega)]; rfl
  | succ count ih =>
    rw [paintSpan_succ, ih, getElem?_paintPixel]
    -- an entry is covered first, later, or not at all
    by_cases hfirst : i = y * stride + x₀
    · rw [if_neg (by omega), if_pos hfirst, if_pos (by omega), hfirst, Nat.add_sub_cancel_left]
    · rw [if_neg hfirst]
      by_cases hlater : y * stride + (x₀ + 1) ≤ i ∧ i < y * stride + (x₀ + 1) + count
      · rw [if_pos hlater, if_pos (by omega)]
      · rw [if_neg hlater, if_neg (by omega)]

/-- A span of a frame covers pixels of one row. -/
theorem getElem?_paintSpan_place (s : Sprite) {stride x₀ count : Nat} (frame : Array UInt16)
    (hspan : x₀ + count ≤ stride) (y₀ : Nat) {x : Nat} (hx : x < stride) (y : Nat) :
    (s.paintSpan stride y₀ frame x₀ count)[y * stride + x]? =
      if y = y₀ ∧ x₀ ≤ x ∧ x < x₀ + count then
        frame[y * stride + x]?.map (cover (s.colorAt (x - s.left) (y - s.top)))
      else frame[y * stride + x]? := by
  have hplace := place_mem_span_iff hspan hx y₀ y
  rw [getElem?_paintSpan]
  by_cases h : y = y₀ ∧ x₀ ≤ x ∧ x < x₀ + count
  · rw [if_pos (hplace.2 h), if_pos h, h.1, Nat.add_sub_cancel_left]
  · rw [if_neg (mt hplace.1 h), if_neg h]

/-- Rows of spans cover the pixels of a rectangle. -/
theorem getElem?_paintRows (s : Sprite) {stride x₀ count : Nat} (frame : Array UInt16)
    (hspan : x₀ + count ≤ stride) (y₀ rows : Nat) {x : Nat} (hx : x < stride) (y : Nat) :
    (s.paintRows stride x₀ count frame y₀ rows)[y * stride + x]? =
      if (y₀ ≤ y ∧ y < y₀ + rows) ∧ x₀ ≤ x ∧ x < x₀ + count then
        frame[y * stride + x]?.map (cover (s.colorAt (x - s.left) (y - s.top)))
      else frame[y * stride + x]? := by
  induction rows generalizing frame y₀ with
  | zero => rw [if_neg (by omega)]; rfl
  | succ rows ih =>
    rw [paintRows, ih, getElem?_paintSpan_place s frame hspan y₀ hx y]
    by_cases hcolumn : x₀ ≤ x ∧ x < x₀ + count
    -- again, now row by row
    · by_cases hrow : y = y₀
      · rw [if_neg (by omega), if_pos ⟨hrow, hcolumn⟩, if_pos (by omega)]
      · by_cases hlater : y₀ + 1 ≤ y ∧ y < y₀ + 1 + rows
        · rw [if_pos ⟨hlater, hcolumn⟩, if_neg (by omega), if_pos (by omega)]
        · rw [if_neg (by omega), if_neg (by omega), if_neg (by omega)]
    · rw [if_neg (by omega), if_neg (by omega), if_neg (by omega)]

/-! ### Clipping -/

theorem clipped_le (limit : Nat) (start : Int) (length : Nat) :
    (clipped limit start length).1 + (clipped limit start length).2 ≤ limit := by
  simp only [clipped]
  omega

/-- Clipping keeps what lies on the screen. -/
theorem clipped_iff {limit i : Nat} (hi : i < limit) (start : Int) (length : Nat) :
    (clipped limit start length).1 ≤ i ∧
        i < (clipped limit start length).1 + (clipped limit start length).2 ↔
      start ≤ i ∧ i < start + length := by
  simp only [clipped]
  omega

theorem colorAt_eq_none (s : Sprite) {x y : Int}
    (h : ¬(0 ≤ x ∧ x < s.canvas.width ∧ 0 ≤ y ∧ y < s.canvas.height)) : s.colorAt x y = none := by
  rw [colorAt, Canvas.get?, if_neg h]
  rfl

/-- A sprite covers the pixels that it gives a color to. -/
theorem getElem?_paint (s : Sprite) {width height x y : Nat} (frame : Array UInt16) (hx : x < width)
    (hy : y < height) :
    (s.paint width height frame)[y * width + x]? =
      frame[y * width + x]?.map (cover (s.screenColor x y)) := by
  unfold screenColor
  by_cases hvisible : s.visible = true
  · have hpaint : s.paint width height frame =
        s.paintRows width (clipped width s.left s.canvas.width).1
          (clipped width s.left s.canvas.width).2 frame (clipped height s.top s.canvas.height).1
          (clipped height s.top s.canvas.height).2 := by
      rw [paint, if_pos hvisible]
    have hcolumn := clipped_iff hx s.left s.canvas.width
    have hrow := clipped_iff hy s.top s.canvas.height
    rw [hpaint, getElem?_paintRows s frame (clipped_le ..) _ _ hx, if_pos hvisible]
    split_ifs with h
    · rfl
    · -- what is clipped away lies outside the canvas
      rw [hcolumn, hrow] at h
      rw [colorAt_eq_none s (by omega)]
      exact Option.map_id'.symm
  · rw [paint, if_neg hvisible, if_neg hvisible]
    exact Option.map_id'.symm

end Sprite

/-- When sprites are painted from the bottom to the top, and each covers an entry with its color, then
the topmost color covers the entry in the end: the sprite painted last is the one searched first. -/
theorem getElem?_foldl_cover {paint : Array UInt16 → Sprite → Array UInt16}
    {color : Sprite → Option Color} {i : Nat}
    (hpaint : ∀ frame sprite, (paint frame sprite)[i]? = frame[i]?.map (cover (color sprite)))
    (sprites : List Sprite) {frame : Array UInt16} {below : UInt16} (hbelow : frame[i]? = some below) :
    (sprites.toArray.foldl paint frame)[i]? =
      some (cover (sprites.toArray.findSomeRev? color) below) := by
  induction sprites using List.reverseRecOn with
  | nil => simpa [cover] using hbelow
  | append_singleton sprites sprite ih =>
    rw [← List.push_toArray, Array.foldl_push, Array.findSomeRev?_push, hpaint, ih, Option.map_some,
      cover_cover]

/-- The topmost color covers a pixel of a scene. -/
theorem Scene.getElem?_paint (s : Scene) {width height x y : Nat} (hx : x < width) (hy : y < height)
    (background : UInt16) :
    (s.paint width height background)[y * width + x]? =
      some (cover (s.colorAt x y) background) :=
  getElem?_foldl_cover (fun frame sprite => sprite.getElem?_paint frame hx hy) s.sprites.toList
    (by rw [Array.getElem?_replicate, if_pos (place_lt hx hy)])

namespace Screen

variable {P : Type}

/-- The pixels of a composed frame, over a background given as a word. -/
theorem pixel?_compose (s : Screen P) (scene : Scene) (x y : Nat) :
    (s.compose scene).pixel? x y =
      if x < s.width ∧ y < s.height then some (cover (scene.colorAt x y) s.background) else none := by
  change (if x < s.width ∧ y < s.height then
    (scene.paint s.width s.height s.background)[y * s.width + x]? else none) = _
  split_ifs with h
  · exact scene.getElem?_paint h.1 h.2 s.background
  · rfl

/-- **The frame shows what the stage tells.** Whatever was on the screen before, once the scene of a
stage is composed over a background, each pixel of the screen has the word of the color that the stage
tells for its place, and that of the background where the stage tells none. -/
theorem compose_shows_stage (s : Screen P) (background : Color) (stage : Stage) (x y : Nat) :
    ((s.setBackground background).compose stage.scene).pixel? x y =
      if x < s.width ∧ y < s.height then
        match stage.colorAt x y with
        | some color => some color.rgb565
        | none => some background.rgb565
      else none := by
  rw [pixel?_compose]
  unfold Stage.colorAt
  cases stage.scene.colorAt x y <;> rfl

end Screen

end Marquee
