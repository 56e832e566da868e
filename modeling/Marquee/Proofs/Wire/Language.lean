import Marquee.Proofs.Wire.Numeral
import Marquee.Wire.Command

/-!
# The language of commands

Which texts are commands, and which command each of them is, said without a reader.

* `ColorText`, `ShapeText`, `KeyframeText`, `BitmapText`, `TemplateText`, `AnimationText` : the parts
  of a command with their values;
* `Tiled` : how the pixels of a bitmap lie in its digits, tile column by tile column, downwards in a
  column and row by row in a tile;
* `Spells` : the whole texts with their commands.
-/

namespace Marquee

namespace Wire

/-- The byte of an ASCII character. -/
def ascii (c : Char) : UInt8 := c.toNat.toUInt8

/-! ### Parts of commands -/

/-- A color is a byte of red, one of green and one of blue. -/
inductive ColorText : List UInt8 → Color → Prop
  | mk {red green blue : List UInt8} {c : Color} :
      Numeral 2 red c.red.toNat → Numeral 2 green c.green.toNat → Numeral 2 blue c.blue.toNat →
      ColorText (red ++ green ++ blue) c

/-- A shape is a disk or a sector. -/
inductive ShapeText : List UInt8 → Shape → Prop
  /-- `D`, the radius and the palette index of a disk. -/
  | disk {r c : List UInt8} {radius : Nat} {color : UInt8} :
      Numeral 3 r radius → Numeral 2 c color.toNat →
      ShapeText ([ascii 'D'] ++ r ++ c) (.disk radius color)
  /-- `S`, a digit from 0 to 3 and the palette index of a sector. -/
  | sector {d c : List UInt8} {number : Nat} {area : Sector} {color : UInt8} :
      Numeral 1 d number →
      [Sector.topRight, .topLeft, .bottomLeft, .bottomHalf][number]? = some area →
      Numeral 2 c color.toNat → ShapeText ([ascii 'S'] ++ d ++ c) (.sector area color)

/-- A keyframe places a sprite or changes a color. -/
inductive KeyframeText : List UInt8 → Keyframe → Prop
  /-- `B`, the sprite, its place and any byte, which is `V` if the sprite is shown. -/
  | place {s x y : List UInt8} {last sprite : UInt8} {column row : Nat} {visible : Bool} :
      Numeral 2 s sprite.toNat → Numeral 3 x column → Numeral 3 y row →
      (visible = true ↔ last = ascii 'V') →
      KeyframeText ([ascii 'B'] ++ s ++ x ++ y ++ [last]) (.place sprite column row visible)
  /-- `P`, a palette index and the color for it. -/
  | recolor {i c : List UInt8} {index : UInt8} {color : Color} :
      Numeral 2 i index.toNat → ColorText c color →
      KeyframeText ([ascii 'P'] ++ i ++ c) (.recolor index color)

/-- A text of components is their texts in order. -/
def ListText {α : Type} (T : List UInt8 → α → Prop) (text : List UInt8) (xs : List α) : Prop :=
  ∃ texts, List.Forall₂ T texts xs ∧ text = texts.flatten

/-- The digits hold the pixels of the bitmap. Of the pixel in column `x` and row `y` of a tile, in
tile column `column` and tile row `row`, they hold the value in the pair that follows the pairs of all
tiles before this one and of the pixels before this one in the tile. -/
structure Tiled (payload : List UInt8) (b : Bitmap) : Prop where
  size : b.pixels.size = b.width * b.height
  pixel : ∀ column < b.tilesWide.toNat, ∀ row < b.tilesHigh.toNat, ∀ x < 16, ∀ y < 16,
    ∃ v, b.pixels[(16 * row + y) * b.width + (16 * column + x)]? = some v ∧
      Numeral 2
        ((payload.drop (2 * ((column * b.tilesHigh.toNat + row) * 256 + (16 * y + x)))).take 2)
        v.toNat

/-- A bitmap is `B`, its place, its size in tiles, its depth and 512 digits for each tile. -/
inductive BitmapText : List UInt8 → Bitmap → Prop
  | mk {x y w h d payload : List UInt8} {bits : Nat} {b : Bitmap} :
      Numeral 3 x b.x → Numeral 3 y b.y → Numeral 2 w b.tilesWide.toNat →
      Numeral 2 h b.tilesHigh.toNat → Numeral 1 d bits → (b.depth = .four ↔ bits ≤ 4) →
      payload.length = 512 * b.tilesWide.toNat * b.tilesHigh.toNat →
      (∀ c ∈ payload, ∃ v, IsDigit c v) → Tiled payload b →
      BitmapText ([ascii 'B'] ++ x ++ y ++ w ++ h ++ d ++ payload) b

/-- A template is `T`, its place, its size, its background and at most 32 shapes. -/
inductive TemplateText : List UInt8 → Template → Prop
  | mk {x y s c text : List UInt8} {t : Template} :
      Numeral 3 x t.x → Numeral 3 y t.y → Numeral 3 s t.size → Numeral 2 c t.background.toNat →
      ListText ShapeText text t.shapes.val → t.shapes.val.length ≤ 32 →
      TemplateText ([ascii 'T'] ++ x ++ y ++ s ++ c ++ text) t

/-- An animation is `A`, how long it is and at most 64 keyframes. -/
inductive AnimationText : List UInt8 → Animation → Prop
  | mk {u text : List UInt8} {a : Animation} :
      Numeral 2 u a.units.toNat → ListText KeyframeText text a.keyframes.val →
      a.keyframes.val.length ≤ 64 → AnimationText ([ascii 'A'] ++ u ++ text) a

/-! ### Commands -/

/-- The letter a command starts with. -/
def letter : Command → UInt8
  | .paletteReset | .paletteAppend _ => ascii 'P'
  | .paletteModify _ _ => ascii 'M'
  | .clear => ascii 'Z'
  | .bitmap _ => ascii 'B'
  | .template _ => ascii 'T'
  | .animation _ => ascii 'A'

/-- What stands between `<` and `>` in a command: `P` alone or with a color, `M` with a palette index and
a color, `Z` alone, or one of the three texts above. -/
inductive BodyText : List UInt8 → Command → Prop
  | paletteReset : BodyText [ascii 'P'] .paletteReset
  | paletteAppend {c : List UInt8} {color : Color} :
      ColorText c color → BodyText ([ascii 'P'] ++ c) (.paletteAppend color)
  | paletteModify {i c : List UInt8} {index : UInt8} {color : Color} :
      Numeral 2 i index.toNat → ColorText c color →
      BodyText ([ascii 'M'] ++ i ++ c) (.paletteModify index color)
  | clear : BodyText [ascii 'Z'] .clear
  | bitmap {text : List UInt8} {b : Bitmap} : BitmapText text b → BodyText text (.bitmap b)
  | template {text : List UInt8} {t : Template} :
      TemplateText text t → BodyText text (.template t)
  | animation {text : List UInt8} {a : Animation} :
      AnimationText text a → BodyText text (.animation a)

/-- The text is the command `c`. -/
def Spells (text : List UInt8) (c : Command) : Prop :=
  ∃ body, BodyText body c ∧ text = [ascii '<'] ++ body ++ [ascii '>']

/-! ### How texts start -/

/-- A color starts with a digit. -/
theorem ColorText.head {text : List UInt8} {c : Color} (h : ColorText text c) :
    ∃ b rest, text = b :: rest ∧ b ≠ ascii '>' := by
  obtain ⟨hr, -, -⟩ := h
  obtain ⟨b, rest, d, rfl, hb⟩ := hr.exists_digit
  refine ⟨b, _, rfl, ?_⟩
  rintro rfl
  have hvalue : (ascii '>').toNat = 62 := by decide
  simp only [IsDigit, hvalue] at hb
  omega

theorem ShapeText.head {text : List UInt8} {s : Shape} (h : ShapeText text s) :
    ∃ b rest, text = b :: rest ∧ b ≠ ascii '>' := by
  cases h with
  | disk | sector => exact ⟨_, _, rfl, by decide⟩

theorem KeyframeText.head {text : List UInt8} {k : Keyframe} (h : KeyframeText text k) :
    ∃ b rest, text = b :: rest ∧ b ≠ ascii '>' := by
  cases h with
  | place | recolor => exact ⟨_, _, rfl, by decide⟩

theorem BodyText.head {text : List UInt8} {c : Command} (h : BodyText text c) :
    ∃ rest, text = letter c :: rest := by
  cases h with
  | paletteReset | paletteAppend | paletteModify | clear => exact ⟨_, rfl⟩
  | bitmap h | template h | animation h => cases h; exact ⟨_, rfl⟩

end Wire

end Marquee
