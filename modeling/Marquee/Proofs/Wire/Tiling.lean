import Marquee.Proofs.Places
import Marquee.Proofs.Wire.Language
import Marquee.Proofs.Wire.Takes
import Marquee.Wire.Grammar

/-!
# Tiles

The tiles of a bitmap are read column by column and put where they belong, each row of a tile at its own
place among the rows of the picture. What comes of it is told by a formula.

* `tileOrder` : the tiles in the order in which they are read; `Grammar.foldlM_tileOrder` makes one loop
  of the loops over columns and rows.
* `getElem?_copyRows` : copying a tile changes exactly its pixels.
* `Mosaic.Shows` : all that was sent is shown where it belongs; kept by each tile
  (`Mosaic.Shows.put`), and so by all of them (`Mosaic.Shows.putAll`).
* `rowMajor` : the pixels by the formula; `pixels_putAll` says that the loops leave them.
* `takes_tiles` : the tiles of a bitmap are its digit pairs, with their pixels.
* `tiled_iff` : the pixels lie as the digits say if and only if they are those of the formula.
-/

namespace Marquee

namespace Wire

namespace PairText

variable {text values : List UInt8}

theorem take (h : PairText text values) (n : Nat) :
    PairText (text.take (2 * n)) (values.take n) := by
  induction h generalizing n with
  | nil => simpa using PairText.nil
  | cons hpair _ ih =>
    cases n with
    | zero => exact .nil
    | succ n => exact .cons hpair (ih n)

theorem drop (h : PairText text values) (n : Nat) :
    PairText (text.drop (2 * n)) (values.drop n) := by
  induction h generalizing n with
  | nil => simpa using PairText.nil
  | cons hpair h ih =>
    cases n with
    | zero => exact .cons hpair h
    | succ n => exact ih n

/-- The digits of a tile stand for its pixels. -/
theorem length_of_tile (h : PairText text values) (hlen : text.length = Grammar.tileDigits) :
    values.length = Command.tileArea :=
  Nat.eq_of_mul_eq_mul_left Nat.two_pos (h.length.symm.trans hlen)

theorem length_of_tiles (h : PairText text values) {n : Nat}
    (hlen : text.length = n * Grammar.tileDigits) : values.length = n * 256 := by
  have := h.length
  simp only [Grammar.tileDigits, Command.tileArea, Command.tileEdge] at hlen
  omega

end PairText

namespace Grammar

open Reader

/-! ### Places of the pixels -/

/-- The place of pixel `(x, y)` among the pixels in the order they are sent: tile column by tile
column, downwards in a column, row by row in a tile. -/
def sentAt (tilesHigh x y : Nat) : Nat :=
  (x / Command.tileEdge * tilesHigh + y / Command.tileEdge) * Command.tileArea +
    y % Command.tileEdge * Command.tileEdge + x % Command.tileEdge

/-- Pixels row by row, from the order they are sent. -/
def rowMajor (tilesWide tilesHigh : Nat) (sent : Array UInt8) : Array UInt8 :=
  let width := tilesWide * Command.tileEdge
  Array.ofFn fun i : Fin (width * (tilesHigh * Command.tileEdge)) =>
    sent.getD (sentAt tilesHigh (i.val % width) (i.val / width)) 0

/-- Where the pixel of a tile is sent. -/
theorem sentAt_tile (tilesHigh column row : Nat) {x y : Nat} (hx : x < 16) (hy : y < 16) :
    sentAt tilesHigh (16 * column + x) (16 * row + y) =
      (column * tilesHigh + row) * 256 + (16 * y + x) := by
  have hcolumn : (16 * column + x) / 16 = column := by omega
  have hrow : (16 * row + y) / 16 = row := by omega
  simp only [sentAt, Command.tileArea, Command.tileEdge, hcolumn, hrow]
  omega

theorem tile_lt {wide high column row x y : Nat} (hcolumn : column < wide) (hrow : row < high)
    (hx : x < 16) (hy : y < 16) :
    (column * high + row) * 256 + (16 * y + x) < wide * high * 256 := by
  have h : column * high + high ≤ wide * high := by
    rw [← Nat.succ_mul]
    exact Nat.mul_le_mul_right _ hcolumn
  omega

/-- Every place in the rows of a bitmap lies in a tile. -/
theorem exists_tile {wide high i : Nat} (h : i < wide * 16 * (high * 16)) :
    ∃ column < wide, ∃ row < high, ∃ x < 16, ∃ y < 16,
      i = (16 * row + y) * (wide * 16) + (16 * column + x) := by
  have hwide : 0 < wide * 16 := Nat.pos_of_mul_pos_right (Nat.zero_lt_of_lt h)
  have hx : i % (wide * 16) < wide * 16 := Nat.mod_lt _ hwide
  have hy : i / (wide * 16) < high * 16 := Nat.div_lt_of_lt_mul h
  refine ⟨i % (wide * 16) / 16, by omega, i / (wide * 16) / 16, by omega, i % (wide * 16) % 16,
    by omega, i / (wide * 16) % 16, by omega, ?_⟩
  rw [Nat.div_add_mod, Nat.div_add_mod, Nat.mul_comm, Nat.div_add_mod]

theorem getElem?_rowMajor (wide high : Nat) (sent : Array UInt8) {x y : Nat} (hx : x < wide * 16)
    (hy : y < high * 16) :
    (rowMajor wide high sent)[y * (wide * 16) + x]? = some (sent.getD (sentAt high x y) 0) := by
  have hlt : y * (wide * 16) + x < wide * 16 * (high * 16) := place_lt hx hy
  have hmod : (y * (wide * 16) + x) % (wide * 16) = x := Nat.mul_add_mod_of_lt hx
  have hdiv : (y * (wide * 16) + x) / (wide * 16) = y := by
    rw [Nat.mul_comm, Nat.mul_add_div (by omega), Nat.div_eq_of_lt hx, Nat.add_zero]
  simp only [rowMajor, Command.tileEdge]
  rw [Array.getElem?_ofFn, dif_pos hlt, hmod, hdiv]

/-- The place tells the tile. -/
theorem sentAt_div (tilesHigh x y : Nat) : sentAt tilesHigh x y / 256 = x / 16 * tilesHigh + y / 16 := by
  simp only [sentAt, Command.tileArea, Command.tileEdge]
  omega

/-- The place tells the pixel in the tile. -/
theorem sentAt_mod (tilesHigh x y : Nat) : sentAt tilesHigh x y % 256 = 16 * (y % 16) + x % 16 := by
  simp only [sentAt, Command.tileArea, Command.tileEdge]
  omega

/-- Numbered column by column, tiles are told apart by their column and their row. -/
theorem tileNumber_eq_iff {high column row column' row' : Nat} (hrow : row < high) (hrow' : row' < high) :
    column * high + row = column' * high + row' ↔ column = column' ∧ row = row' := by
  rw [place_eq_iff hrow hrow', and_comm]

/-! ### Copying a tile -/

@[simp] theorem size_copyRows (width left : Nat) (pixels : Array UInt8) (top : Nat) (tile : List UInt8)
    (rows : Nat) : (copyRows width left pixels top tile rows).size = pixels.size := by
  induction rows generalizing pixels top tile with
  | zero => rfl
  | succ rows ih => rw [copyRows, ih, size_copyAt]

/-- Copying a tile changes exactly its pixels, each to that of its row and column in the tile. -/
theorem getElem?_copyRows {width left x : Nat} (pixels : Array UInt8) (hspan : left + 16 ≤ width)
    (hx : x < width) (top : Nat) (tile : List UInt8) {rows : Nat} (htile : tile.length = rows * 16)
    (y : Nat) (hplace : y * width + x < pixels.size) :
    (copyRows width left pixels top tile rows)[y * width + x]? =
      if (top ≤ y ∧ y < top + rows) ∧ left ≤ x ∧ x < left + 16 then
        tile[(y - top) * 16 + (x - left)]?
      else pixels[y * width + x]? := by
  induction rows generalizing pixels top tile with
  | zero => rw [if_neg (by omega)]; rfl
  | succ rows ih =>
    have hfirst : (tile.take Command.tileEdge).length = 16 := by
      rw [List.length_take, htile, Command.tileEdge]
      omega
    have hrest : (tile.drop Command.tileEdge).length = rows * 16 := by
      rw [List.length_drop, htile, Command.tileEdge]
      omega
    have hiff := place_mem_span_iff hspan hx top y
    rw [copyRows, ih _ _ _ hrest (by rwa [size_copyAt]), getElem?_copyAt _ _ _ hplace, hfirst]
    by_cases hcolumn : left ≤ x ∧ x < left + 16
    · rcases Nat.lt_trichotomy y top with habove | rfl | hbelow
      · rw [if_neg (by omega), if_neg (by omega), if_neg (by omega)]
      · -- the first row of the tile
        rw [if_neg (by omega), if_pos (by omega), if_pos (by omega), List.getElem?_take]
        rw [if_pos (by rw [Command.tileEdge]; omega)]
        congr 1
        omega
      · by_cases hlater : y < top + (rows + 1)
        · rw [if_pos (by omega), if_pos (by omega), List.getElem?_drop, Command.tileEdge]
          congr 1
          omega
        · rw [if_neg (by omega), if_neg (by omega), if_neg (by omega)]
    · rw [if_neg (by omega), if_neg (by omega), if_neg (by omega)]

/-! ### The order of the tiles -/

/-- The tile column and the tile row of each tile, in the order in which tiles are read. -/
def tileOrder (tilesWide tilesHigh : Nat) : List (Nat × Nat) :=
  (List.range tilesWide).flatMap fun column => (List.range tilesHigh).map fun row => (column, row)

theorem mem_tileOrder {tilesWide tilesHigh : Nat} {t : Nat × Nat} :
    t ∈ tileOrder tilesWide tilesHigh ↔ t.1 < tilesWide ∧ t.2 < tilesHigh := by
  simp only [tileOrder, List.mem_flatMap, List.mem_map, List.mem_range]
  constructor
  · rintro ⟨column, hcolumn, row, hrow, rfl⟩
    exact ⟨hcolumn, hrow⟩
  · rintro ⟨hcolumn, hrow⟩
    exact ⟨t.1, hcolumn, t.2, hrow, rfl⟩

/-- The number of a tile is its place in the order. -/
theorem map_tileOrder (tilesWide tilesHigh : Nat) :
    (tileOrder tilesWide tilesHigh).map (fun t => t.1 * tilesHigh + t.2) =
      List.range (tilesWide * tilesHigh) := by
  induction tilesWide with
  | zero => rw [Nat.zero_mul]; rfl
  | succ wide ih =>
    rw [tileOrder] at ih ⊢
    rw [List.range_succ, List.flatMap_append, List.map_append, ih, List.flatMap_singleton,
      List.map_map, Nat.succ_mul, List.range_add]
    rfl

theorem length_tileOrder (tilesWide tilesHigh : Nat) :
    (tileOrder tilesWide tilesHigh).length = tilesWide * tilesHigh := by
  rw [← List.length_map, map_tileOrder, List.length_range]

/-- A loop over the columns, and in each over the rows, is one loop over the tiles. -/
theorem foldlM_tileOrder {σ : Type} (step : σ → Nat → Nat → Reader σ) (tilesWide tilesHigh : Nat)
    (s : σ) :
    (List.range tilesWide).foldlM (fun s column =>
        (List.range tilesHigh).foldlM (fun s row => step s column row) s) s =
      (tileOrder tilesWide tilesHigh).foldlM (fun s t => step s t.1 t.2) s := by
  rw [tileOrder]
  induction List.range tilesWide generalizing s with
  | nil => rfl
  | cons column columns ih =>
    rw [List.foldlM_cons, List.flatMap_cons, List.foldlM_append, List.foldlM_map]
    exact bind_congr fun s => ih s

/-! ### Where the pixels go -/

namespace Mosaic

/-- Put tiles in order. Each takes its pixels from the front of `values`. -/
def putAll (width : Nat) (m : Mosaic) (values : List UInt8) (order : List (Nat × Nat)) : Mosaic :=
  (order.foldl (fun s t => (s.1.put width t.1 t.2 (s.2.take Command.tileArea),
    s.2.drop Command.tileArea)) (m, values)).1

theorem putAll_cons (width : Nat) (m : Mosaic) (values : List UInt8) (t : Nat × Nat)
    (order : List (Nat × Nat)) :
    m.putAll width values (t :: order) =
      (m.put width t.1 t.2 (values.take Command.tileArea)).putAll width
        (values.drop Command.tileArea) order := by
  rw [putAll, List.foldl_cons, putAll]

/-- Each pixel that was sent is shown at its place. -/
structure Shows (wide high : Nat) (sent : List UInt8) (m : Mosaic) : Prop where
  /-- The picture has its size. -/
  size : m.pixels.size = wide * 16 * (high * 16)
  /-- A value that was sent for a pixel is there. -/
  pixel : ∀ x < wide * 16, ∀ y < high * 16, ∀ v, sent[sentAt high x y]? = some v →
    m.pixels[y * (wide * 16) + x]? = some v

@[simp] theorem size_pixels_put (m : Mosaic) (width column row : Nat) (tile : List UInt8) :
    (m.put width column row tile).pixels.size = m.pixels.size := by
  rw [put, size_copyRows]

variable {wide high : Nat} {sent tile : List UInt8} {m : Mosaic}

/-- **One more tile is shown at its place**, and those before it stay as they are. -/
theorem Shows.put (h : m.Shows wide high sent) {column row : Nat} (hcolumn : column < wide)
    (hrow : row < high) (hsent : sent.length = (column * high + row) * 256)
    (htile : tile.length = 16 * 16) :
    (m.put (wide * 16) column row tile).Shows wide high (sent ++ tile) := by
  refine ⟨by rw [size_pixels_put, h.size], fun x hx y hy v hv => ?_⟩
  have hplace : y * (wide * 16) + x < m.pixels.size := h.size ▸ place_lt hx hy
  have hdiv := sentAt_div high x y
  have hmod := sentAt_mod high x y
  have hnumber : x / 16 * high + y / 16 = column * high + row ↔ x / 16 = column ∧ y / 16 = row :=
    tileNumber_eq_iff (by omega) hrow
  rw [Mosaic.put, Command.tileEdge, getElem?_copyRows _ (by omega) hx _ _ htile y hplace]
  split_ifs with hin
  · -- the pixel lies in this tile
    obtain ⟨rfl, rfl⟩ : x / 16 = column ∧ y / 16 = row := by omega
    rw [List.getElem?_append_right (by omega)] at hv
    rw [← hv]
    congr 1
    omega
  · -- a pixel of another tile was sent before this one
    have hother : ¬(x / 16 = column ∧ y / 16 = row) := by omega
    have hlt := (List.getElem?_eq_some_iff.1 hv).1
    rw [List.length_append, hsent, htile] at hlt
    rw [← hnumber] at hother
    rw [List.getElem?_append_left (by omega)] at hv
    exact h.pixel x hx y hy v hv

/-- All tiles of an order are shown, if they are those that come next: by induction on the order. -/
theorem Shows.putAll (h : m.Shows wide high sent) {order : List (Nat × Nat)} {k : Nat}
    (hnumbers : order.map (fun t => t.1 * high + t.2) = List.range' k order.length)
    (hin : ∀ t ∈ order, t.1 < wide ∧ t.2 < high) (hsent : sent.length = k * 256)
    {values : List UInt8} (hvalues : values.length = order.length * 256) :
    (m.putAll (wide * 16) values order).Shows wide high (sent ++ values) := by
  induction order generalizing m sent k values with
  | nil =>
    obtain rfl := List.length_eq_zero_iff.1 (hvalues.trans (Nat.zero_mul _))
    rwa [List.append_nil]
  | cons t order ih =>
    rw [List.length_cons, Nat.succ_mul] at hvalues
    rw [List.map_cons, List.length_cons, List.range'_succ, List.cons.injEq] at hnumbers
    obtain ⟨hcolumn, hrow⟩ := hin t List.mem_cons_self
    have htile : (values.take Command.tileArea).length = 16 * 16 := by
      rw [List.length_take, Command.tileArea, Command.tileEdge]
      omega
    have hrest : (values.drop Command.tileArea).length = order.length * 256 := by
      rw [List.length_drop, Command.tileArea, Command.tileEdge]
      omega
    have hfirst := h.put hcolumn hrow (hnumbers.1 ▸ hsent) htile
    have hall := ih hfirst hnumbers.2 (fun t ht => hin t (List.mem_cons_of_mem _ ht))
      (by rw [List.length_append, hsent, htile]; omega) hrest
    rw [List.append_assoc, List.take_append_drop] at hall
    rwa [putAll_cons]

end Mosaic

theorem shows_blank (wide high : Nat) :
    (Mosaic.blank (wide * 16) (high * 16)).Shows wide high [] :=
  ⟨Array.size_replicate, fun _ _ _ _ _ hv => nomatch hv⟩

/-- **The loops leave the pixels of the formula.** -/
theorem pixels_putAll (wide high : Nat) {values : List UInt8}
    (hvalues : values.length = wide * high * 256) :
    ((Mosaic.blank (wide * 16) (high * 16)).putAll (wide * 16) values (tileOrder wide high)).pixels =
      rowMajor wide high values.toArray := by
  have hnumbers : (tileOrder wide high).map (fun t => t.1 * high + t.2) =
      List.range' 0 (tileOrder wide high).length := by
    rw [map_tileOrder, length_tileOrder, List.range_eq_range']
  have hshows := (shows_blank wide high).putAll hnumbers (fun _ ht => mem_tileOrder.1 ht) rfl
    (hvalues.trans (by rw [length_tileOrder]))
  rw [List.nil_append] at hshows
  refine Array.ext_getElem? fun i => ?_
  by_cases hi : i < wide * 16 * (high * 16)
  · obtain ⟨column, hcolumn, row, hrow, x, hx, y, hy, rfl⟩ := exists_tile hi
    have hlt := tile_lt hcolumn hrow hx hy
    rw [← hvalues, ← sentAt_tile _ _ _ hx hy] at hlt
    rw [getElem?_rowMajor _ _ _ (by omega) (by omega)]
    refine hshows.pixel _ (by omega) _ (by omega) _ ?_
    simp [hlt]
  · rw [Array.getElem?_eq_none (by rw [hshows.size]; omega),
      Array.getElem?_eq_none (by rw [rowMajor, Array.size_ofFn]; exact Nat.not_lt.1 hi)]

/-! ### Reading tiles -/

/-- A tile is a text of pairs, decoded over the one before it. -/
theorem takes_tile (width column row : Nat) {m : Mosaic} (hm : m.tile.length = Command.tileArea) :
    Takes (tile width column row m) fun text _ m' =>
      text.length = tileDigits ∧ ∃ values, PairText text values ∧ m' = m.put width column row values := by
  have hstep : Takes (tile width column row m) fun text _ m' => ∃ digits text₁ text₂,
      text = text₁ ++ text₂ ∧ (text₁.length = tileDigits ∧ digits = text₁) ∧
        text₂ = [] ∧ ∃ values, Hex.decodeOver m.tile digits = (.ok (), values) ∧
          m' = m.put width column row values := by
    refine (takes_bytes tileDigits).bind fun digits => ?_
    rcases Hex.decodeOver m.tile digits with ⟨e | ⟨⟩, values⟩
    · exact (Takes.throw e).congr fun text _ m' => by simp
    · exact (Takes.pure _).congr fun text _ m' => by simp
  refine hstep.congr fun text _ m' => ?_
  constructor
  · rintro ⟨_, text, _, rfl, ⟨hlen, rfl⟩, rfl, values, hdecoded, rfl⟩
    rw [List.append_nil]
    exact ⟨hlen, values, (Hex.decodeOver_eq_ok_iff.1 hdecoded).1, rfl⟩
  · rintro ⟨hlen, values, hvalues, rfl⟩
    exact ⟨text, text, [], (List.append_nil text).symm, ⟨hlen, rfl⟩, rfl, values,
      Hex.decodeOver_eq_ok_iff.2 ⟨hvalues, (hvalues.length_of_tile hlen).trans hm.symm⟩, rfl⟩

/-- Tiles in any order are texts of pairs behind each other: by induction on the order. -/
theorem takes_order (width : Nat) (order : List (Nat × Nat)) {m : Mosaic}
    (hm : m.tile.length = Command.tileArea) :
    Takes (order.foldlM (fun m t => tile width t.1 t.2 m) m) fun text _ m' =>
      text.length = order.length * tileDigits ∧
        ∃ values, PairText text values ∧ m' = m.putAll width values order := by
  induction order generalizing m with
  | nil =>
    refine (Takes.pure m).congr fun text _ m' => ?_
    rw [List.length_nil, Nat.zero_mul, List.length_eq_zero_iff]
    constructor
    · rintro ⟨rfl, rfl⟩
      exact ⟨rfl, [], .nil, rfl⟩
    · rintro ⟨rfl, values, hvalues, rfl⟩
      exact ⟨rfl, rfl⟩
  | cons t order ih =>
    have hstep : Takes ((t :: order).foldlM (fun m t => tile width t.1 t.2 m) m) fun text _ m' =>
        ∃ m₁ text₁ text₂, text = text₁ ++ text₂ ∧
          (text₁.length = tileDigits ∧
            ∃ first, PairText text₁ first ∧ m₁ = m.put width t.1 t.2 first) ∧
          text₂.length = order.length * tileDigits ∧
            ∃ values, PairText text₂ values ∧ m' = m₁.putAll width values order := by
      rw [List.foldlM_cons]
      refine (takes_tile width t.1 t.2 hm).bind_of fun m₁ text _ hfirst => ?_
      obtain ⟨hlen, first, hpairs, rfl⟩ := hfirst
      exact ih (hpairs.length_of_tile hlen)
    refine hstep.congr fun text _ m' => ?_
    constructor
    · rintro ⟨_, text₁, text₂, rfl, ⟨hlen₁, first, hfirst, rfl⟩, hlen₂, values, hvalues, rfl⟩
      have hcount := hfirst.length_of_tile hlen₁
      refine ⟨?_, first ++ values, hfirst.append hvalues, ?_⟩
      · rw [List.length_append, hlen₁, hlen₂, List.length_cons, Nat.succ_mul, Nat.add_comm]
      · rw [Mosaic.putAll_cons, List.take_left' hcount, List.drop_left' hcount]
    · -- the pairs of the first tile, and then the others
      rintro ⟨hlen, values, hvalues, rfl⟩
      rw [List.length_cons, Nat.succ_mul] at hlen
      refine ⟨_, text.take tileDigits, text.drop tileDigits, (List.take_append_drop _ _).symm,
        ⟨List.length_take_of_le (by omega), _, hvalues.take Command.tileArea, rfl⟩, ?_, _,
        hvalues.drop Command.tileArea, Mosaic.putAll_cons ..⟩
      rw [List.length_drop, hlen, Nat.add_sub_cancel]

/-- All tiles are read in one loop. -/
theorem tiles_eq (wide high : Nat) :
    tiles wide high =
      (tileOrder wide high).foldlM (fun m t => tile (wide * Command.tileEdge) t.1 t.2 m)
        (Mosaic.blank (wide * Command.tileEdge) (high * Command.tileEdge)) >>= fun m =>
          pure m.pixels := by
  rw [← foldlM_tileOrder fun m column row => tile (wide * Command.tileEdge) column row m]
  rfl

/-- **The tiles of a bitmap are its pairs, each seen at its place.** -/
theorem takes_tiles (wide high : Nat) :
    Takes (tiles wide high) fun text _ pixels =>
      text.length = wide * high * tileDigits ∧
        ∃ values, PairText text values ∧ pixels = rowMajor wide high values.toArray := by
  rw [tiles_eq]
  refine ((takes_order _ _ List.length_replicate).map Mosaic.pixels).congr fun text _ pixels => ?_
  rw [length_tileOrder]
  constructor
  · rintro ⟨_, ⟨hlen, values, hvalues, rfl⟩, rfl⟩
    refine ⟨hlen, values, hvalues, pixels_putAll wide high ?_⟩
    exact hvalues.length_of_tiles hlen
  · rintro ⟨hlen, values, hvalues, rfl⟩
    refine ⟨_, ⟨hlen, values, hvalues, rfl⟩, (pixels_putAll wide high ?_).symm⟩
    exact hvalues.length_of_tiles hlen

end Grammar

namespace Tiled

open Grammar

/-- The pairs, row by row, lie as the digits say. -/
theorem of_eq_rowMajor {payload values : List UInt8} {b : Bitmap}
    (h : PairText payload values)
    (hlen : values.length = b.tilesWide.toNat * b.tilesHigh.toNat * 256)
    (hb : b.pixels = rowMajor b.tilesWide.toNat b.tilesHigh.toNat values.toArray) :
    Tiled payload b := by
  refine ⟨by rw [hb]; exact Array.size_ofFn, fun column hcolumn row hrow x hx y hy => ?_⟩
  have hlt := tile_lt hcolumn hrow hx hy
  rw [← hlen] at hlt
  refine ⟨values[(column * b.tilesHigh.toNat + row) * 256 + (16 * y + x)], ?_,
    h.getElem? (List.getElem?_eq_getElem hlt)⟩
  rw [hb]
  refine (getElem?_rowMajor _ _ _ (by omega) (by omega)).trans ?_
  rw [sentAt_tile _ _ _ hx hy]
  simp [hlt]

/-- Digits hold the pixels of one bitmap of a size only. -/
theorem pixels_eq {payload : List UInt8} {b b' : Bitmap} (h : Tiled payload b)
    (h' : Tiled payload b') (hwide : b.tilesWide = b'.tilesWide)
    (hhigh : b.tilesHigh = b'.tilesHigh) : b.pixels = b'.pixels := by
  have hsize : b'.pixels.size = b.pixels.size := by
    rw [h.size, h'.size, Bitmap.width, Bitmap.height, Bitmap.width, Bitmap.height, hwide, hhigh]
  refine Array.ext_getElem? fun i => ?_
  by_cases hi : i < b.pixels.size
  · rw [h.size] at hi
    obtain ⟨column, hcolumn, row, hrow, x, hx, y, hy, rfl⟩ := exists_tile hi
    obtain ⟨v, hv, hn⟩ := h.pixel column hcolumn row hrow x hx y hy
    obtain ⟨v', hv', hn'⟩ :=
      h'.pixel column (hwide ▸ hcolumn) row (hhigh ▸ hrow) x hx y hy
    rw [← hhigh] at hn'
    rw [Bitmap.width, ← hwide] at hv'
    obtain rfl : v = v' := UInt8.toNat_inj.1 (hn.unique hn')
    exact hv.trans hv'.symm
  · rw [Array.getElem?_eq_none (by omega), Array.getElem?_eq_none (by omega)]

end Tiled

/-- The digits hold the pixels of a bitmap if and only if the pixels are their pairs, row by row. -/
theorem tiled_iff {payload values : List UInt8} {b : Bitmap} (h : PairText payload values)
    (hlen : values.length = b.tilesWide.toNat * b.tilesHigh.toNat * 256) :
    Tiled payload b ↔
      b.pixels = Grammar.rowMajor b.tilesWide.toNat b.tilesHigh.toNat values.toArray := by
  constructor
  · intro hb
    have hrow : Tiled payload
        { b with pixels := Grammar.rowMajor b.tilesWide.toNat b.tilesHigh.toNat values.toArray } :=
      .of_eq_rowMajor h hlen rfl
    exact hb.pixels_eq hrow rfl rfl
  · exact .of_eq_rowMajor h hlen

end Wire

end Marquee
