import Marquee.Proofs.Stage.WellFormed
import Marquee.Proofs.Wire.Acceptance

/-!
# Where the digits of a bitmap are seen

* `Wire.payload` : the digits of a bitmap frame. An accepted frame has all that its size asks for, and
  they hold the pixels (`Wire.tiled_payload`).
* `Wire.Grammar.existsUnique_sentAt` : each pair of digits belongs to one pixel.
* `Stage.bitmapCanvas_eq_emptyGraphic_iff` : a bitmap whose pixels are as many as its size says is empty
  just if it has no column or no row.
* `Stage.tiles_land_in_place` : **each pair of digits is the value of one pixel, also of the sprite.**
-/

namespace Marquee

open Wire

namespace Wire

/-- What stands between the thirteen bytes that open a bitmap and its last byte. -/
def payload (bytes : List UInt8) : List UInt8 := (bytes.drop 13).dropLast

/-- The digits of an accepted bitmap hold its pixels. -/
theorem tiled_payload {bytes : List UInt8} {b : Bitmap}
    (h : Command.ofBytes bytes = .ok (.bitmap b)) :
    (payload bytes).length = 512 * b.tilesWide.toNat * b.tilesHigh.toNat ∧
      Tiled (payload bytes) b := by
  obtain ⟨_, _ | _ | _ | _ | htext, rfl⟩ := Command.ofBytes_eq_ok_iff.1 h
  obtain @⟨x, y, w, high, d, digits, bits, _, hx, hy, hw, hh, hd, -, hlen, -, htiled⟩ := htext
  have hopen : ([ascii '<'] ++ ([ascii 'B'] ++ x ++ y ++ w ++ high ++ d)).length = 13 := by
    simp only [List.length_append, List.length_singleton, hx.length, hy.length, hw.length, hh.length,
      hd.length]
  have hpayload : payload ([ascii '<'] ++ ([ascii 'B'] ++ x ++ y ++ w ++ high ++ d ++ digits) ++
      [ascii '>']) = digits := by
    rw [payload, ← List.append_assoc [ascii '<'], List.append_assoc, List.drop_left' hopen,
      List.dropLast_concat]
  rw [hpayload]
  exact ⟨hlen, htiled⟩

namespace Tiled

variable {digits : List UInt8} {b : Bitmap}

/-- The pixel in column `x` and row `y` of the whole bitmap has the value of its pair. -/
theorem pixel_at (h : Tiled digits b) {x y : Nat} (hx : x < 16 * b.tilesWide.toNat)
    (hy : y < 16 * b.tilesHigh.toNat) :
    ∃ v, b.pixels[y * (16 * b.tilesWide.toNat) + x]? = some v ∧
      Numeral 2 ((digits.drop (2 * Grammar.sentAt b.tilesHigh.toNat x y)).take 2) v.toNat := by
  obtain ⟨v, hv, hn⟩ := h.pixel (x / 16) (by omega) (y / 16) (by omega) (x % 16)
    (Nat.mod_lt _ (by decide)) (y % 16) (Nat.mod_lt _ (by decide))
  rw [Nat.div_add_mod, Nat.div_add_mod, Bitmap.width, Command.tileEdge, Nat.mul_comm _ 16] at hv
  refine ⟨v, hv, ?_⟩
  rwa [← Grammar.sentAt_tile _ _ _ (Nat.mod_lt _ (by decide)) (Nat.mod_lt _ (by decide)),
    Nat.div_add_mod, Nat.div_add_mod] at hn

theorem size_pixels (h : Tiled digits b) :
    b.pixels.size = 256 * b.tilesWide.toNat * b.tilesHigh.toNat := by
  rw [h.size, Bitmap.width, Bitmap.height, Command.tileEdge]
  ring

end Tiled

namespace Grammar

/-- Each place among the pixels that are sent is that of one pixel. -/
theorem existsUnique_sentAt {wide high k : Nat} (hk : k < 256 * wide * high) :
    ∃! p : Nat × Nat, (p.1 < 16 * wide ∧ p.2 < 16 * high) ∧ sentAt high p.1 p.2 = k := by
  have htile : k / 256 < high * wide := Nat.div_lt_of_lt_mul (hk.trans_eq (by ring))
  have hhigh : 0 < high := Nat.pos_of_mul_pos_right (Nat.zero_lt_of_lt htile)
  have hcolumn : k / 256 / high < wide := Nat.div_lt_of_lt_mul htile
  have hrow : k / 256 % high < high := Nat.mod_lt _ hhigh
  refine ⟨(16 * (k / 256 / high) + k % 256 % 16, 16 * (k / 256 % high) + k % 256 / 16), ?_, ?_⟩
  · refine ⟨by omega, ?_⟩
    rw [sentAt_tile _ _ _ (by omega) (by omega), Nat.div_add_mod', Nat.div_add_mod, Nat.div_add_mod']
  · -- the place tells the tile by division, and the tile its column and row
    rintro ⟨x, y⟩ ⟨⟨-, hy⟩, rfl⟩
    have hlt : y / 16 < high := by omega
    have hdiv : (x / 16 * high + y / 16) / high = x / 16 := by
      rw [Nat.mul_comm, Nat.mul_add_div hhigh, Nat.div_eq_of_lt hlt, Nat.add_zero]
    have hmod : (x / 16 * high + y / 16) % high = y / 16 := Nat.mul_add_mod_of_lt hlt
    rw [sentAt_div, sentAt_mod, hdiv, hmod, Prod.mk.injEq]
    omega

end Grammar

end Wire

namespace Stage

variable {s : Stage} {b : Bitmap}

/-- A bitmap with as many pixels as its size says is empty just if it has no column or no row. -/
theorem bitmapCanvas_eq_emptyGraphic_iff (hsize : b.pixels.size = b.width * b.height) :
    s.bitmapCanvas b = .error .emptyGraphic ↔ b.width = 0 ∨ b.height = 0 := by
  constructor
  · intro hempty
    by_contra! hpos
    obtain ⟨hwidth, hheight⟩ := hpos
    obtain ⟨canvas, hcanvas, -⟩ :=
      Canvas.exists_ofPixels (Nat.pos_of_ne_zero hwidth) (Nat.pos_of_ne_zero hheight) hsize
    rw [bitmapCanvas, hcanvas, checkSize] at hempty
    split_ifs at hempty
    · cases hempty
    · cases hempty
  · intro hzero
    have hnone : b.width * b.height = 0 := Nat.mul_eq_zero.2 hzero
    have hempty : Canvas.ofPixels b.width b.height b.pixels = .error .emptyGraphic :=
      dif_neg fun h => by omega
    rw [bitmapCanvas, checkSize, if_pos (by omega), hempty]
    rfl

/-- A bitmap frame adds the sprite that its canvas makes, or is refused for the canvas. -/
theorem applyFrame_bitmap {f : Frame} (accepted : Command.ofBytes f.bytes = .ok (.bitmap b)) :
    s.applyFrame f =
      match s.bitmapCanvas b with
      | .ok canvas =>
        (.ok (s.addSprite b.x b.y canvas b.depth).1, (s.addSprite b.x b.y canvas b.depth).2)
      | .error e => (.error (.stage e), s) := by
  rw [applyFrame, accepted]
  simp only [apply]
  cases s.bitmapCanvas b <;> rfl

/-- **Tiles land where they belong.** An accepted bitmap frame of `wide` by `high` tiles carries one pair
of digits for each of its pixels. Row by row, the pixel in column `x` and row `y` has the value of the
pair that `place` gives, tile column by tile column and row by row in a tile, and each pair is that of
one pixel. On any stage, unless there are no tiles or more pixels than the settings allow, the frame
adds a sprite of 16 pixels for each tile side, whose canvas shows these values; and a bitmap frame is
refused as empty only if it has no tiles. -/
theorem tiles_land_in_place (f : Frame) (b : Bitmap)
    (accepted : Command.ofBytes f.bytes = .ok (.bitmap b)) :
    let wide := b.tilesWide.toNat
    let high := b.tilesHigh.toNat
    let digits := payload f.bytes
    let place (x y : Nat) := (x / 16 * high + y / 16) * 256 + y % 16 * 16 + x % 16
    digits.length = 2 * (256 * wide * high) ∧ b.pixels.size = 256 * wide * high ∧
      (∀ x < 16 * wide, ∀ y < 16 * high, ∃ v, b.pixels[y * (16 * wide) + x]? = some v ∧
        Numeral 2 ((digits.drop (2 * place x y)).take 2) v.toNat) ∧
      (∀ k < 256 * wide * high,
        ∃! p : Nat × Nat, (p.1 < 16 * wide ∧ p.2 < 16 * high) ∧ place p.1 p.2 = k) ∧
      ∀ s : Stage,
        (1 ≤ wide → 1 ≤ high → 256 * wide * high ≤ s.settings.maxSpritePixels.toNat →
          ∃ ref sprite s', s.applyFrame f = (.ok (.spriteAdded ref (16 * wide) (16 * high)), s') ∧
            s'.scene.sprites = s.scene.sprites.push sprite ∧
            ∀ x < 16 * wide, ∀ y < 16 * high,
              sprite.canvas.get? x y = b.pixels[y * (16 * wide) + x]?) ∧
          ((s.applyFrame f).1 = .error (.stage .emptyGraphic) ↔ wide = 0 ∨ high = 0) := by
  intro wide high digits place
  obtain ⟨hlen, htiled⟩ := tiled_payload accepted
  have hwidth : b.width = 16 * wide := Nat.mul_comm _ _
  have hheight : b.height = 16 * high := Nat.mul_comm _ _
  refine ⟨hlen.trans (by ring), htiled.size_pixels, fun x hx y hy => htiled.pixel_at hx hy,
    fun k hk => Grammar.existsUnique_sentAt hk, fun s => ⟨fun hwide hhigh hfits => ?_, ?_⟩⟩
  · have hpos : 0 < b.width ∧ 0 < b.height := ⟨by omega, by omega⟩
    obtain ⟨canvas, hcanvas, hw, hh, hshown⟩ := Canvas.exists_ofPixels hpos.1 hpos.2 htiled.size
    have hdrawn : s.bitmapCanvas b = .ok canvas :=
      bitmapCanvas_eq_ok_iff.2 ⟨by rwa [← htiled.size, htiled.size_pixels], hcanvas⟩
    rw [applyFrame_bitmap accepted, hdrawn, ← hwidth, ← hheight, ← hw, ← hh]
    refine ⟨_, ⟨b.x, b.y, canvas, s.snapshot, b.depth, true⟩, _, rfl, rfl, ?_⟩
    rw [hw, hh]
    exact hshown
  · have hiff := bitmapCanvas_eq_emptyGraphic_iff (s := s) htiled.size
    rw [hwidth, hheight] at hiff
    rw [applyFrame_bitmap accepted]
    cases hdrawn : s.bitmapCanvas b with
    | ok canvas =>
      rw [hdrawn] at hiff
      simp only [reduceCtorEq, false_iff] at hiff ⊢
      omega
    | error e =>
      rw [hdrawn] at hiff
      simp only [Except.error.injEq, LinkFault.stage.injEq] at hiff ⊢
      rw [hiff]
      omega

/-- Two by two tiles of one digit each, `<B00000002028` and 512 times each of `1`, `2`, `3` and `4`. The
second tile that is sent lies below the first one, and the third to the right of it. -/
theorem tiles_land_in_place_column_by_column :
    let f : Frame :=
      ⟨[60, 66, 48, 48, 48, 48, 48, 48, 48, 50, 48, 50, 56] ++ List.replicate 512 49 ++
        List.replicate 512 50 ++ List.replicate 512 51 ++ List.replicate 512 52 ++ [62]⟩
    ∃ b, Command.ofBytes f.bytes = .ok (.bitmap b) ∧
      b.pixels[16 * 32]? = some 0x22 ∧ b.pixels[16]? = some 0x33 ∧
      ∃ ref s', (new {}).applyFrame f = (.ok (.spriteAdded ref 32 32), s') := by
  intro f
  have hbitmap : ∃ b, Command.ofBytes f.bytes = .ok (.bitmap b) ∧ b.tilesWide = 2 ∧
      b.tilesHigh = 2 := by
    have hread : (Command.ofBytes f.bytes).toOption.bind (fun c =>
        match c with
        | .bitmap b => some (b.tilesWide, b.tilesHigh)
        | .paletteReset | .paletteAppend _ | .paletteModify _ _ | .clear | .template _
        | .animation _ => none) = some (2, 2) := by
      decide +kernel
    cases hanswer : Command.ofBytes f.bytes with
    | error e =>
      rw [hanswer] at hread
      cases hread
    | ok c =>
      rw [hanswer] at hread
      cases c with
      | bitmap b =>
        obtain ⟨hwide, hhigh⟩ := Prod.mk.inj (Option.some.inj hread)
        exact ⟨b, rfl, hwide, hhigh⟩
      | _ => cases hread
  obtain ⟨b, accepted, hwide, hhigh⟩ := hbitmap
  obtain ⟨-, -, hpixel, -, hadded⟩ := tiles_land_in_place f b accepted
  rw [hwide, hhigh] at hpixel hadded
  refine ⟨b, accepted, ?_, ?_, ?_⟩
  · obtain ⟨v, hv, hn⟩ := hpixel 0 (by decide) 16 (by decide)
    have hpair : ((payload f.bytes).drop 512).take 2 = [50, 50] := by decide +kernel
    have hvalue := Hex.pair?_eq_some_iff.2 (hpair ▸ hn)
    exact hv.trans hvalue.symm
  · obtain ⟨v, hv, hn⟩ := hpixel 16 (by decide) 0 (by decide)
    have hpair : ((payload f.bytes).drop 1024).take 2 = [51, 51] := by decide +kernel
    have hvalue := Hex.pair?_eq_some_iff.2 (hpair ▸ hn)
    exact hv.trans hvalue.symm
  · obtain ⟨ref, -, s', hanswer, -⟩ := (hadded (new {})).1 (by decide) (by decide) (by decide)
    exact ⟨ref, s', hanswer⟩

end Stage

end Marquee
