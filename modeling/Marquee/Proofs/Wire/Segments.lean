import Marquee.Proofs.Wire.Arrivals
import Mathlib.Data.List.Induction

/-!
# Where a byte stream has its frames

A framer keeps one open frame and no history. This file says what it tells of a stream in terms of the
stream alone, by the positions of its delimiters.

* `OpensAt bytes i j` : a `<` at `i` is the nearest delimiter before `j`.
* `EventAt limit bytes j e` : what is to be told at position `j`.
* `Framer.replies_new_iff` : **a new framer tells exactly these events**, whatever the times of
  arrival; it delivers every frame that fits, whatever came before, and never holds more bytes than
  its limit.

The proof follows the stream byte by byte. `Follows` ties the open frame of a framer to the bytes
that it was fed, and `Follows.feed` is the one step.
-/

namespace Marquee

namespace Wire

/-! ### Positions -/

/-- A `<` stands at `i` and is the nearest delimiter before `j`. -/
def OpensAt (bytes : List UInt8) (i j : Nat) : Prop :=
  i < j ∧ bytes[i]? = some Grammar.opener ∧
    ∀ k b, i < k → k < j → bytes[k]? = some b → ¬ IsDelimiter b

/-- What is told at position `j` of a stream, if no frame may have more than `limit` bytes. -/
inductive EventAt (limit : Nat) (bytes : List UInt8) (j : Nat) : FrameEvent → Prop where
  /-- A `>` ends the frame that its nearest `<` opened, if that fits. -/
  | ended {i : Nat} (opens : OpensAt bytes i j) (here : bytes[j]? = some Grammar.closer)
      (fits : j - i + 1 ≤ limit) : EventAt limit bytes j (.ok ⟨(bytes.take (j + 1)).drop i⟩)
  /-- A `<` gives up the frame that its nearest `<` opened, unless that was given up before. -/
  | interrupted {i : Nat} (opens : OpensAt bytes i j) (here : bytes[j]? = some Grammar.opener)
      (fits : j - i ≤ limit) : EventAt limit bytes j (.error .interrupted)
  /-- Any other byte gives up a frame that has just `limit` bytes. -/
  | overflow {i : Nat} {b : UInt8} (opens : OpensAt bytes i j) (here : bytes[j]? = some b)
      (other : b ≠ Grammar.opener) (full : j = i + limit) :
      EventAt limit bytes j (.error .overflow)

/-- Two delimiters cannot both be the nearest. -/
theorem OpensAt.unique {bytes : List UInt8} {i i' j : Nat} (h : OpensAt bytes i j)
    (h' : OpensAt bytes i' j) : i = i' := by
  obtain ⟨hi, hb, hn⟩ := h
  obtain ⟨hi', hb', hn'⟩ := h'
  rcases Nat.lt_trichotomy i i' with hlt | heq | hlt
  · exact absurd (.inl rfl) (hn i' _ hlt hi' hb')
  · exact heq
  · exact absurd (.inl rfl) (hn' i _ hlt hi hb)

/-- Only the bytes before `j` count. -/
theorem opensAt_take (bytes : List UInt8) {i j n : Nat} (hj : j ≤ n) :
    OpensAt (bytes.take n) i j ↔ OpensAt bytes i j := by
  have get : ∀ k, k < j → (bytes.take n)[k]? = bytes[k]? := fun k hk =>
    List.getElem?_take_of_lt (by omega)
  constructor
  · rintro ⟨hi, hb, hn⟩
    exact ⟨hi, get i hi ▸ hb, fun k b hk hkj hkb => hn k b hk hkj (by rw [get k hkj, hkb])⟩
  · rintro ⟨hi, hb, hn⟩
    exact ⟨hi, by rw [get i hi, hb], fun k b hk hkj hkb => hn k b hk hkj (by rw [← get k hkj, hkb])⟩

/-- One more byte: it opens a frame itself, or it keeps the nearest `<` by being no delimiter. -/
theorem opensAt_snoc {p : List UInt8} {b : UInt8} {i : Nat} :
    OpensAt (p ++ [b]) i (p.length + 1) ↔
      (i = p.length ∧ b = Grammar.opener) ∨ (OpensAt p i p.length ∧ ¬ IsDelimiter b) := by
  have last : (p ++ [b])[p.length]? = some b := by simp
  have cut : OpensAt (p ++ [b]) i p.length ↔ OpensAt p i p.length := by
    rw [← opensAt_take (p ++ [b]) (Nat.le_refl _), List.take_left]
  constructor
  · rintro ⟨hi, hb, hn⟩
    by_cases he : i = p.length
    · subst he
      rw [last] at hb
      exact .inl ⟨rfl, Option.some.inj hb⟩
    · have hlt : i < p.length := by omega
      refine .inr ⟨cut.1 ⟨hlt, hb, fun k c hk hkj hc => hn k c hk (by omega) hc⟩, ?_⟩
      exact hn p.length b hlt (Nat.lt_succ_self _) last
  · rintro (⟨rfl, rfl⟩ | ⟨h, hd⟩)
    · exact ⟨Nat.lt_succ_self _, last, fun k c hk hkj _ => by omega⟩
    · obtain ⟨hi, hb, hn⟩ := cut.2 h
      refine ⟨by omega, hb, fun k c hk hkj hc => ?_⟩
      by_cases he : k = p.length
      · subst he
        rw [last] at hc
        exact Option.some.inj hc ▸ hd
      · exact hn k c hk (by omega) hc

/-- What is told at a position depends on the bytes up to it alone. -/
theorem eventAt_take {limit : Nat} {bytes : List UInt8} {j : Nat} {e : FrameEvent} :
    EventAt limit (bytes.take (j + 1)) j e ↔ EventAt limit bytes j e := by
  have here : (bytes.take (j + 1))[j]? = bytes[j]? := List.getElem?_take_of_lt (Nat.lt_succ_self j)
  have opens : ∀ {i}, OpensAt (bytes.take (j + 1)) i j ↔ OpensAt bytes i j :=
    opensAt_take bytes (Nat.le_succ j)
  constructor
  · rintro (⟨h, hb, hf⟩ | ⟨h, hb, hf⟩ | ⟨h, hb, ho, hf⟩)
    · rw [List.take_take, Nat.min_self]
      exact .ended (opens.1 h) (here ▸ hb) hf
    · exact .interrupted (opens.1 h) (here ▸ hb) hf
    · exact .overflow (opens.1 h) (here ▸ hb) ho hf
  · rintro (⟨h, hb, hf⟩ | ⟨h, hb, hf⟩ | ⟨h, hb, ho, hf⟩)
    · have ended : EventAt limit (bytes.take (j + 1)) j _ := .ended (opens.2 h) (here.trans hb) hf
      rwa [List.take_take, Nat.min_self] at ended
    · exact .interrupted (opens.2 h) (here.trans hb) hf
    · exact .overflow (opens.2 h) (here.trans hb) ho hf

/-- What is told at the last byte of a stream. -/
theorem eventAt_snoc {limit : Nat} {p : List UInt8} {b : UInt8} {e : FrameEvent} :
    EventAt limit (p ++ [b]) p.length e ↔ ∃ i, OpensAt p i p.length ∧
      ((b = Grammar.closer ∧ p.length - i + 1 ≤ limit ∧ e = .ok ⟨p.drop i ++ [b]⟩) ∨
        (b = Grammar.opener ∧ p.length - i ≤ limit ∧ e = .error .interrupted) ∨
        (b ≠ Grammar.opener ∧ p.length = i + limit ∧ e = .error .overflow)) := by
  have here : (p ++ [b])[p.length]? = some b := by simp
  have opens : ∀ {i}, OpensAt (p ++ [b]) i p.length ↔ OpensAt p i p.length := fun {i} => by
    rw [← opensAt_take (p ++ [b]) (Nat.le_refl _), List.take_left]
  have frame : ∀ {i}, i < p.length →
      ((p ++ [b]).take (p.length + 1)).drop i = p.drop i ++ [b] := fun {i} hi => by
    rw [List.take_of_length_le (by simp), List.drop_append_of_le_length (by omega)]
  constructor
  · rintro (⟨h, hb, hf⟩ | ⟨h, hb, hf⟩ | ⟨h, hb, ho, hf⟩)
    · rw [frame h.1]
      exact ⟨_, opens.1 h, .inl ⟨Option.some.inj (here ▸ hb), hf, rfl⟩⟩
    · exact ⟨_, opens.1 h, .inr (.inl ⟨Option.some.inj (here ▸ hb), hf, rfl⟩)⟩
    · exact ⟨_, opens.1 h, .inr (.inr ⟨Option.some.inj (here.symm.trans hb) ▸ ho, hf, rfl⟩)⟩
  · rintro ⟨i, h, ⟨hb, hf, rfl⟩ | ⟨hb, hf, rfl⟩ | ⟨hb, hf, rfl⟩⟩
    · rw [← frame h.1]
      exact .ended (opens.2 h) (hb ▸ here) hf
    · exact .interrupted (opens.2 h) (hb ▸ here) hf
    · exact .overflow (opens.2 h) here hb hf

/-- The same where the nearest delimiter is known to be a `<`. -/
theorem OpensAt.eventAt_snoc {limit i : Nat} {p : List UInt8} (hi : OpensAt p i p.length)
    {b : UInt8} {e : FrameEvent} :
    EventAt limit (p ++ [b]) p.length e ↔
      (b = Grammar.closer ∧ p.length - i + 1 ≤ limit ∧ e = .ok ⟨p.drop i ++ [b]⟩) ∨
        (b = Grammar.opener ∧ p.length - i ≤ limit ∧ e = .error .interrupted) ∨
        (b ≠ Grammar.opener ∧ p.length = i + limit ∧ e = .error .overflow) := by
  rw [Wire.eventAt_snoc]
  constructor
  · rintro ⟨i', hi', h⟩
    rwa [hi.unique hi']
  · intro h
    exact ⟨i, hi, h⟩

/-! ### The framer follows the stream -/

/-- The framer `f` stands where a framer of the limit should behind the bytes `p`. -/
structure Follows (limit : Nat) (p : List UInt8) (f : Framer) : Prop where
  /-- It has the limit. -/
  maxLength_eq : f.maxLength = limit
  /-- A frame has room for its `<`. -/
  limit_pos : 0 < limit
  /-- If it holds no frame, then the last one that was opened has outgrown the limit. -/
  idle : f.current = none → ∀ i, OpensAt p i p.length → limit < p.length - i
  /-- A frame that it holds has all bytes from the nearest `<` on. -/
  busy : ∀ o, f.current = some o →
    ∃ i, OpensAt p i p.length ∧ p.length - i ≤ limit ∧ o.bytes.toList = p.drop i

namespace Follows

variable {limit : Nat} {p : List UInt8} {f : Framer}

theorem start (maxLength timeoutMs : Nat) :
    Follows (max maxLength 2) [] (Framer.new maxLength timeoutMs) where
  maxLength_eq := rfl
  limit_pos := by omega
  idle _ i h := absurd h.1 (Nat.not_lt_zero i)
  busy o h := by cases h

/-- A frame that is held, with its size. -/
theorem frame (h : Follows limit p f) {o : OpenFrame} (ho : f.current = some o) :
    ∃ i, OpensAt p i p.length ∧ o.bytes.size = p.length - i ∧ o.bytes.size ≤ limit ∧
      o.bytes.toList = p.drop i := by
  obtain ⟨i, hi, hfit, hbytes⟩ := h.busy o ho
  have hsize : o.bytes.size = p.length - i := by
    rw [← Array.length_toList, hbytes, List.length_drop]
  exact ⟨i, hi, hsize, by omega, hbytes⟩

/-- While no frame is held, there is nothing to tell. -/
theorem quiet (h : Follows limit p f) (ho : f.current = none) (b : UInt8) (e : FrameEvent) :
    ¬ EventAt limit (p ++ [b]) p.length e := by
  rw [eventAt_snoc]
  rintro ⟨i, hi, hcase⟩
  have hout := h.idle ho i hi
  rcases hcase with ⟨-, hf, -⟩ | ⟨-, hf, -⟩ | ⟨-, hf, -⟩ <;> omega

/-- A frame is opened by the last byte. -/
theorem openFrame (hmax : f.maxLength = limit) (hpos : 0 < limit) (now : Nat) :
    Follows limit (p ++ [Grammar.opener]) (f.openFrame now) where
  maxLength_eq := hmax
  limit_pos := hpos
  idle h := by cases h
  busy o h := by
    cases h
    rw [List.length_append, List.length_singleton]
    exact ⟨p.length, opensAt_snoc.2 (.inl ⟨rfl, rfl⟩), by omega, by simp⟩

/-- **One byte keeps the framer on the stream.** -/
theorem feed (h : Follows limit p f) (now : Nat) (b : UInt8) :
    Follows limit (p ++ [b]) (f.feed now b).2 := by
  have fed := f.fed_feed now b
  generalize f.feed now b = r at fed ⊢
  obtain ⟨told, f'⟩ := r
  have hmax := h.maxLength_eq
  have hpos := h.limit_pos
  have hlen : (p ++ [b]).length = p.length + 1 := by simp
  cases fed with
  | dropped idle other =>
    refine ⟨hmax, hpos, fun _ i hi => ?_, fun o ho => ?_⟩
    · rw [hlen] at hi ⊢
      rcases opensAt_snoc.1 hi with ⟨-, hb⟩ | ⟨hi, -⟩
      · exact absurd hb other
      · have := h.idle idle i hi
        omega
    · rw [show f.current = some o from ho] at idle
      cases idle
  | opened idle start =>
    subst start
    exact openFrame hmax hpos now
  | @interrupted o busy start =>
    subst start
    exact openFrame (f := f.giveUp o.bytes.size) hmax hpos now
  | overflowed busy other full =>
    obtain ⟨i, hi, hsize, -, -⟩ := h.frame busy
    refine ⟨hmax, hpos, fun _ i' hi' => ?_, fun o' ho' => absurd ho' (by simp)⟩
    rw [hlen] at hi' ⊢
    -- the nearest `<` is still that of the frame, which has outgrown the limit now
    rcases opensAt_snoc.1 hi' with ⟨-, hb⟩ | ⟨hi', -⟩
    · exact absurd hb other
    · have hlt := hi.1
      have := hi.unique hi'
      omega
  | ended busy stop room =>
    refine ⟨hmax, hpos, fun _ i' hi' => ?_, fun o' ho' => absurd ho' (by simp)⟩
    rw [hlen] at hi'
    -- behind a `>` there is no nearest `<`
    rcases opensAt_snoc.1 hi' with ⟨-, hb⟩ | ⟨-, hd⟩
    · exact absurd (stop.symm.trans hb) closer_ne_opener
    · exact absurd (.inr stop) hd
  | grown busy inner room =>
    obtain ⟨i, hi, hsize, -, hbytes⟩ := h.frame busy
    have hlt := hi.1
    refine ⟨hmax, hpos, fun ho => absurd ho (by simp), fun o ho => ?_⟩
    cases ho
    rw [hlen]
    refine ⟨i, opensAt_snoc.2 (.inr ⟨hi, inner⟩), by omega, ?_⟩
    rw [Array.toList_push, hbytes, List.drop_append_of_le_length (by omega)]

/-- **One byte tells what is to be told there.** -/
theorem told_iff (h : Follows limit p f) (now : Nat) (b : UInt8) (e : FrameEvent) :
    (f.feed now b).1 = some e ↔ EventAt limit (p ++ [b]) p.length e := by
  have fed := f.fed_feed now b
  generalize f.feed now b = r at fed ⊢
  obtain ⟨told, f'⟩ := r
  have hmax := h.maxLength_eq
  cases fed with
  | dropped idle other => exact iff_of_false (by simp) (h.quiet idle b e)
  | opened idle start => exact iff_of_false (by simp) (h.quiet idle b e)
  | interrupted busy start =>
    obtain ⟨i, hi, hsize, hfit, -⟩ := h.frame busy
    rw [hi.eventAt_snoc]
    constructor
    · intro he
      cases he
      exact .inr (.inl ⟨start, by omega, rfl⟩)
    · rintro (⟨hb, -, -⟩ | ⟨-, -, rfl⟩ | ⟨hb, -, -⟩)
      · exact absurd (hb.symm.trans start) closer_ne_opener
      · rfl
      · exact absurd start hb
  | overflowed busy other full =>
    obtain ⟨i, hi, hsize, hfit, -⟩ := h.frame busy
    have hlt := hi.1
    rw [hi.eventAt_snoc]
    constructor
    · intro he
      cases he
      exact .inr (.inr ⟨other, by omega, rfl⟩)
    · rintro (⟨-, hf, -⟩ | ⟨hb, -, -⟩ | ⟨-, -, rfl⟩)
      · omega
      · exact absurd hb other
      · rfl
  | ended busy stop room =>
    obtain ⟨i, hi, hsize, -, hbytes⟩ := h.frame busy
    rw [hi.eventAt_snoc, hbytes]
    constructor
    · intro he
      cases he
      exact .inl ⟨stop, by omega, rfl⟩
    · rintro (⟨-, -, rfl⟩ | ⟨hb, -, -⟩ | ⟨-, hf, -⟩)
      · rfl
      · exact absurd (stop.symm.trans hb) closer_ne_opener
      · omega
  | grown busy inner room =>
    -- no delimiter, and there was room for it
    obtain ⟨i, hi, hsize, -, -⟩ := h.frame busy
    refine iff_of_false (by simp) ?_
    rw [hi.eventAt_snoc]
    rintro (⟨hb, -, -⟩ | ⟨hb, -, -⟩ | ⟨-, hf, -⟩)
    · exact inner (.inr hb)
    · exact inner (.inl hb)
    · omega

/-- A new framer follows every stream. -/
theorem after (maxLength timeoutMs : Nat) (arrivals : List (Nat × UInt8)) :
    Follows (max maxLength 2) (arrivals.map Prod.snd)
      ((Framer.new maxLength timeoutMs).after arrivals) := by
  induction arrivals using List.reverseRecOn with
  | nil => exact start maxLength timeoutMs
  | append_singleton p a ih =>
    rw [Framer.after_append, List.map_append]
    exact ih.feed a.1 a.2

end Follows

/-! ### What a new framer tells -/

namespace Framer

/-- What a new framer tells at position `j` of a stream. -/
theorem replies_new_iff (maxLength timeoutMs : Nat) (arrivals : List (Nat × UInt8)) (j : Nat)
    (e : FrameEvent) :
    ((new maxLength timeoutMs).replies arrivals)[j]? = some (some e) ↔
      EventAt (max maxLength 2) (arrivals.map Prod.snd) j e := by
  rw [replies_getElem?]
  cases hj : arrivals[j]? with
  | none =>
    have hlen : (arrivals.map Prod.snd)[j]? = none := by simp [hj]
    refine iff_of_false (by simp) ?_
    rintro (⟨-, hb, -⟩ | ⟨-, hb, -⟩ | ⟨-, hb, -, -⟩) <;> rw [hlen] at hb <;> cases hb
  | some a =>
    have hlt : j < arrivals.length := (List.getElem?_eq_some_iff.1 hj).1
    have follows := Follows.after maxLength timeoutMs (arrivals.take j)
    have told := follows.told_iff a.1 a.2 e
    have hlen : ((arrivals.take j).map Prod.snd).length = j := by simp; omega
    have hcut : (arrivals.map Prod.snd).take (j + 1) = (arrivals.take j).map Prod.snd ++ [a.2] := by
      rw [← List.map_take, List.take_add_one, hj]
      simp
    rw [hlen, ← hcut, eventAt_take] at told
    simpa using told

/-- A frame that is all there and fits is to be delivered at its last byte. -/
theorem eventAt_frame {limit : Nat} {pre body post : List UInt8}
    (hbody : ∀ b ∈ body, ¬ IsDelimiter b) (hfit : body.length + 2 ≤ limit) :
    EventAt limit (pre ++ (Grammar.opener :: body ++ [Grammar.closer]) ++ post)
      (pre.length + body.length + 1) (.ok ⟨Grammar.opener :: body ++ [Grammar.closer]⟩) := by
  set frame := Grammar.opener :: body ++ [Grammar.closer] with hframe
  have hsize : frame.length = body.length + 2 := by simp [hframe]
  have get : ∀ k, k < frame.length → (pre ++ frame ++ post)[pre.length + k]? = frame[k]? :=
    fun k hk => by
      rw [List.append_assoc, List.getElem?_append_right (by omega), Nat.add_sub_cancel_left,
        List.getElem?_append_left hk]
  have hcut : ((pre ++ frame ++ post).take (pre.length + body.length + 1 + 1)).drop pre.length =
      frame := by
    rw [show pre.length + body.length + 1 + 1 = (pre ++ frame).length by simp [hsize]; omega,
      List.take_left, List.drop_left]
  have opens : OpensAt (pre ++ frame ++ post) pre.length (pre.length + body.length + 1) := by
    refine ⟨by omega, ?_, fun k b hk hkj hb => ?_⟩
    · simp [hframe]
    · obtain ⟨n, rfl⟩ := Nat.exists_eq_add_of_lt hk
      rw [Nat.add_assoc, get (n + 1) (by omega), hframe, List.cons_append, List.getElem?_cons_succ,
        List.getElem?_append_left (by omega)] at hb
      exact hbody b (List.mem_of_getElem? hb)
  have here : (pre ++ frame ++ post)[pre.length + body.length + 1]? = some Grammar.closer := by
    rw [Nat.add_assoc, get (body.length + 1) (by omega), hframe]
    simp
  have ended : EventAt limit (pre ++ frame ++ post) _ _ := .ended opens here (by omega)
  rwa [hcut] at ended

/-- **A framer cuts every stream into its frames.** Behind any bytes, arriving at any times, a new
framer tells at each position exactly what `EventAt` says; every frame that fits is delivered,
whatever came before it; and the frame under way never has more bytes than the limit. -/
theorem segments (maxLength timeoutMs : Nat) (arrivals : List (Nat × UInt8)) :
    (∀ j e, ((new maxLength timeoutMs).replies arrivals)[j]? = some (some e) ↔
      EventAt (max maxLength 2) (arrivals.map Prod.snd) j e) ∧
    (∀ pre body post : List UInt8,
      arrivals.map Prod.snd = pre ++ (Grammar.opener :: body ++ [Grammar.closer]) ++ post →
      (∀ b ∈ body, ¬ IsDelimiter b) → body.length + 2 ≤ max maxLength 2 →
      ((new maxLength timeoutMs).replies arrivals)[pre.length + body.length + 1]? =
        some (some (.ok ⟨Grammar.opener :: body ++ [Grammar.closer]⟩))) ∧
    (∀ n o, ((new maxLength timeoutMs).after (arrivals.take n)).current = some o →
      o.bytes.size ≤ max maxLength 2) := by
  refine ⟨replies_new_iff maxLength timeoutMs arrivals, ?_, fun n o ho => ?_⟩
  · intro pre body post hbytes hbody hfit
    rw [replies_new_iff, hbytes]
    exact eventAt_frame hbody hfit
  · obtain ⟨i, -, -, hfit, -⟩ := (Follows.after maxLength timeoutMs (arrivals.take n)).frame ho
    exact hfit

/-- A frame is delivered behind one that grew too long and one that was interrupted:
`<abc<a<Z>` with a limit of three bytes. -/
theorem segments_behind_faults :
    (∀ b ∈ [Grammar.letterZ], ¬ IsDelimiter b) ∧ [Grammar.letterZ].length + 2 ≤ max 3 2 ∧
      ((new 3 0).replies ([60, 97, 98, 99, 60, 97, 60, 90, 62].map (7, ·)))[8]? =
        some (some (.ok ⟨[60, 90, 62]⟩)) ∧
      EventAt 3 [60, 97, 98, 99, 60, 97, 60, 90, 62] 3 (.error .overflow) ∧
      EventAt 3 [60, 97, 98, 99, 60, 97, 60, 90, 62] 6 (.error .interrupted) := by
  have cut := segments 3 0 ([60, 97, 98, 99, 60, 97, 60, 90, 62].map (7, ·))
  have hbody : ∀ b ∈ [Grammar.letterZ], ¬ IsDelimiter b :=
    List.forall_mem_singleton.2 (by decide)
  refine ⟨hbody, by decide, ?_, ?_, ?_⟩
  · exact cut.2.1 [60, 97, 98, 99, 60, 97] [Grammar.letterZ] [] rfl hbody (by decide)
  · exact (cut.1 3 (.error .overflow)).1 (by decide)
  · exact (cut.1 6 (.error .interrupted)).1 (by decide)

end Framer

end Wire

end Marquee
