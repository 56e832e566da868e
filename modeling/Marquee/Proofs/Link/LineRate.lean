import Marquee.Proofs.Wire.Timeouts
import Marquee.Settings.Review
import Mathlib.Algebra.Order.Field.Rat
import Mathlib.Data.List.Chain
import Mathlib.Tactic.Linarith

/-!
# Frames at line rate

Settings are reviewed in bits and milliseconds, bytes arrive at nanoseconds, and a framer looks at a clock
that shows whole milliseconds. This file ties the three together.

* `Settings.le_timeout_of_reviewed` : what the review says of the limit on gaps.
* `sub_div_le` : rounding the clock down at both ends makes no gap of whole milliseconds longer.
* `FramerInput.inMs` : an input at a time in nanoseconds, as the framer learns of it.
* `Framer.answers_of_open` : a frame under way is delivered if no gap is longer than the limit, whenever
  the framer looks at the clock; and so is a whole one (`Framer.answers_of_whole`).
* `byteTimeNs` : what one byte takes at line rate, which is no longer than the limit (`byteTimeNs_le`).
* `Framer.line_rate_keeps_time` : **a frame that is sent at line rate is never given up for its age**, if
  the review of the settings finds no problem.
-/

namespace Marquee

open Wire

/-- One byte of the wire takes no longer than the limit on gaps. -/
theorem Settings.le_timeout_of_reviewed {s : Settings} (reviewed : s.problems = [])
    (limited : s.link.frameTimeoutMs ≠ 0) :
    0 < s.link.baudRate.toNat ∧ 10000 ≤ s.link.frameTimeoutMs.toNat * s.link.baudRate.toNat := by
  simp only [problems, List.append_eq_nil_iff] at reviewed
  obtain ⟨⟨⟨⟨-, hlink⟩, -⟩, -⟩, -⟩ := reviewed
  split_ifs at hlink with hbaud hshort
  have hpos : s.link.baudRate.toNat ≠ 0 := fun h => hbaud (UInt32.toNat_inj.1 h)
  have hlong : ¬ s.link.frameTimeoutMs.toNat * s.link.baudRate.toNat < 10 * 1000 := fun h =>
    hshort (by rw [timeoutBelowOneByte, bitsPerByte, decide_eq_true limited, decide_eq_true h]; rfl)
  exact ⟨Nat.pos_of_ne_zero hpos, Nat.le_of_not_lt hlong⟩

namespace Wire

/-- A gap of at most `limit` units of `n` stays so if both ends are rounded down to such units. -/
theorem sub_div_le {last now limit n : Nat} (hn : 0 < n) (h : now - last ≤ limit * n) :
    now / n - last / n ≤ limit := by
  have hle : now / n ≤ (last + limit * n) / n := Nat.div_le_div_right (by omega)
  rw [Nat.add_mul_div_right _ _ hn] at hle
  omega

namespace FramerInput

/-- When it happens. -/
def time : FramerInput → Nat
  | .byte now _ => now
  | .check now => now

/-- The same at a time in milliseconds, if that of the input is in nanoseconds. -/
def inMs : FramerInput → FramerInput
  | .byte now b => .byte (now / 1000000) b
  | .check now => .check (now / 1000000)

theorem time_mem_of_arrival {a : Nat × UInt8} {inputs : List FramerInput} (h : a ∈ arrivals inputs) :
    a.1 ∈ inputs.map time := by
  obtain ⟨i, hi, ha⟩ := List.mem_filterMap.1 h
  cases i with
  | byte now b => exact Option.some.inj ha ▸ List.mem_map_of_mem hi
  | check now => cases ha

end FramerInput

namespace Framer

open FramerInput

variable {f : Framer}

/-- A look at the clock in time tells nothing and changes nothing. -/
theorem answers_check {now : Nat} (inTime : f.overdue (now / 1000000) = false)
    (rest : List FramerInput) :
    f.answers ((.check now :: rest).map inMs) = none :: f.answers (rest.map inMs) ∧
      f.behind ((.check now :: rest).map inMs) = f.behind (rest.map inMs) ∧
      f.byteAnswers ((.check now :: rest).map inMs) = f.byteAnswers (rest.map inMs) := by
  have hcheck := checkTimeout_of_inTime inTime
  rw [List.map_cons, inMs, answers, answer, behind, List.foldl_cons, step, byteAnswers, hcheck]
  exact ⟨rfl, rfl, rfl⟩

/-- Without bytes, an idle framer tells nothing and stays as it is. -/
theorem answers_of_idle (idle : f.current = none) {inputs : List FramerInput}
    (silent : arrivals inputs = []) :
    (∀ told ∈ f.answers (inputs.map inMs), told = none) ∧ f.behind (inputs.map inMs) = f ∧
      f.byteAnswers (inputs.map inMs) = [] := by
  induction inputs with
  | nil => exact ⟨List.forall_mem_nil _, rfl, rfl⟩
  | cons i rest ih =>
    cases i with
    | byte now b => cases silent
    | check now =>
      have inTime : f.overdue (now / 1000000) = false := by simp [overdue, idle]
      obtain ⟨hanswers, hbehind, hbytes⟩ := answers_check inTime rest
      rw [hanswers, hbehind, hbytes, List.forall_mem_cons, and_assoc]
      exact ⟨rfl, ih silent⟩

/-- A byte of the body makes a frame under way longer, if there is room. -/
theorem feed_of_inner {o : OpenFrame} (busy : f.current = some o) (now : Nat) {b : UInt8}
    (inner : ¬ IsDelimiter b) (room : o.bytes.size < f.maxLength) :
    f.feed now b = (none, { f with current := some ⟨o.bytes.push b, now⟩ }) := by
  simp only [IsDelimiter, not_or] at inner
  simp only [feed, busy, if_neg inner.1, if_neg (Nat.not_le.2 room), if_neg inner.2]

/-- The closing byte ends a frame under way, if there is room. -/
theorem feed_of_closer {o : OpenFrame} (busy : f.current = some o) (now : Nat)
    (room : o.bytes.size < f.maxLength) :
    f.feed now Grammar.closer = (some (.ok ⟨o.bytes.toList ++ [Grammar.closer]⟩), f.reset) := by
  simp only [feed, busy, if_neg closer_ne_opener, if_neg (Nat.not_le.2 room), Array.toList_push,
    ↓reduceIte]

/-- The opening byte opens a frame, whatever was under way. What is told of it is no timeout. -/
theorem feed_opener (f : Framer) (now : Nat) :
    (f.feed now Grammar.opener).1 ≠ some (.error .timeout) ∧
      (f.feed now Grammar.opener).2.current = some ⟨#[Grammar.opener], now⟩ := by
  unfold feed
  cases f.current <;> simp [openFrame]

/-- A frame under way is not overdue while the next byte of it is to come in time. -/
theorem overdue_of_expected {o : OpenFrame} (busy : f.current = some o) {last now : Nat}
    (known : o.lastMs = last / 1000000) {rest : List FramerInput} (expected : arrivals rest ≠ [])
    (gaps : (last :: (arrivals rest).map Prod.fst).IsChain
      fun t t' => t' - t ≤ f.timeoutMs * 1000000)
    (first : ∀ t ∈ rest.map time, now ≤ t) : f.overdue (now / 1000000) = false := by
  obtain ⟨next, later, harrivals⟩ := List.exists_cons_of_ne_nil expected
  rw [harrivals] at gaps
  have hgap : next.1 - last ≤ f.timeoutMs * 1000000 := (List.isChain_cons_cons.1 gaps).1
  have hnow : now ≤ next.1 := first _ (time_mem_of_arrival (harrivals ▸ List.mem_cons_self))
  have inTime : now / 1000000 - o.lastMs ≤ f.timeoutMs := by
    rw [known]
    exact sub_div_le (by decide) (by omega)
  simp only [overdue, busy, decide_eq_false (Nat.not_lt.2 inTime), Bool.and_false]

/-- **A frame under way is delivered** if no gap is longer than the limit, and no look at the clock gives
it up. -/
theorem answers_of_open {o : OpenFrame} (busy : f.current = some o) {last : Nat}
    (known : o.lastMs = last / 1000000) {body : List UInt8} (plain : ∀ b ∈ body, ¬ IsDelimiter b)
    (fits : o.bytes.size + body.length < f.maxLength) {inputs : List FramerInput}
    (sent : (arrivals inputs).map Prod.snd = body ++ [Grammar.closer])
    (inOrder : (last :: inputs.map time).Pairwise (· ≤ ·))
    (gaps : (last :: (arrivals inputs).map Prod.fst).IsChain
      fun t t' => t' - t ≤ f.timeoutMs * 1000000) :
    some (.error .timeout) ∉ f.answers (inputs.map inMs) ∧
      (f.byteAnswers (inputs.map inMs)).getLast? =
        some (some (.ok ⟨o.bytes.toList ++ (body ++ [Grammar.closer])⟩)) := by
  induction inputs generalizing f o last body with
  | nil => simp [arrivals] at sent
  | cons i rest ih =>
    obtain ⟨hfirst, hrest⟩ := List.pairwise_cons.1 inOrder
    cases i with
    | check now =>
      replace sent : (arrivals rest).map Prod.snd = body ++ [Grammar.closer] := sent
      replace gaps : (last :: (arrivals rest).map Prod.fst).IsChain
        fun t t' => t' - t ≤ f.timeoutMs * 1000000 := gaps
      have expected : arrivals rest ≠ [] := by
        intro hnil
        simp [hnil] at sent
      obtain ⟨hnow, hrest⟩ := List.pairwise_cons.1 hrest
      have inTime : f.overdue (now / 1000000) = false :=
        overdue_of_expected busy known expected gaps hnow
      obtain ⟨hanswers, -, hbytes⟩ := answers_check inTime rest
      obtain ⟨hno, hlast⟩ := ih busy known plain fits sent
        (List.pairwise_cons.2 ⟨fun t ht => hfirst t (List.mem_cons_of_mem _ ht), hrest⟩) gaps
      rw [hanswers, hbytes]
      exact ⟨List.not_mem_cons_of_ne_of_not_mem (Option.some_ne_none _) hno, hlast⟩
    | byte now b =>
      replace sent : b :: (arrivals rest).map Prod.snd = body ++ [Grammar.closer] := sent
      have hgaps := (List.isChain_cons_cons.1 gaps).2
      rw [List.map_cons, inMs, answers, answer, step, byteAnswers]
      cases body with
      | nil =>
        obtain ⟨rfl, hsilent⟩ := List.cons.inj sent
        obtain ⟨hnone, -, hbytes⟩ := answers_of_idle (f := f.reset) rfl (List.map_eq_nil_iff.1 hsilent)
        rw [feed_of_closer busy _ (by simpa using fits), hbytes]
        exact ⟨List.not_mem_cons_of_ne_of_not_mem (by simp)
          fun htold => Option.some_ne_none _ (hnone _ htold), rfl⟩
      | cons b' body =>
        obtain ⟨rfl, hlater⟩ := List.cons.inj sent
        obtain ⟨inner, plain⟩ := List.forall_mem_cons.1 plain
        rw [List.length_cons] at fits
        have hfed := feed_of_inner busy (now / 1000000) inner (by omega)
        obtain ⟨hno, hlast⟩ := ih (f := { f with current := some ⟨o.bytes.push b, now / 1000000⟩ })
          (o := ⟨o.bytes.push b, now / 1000000⟩) rfl rfl plain (by simp; omega) hlater hrest hgaps
        rw [hfed]
        refine ⟨List.not_mem_cons_of_ne_of_not_mem (Option.some_ne_none _) hno, ?_⟩
        rw [List.getLast?_cons, hlast]
        simp

/-- A frame is delivered if no gap is longer than the limit, whatever the framer was busy with before. -/
theorem answers_of_whole (f : Framer) {body : List UInt8} (plain : ∀ b ∈ body, ¬ IsDelimiter b)
    (fits : body.length + 1 < f.maxLength) {start : Nat} {sending : List FramerInput}
    (sent : (arrivals sending).map Prod.snd = body ++ [Grammar.closer])
    (inOrder : (start :: sending.map time).Pairwise (· ≤ ·))
    (gaps : (start :: (arrivals sending).map Prod.fst).IsChain
      fun t t' => t' - t ≤ f.timeoutMs * 1000000) :
    let whole := .byte start Grammar.opener :: sending
    some (.error .timeout) ∉ f.answers (whole.map inMs) ∧
      (f.byteAnswers (whole.map inMs)).getLast? =
        some (some (.ok ⟨[Grammar.opener] ++ body ++ [Grammar.closer]⟩)) := by
  intro whole
  obtain ⟨hno, hopened⟩ := f.feed_opener (start / 1000000)
  obtain ⟨hlength, htimeout⟩ := f.limits_step (.byte (start / 1000000) Grammar.opener)
  rw [step] at hlength htimeout
  obtain ⟨hrest, hlast⟩ := answers_of_open hopened rfl plain
    (by rw [hlength]; simp only [List.size_toArray, List.length_singleton]; omega)
    sent inOrder (htimeout.symm ▸ gaps)
  rw [List.map_cons, inMs, answers, byteAnswers, List.getLast?_cons, hlast]
  exact ⟨List.not_mem_cons_of_ne_of_not_mem hno.symm hrest, by simp⟩

end Framer

/-- What one byte takes at line rate, in nanoseconds. -/
def byteTimeNs (baudRate : UInt32) : ℚ := 10 ^ 10 / baudRate.toNat

/-- The limit on gaps is no shorter than one byte at line rate. -/
theorem byteTimeNs_le {s : Settings} (reviewed : s.problems = []) (limited : s.link.frameTimeoutMs ≠ 0) :
    byteTimeNs s.link.baudRate ≤ (s.link.frameTimeoutMs.toNat * 1000000 : Nat) := by
  obtain ⟨hpos, hlong⟩ := Settings.le_timeout_of_reviewed reviewed limited
  have hbits : 10 ^ 10 ≤ s.link.frameTimeoutMs.toNat * 1000000 * s.link.baudRate.toNat := by
    calc 10 ^ 10 = 10000 * 1000000 := by norm_num
      _ ≤ s.link.frameTimeoutMs.toNat * s.link.baudRate.toNat * 1000000 := Nat.mul_le_mul_right _ hlong
      _ = s.link.frameTimeoutMs.toNat * 1000000 * s.link.baudRate.toNat := Nat.mul_right_comm ..
  rw [byteTimeNs, div_le_iff₀ (by exact_mod_cast hpos)]
  exact_mod_cast hbits

namespace Framer

open FramerInput

/-- **A frame that is sent at line rate is never given up for its age.** The settings have no problem and
set a limit on gaps. Bytes arrive, and the clock is looked at, at times in nanoseconds, of which the
framer learns whole milliseconds. From some byte on, all bytes that arrive are those of a frame that is
short enough, each no later behind the one before it than a byte takes at line rate. Then

* no look at the clock behind the first byte of the frame gives it up, and its last byte delivers it;
* if it is the first that arrives, no look at the clock before it tells of a frame given up either. -/
theorem line_rate_keeps_time (s : Settings) (reviewed : s.problems = [])
    (limited : s.link.frameTimeoutMs ≠ 0) {body : List UInt8} (plain : ∀ b ∈ body, ¬ IsDelimiter b)
    (fits : ([Grammar.opener] ++ body ++ [Grammar.closer]).length ≤ s.link.maxFrameLength.toNat)
    (before sending : List FramerInput) (start : Nat)
    (sent : (arrivals (.byte start Grammar.opener :: sending)).map Prod.snd =
      [Grammar.opener] ++ body ++ [Grammar.closer])
    (inOrder : ((.byte start Grammar.opener :: sending).map time).Pairwise (· ≤ ·))
    (lineRate : (arrivals (.byte start Grammar.opener :: sending)).IsChain fun a b =>
      (b.1 - a.1 : ℚ) ≤ byteTimeNs s.link.baudRate) :
    let f := new s.link.maxFrameLength.toNat s.link.frameTimeoutMs.toNat
    let whole := .byte start Grammar.opener :: sending
    some (.error .timeout) ∉ (f.behind (before.map inMs)).answers (whole.map inMs) ∧
      ((f.behind (before.map inMs)).byteAnswers (whole.map inMs)).getLast? =
        some (some (.ok ⟨[Grammar.opener] ++ body ++ [Grammar.closer]⟩)) ∧
      (arrivals before = [] → some (.error .timeout) ∉ f.answers ((before ++ whole).map inMs)) := by
  intro f whole
  obtain ⟨hlength, htimeout⟩ := f.limits_behind (before.map inMs)
  have hbody : (arrivals sending).map Prod.snd = body ++ [Grammar.closer] := (List.cons.inj sent).2
  have hroom : body.length + 1 < (f.behind (before.map inMs)).maxLength := by
    simp only [List.length_append, List.length_singleton] at fits
    rw [hlength]
    exact Nat.lt_of_lt_of_le (by omega) (Nat.le_max_left ..)
  have hgaps : (start :: (arrivals sending).map Prod.fst).IsChain
      fun t t' => t' - t ≤ (f.behind (before.map inMs)).timeoutMs * 1000000 := by
    rw [htimeout]
    refine List.isChain_map_of_isChain (l := (start, Grammar.opener) :: arrivals sending) Prod.fst
      (fun a b hgap => ?_) lineRate
    have hle : (b.1 : ℚ) ≤ (a.1 + s.link.frameTimeoutMs.toNat * 1000000 : Nat) := by
      have := hgap.trans (byteTimeNs_le reviewed limited)
      push_cast at this ⊢
      linarith
    exact Nat.sub_le_iff_le_add'.2 (by exact_mod_cast hle)
  obtain ⟨hno, hlast⟩ := answers_of_whole _ plain hroom hbody inOrder hgaps
  refine ⟨hno, hlast, fun first => ?_⟩
  obtain ⟨hsilent, -, -⟩ := answers_of_idle (f := f) rfl first
  rw [List.map_append, answers_append, List.mem_append, not_or]
  exact ⟨fun htold => Option.some_ne_none _ (hsilent _ htold), hno⟩

/-- The limit is exactly one byte at line rate. Each byte of the frame takes that long, and the clock is
looked at just before it arrives. -/
theorem line_rate_keeps_time_to_the_nanosecond :
    let s : Settings := { link := { baudRate := 2000, frameTimeoutMs := 5 } }
    let f := new s.link.maxFrameLength.toNat s.link.frameTimeoutMs.toNat
    let busy : List FramerInput := [.byte 0 Grammar.opener, .byte 100 65, .check 900000]
    let whole : List FramerInput := [.byte 999999 Grammar.opener, .check 5999998, .byte 5999999 90,
      .check 10999998, .byte 10999999 Grammar.closer, .check 99999999]
    s.problems = [] ∧ byteTimeNs s.link.baudRate = 5000000 ∧
      some (.error .timeout) ∉ (f.behind (busy.map inMs)).answers (whole.map inMs) ∧
      ((f.behind (busy.map inMs)).byteAnswers (whole.map inMs)).getLast? =
        some (some (.ok ⟨[Grammar.opener, 90, Grammar.closer]⟩)) ∧
      some (.error .timeout) ∉ f.answers ((.check 7 :: whole).map inMs) := by
  intro s f busy whole
  have hrate : byteTimeNs s.link.baudRate = 5000000 := by
    simp only [byteTimeNs, s, UInt32.reduceToNat]
    norm_num
  have plain : ∀ b ∈ ([90] : List UInt8), ¬ IsDelimiter b := by decide +kernel
  have kept := line_rate_keeps_time s (by decide) (by decide) plain (by decide)
  have hchain : (arrivals whole).IsChain fun a b => (b.1 - a.1 : ℚ) ≤ byteTimeNs s.link.baudRate := by
    rw [hrate]
    simp only [whole, arrivals, arrival?, List.filterMap]
    norm_num
  obtain ⟨hno, hlast, -⟩ := kept busy _ 999999 (by decide) (by decide) hchain
  obtain ⟨-, -, hfirst⟩ := kept [.check 7] _ 999999 (by decide) (by decide) hchain
  exact ⟨by decide, hrate, hno, hlast, hfirst rfl⟩

end Framer

end Wire

end Marquee
