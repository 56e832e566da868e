import Marquee.Proofs.Link.Intake

/-!
# Every start of a frame is accounted for

The counts of a sign are kept in three places: the link counts bytes, the framer tells of frames that
end or are given up, and the stage answers commands. This file follows a run of polls with a log of
all its reads, and balances the log against the counts.

* `Sign.readings` : what each read of the polls took from the link.
* `LinkTally.capped` : a tally whose counts stopped at their caps. The proof keeps an exact tally
  beside the one of the sign, so that no step has to ask whether a count has stopped.
* `Framer.starts_feed`, `Framer.starts_checkTimeout` : a framer tells of an event just when a frame
  that was under way ends, be it to make room for the next one.
* `Sign.Accounted` : the balance that every step of a poll keeps.
* `Sign.starts_accounted` : **each `<` that was taken is that of a frame applied, rejected or under
  way**, and each byte and each read that failed is counted.
-/

namespace Marquee

open Wire

/-! ### The framer -/

namespace Wire.Framer

/-- The starts that a byte brings, with the frame under way before it, are the frames that it ends with
the frame under way behind it. -/
theorem starts_feed (f : Framer) (now : Nat) (b : UInt8) :
    [b].count Grammar.opener + f.inFrame.toNat =
      (f.feed now b).1.toList.length + (f.feed now b).2.inFrame.toNat := by
  have h := fed_feed f now b
  generalize f.feed now b = r at h ⊢
  obtain ⟨reply, f'⟩ := r
  cases h with
  | dropped idle other => simp [inFrame, idle, other]
  | opened idle start => simp [inFrame, idle, start]
  | interrupted busy start => simp [inFrame, busy, start]
  | overflowed busy other => simp [inFrame, busy, other]
  | ended busy stop => simp [inFrame, busy, stop, closer_ne_opener]
  | grown busy inner =>
    have other : b ≠ Grammar.opener := fun h => inner (.inl h)
    simp [inFrame, busy, other]

/-- A frame that is overdue was under way. -/
theorem starts_checkTimeout (f : Framer) (now : Nat) :
    f.inFrame.toNat =
      (f.checkTimeout now).1.toList.length + (f.checkTimeout now).2.inFrame.toNat := by
  unfold checkTimeout
  split
  · rename_i hoverdue
    cases hcurrent : f.current with
    | none => simp [overdue, hcurrent] at hoverdue
    | some o => simp [inFrame, hcurrent, giveUp]
  · simp

end Wire.Framer

/-! ### Counts and their caps -/

namespace LinkTally

/-- The tally whose counts stopped at their caps. -/
def capped (t : LinkTally) : LinkTally :=
  { bytesReceived := min t.bytesReceived Counter.cap32
    framesApplied := min t.framesApplied Counter.cap32
    frameFaults := min t.frameFaults Counter.cap32
    grammarFaults := min t.grammarFaults Counter.cap32
    stageFaults := min t.stageFaults Counter.cap32
    transportFaults := min t.transportFaults Counter.cap32 }

/-- The number of frames that ended, in whatever way. -/
def ended (t : LinkTally) : Nat := t.framesApplied + t.frameFaults + t.grammarFaults + t.stageFaults

/-- Behind `t`, `n` more frames ended, and nothing else was counted. -/
structure Ends (t : LinkTally) (n : Nat) (t' : LinkTally) : Prop where
  ended : t'.ended = t.ended + n
  bytesReceived : t'.bytesReceived = t.bytesReceived
  transportFaults : t'.transportFaults = t.transportFaults

theorem add_min (count more : Nat) :
    add (min count Counter.cap32) more = min (count + more) Counter.cap32 := by
  simp only [add, Counter.addUpTo]
  omega

theorem noteApplied_capped (t : LinkTally) :
    ∃ t', t.capped.noteApplied = t'.capped ∧ t.Ends 1 t' := by
  refine ⟨{ t with framesApplied := t.framesApplied + 1 }, ?_, ?_, rfl, rfl⟩
  · simp only [noteApplied, capped, add_min]
  · simp only [ended]
    omega

theorem noteFault_capped (t : LinkTally) {e : LinkFault} (he : e ≠ .transport) :
    ∃ t', t.capped.noteFault e = t'.capped ∧ t.Ends 1 t' := by
  cases e with
  | transport => exact absurd rfl he
  | frame =>
    refine ⟨{ t with frameFaults := t.frameFaults + 1 }, ?_, ?_, rfl, rfl⟩
    · simp only [noteFault, capped, add_min]
    · simp only [ended]
      omega
  | grammar =>
    refine ⟨{ t with grammarFaults := t.grammarFaults + 1 }, ?_, ?_, rfl, rfl⟩
    · simp only [noteFault, capped, add_min]
    · simp only [ended]
      omega
  | stage =>
    refine ⟨{ t with stageFaults := t.stageFaults + 1 }, ?_, ?_, rfl, rfl⟩
    · simp only [noteFault, capped, add_min]
    · simp only [ended]
      omega

/-- If the frames that ended fit into one count, then what was not applied was rejected. -/
theorem ended_eq_of_le {t : LinkTally} (h : t.ended ≤ Counter.cap32) :
    t.ended = t.capped.framesApplied + t.capped.rejected := by
  simp only [ended] at h
  simp only [ended, capped, rejected, add, Counter.addUpTo]
  omega

end LinkTally

/-- A frame is not refused for a fault of the link. -/
theorem Stage.applyFrame_ne_transport (s : Stage) (f : Frame) :
    (s.applyFrame f).1 ≠ .error .transport := by
  unfold applyFrame
  split
  · simp
  · split <;> simp

namespace Sign

variable {S D ε : Type}

theorem takeEvent_capped (stage : Stage) (t : LinkTally) (e : FrameEvent) :
    ∃ t', (takeEvent (stage, t.capped) e).2 = t'.capped ∧ t.Ends 1 t' := by
  cases e with
  | error e => exact t.noteFault_capped (e := .frame e) nofun
  | ok f =>
    simp only [takeEvent]
    have hfault := stage.applyFrame_ne_transport f
    generalize stage.applyFrame f = a at hfault ⊢
    obtain ⟨result, stage'⟩ := a
    cases result with
    | ok outcome => exact t.noteApplied_capped
    | error e => exact t.noteFault_capped (fun he => hfault (congrArg Except.error he))

/-- Each event counts for one frame. -/
theorem takeReply_capped (stage : Stage) (t : LinkTally) (reply : Option FrameEvent) :
    ∃ t', (takeReply (stage, t.capped) reply).2 = t'.capped ∧ t.Ends reply.toList.length t' := by
  cases reply with
  | none => exact ⟨t, rfl, rfl, rfl, rfl⟩
  | some e => exact takeEvent_capped stage t e

/-! ### The log of reads -/

/-- What a read took from the link: bytes, or nothing as it failed. -/
abbrev Reading := Option (List UInt8)

/-- The bytes that were taken, in order. -/
def taken (log : List Reading) : List UInt8 := log.flatMap fun r => r.getD []

@[simp] theorem taken_concat (log : List Reading) (r : Reading) :
    taken (log ++ [r]) = taken log ++ r.getD [] := by
  simp [taken]

section

variable [Source S]

/-- The read that comes before the next byte, unless one waits or none may be taken: of the bytes that
are claimed, those for which there is room. -/
def reading? (s : Sign S D) : Option Reading :=
  if s.pending = [] ∧ s.budget ≠ 0 then
    some (s.delivery.1.claimed.map fun n => s.reread.buffer.take (min n s.budget))
  else none

/-- The reads while at most `n` bytes are absorbed. -/
def readingsUpTo (nowMs : Nat) : (n : Nat) → Sign S D → List Reading
  | 0, _ => []
  | n + 1, s =>
    s.reading?.toList ++
      match s.pull with
      | (.byte b, s') => readingsUpTo nowMs n (s'.absorb nowMs {} b).2
      | _ => []

/-- The sign as a poll begins, with nothing taken yet. -/
def atPoll (s : Sign S D) : Sign S D := { s with budget := s.bytesPerPoll, polledBytes := 0 }

/-- The reads of one poll. -/
def readingsOfPoll (s : Sign S D) (now : Nat) : List Reading :=
  readingsUpTo (now / 1000000) s.atPoll.reserve s.atPoll

/-- The reads of polls at the given times. -/
def readings [Display D ε] (s : Sign S D) : List Nat → List Reading
  | [] => []
  | now :: rest => s.readingsOfPoll now ++ (s.poll now).2.readings rest

end

/-! ### The balance -/

/-- The tally of a sign is `full` up to its caps, and `full` balances with the reads in the log and
the bytes that wait. -/
structure Accounted (log : List Reading) (waiting : List UInt8) (full : LinkTally) (s : Sign S D) :
    Prop where
  /-- No count is off but by its cap. -/
  tally : s.tally = full.capped
  /-- All bytes are counted. -/
  received : full.bytesReceived = (taken log).length
  /-- All reads that failed are counted. -/
  failed : full.transportFaults = log.count none
  /-- Each start has ended, or is that of the frame under way, or waits. -/
  starts : (taken log).count Grammar.opener =
    full.ended + s.framer.inFrame.toNat + waiting.count Grammar.opener

variable {log : List Reading} {waiting : List UInt8} {full : LinkTally} {s s' : Sign S D}

/-- To absorb a byte moves its start from those that wait to the framer, and there may end another. -/
theorem Accounted.absorb {b : UInt8} (h : Accounted log (b :: waiting) full s) (nowMs : Nat)
    (report : Report) :
    ∃ full', Accounted log waiting full' (s.absorb nowMs report b).2 := by
  obtain ⟨full', htally, hends⟩ := takeReply_capped s.stage full (s.framer.feed nowMs b).1
  have hbalance := s.framer.starts_feed nowMs b
  have hstarts := h.starts
  rw [absorb_eq]
  refine ⟨full', ?_, ?_, ?_, ?_⟩
  · rw [← htally, ← h.tally]
  · rw [hends.bytesReceived, h.received]
  · rw [hends.transportFaults, h.failed]
  · rw [← List.singleton_append, List.count_append] at hstarts
    rw [hstarts, hends.ended]
    simp only
    omega

/-- A frame that is given up for its age ends the start that was under way. -/
theorem Accounted.checkTimeout (h : Accounted log waiting full s) (nowMs : Nat) (report : Report) :
    ∃ full', Accounted log waiting full' (s.checkTimeout nowMs report).2 ∧
      (s.checkTimeout nowMs report).2.pending = s.pending := by
  have hbalance := s.framer.starts_checkTimeout nowMs
  have hstarts := h.starts
  unfold Sign.checkTimeout
  generalize s.framer.checkTimeout nowMs = r at hbalance ⊢
  obtain ⟨fault, framer⟩ := r
  cases fault with
  | none => exact ⟨full, h, rfl⟩
  | some e =>
    obtain ⟨full', htally, hends⟩ := full.noteFault_capped (e := .frame e) nofun
    refine ⟨full', ⟨?_, ?_, ?_, ?_⟩, rfl⟩
    · rw [← htally, ← h.tally]
      rfl
    · rw [hends.bytesReceived, h.received]
    · rw [hends.transportFaults, h.failed]
    · simp only [Option.toList_some, List.length_singleton] at hbalance
      rw [hstarts, hends.ended, hbalance]
      simp only [noteFault]
      omega

variable [Source S]

/-- Bytes that a read takes are counted, and wait. -/
theorem Accounted.pull_byte (h : Accounted log s.pending full s) {b : UInt8}
    (hp : Pulls s (.byte b) s') :
    ∃ full', Accounted (log ++ s.reading?.toList) (b :: s'.pending) full' s' := by
  cases hp with
  | @pending _ rest waiting =>
    have hnone : s.reading? = none := by simp [reading?, waiting]
    rw [hnone, Option.toList_none, List.append_nil]
    exact ⟨full, h.tally, h.received, h.failed, waiting ▸ h.starts⟩
  | @filled n _ rest idle left claim given =>
    have hsome : s.reading? = some (some (b :: rest)) := by
      simp [reading?, idle, left, claim, given]
    have htaken : taken (log ++ s.reading?.toList) = taken log ++ (b :: rest) := by simp [hsome]
    have hstarts := h.starts
    rw [idle, List.count_nil, Nat.add_zero] at hstarts
    refine ⟨{ full with bytesReceived := full.bytesReceived + (rest.length + 1) }, ?_, ?_, ?_, ?_⟩
    · simp only [LinkTally.noteBytes, h.tally, LinkTally.capped, LinkTally.add_min]
    · rw [htaken, List.length_append, List.length_cons, ← h.received]
    · rw [hsome, List.count_append, ← h.failed]
      simp
    · rw [htaken, List.count_append, hstarts]
      rfl

theorem Accounted.pull_nothing (h : Accounted log s.pending full s) (hp : Pulls s .nothing s') :
    Accounted (log ++ s.reading?.toList) [] full s' ∧ s'.pending = [] := by
  have hstarts := h.starts
  cases hp with
  | spent idle spent =>
    have hnone : s.reading? = none := by simp [reading?, spent]
    rw [hnone, Option.toList_none, List.append_nil]
    exact ⟨⟨h.tally, h.received, h.failed, idle ▸ hstarts⟩, idle⟩
  | @silent n idle left claim empty =>
    have hsome : s.reading? = some (some []) := by simp [reading?, idle, left, claim, empty]
    have htaken : taken (log ++ s.reading?.toList) = taken log := by simp [hsome]
    rw [idle] at hstarts
    refine ⟨⟨h.tally, ?_, ?_, ?_⟩, idle⟩
    · rw [htaken, h.received]
    · rw [hsome, List.count_append, ← h.failed]
      simp
    · rw [htaken, hstarts]
      rfl

/-- A read that fails is counted, and takes nothing. -/
theorem Accounted.pull_failed (h : Accounted log s.pending full s) (hp : Pulls s .failed s')
    (report : Report) :
    ∃ full', Accounted (log ++ s.reading?.toList) [] full' (s'.noteFault report .transport).2 ∧
      (s'.noteFault report .transport).2.pending = [] := by
  have hstarts := h.starts
  cases hp with
  | failed idle left claim =>
    have hsome : s.reading? = some none := by simp [reading?, idle, left, claim]
    have htaken : taken (log ++ s.reading?.toList) = taken log := by simp [hsome]
    rw [idle] at hstarts
    refine ⟨{ full with transportFaults := full.transportFaults + 1 }, ⟨?_, ?_, ?_, ?_⟩, idle⟩
    · simp only [noteFault, LinkTally.noteFault, reread, h.tally, LinkTally.capped, LinkTally.add_min]
    · rw [htaken, h.received]
    · rw [hsome, List.count_append, ← h.failed]
      simp
    · rw [htaken, hstarts]
      rfl

/-! ### Polls -/

/-- **All bytes of one poll.** -/
theorem accounted_absorbUpTo (nowMs n : Nat) (report : Report)
    (h : Accounted log s.pending full s) (hn : s.reserve ≤ n) :
    ∃ full', Accounted (log ++ readingsUpTo nowMs n s) [] full' (absorbUpTo nowMs n report s).2 ∧
      (absorbUpTo nowMs n report s).2.pending = [] := by
  -- on the bytes that this poll can still take; each that it takes is one less
  induction n generalizing log full report s with
  | zero =>
    have hpending : s.pending = [] := by
      rw [Sign.reserve] at hn
      exact List.eq_nil_of_length_eq_zero (by omega)
    rw [readingsUpTo, List.append_nil]
    exact ⟨full, hpending ▸ h, hpending⟩
  | succ n ih =>
    have hp := s.pulls_pull
    rw [absorbUpTo, readingsUpTo, ← List.append_assoc]
    generalize s.pull = r at hp ⊢
    obtain ⟨p, s'⟩ := r
    cases p with
    | nothing =>
      obtain ⟨h', hpending⟩ := h.pull_nothing hp
      exact ⟨full, (List.append_nil _).symm ▸ h', hpending⟩
    | failed =>
      obtain ⟨full', h', hpending⟩ := h.pull_failed hp report
      exact ⟨full', (List.append_nil _).symm ▸ h', hpending⟩
    | byte b =>
      obtain ⟨full₁, h₁⟩ := h.pull_byte hp
      obtain ⟨full₂, h₂⟩ := h₁.absorb nowMs report
      have hreserve : (s'.absorb nowMs report b).2.reserve + 1 = s.reserve :=
        hp.reserve_absorb nowMs report
      have h₃ : Accounted (log ++ s.reading?.toList) (s'.absorb nowMs report b).2.pending full₂
          (s'.absorb nowMs report b).2 := (s'.pending_absorb nowMs report b).symm ▸ h₂
      simp only [s'.absorb_report nowMs {} report]
      exact ih _ h₃ (by omega)

/-- **One poll** feeds all bytes that it takes. -/
theorem accounted_poll [Display D ε] (now : Nat) (h : Accounted log s.pending full s) :
    ∃ full', Accounted (log ++ s.readingsOfPoll now) [] full' (s.poll now).2 ∧
      (s.poll now).2.pending = [] := by
  have h₀ : Accounted log s.atPoll.pending full s.atPoll :=
    ⟨h.tally, h.received, h.failed, h.starts⟩
  obtain ⟨full₁, h₁, hidle⟩ :=
    accounted_absorbUpTo (now / 1000000) s.atPoll.reserve {} h₀ (Nat.le_refl _)
  obtain ⟨full₂, h₂, hpending⟩ := h₁.checkTimeout (now / 1000000) (s.intake (now / 1000000)).1
  obtain ⟨report, display, hpoll⟩ := s.snd_poll now
  -- what is left of the poll plays the timeline and shows the scene
  rw [hpoll]
  exact ⟨full₂, ⟨h₂.tally, h₂.received, h₂.failed, h₂.starts⟩, hpending.trans hidle⟩

/-- **Many polls.** -/
theorem accounted_polls [Display D ε] (times : List Nat) (h : Accounted log [] full s)
    (idle : s.pending = []) :
    ∃ full', Accounted (log ++ s.readings times) [] full' (s.polls times) := by
  induction times generalizing log full s with
  | nil =>
    rw [readings, List.append_nil]
    exact ⟨full, h⟩
  | cons now rest ih =>
    obtain ⟨full', h', idle'⟩ := accounted_poll now (idle.symm ▸ h)
    rw [readings, ← List.append_assoc]
    exact ih h' idle'

/-- **Every start of a frame is accounted for.** Behind any polls of a new sign, whatever its link and
its display do, the `<` among the bytes that were taken are as many as the frames that were applied or
rejected, and the one under way. Bytes and failed reads are counted up to the caps; while the count of
bytes is below its cap, so are those of frames. -/
theorem starts_accounted [Display D ε] (settings : Settings) (source : S) (display : D)
    (times : List Nat) :
    let s := (new settings source display).polls times
    let log := (new settings source display).readings times
    s.tally.bytesReceived = min (taken log).length Counter.cap32 ∧
      s.tally.transportFaults = min (log.count none) Counter.cap32 ∧
      ((taken log).length ≤ Counter.cap32 →
        (taken log).count Grammar.opener =
          s.tally.framesApplied + s.tally.rejected + (if s.framer.inFrame then 1 else 0)) := by
  intro s log
  have h₀ : Accounted [] [] {} (new settings source display) := ⟨rfl, rfl, rfl, rfl⟩
  obtain ⟨full, h⟩ := accounted_polls times h₀ rfl
  rw [List.nil_append] at h
  refine ⟨?_, ?_, ?_⟩
  · rw [← h.received]
    exact congrArg LinkTally.bytesReceived h.tally
  · rw [← h.failed]
    exact congrArg LinkTally.transportFaults h.tally
  · intro hroom
    have hstarts : (taken log).count Grammar.opener = full.ended + s.framer.inFrame.toNat := by
      simpa using h.starts
    have hended : full.ended ≤ Counter.cap32 := by
      have := List.count_le_length (a := Grammar.opener) (l := taken log)
      omega
    rw [hstarts, LinkTally.ended_eq_of_le hended, ← h.tally]
    cases s.framer.inFrame <;> rfl

/-- The first read fails and the second claims two bytes too many, so that two old ones are taken. Of
the four frames one is interrupted, one is no command, one is applied, and one is under way. -/
theorem starts_accounted_of_unsteady_link :
    let bytes : List UInt8 := [63, 60, 80, 60, 67, 62, 60, 90, 62, 60, 67]
    let settings : Settings := { link := { frameTimeoutMs := 5, maxBytesPerPoll := 6 } }
    let panel : Screen MemoryPanel := ⟨.new 1 1, 1, 1, 0, #[0], true, 0⟩
    let source : ByteQueue := ⟨bytes, 4, true, 2⟩
    let times := [0, 1000000, 2000000, 3000000]
    let s := (new settings source panel).polls times
    let log := (new settings source panel).readings times
    log.count none = 1 ∧ (taken log).length = 13 ∧ s.framer.inFrame = true ∧
      (taken log).count Grammar.opener = s.tally.framesApplied + s.tally.rejected + 1 := by
  intro bytes settings panel source times
  obtain ⟨-, -, hstarts⟩ := starts_accounted settings source panel times
  have hlength : (taken ((new settings source panel).readings times)).length = 13 := by
    decide +kernel
  have hopen : ((new settings source panel).polls times).framer.inFrame = true := by
    decide +kernel
  rw [hlength, if_pos hopen] at hstarts
  exact ⟨by decide +kernel, hlength, hopen, hstarts (by rw [Counter.cap32]; omega)⟩

end Sign

end Marquee
