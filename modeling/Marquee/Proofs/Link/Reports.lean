import Marquee.Proofs.Link.Accounting
import Marquee.Proofs.Link.Entries
import Marquee.Proofs.Link.Loops
import Marquee.Proofs.Wire.Timed

/-!
# What a poll reports

A poll takes bytes, gives up an overdue frame, and reports what came of both. This file says what there is
to report, from the bytes that were taken alone, and that nothing of it is lost.

* `Sign.verdicts` : what events come to on a stage, one after another.
* `Sign.entriesOfPoll` : all that there is to report in a poll, in order.
* `Sign.Absorbs` : the bytes of a poll one by one, with the log of its reads and with what there is to
  report of them. What is reported is said by the log (`Sign.Absorbs.entries_eq`), and what is counted by
  both (`Sign.Absorbs.counts`).
* `Sign.Settles` : a poll up to the timeline.
* `Sign.poll_reports_everything` : **a poll ends within its budget, and reports just its entries**.
-/

namespace Marquee

open Wire

namespace Sign

variable {S D ε : Type}

/-! ### What there is to report -/

/-- What an event comes to on a stage, and the stage behind it. -/
def verdict (stage : Stage) : FrameEvent → Entry × Stage
  | .ok f => stage.applyFrame f
  | .error e => (.error (.frame e), stage)

/-- What events come to, one after another, and the stage behind them. -/
def verdicts (stage : Stage) : List FrameEvent → List Entry × Stage
  | [] => ([], stage)
  | e :: rest =>
    let (entry, stage) := verdict stage e
    let (entries, stage) := verdicts stage rest
    (entry :: entries, stage)

theorem verdicts_append (stage : Stage) (events later : List FrameEvent) :
    verdicts stage (events ++ later) =
      ((verdicts stage events).1 ++ (verdicts (verdicts stage events).2 later).1,
        (verdicts (verdicts stage events).2 later).2) := by
  induction events generalizing stage with
  | nil => rfl
  | cons e rest ih => simp only [List.cons_append, verdicts, ih]

theorem length_verdicts (stage : Stage) (events : List FrameEvent) :
    (verdicts stage events).1.length = events.length := by
  induction events generalizing stage with
  | nil => rfl
  | cons e rest ih => exact congrArg (· + 1) (ih _)

/-- **To absorb a byte is to report and to count what the framer tells of it.** -/
theorem absorb_eq_verdicts (s : Sign S D) (nowMs : Nat) (report : Report) (b : UInt8) :
    s.absorb nowMs report b =
      let told := (s.framer.feed nowMs b).1.toList
      ((verdicts s.stage told).1.foldl Report.note report,
        { s with
          framer := (s.framer.feed nowMs b).2
          stage := (verdicts s.stage told).2
          tally := (verdicts s.stage told).1.foldl LinkTally.note s.tally }) := by
  unfold absorb Sign.feed
  generalize s.framer.feed nowMs b = r
  obtain ⟨_ | e | f, framer⟩ := r
  · rfl
  · rfl
  · simp only [applyFrame, Option.toList_some, verdicts, verdict]
    generalize s.stage.applyFrame f = a
    obtain ⟨_ | _, stage⟩ := a <;> rfl

/-- What there is to report if the framer looks at the clock. -/
def lateEntries (framer : Framer) (nowMs : Nat) : List Entry :=
  (framer.checkTimeout nowMs).1.toList.map fun e => .error (.frame e)

theorem checkTimeout_eq_entries (s : Sign S D) (nowMs : Nat) (report : Report) :
    s.checkTimeout nowMs report =
      ((lateEntries s.framer nowMs).foldl Report.note report,
        { s with
          framer := (s.framer.checkTimeout nowMs).2
          tally := (lateEntries s.framer nowMs).foldl LinkTally.note s.tally }) := by
  have checked := s.framer.checked_checkTimeout nowMs
  unfold checkTimeout lateEntries
  generalize s.framer.checkTimeout nowMs = r at checked ⊢
  obtain ⟨told, framer⟩ := r
  cases checked <;> rfl

section

variable [Source S] {s s' t : Sign S D} {nowMs : Nat} {log : List Reading} {entries : List Entry}

/-- The bytes that a poll takes, with the time at which they are fed. -/
def arrivalsOfPoll (s : Sign S D) (now : Nat) : List (Nat × UInt8) :=
  (taken (s.readingsOfPoll now)).map (now / 1000000, ·)

/-- All that there is to report in a poll, in order: what the framer tells of the bytes that are taken,
the read that fails, if one does, and the frame that is overdue, if one is. -/
def entriesOfPoll (s : Sign S D) (now : Nat) : List Entry :=
  (verdicts s.stage (Framer.eventsOf (s.framer.replies (s.arrivalsOfPoll now)))).1 ++
    List.replicate ((s.readingsOfPoll now).count none) (.error .transport) ++
    lateEntries (s.framer.after (s.arrivalsOfPoll now)) (now / 1000000)

/-! ### Taking bytes -/

theorem reading?_of_waiting {b : UInt8} {rest : List UInt8} (h : s.pending = b :: rest) :
    s.reading? = none := by
  simp [reading?, h]

theorem reading?_of_spent (h : s.budget = 0) : s.reading? = none := by simp [reading?, h]

theorem reading?_of_idle (idle : s.pending = []) (left : s.budget ≠ 0) :
    s.reading? =
      some (s.delivery.1.claimed.map fun n => s.reread.buffer.take (min n s.budget)) :=
  if_pos ⟨idle, left⟩

/-- Bytes were taken, and only counted so far. -/
structure Counts (s s' : Sign S D) (bytes : Nat) : Prop where
  framer : s'.framer = s.framer
  stage : s'.stage = s.stage
  bytesPerPoll : s'.bytesPerPoll = s.bytesPerPoll
  budget : s'.budget + bytes = s.budget
  polledBytes : s.polledBytes + s.budget ≤ Counter.cap32 → s'.polledBytes = s.polledBytes + bytes
  tally : s.tally.Grows bytes 0 s'.tally

theorem Pulls.counts {p : Pulled} (h : Pulls s p s') :
    Counts s s' (taken s.reading?.toList).length := by
  cases h with
  | pending waiting =>
    rw [reading?_of_waiting waiting]
    exact ⟨rfl, rfl, rfl, rfl, fun _ => rfl, .refl _⟩
  | spent idle spent =>
    rw [reading?_of_spent spent]
    exact ⟨rfl, rfl, rfl, rfl, fun _ => rfl, .refl _⟩
  | failed idle left claim =>
    rw [reading?_of_idle idle left, claim]
    exact ⟨rfl, rfl, rfl, rfl, fun _ => rfl, .refl _⟩
  | @silent n idle left claim empty =>
    rw [reading?_of_idle idle left, claim, Option.map_some, empty]
    exact ⟨rfl, rfl, rfl, rfl, fun _ => rfl, .refl _⟩
  | @filled n b rest idle left claim given =>
    have htaken : (taken s.reading?.toList).length = rest.length + 1 := by
      rw [reading?_of_idle idle left, claim, Option.map_some, given]
      simp [taken]
    have hfits : rest.length + 1 ≤ s.budget := by
      have := congrArg List.length given
      rw [List.length_take, List.length_cons] at this
      omega
    rw [htaken]
    exact ⟨rfl, rfl, rfl, Nat.sub_add_cancel hfits,
      fun hroom => Counter.addUpTo_of_le (by omega), s.tally.grows_noteBytes _⟩

/-- The bytes that wait behind a byte that was taken are those behind it in the log. -/
theorem Pulls.taken_byte {b : UInt8} (h : Pulls s (.byte b) s') :
    s.pending ++ taken s.reading?.toList = b :: s'.pending ∧ s.reading?.toList.count none = 0 := by
  cases h with
  | pending waiting =>
    simp [reading?_of_waiting waiting, waiting, taken]
  | @filled n _ rest idle left claim given =>
    simp [reading?_of_idle idle left, claim, given, idle, taken]

/-- Where there is no byte to take, none waits. -/
theorem Pulls.taken_nothing (h : Pulls s .nothing s') :
    s'.pending = [] ∧ s.pending ++ taken s.reading?.toList = [] ∧ s.reading?.toList.count none = 0 := by
  cases h with
  | spent idle spent =>
    simp [reading?_of_spent spent, idle, taken]
  | @silent n idle left claim empty =>
    have hpending : s.reread.pending = [] := idle
    simp [reading?_of_idle idle left, claim, empty, idle, hpending, taken]

theorem Pulls.taken_failed (h : Pulls s .failed s') :
    s'.pending = [] ∧ s.pending ++ taken s.reading?.toList = [] ∧ s.reading?.toList.count none = 1 := by
  cases h with
  | failed idle left claim =>
    have hpending : s.reread.pending = [] := idle
    simp [reading?_of_idle idle left, claim, idle, hpending, taken]

/-! ### Absorbing them -/

/-- Bytes are taken and absorbed until there are no more: with the log of the reads, and with all that
there is to report. -/
inductive Absorbs (nowMs : Nat) : Sign S D → List Reading → List Entry → Sign S D → Prop where
  /-- There is nothing to take. -/
  | nothing {s s' : Sign S D} (taking : Pulls s .nothing s') :
      Absorbs nowMs s s.reading?.toList [] s'
  /-- The link fails. -/
  | failed {s s' : Sign S D} (taking : Pulls s .failed s') :
      Absorbs nowMs s s.reading?.toList [.error .transport] (s'.noteFault {} .transport).2
  /-- A byte is absorbed; on to the next one. -/
  | byte {s s' t : Sign S D} {b : UInt8} {log : List Reading} {entries : List Entry}
      (taking : Pulls s (.byte b) s') (later : Absorbs nowMs (s'.absorb nowMs {} b).2 log entries t) :
      Absorbs nowMs s (s.reading?.toList ++ log)
        ((verdicts s'.stage (s'.framer.feed nowMs b).1.toList).1 ++ entries) t

theorem absorbs_absorbUpTo {n : Nat} (report : Report) (hn : s.reserve ≤ n) :
    ∃ entries, Absorbs nowMs s (readingsUpTo nowMs n s) entries (absorbUpTo nowMs n report s).2 ∧
      (absorbUpTo nowMs n report s).1 = entries.foldl Report.note report := by
  -- on the bytes that can still be absorbed; the report grows, and the sign does not depend on it
  induction n generalizing s report with
  | zero =>
    rw [Sign.reserve, Nat.le_zero, Nat.add_eq_zero_iff, List.length_eq_zero_iff] at hn
    have h : Absorbs nowMs s s.reading?.toList [] s := .nothing (.spent hn.2 hn.1)
    rw [reading?_of_spent hn.1] at h
    exact ⟨[], h, rfl⟩
  | succ n ih =>
    have hp := s.pulls_pull
    rw [absorbUpTo, readingsUpTo]
    generalize s.pull = r at hp ⊢
    obtain ⟨p, s'⟩ := r
    cases p with
    | nothing => exact ⟨[], (List.append_nil _).symm ▸ .nothing hp, rfl⟩
    | failed => exact ⟨[.error .transport], (List.append_nil _).symm ▸ .failed hp, rfl⟩
    | byte b =>
      have hreserve : (s'.absorb nowMs report b).2.reserve + 1 = s.reserve :=
        hp.reserve_absorb nowMs report
      obtain ⟨entries, later, hreport⟩ :=
        ih (s := (s'.absorb nowMs report b).2) (s'.absorb nowMs report b).1 (by omega)
      rw [s'.absorb_report nowMs report {}] at later
      refine ⟨(verdicts s'.stage (s'.framer.feed nowMs b).1.toList).1 ++ entries, ?_, hreport.trans ?_⟩
      · change Absorbs nowMs s _ _
          (absorbUpTo nowMs n (s'.absorb nowMs report b).1 (s'.absorb nowMs report b).2).2
        rw [s'.absorb_report nowMs report {}]
        exact .byte hp later
      · rw [List.foldl_append, absorb_eq_verdicts]

/-- **What is reported comes from the bytes that were taken alone**, and all of them are fed. -/
theorem Absorbs.entries_eq (h : Absorbs nowMs s log entries t) :
    let arrivals := (s.pending ++ taken log).map (nowMs, ·)
    t.pending = [] ∧ t.framer = s.framer.after arrivals ∧
      entries = (verdicts s.stage (Framer.eventsOf (s.framer.replies arrivals))).1 ++
        List.replicate (log.count none) (.error .transport) := by
  induction h with
  | nothing taking =>
    obtain ⟨hpending, htaken, hcount⟩ := taking.taken_nothing
    rw [htaken, hcount]
    exact ⟨hpending, taking.counts.framer, rfl⟩
  | failed taking =>
    obtain ⟨hpending, htaken, hcount⟩ := taking.taken_failed
    rw [htaken, hcount]
    exact ⟨hpending, taking.counts.framer, rfl⟩
  | @byte s s' t b log entries taking later ih =>
    obtain ⟨htaken, hcount⟩ := taking.taken_byte
    obtain ⟨hpending, hframer, hentries⟩ := ih
    have hlog : s.pending ++ taken (s.reading?.toList ++ log) = b :: (s'.pending ++ taken log) := by
      rw [taken, List.flatMap_append, ← List.append_assoc]
      exact congrArg (· ++ taken log) htaken
    rw [hlog, List.count_append, hcount, Nat.zero_add, ← taking.counts.framer, ← taking.counts.stage]
    rw [absorb_eq_verdicts] at hframer hentries
    refine ⟨hpending, hframer, ?_⟩
    rw [List.map_cons, Framer.replies, Framer.eventsOf_cons, verdicts_append, List.append_assoc]
    exact congrArg _ hentries

/-- What was taken and reported is counted, and is within the budget. -/
theorem Absorbs.counts (h : Absorbs nowMs s log entries t) :
    t.bytesPerPoll = s.bytesPerPoll ∧ t.budget + (taken log).length = s.budget ∧
      log.count none ≤ 1 ∧
      (s.polledBytes + s.budget ≤ Counter.cap32 → t.polledBytes = s.polledBytes + (taken log).length) ∧
      s.tally.Grows (taken log).length entries.length t.tally := by
  induction h with
  | nothing taking =>
    have hcounts := taking.counts
    exact ⟨hcounts.bytesPerPoll, hcounts.budget, by simp [taking.taken_nothing.2.2], hcounts.polledBytes,
      hcounts.tally⟩
  | failed taking =>
    have hcounts := taking.counts
    exact ⟨hcounts.bytesPerPoll, hcounts.budget, by simp [taking.taken_failed.2.2], hcounts.polledBytes,
      hcounts.tally.trans (LinkTally.grows_note _ (.error .transport))⟩
  | @byte s s' t b log entries taking later ih =>
    have hcounts := taking.counts
    have hcount := taking.taken_byte.2
    rw [absorb_eq_verdicts] at ih
    obtain ⟨hbytesPerPoll, hbudget, hfailed, hpolled, htally⟩ := ih
    simp only at hbytesPerPoll hbudget hpolled htally
    have hlength : (taken (s.reading?.toList ++ log)).length =
        (taken s.reading?.toList).length + (taken log).length := by
      rw [taken, List.flatMap_append, List.length_append]
      rfl
    have hbudget' := hcounts.budget
    rw [hlength]
    refine ⟨hbytesPerPoll.trans hcounts.bytesPerPoll, by omega, ?_, fun hroom => ?_, ?_⟩
    · rw [List.count_append, hcount, Nat.zero_add]
      exact hfailed
    · have hpolled' := hcounts.polledBytes hroom
      have := hpolled (by omega)
      omega
    · rw [List.length_append]
      simpa only [Nat.zero_add] using
        hcounts.tally.trans ((s'.tally.grows_foldl _).trans htally)

/-! ### Polls -/

/-- A poll up to the timeline: what was reported so far, and the sign. -/
def settle (s : Sign S D) (now : Nat) : Report × Sign S D :=
  (s.intake (now / 1000000)).2.checkTimeout (now / 1000000) (s.intake (now / 1000000)).1

/-- What happens in a poll up to the timeline. -/
structure Settles (s : Sign S D) (now : Nat) (r : Report × Sign S D) : Prop where
  /-- All bytes are fed. -/
  pending : r.2.pending = []
  framer : r.2.framer = ((s.framer.after (s.arrivalsOfPoll now)).checkTimeout (now / 1000000)).2
  /-- All entries are noted. -/
  report : r.1 = (s.entriesOfPoll now).foldl Report.note {}
  bytesPerPoll : r.2.bytesPerPoll = s.bytesPerPoll
  /-- Bytes are taken from the budget alone. -/
  budget : (taken (s.readingsOfPoll now)).length ≤ s.bytesPerPoll
  /-- The first read that fails is the last one. -/
  failed : (s.readingsOfPoll now).count none ≤ 1
  polledBytes : s.bytesPerPoll ≤ Counter.cap32 →
    r.2.polledBytes = (taken (s.readingsOfPoll now)).length
  tally : s.tally.Grows (taken (s.readingsOfPoll now)).length (s.entriesOfPoll now).length r.2.tally

theorem settles (s : Sign S D) (idle : s.pending = []) (now : Nat) : Settles s now (s.settle now) := by
  obtain ⟨entries, absorbs, hreport⟩ : ∃ entries,
      Absorbs (now / 1000000) s.atPoll (s.readingsOfPoll now) entries (s.intake (now / 1000000)).2 ∧
        (s.intake (now / 1000000)).1 = entries.foldl Report.note {} :=
    absorbs_absorbUpTo {} (Nat.le_refl _)
  have harrivals : (s.atPoll.pending ++ taken (s.readingsOfPoll now)).map (now / 1000000, ·) =
      s.arrivalsOfPoll now := by
    rw [show s.atPoll.pending = [] from idle, List.nil_append, arrivalsOfPoll]
  obtain ⟨hpending, hframer, hentries⟩ := absorbs.entries_eq
  obtain ⟨hbytesPerPoll, hbudget, hfailed, hpolled, htally⟩ := absorbs.counts
  rw [harrivals] at hframer hentries
  have hall : s.entriesOfPoll now =
      entries ++ lateEntries (s.intake (now / 1000000)).2.framer (now / 1000000) := by
    rw [hentries, hframer]
    rfl
  rw [settle, checkTimeout_eq_entries]
  refine
    { pending := hpending
      framer := by rw [hframer]; rfl
      report := by rw [hall, List.foldl_append, ← hreport]
      bytesPerPoll := hbytesPerPoll
      budget := Nat.le.intro ((Nat.add_comm _ _).trans hbudget)
      failed := hfailed
      polledBytes := fun hroom => ?_
      tally := ?_ }
  · exact (hpolled ((Nat.zero_add s.bytesPerPoll).symm ▸ hroom)).trans (Nat.zero_add _)
  · rw [hall, List.length_append]
    exact htally.trans (LinkTally.grows_foldl _ _)

/-- No byte has more than one entry, and only two entries come from elsewhere. -/
theorem length_entriesOfPoll_le (s : Sign S D) (now : Nat)
    (failed : (s.readingsOfPoll now).count none ≤ 1) :
    (s.entriesOfPoll now).length ≤ (taken (s.readingsOfPoll now)).length + 2 := by
  have htaken : (s.arrivalsOfPoll now).length = (taken (s.readingsOfPoll now)).length := by
    rw [arrivalsOfPoll, List.length_map]
  have hevents : (Framer.eventsOf (s.framer.replies (s.arrivalsOfPoll now))).length ≤
      (s.arrivalsOfPoll now).length :=
    Framer.length_replies s.framer (s.arrivalsOfPoll now) ▸ List.length_filterMap_le ..
  have hlate : (lateEntries (s.framer.after (s.arrivalsOfPoll now)) (now / 1000000)).length ≤ 1 := by
    rw [lateEntries, List.length_map]
    exact Option.length_toList_le
  rw [entriesOfPoll, List.length_append, List.length_append, length_verdicts, List.length_replicate]
  omega

/-- Behind any polls no byte waits, and the budget of a poll is the same. -/
theorem idle_polls [Display D ε] (times : List Nat) (idle : s.pending = []) :
    (s.polls times).pending = [] ∧ (s.polls times).bytesPerPoll = s.bytesPerPoll := by
  induction times generalizing s with
  | nil => exact ⟨idle, rfl⟩
  | cons now rest ih =>
    have settled := s.settles idle now
    obtain ⟨report, display, hpoll⟩ := s.snd_poll now
    rw [polls]
    obtain ⟨hpending, hbytesPerPoll⟩ := ih (s := (s.poll now).2) (by rw [hpoll]; exact settled.pending)
    refine ⟨hpending, hbytesPerPoll.trans ?_⟩
    rw [hpoll]
    exact settled.bytesPerPoll

/-- What a poll reports, if it does. -/
theorem poll_eq_ok [Display D ε] {s : Sign S D} {now : Nat} {report : Report}
    (h : (s.poll now).1 = .ok report) :
    ∃ cue, report =
      { (s.settle now).1 with bytesRead := (s.settle now).2.polledBytes, cue := cue } := by
  unfold poll at h
  simp only at h
  split at h
  · exact ⟨_, (Except.ok.inj h).symm⟩
  · cases h

/-- **A poll ends within its budget, and reports everything.** Behind any polls of a new sign, whatever
its link and its display do, and at any time,

* the loops of a poll end, with what the poll takes in;
* no more bytes are taken than the settings allow (one, if they allow none), and all of them are fed to
  the framer;
* a report keeps the first outcomes and faults of all that there was to report, in order, and counts the
  others, of which a 16-bit count can hold more than there can be. If no count of the tally stands at its
  cap, it has grown by the bytes and by the entries of the report. -/
theorem poll_reports_everything [Display D ε] (settings : Settings) (source : S) (display : D)
    (times : List Nat) (now : Nat) :
    let s := (new settings source display).polls times
    let s' := (s.poll now).2
    let bytes := taken (s.readingsOfPoll now)
    let entries := s.entriesOfPoll now
    (∀ out, Drains (now / 1000000) s.atPoll {} out ↔ s.intake (now / 1000000) = out) ∧
      bytes.length ≤ max 1 settings.link.maxBytesPerPoll.toNat ∧
      s'.pending = [] ∧
      s'.framer =
        ((s.framer.after (bytes.map (now / 1000000, ·))).checkTimeout (now / 1000000)).2 ∧
      ∀ report, (s.poll now).1 = .ok report →
        report.applied = (Entry.outcomes entries).take 8 ∧
        report.faults = (Entry.faults entries).take 8 ∧
        report.applied.length + report.faults.length + report.overflowed = entries.length ∧
        report.overflowed < Counter.cap16 ∧
        report.bytesRead = bytes.length ∧
        (s'.tally.Unsaturated →
          s'.tally.bytesReceived = s.tally.bytesReceived + report.bytesRead ∧
          s'.tally.noted = s.tally.noted +
            (report.applied.length + report.faults.length + report.overflowed)) := by
  intro s s' bytes entries
  obtain ⟨idle, hbytesPerPoll⟩ := idle_polls (s := new settings source display) times rfl
  have settled := s.settles idle now
  have hlimit : s.bytesPerPoll = max 1 settings.link.maxBytesPerPoll.toNat :=
    hbytesPerPoll.trans (Nat.max_comm ..)
  have hbudget : bytes.length ≤ max 1 settings.link.maxBytesPerPoll.toNat :=
    hlimit ▸ settled.budget
  have hmax : max 1 settings.link.maxBytesPerPoll.toNat ≤ Counter.cap16 :=
    Nat.max_le.2 ⟨by decide, Nat.le_of_lt_succ settings.link.maxBytesPerPoll.toNat_lt⟩
  obtain ⟨_, _, hpoll⟩ := s.snd_poll now
  rw [← settle] at hpoll
  refine ⟨fun out => drains_iff, hbudget, ?_, ?_, fun report hreport => ?_⟩
  · exact (congrArg pending hpoll).trans settled.pending
  · exact (congrArg framer hpoll).trans settled.framer
  have keeps : Report.Keeps entries (s.settle now).1 := settled.report ▸ Report.keeps_foldl entries
  have hfew : entries.length ≤ bytes.length + 2 := s.length_entriesOfPoll_le now settled.failed
  obtain ⟨hsum, hoverflowed⟩ := keeps.complete
    (by simp only [Counter.cap16, Report.maxKept] at hmax ⊢; omega)
  obtain ⟨cue, rfl⟩ := poll_eq_ok hreport
  have hpolled := settled.polledBytes (by simp only [Counter.cap16, Counter.cap32] at hmax ⊢; omega)
  refine ⟨keeps.applied, keeps.faults, hsum, hoverflowed, hpolled, fun hroom => ?_⟩
  have htally : s'.tally = (s.settle now).2.tally := (congrArg Sign.tally hpoll).trans rfl
  rw [htally] at hroom ⊢
  obtain ⟨-, hreceived, hnoted⟩ := settled.tally hroom
  exact ⟨hreceived.trans (congrArg _ hpolled.symm), hnoted.trans (congrArg _ hsum.symm)⟩

end

theorem exists_of_isOk {ε α : Type} {x : Except ε α} (h : x.isOk = true) : ∃ a, x = .ok a := by
  cases x with
  | error e => cases h
  | ok a => exact ⟨a, rfl⟩

/-- The first poll finds that the link fails. In the second the link claims two bytes too many; nine
frames are interrupted, of which one is not kept, and one is carried out. -/
theorem poll_reports_everything_of_many_frames :
    let settings : Settings := { link := { maxBytesPerPoll := 20 } }
    let panel : Screen MemoryPanel := ⟨.new 1 1, 1, 1, 0, #[0], true, 0⟩
    let source : ByteQueue := ⟨List.replicate 10 60 ++ [90, 62], 0, true, 2⟩
    let s := (new settings source panel).polls [0]
    let s' := (s.poll 1000000).2
    s.tally.transportFaults = 1 ∧ s'.tally.Unsaturated ∧
      Drains (1000000 / 1000000) s.atPoll {} (s.intake (1000000 / 1000000)) ∧
      ∃ report, (s.poll 1000000).1 = .ok report ∧ report.applied = [.cleared] ∧
        report.faults = List.replicate 8 (.frame .interrupted) ∧ report.overflowed = 1 ∧
        report.bytesRead = 14 ∧ s'.tally.bytesReceived = s.tally.bytesReceived + 14 ∧
        s'.tally.noted = s.tally.noted + 10 := by
  intro settings panel source
  dsimp only
  obtain ⟨hends, -, -, -, hreports⟩ := poll_reports_everything settings source panel [0] 1000000
  have hentries : ((new settings source panel).polls [0]).entriesOfPoll 1000000 =
      List.replicate 9 (.error (.frame .interrupted)) ++ [.ok .cleared] := by decide +kernel
  have hok : (((new settings source panel).polls [0]).poll 1000000).1.isOk = true := by decide +kernel
  have hroom : (((new settings source panel).polls [0]).poll 1000000).2.tally.Unsaturated := by
    constructor <;> decide +kernel
  have hbytes : (taken (((new settings source panel).polls [0]).readingsOfPoll 1000000)).length = 14 := by
    decide +kernel
  obtain ⟨report, hpoll⟩ := exists_of_isOk hok
  obtain ⟨happlied, hfaults, hsum, -, hread, hcounts⟩ := hreports report hpoll
  obtain ⟨hreceived, hnoted⟩ := hcounts hroom
  rw [hentries] at happlied hfaults hsum
  rw [hbytes] at hread
  rw [hread] at hreceived
  rw [hsum] at hnoted
  have happlied : report.applied = [.cleared] := happlied
  have hfaults : report.faults = List.replicate 8 (.frame .interrupted) := hfaults
  rw [happlied, hfaults, List.length_replicate] at hsum
  exact ⟨by decide +kernel, hroom, (hends _).2 rfl, report, hpoll, happlied, hfaults,
    Nat.add_left_cancel hsum, hread, hreceived, hnoted⟩

end Sign

end Marquee
