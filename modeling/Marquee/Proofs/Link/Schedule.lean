import Marquee.Proofs.Link.Intake
import Marquee.Proofs.Stage.Outline

/-!
# The schedule of polls does not matter

Bytes reach a sign in chunks of any size, in polls at any times, with reads and displays that fail in
between, and each poll plays the timeline. None of this shows in what the bytes come to.

* `straight` : what a stream comes to without any polls. It is fed byte by byte to one framer, and the
  command of each frame is carried out; what fails is counted and skipped, and nothing is played.
* `Sign.Received` : a sign has polled until its link had no more bytes.
* `Sign.schedule_independent` : **what a sign has received shows in its gist as in the straight run**,
  so that two signs that received the same bytes have the same gist.

The gist leaves out what the timeline changes, and that is enough for commands (`apply_congr`). The
proof follows one poll byte by byte with two invariants: `OnStream` says that no byte of the stream
was lost, repeated or moved, and `Digested` that the bytes fed so far did what they do in the
straight run.
-/

namespace Marquee

open Wire

namespace LinkTally

/-- The counts of frames alone. -/
def frames (t : LinkTally) : LinkTally := { t with bytesReceived := 0, transportFaults := 0 }

end LinkTally

/-- What a stream of bytes comes to if it is fed to one framer byte by byte and nothing is played. -/
def straight (settings : StageSettings) (maxLength : Nat) (bytes : List UInt8) :
    Stage × LinkTally :=
  (((Framer.new maxLength 0).feedAll 0 bytes).1.toList.map Prod.snd).foldl Sign.takeEvent
    (Stage.new settings, ({} : LinkTally).noteBytes bytes.length)

/-- What a stream of bytes shows in: the outline of the stage, and all counts but that of reads that
failed. -/
def gist (st : Stage × LinkTally) : Outline × LinkTally :=
  (st.1.outline, { st.2 with transportFaults := 0 })

namespace Sign

variable {S D ε : Type}

/-! ### Events on stages of one outline -/

/-- Stages of one outline, with the same counts of frames. -/
def Alike (a b : Stage × LinkTally) : Prop :=
  a.1.outline = b.1.outline ∧ a.2.frames = b.2.frames

theorem Alike.takeEvent {a b : Stage × LinkTally} (h : Alike a b) (e : FrameEvent) :
    Alike (takeEvent a e) (takeEvent b e) := by
  obtain ⟨houtline, hframes⟩ := h
  have hnote : ∀ f : LinkFault, (a.2.noteFault f).frames = (b.2.noteFault f).frames := by
    intro f
    have := congrArg (fun t => (t.noteFault f).frames) hframes
    cases f <;> exact this
  cases e with
  | error e => exact ⟨houtline, hnote (.frame e)⟩
  | ok f =>
    obtain ⟨hresult, houtline'⟩ := Stage.applyFrame_congr houtline f
    simp only [Sign.takeEvent]
    generalize a.1.applyFrame f = x at hresult houtline' ⊢
    generalize b.1.applyFrame f = y at hresult houtline' ⊢
    obtain ⟨r, s⟩ := x
    obtain ⟨r', t⟩ := y
    obtain rfl : r = r' := hresult
    -- the command fails on both stages or on neither
    cases r with
    | ok outcome =>
      exact ⟨houtline', congrArg LinkTally.noteApplied hframes⟩
    | error e => exact ⟨houtline', hnote e⟩

theorem Alike.foldl {a b : Stage × LinkTally} (h : Alike a b) (events : List FrameEvent) :
    Alike (events.foldl Sign.takeEvent a) (events.foldl Sign.takeEvent b) := by
  induction events generalizing a b with
  | nil => exact h
  | cons e rest ih => exact ih (h.takeEvent e)

theorem Alike.trans {a b c : Stage × LinkTally} (h : Alike a b) (h' : Alike b c) : Alike a c :=
  ⟨h.1.trans h'.1, h.2.trans h'.2⟩

/-- What is alike has one gist, if as many bytes were counted. -/
theorem gist_eq_of_alike {a b : Stage × LinkTally} (h : Alike a b)
    (hbytes : a.2.bytesReceived = b.2.bytesReceived) : gist a = gist b := by
  obtain ⟨houtline, hframes⟩ := h
  have htally : { a.2 with transportFaults := 0 } = { b.2 with transportFaults := 0 } := by
    simp only [LinkTally.frames, LinkTally.mk.injEq, true_and] at hframes ⊢
    exact ⟨hbytes, hframes⟩
  rw [gist, gist, houtline, htally]

/-- Events do not count bytes. -/
theorem bytesReceived_takeEvent (st : Stage × LinkTally) (e : FrameEvent) :
    (takeEvent st e).2.bytesReceived = st.2.bytesReceived := by
  have hnote : ∀ f : LinkFault, (st.2.noteFault f).bytesReceived = st.2.bytesReceived := by
    intro f
    cases f <;> rfl
  cases e with
  | error e => exact hnote _
  | ok f =>
    simp only [takeEvent]
    split
    · rfl
    · exact hnote _

theorem bytesReceived_foldl (st : Stage × LinkTally) (events : List FrameEvent) :
    (events.foldl takeEvent st).2.bytesReceived = st.2.bytesReceived := by
  induction events generalizing st with
  | nil => rfl
  | cons e rest ih => rw [List.foldl_cons, ih, bytesReceived_takeEvent]

/-! ### What a byte does -/

/-- The bytes `fed` did to framer, stage and tally what they do in the straight run, up to what the
timeline changes. -/
structure Digested (settings : StageSettings) (maxLength : Nat) (fed : List UInt8)
    (s : Sign S D) : Prop where
  /-- The framer is the one of the straight run, but for its clock. -/
  framer_eq : s.framer.untimed = (Framer.new maxLength 0).after (fed.map (0, ·))
  /-- So are stage and tally. -/
  alike : Alike (s.stage, s.tally)
    ((Framer.eventsOf ((Framer.new maxLength 0).replies (fed.map (0, ·)))).foldl takeEvent
      (Stage.new settings, {}))

variable {settings : StageSettings} {maxLength : Nat} {fed : List UInt8} {s : Sign S D}

/-- A byte that is absorbed does what it does in the straight run. -/
theorem Digested.absorb (h : Digested settings maxLength fed s) (nowMs : Nat) (report : Report)
    (b : UInt8) : Digested settings maxLength (fed ++ [b]) (s.absorb nowMs report b).2 := by
  obtain ⟨framer_eq, alike⟩ := h
  have hfeed := s.framer.feed_untimed nowMs b
  rw [framer_eq] at hfeed
  rw [absorb_eq]
  constructor
  · simp only [List.map_append, Framer.after_append, List.map_cons, List.map_nil, Framer.after, hfeed]
  · simp only [List.map_append, Framer.replies_append, List.map_cons, List.map_nil, Framer.replies,
      hfeed, Framer.eventsOf, List.filterMap_append, List.foldl_append]
    cases (s.framer.feed nowMs b).1 with
    | none => exact alike
    | some e => exact alike.takeEvent e

/-- With no limit on gaps, no frame is overdue. -/
theorem Digested.checkTimeout_eq (h : Digested settings maxLength fed s) (nowMs : Nat)
    (report : Report) : s.checkTimeout nowMs report = (report, s) := by
  have htime : s.framer.timeoutMs = 0 := by
    have := congrArg Framer.timeoutMs h.framer_eq
    rwa [Framer.timeoutMs_after] at this
  simp only [checkTimeout, Framer.checkTimeout_of_noLimit htime]

/-! ### What one poll keeps -/

variable [Source S]

/-- Of the stream `all` the bytes `fed` were given to the framer, and no other byte was lost: the next
ones wait in the sign, and the others are still to come. -/
structure OnStream (stream : ByteStream S) (all fed : List UInt8) (s : Sign S D) : Prop where
  /-- The link hands over the stream. -/
  sound : stream.sound s.source
  /-- Nothing was lost, repeated or moved. -/
  whole : fed ++ s.pending ++ stream.ahead s.source = all
  /-- All that was taken was counted. -/
  received : s.tally.bytesReceived = min (fed ++ s.pending).length Counter.cap32

variable {stream : ByteStream S} {all : List UInt8} {s' : Sign S D}

theorem OnStream.pull_byte (h : OnStream stream all fed s) {b : UInt8}
    (hp : Pulls s (.byte b) s') : OnStream stream all (fed ++ [b]) s' := by
  obtain ⟨sound, whole, received⟩ := h
  cases hp with
  | pending waiting =>
    rw [waiting] at whole received
    exact ⟨sound, by simpa using whole, by simpa using received⟩
  | @filled n _ rest idle left claim given =>
    obtain ⟨hroom, hwritten, hahead⟩ := stream.taken s.source s.budget n sound claim
    -- the buffer begins with what was written, so the bytes that are taken are those claimed
    have htaken : s.delivery.1.written.take n = b :: rest := by
      rw [← given, Nat.min_eq_left hroom, reread,
        List.take_append_of_le_length (by rw [List.length_take]; exact Nat.le_min.2 ⟨hroom, hwritten⟩),
        List.take_take, Nat.min_eq_left hroom]
    rw [show (Source.read s.source s.budget).1.written.take n = b :: rest from htaken] at hahead
    refine ⟨stream.sound_read _ _ sound, ?_, ?_⟩
    · rw [idle, hahead] at whole
      simpa [reread, delivery] using whole
    · rw [idle] at received
      simp only [LinkTally.noteBytes, LinkTally.add, Counter.addUpTo, received]
      simp only [List.length_append, List.length_nil, List.length_singleton]
      omega

theorem OnStream.pull_none (h : OnStream stream all fed s) {p : Pulled} (hp : Pulls s p s')
    (hne : ∀ b, p ≠ .byte b) : OnStream stream all fed s' ∧ s'.pending = [] := by
  obtain ⟨sound, whole, received⟩ := h
  cases hp with
  | pending waiting => exact absurd rfl (hne _)
  | spent idle spent => exact ⟨⟨sound, whole, received⟩, idle⟩
  | failed idle left claim =>
    have hahead := stream.failed s.source s.budget sound claim
    exact ⟨⟨stream.sound_read _ _ sound, by rw [← whole, ← hahead]; rfl, received⟩, idle⟩
  | @silent n idle left claim empty =>
    obtain ⟨hroom, hwritten, hahead⟩ := stream.taken s.source s.budget n sound claim
    -- the bytes of a read that leaves nothing in the buffer are none
    have hn : n = 0 := by
      have hlen := congrArg List.length empty
      rw [Nat.min_eq_left hroom, reread, List.length_take, List.length_append, List.length_take,
        List.length_nil] at hlen
      have := Nat.le_min.2 ⟨hroom, hwritten⟩
      change n ≤ min s.budget s.delivery.1.written.length at this
      omega
    rw [hn, List.take_zero, List.nil_append] at hahead
    exact ⟨⟨stream.sound_read _ _ sound, by rw [← whole, hahead]; rfl, received⟩, idle⟩
  | filled idle left claim given => exact absurd rfl (hne _)

/-- Taking a byte is nothing to the framer, the stage and the counts of frames. -/
theorem Digested.pull (h : Digested settings maxLength fed s) {p : Pulled} (hp : Pulls s p s') :
    Digested settings maxLength fed s' := by
  cases hp <;> exact ⟨h.framer_eq, h.alike⟩

/-- To absorb a byte loses none of those that wait. -/
theorem OnStream.absorb (h : OnStream stream all fed s) (nowMs : Nat) (report : Report)
    (b : UInt8) : OnStream stream all fed (s.absorb nowMs report b).2 := by
  rw [absorb_eq]
  refine ⟨h.sound, h.whole, ?_⟩
  rw [← h.received]
  cases (s.framer.feed nowMs b).1 with
  | none => rfl
  | some e => exact bytesReceived_takeEvent _ e

/-- **All bytes of one poll.** -/
theorem absorbUpTo_keeps (nowMs n : Nat) (report : Report) (hs : OnStream stream all fed s)
    (hd : Digested settings maxLength fed s) (hn : s.reserve ≤ n) :
    ∃ fed', OnStream stream all fed' (absorbUpTo nowMs n report s).2 ∧
      Digested settings maxLength fed' (absorbUpTo nowMs n report s).2 ∧
      (absorbUpTo nowMs n report s).2.pending = [] := by
  -- on the bytes that this poll can still take; each that it takes is one less
  induction n generalizing fed report s with
  | zero =>
    have hpending : s.pending = [] := by
      rw [Sign.reserve] at hn
      exact List.eq_nil_of_length_eq_zero (by omega)
    exact ⟨fed, hs, hd, hpending⟩
  | succ n ih =>
    have hp := s.pulls_pull
    rw [absorbUpTo]
    generalize s.pull = r at hp ⊢
    obtain ⟨p, s'⟩ := r
    have hd' := hd.pull hp
    cases p with
    | nothing =>
      obtain ⟨hs', hpending⟩ := hs.pull_none hp (by simp)
      exact ⟨fed, hs', hd', hpending⟩
    | failed =>
      obtain ⟨hs', hpending⟩ := hs.pull_none hp (by simp)
      exact ⟨fed, ⟨hs'.sound, hs'.whole, hs'.received⟩, ⟨hd'.framer_eq, hd'.alike⟩, hpending⟩
    | byte b =>
      have hs' := (hs.pull_byte hp).absorb nowMs report b
      have hreserve : (s'.absorb nowMs report b).2.reserve ≤ n := by
        have hone : (s'.absorb nowMs report b).2.reserve + 1 = s.reserve :=
          hp.reserve_absorb nowMs report
        omega
      exact ih _ hs' (hd'.absorb nowMs report b) hreserve

/-- **One poll** feeds all bytes that it takes, and the timeline does not show. -/
theorem poll_keeps [Display D ε] (now : Nat) (hs : OnStream stream all fed s)
    (hd : Digested settings maxLength fed s) :
    ∃ fed', OnStream stream all fed' (s.poll now).2 ∧
      Digested settings maxLength fed' (s.poll now).2 ∧ (s.poll now).2.pending = [] := by
  have hs₀ : OnStream stream all fed { s with budget := s.bytesPerPoll, polledBytes := 0 } :=
    ⟨hs.sound, hs.whole, hs.received⟩
  have hd₀ : Digested settings maxLength fed { s with budget := s.bytesPerPoll, polledBytes := 0 } :=
    ⟨hd.framer_eq, hd.alike⟩
  obtain ⟨fed', hs₁, hd₁, hpending⟩ :=
    absorbUpTo_keeps (now / 1000000) _ {} hs₀ hd₀ (Nat.le_refl _)
  obtain ⟨report, display, hpoll⟩ := s.snd_poll now
  have hcheck : ((s.intake (now / 1000000)).2.checkTimeout (now / 1000000)
      (s.intake (now / 1000000)).1).2 = (s.intake (now / 1000000)).2 :=
    congrArg Prod.snd (hd₁.checkTimeout_eq _ _)
  rw [hpoll, hcheck]
  -- what is left of the poll plays the timeline and shows the scene
  refine ⟨fed', ⟨hs₁.sound, hs₁.whole, hs₁.received⟩, ⟨hd₁.framer_eq, ?_⟩, hpending⟩
  obtain ⟨houtline, hframes⟩ := hd₁.alike
  exact ⟨(Stage.outline_tick _ now).trans houtline, hframes⟩

/-- **Many polls.** -/
theorem polls_keeps [Display D ε] (times : List Nat) (hs : OnStream stream all fed s)
    (hd : Digested settings maxLength fed s) (hp : s.pending = []) :
    ∃ fed', OnStream stream all fed' (s.polls times) ∧
      Digested settings maxLength fed' (s.polls times) ∧ (s.polls times).pending = [] := by
  induction times generalizing fed s with
  | nil => exact ⟨fed, hs, hd, hp⟩
  | cons now rest ih =>
    obtain ⟨fed', hs', hd', hp'⟩ := poll_keeps now hs hd
    exact ih hs' hd' hp'

/-! ### What a sign has received -/

/-- The sign has received `bytes`: after some polls at any times, its link, which handed over a stream
of these bytes in any way, has no more of them. -/
def Received [Display D ε] (settings : Settings) (bytes : List UInt8) (s : Sign S D) : Prop :=
  ∃ (stream : ByteStream S) (source : S) (display : D) (times : List Nat),
    stream.sound source ∧ stream.ahead source = bytes ∧
      s = (new settings source display).polls times ∧ stream.ahead s.source = []

/-- What a sign has received shows in its gist as in the straight run. -/
theorem Received.gist_eq [Display D ε] {settings : Settings} {bytes : List UInt8} {s : Sign S D}
    (h : Received settings bytes s) (noLimit : settings.link.frameTimeoutMs = 0) :
    gist (s.stage, s.tally) =
      gist (straight settings.stage settings.link.maxFrameLength.toNat bytes) := by
  obtain ⟨stream, source, display, times, sound, rfl, rfl, drained⟩ := h
  have hs₀ : OnStream stream (stream.ahead source) [] (new settings source display) :=
    ⟨sound, rfl, rfl⟩
  have hd₀ : Digested settings.stage settings.link.maxFrameLength.toNat []
      (new settings source display) := by
    refine ⟨?_, rfl, rfl⟩
    simp only [new, noLimit]
    rfl
  obtain ⟨fed, hs, hd, hpending⟩ := polls_keeps times hs₀ hd₀ rfl
  have hfed : fed = stream.ahead source := by
    rw [← hs.whole, hpending, drained, List.append_nil, List.append_nil]
  subst hfed
  have hstart : Alike (Stage.new settings.stage, {})
      (Stage.new settings.stage, ({} : LinkTally).noteBytes (stream.ahead source).length) :=
    ⟨rfl, rfl⟩
  refine gist_eq_of_alike ?_ ?_
  · rw [straight, (Framer.feedAll_eq _ _ _).1]
    exact hd.alike.trans (hstart.foldl _)
  · rw [straight, bytesReceived_foldl, hs.received, hpending, List.append_nil]
    simp only [LinkTally.noteBytes, LinkTally.add, Counter.addUpTo, Nat.zero_add]

/-- **The schedule of polls does not matter.** Two signs with the same stage settings and the same
limit on frames, and none on gaps, have polled until their links had handed over the same bytes: in
whatever chunks and polls, at whatever times, with whatever reads and displays failing in between.
Then they have the same palette size, epoch, sprites (but for places, visibility and colors), cues and
counts, which are those of the bytes fed one by one to one framer, with the command of each frame
carried out in order, failures skipped, and nothing played. -/
theorem schedule_independent {S₁ S₂ D₁ D₂ ε₁ ε₂ : Type} [Source S₁] [Source S₂] [Display D₁ ε₁]
    [Display D₂ ε₂] {settings₁ settings₂ : Settings} {bytes : List UInt8} {s₁ : Sign S₁ D₁}
    {s₂ : Sign S₂ D₂} (stage_eq : settings₁.stage = settings₂.stage)
    (length_eq : settings₁.link.maxFrameLength = settings₂.link.maxFrameLength)
    (noLimit₁ : settings₁.link.frameTimeoutMs = 0) (noLimit₂ : settings₂.link.frameTimeoutMs = 0)
    (received₁ : Received settings₁ bytes s₁) (received₂ : Received settings₂ bytes s₂) :
    gist (s₁.stage, s₁.tally) = gist (s₂.stage, s₂.tally) ∧
      gist (s₁.stage, s₁.tally) =
        gist (straight settings₁.stage settings₁.link.maxFrameLength.toNat bytes) := by
  have h₁ := received₁.gist_eq noLimit₁
  have h₂ := received₂.gist_eq noLimit₂
  exact ⟨by rw [h₁, h₂, stage_eq, length_eq], h₁⟩

/-- A color and a cue that overwrites it, once in chunks of two bytes with five bytes a poll, a read
that fails and a panel that fails, and once in one chunk. -/
theorem schedule_independent_two_links :
    let bytes : List UInt8 :=
      [60, 80, 49, 48, 50, 48, 51, 48, 62, 60, 65, 48, 49, 80, 48, 48, 70, 70, 48, 48, 48, 48, 62]
    let slow : Settings :=
      { stage := { minCues := 1 }, link := { frameTimeoutMs := 0, maxBytesPerPoll := 5 } }
    let fast : Settings := { stage := { minCues := 1 }, link := { frameTimeoutMs := 0 } }
    let broken : Screen MemoryPanel := ⟨⟨1, 1, some .communication, 0, #[]⟩, 1, 1, 0, #[0], true, 0⟩
    let whole : Screen MemoryPanel := ⟨.new 1 1, 1, 1, 0, #[0], true, 0⟩
    let s₁ := (new slow (ByteQueue.mk bytes 2 true 0) broken).polls [0, 3, 3, 9, 5, 7, 100000]
    let s₂ := (new fast (ByteQueue.mk bytes 0 false 0) whole).polls [2]
    slow.stage = fast.stage ∧ slow.link.maxFrameLength = fast.link.maxFrameLength ∧
      slow.link.frameTimeoutMs = 0 ∧ fast.link.frameTimeoutMs = 0 ∧ Received slow bytes s₁ ∧
      Received fast bytes s₂ ∧ gist (s₁.stage, s₁.tally) = gist (s₂.stage, s₂.tally) ∧
      s₁.tally.framesApplied = 2 := by
  intro bytes slow fast broken whole s₁ s₂
  have drained₁ : ByteQueue.stream.ahead s₁.source = [] := by decide +kernel
  have drained₂ : ByteQueue.stream.ahead s₂.source = [] := by decide +kernel
  have received₁ : Received slow bytes s₁ :=
    ⟨ByteQueue.stream, ByteQueue.mk bytes 2 true 0, broken, [0, 3, 3, 9, 5, 7, 100000], rfl, rfl,
      Eq.refl s₁, drained₁⟩
  have received₂ : Received fast bytes s₂ :=
    ⟨ByteQueue.stream, ByteQueue.mk bytes 0 false 0, whole, [2], rfl, rfl, Eq.refl s₂, drained₂⟩
  have stage_eq : slow.stage = fast.stage := rfl
  have same := schedule_independent stage_eq rfl rfl rfl received₁ received₂
  exact ⟨stage_eq, rfl, rfl, rfl, received₁, received₂, same.1, by decide +kernel⟩

end Sign

end Marquee
