import Marquee.Proofs.Wire.Arrivals
import Marquee.Sign

/-!
# How a sign takes bytes

A poll takes bytes one at a time and absorbs each before it takes the next. This file says once what
either of the two does to a sign.

* `Sign.Pulls` : the five ways in which taking a byte can go, and `Sign.pulls_pull` that there are no
  others. A byte that is taken uses up one of the `reserve` of the poll (`Sign.Pulls.reserve`).
* `Sign.takeEvent`, `Sign.absorb_eq` : absorbing a byte feeds the framer and carries out what it
  tells, and touches nothing else.
* `ByteStream` : what it means for a link to hand over a stream, whatever the size of its chunks and
  however often its reads fail. `ByteQueue.stream` is one.
* `Sign.polls` : many polls.
-/

namespace Marquee

open Wire

namespace Sign

variable {S D ε : Type}

/-! ### Taking a byte -/

section

variable [Source S]

/-- What a read for the whole budget does. -/
def delivery (s : Sign S D) : Delivery × S := Source.read s.source s.budget

/-- The sign behind that read; no byte is taken yet. -/
def reread (s : Sign S D) : Sign S D :=
  { s with
    source := s.delivery.2
    buffer := s.delivery.1.written.take s.budget ++
      s.buffer.drop (s.delivery.1.written.take s.budget).length }

/-- How taking a byte goes: what there is to take, and the sign behind it. -/
inductive Pulls (s : Sign S D) : Pulled → Sign S D → Prop where
  /-- A byte was waiting. -/
  | pending {b : UInt8} {rest : List UInt8} (waiting : s.pending = b :: rest) :
      Pulls s (.byte b) { s with pending := rest }
  /-- The budget of this poll is spent. -/
  | spent (idle : s.pending = []) (spent : s.budget = 0) : Pulls s .nothing s
  /-- The read failed. -/
  | failed (idle : s.pending = []) (left : s.budget ≠ 0)
      (claim : s.delivery.1.claimed = none) : Pulls s .failed s.reread
  /-- The link has no byte now. -/
  | silent {n : Nat} (idle : s.pending = []) (left : s.budget ≠ 0)
      (claim : s.delivery.1.claimed = some n) (empty : s.reread.buffer.take (min n s.budget) = []) :
      Pulls s .nothing s.reread
  /-- The link gave bytes, and the first of them is taken. -/
  | filled {n : Nat} {b : UInt8} {rest : List UInt8} (idle : s.pending = []) (left : s.budget ≠ 0)
      (claim : s.delivery.1.claimed = some n)
      (given : s.reread.buffer.take (min n s.budget) = b :: rest) :
      Pulls s (.byte b)
        { s.reread with
          pending := rest
          budget := s.budget - (rest.length + 1)
          tally := s.tally.noteBytes (rest.length + 1)
          polledBytes := Counter.addUpTo Counter.cap32 s.polledBytes (rest.length + 1) }

/-- **Taking a byte goes one of the five ways.** -/
theorem pulls_pull (s : Sign S D) : Pulls s s.pull.1 s.pull.2 := by
  unfold pull
  split
  · rename_i b rest waiting
    exact .pending waiting
  · rename_i idle
    unfold fill
    by_cases spent : s.budget = 0
    · rw [if_pos spent]
      exact .spent idle spent
    · rw [if_neg spent]
      simp only
      -- what the read claims, and then what it put into the buffer
      split
      · rename_i claim
        exact .failed idle spent claim
      · rename_i n claim
        split
        · rename_i empty
          exact .silent idle spent claim empty
        · rename_i b rest given
          exact .filled idle spent claim given

theorem Pulls.reserve {s s' : Sign S D} {b : UInt8} (h : Pulls s (.byte b) s') :
    s'.reserve + 1 = s.reserve := by
  cases h with
  | pending waiting => simp only [Sign.reserve, waiting, List.length_cons]; omega
  | filled idle left claim given =>
    have hlen := congrArg List.length given
    rw [List.length_take, List.length_cons] at hlen
    simp only [Sign.reserve, idle, List.length_nil]
    omega

end

/-! ### Absorbing a byte -/

/-- Carry out the frame that an event tells of, and count what came of it. -/
def takeEvent (st : Stage × LinkTally) : FrameEvent → Stage × LinkTally
  | .ok f =>
    match st.1.applyFrame f with
    | (.ok _, stage) => (stage, st.2.noteApplied)
    | (.error e, stage) => (stage, st.2.noteFault e)
  | .error e => (st.1, st.2.noteFault (.frame e))

/-- What a byte comes to, if the framer tells `reply` of it. -/
def takeReply (st : Stage × LinkTally) : Option FrameEvent → Stage × LinkTally
  | none => st
  | some e => takeEvent st e

/-- **To absorb a byte is to feed it to the framer and to carry out what that tells.** Nothing else
of the sign changes. -/
theorem absorb_eq (s : Sign S D) (nowMs : Nat) (report : Report) (b : UInt8) :
    (s.absorb nowMs report b).2 =
      { s with
        framer := (s.framer.feed nowMs b).2
        stage := (takeReply (s.stage, s.tally) (s.framer.feed nowMs b).1).1
        tally := (takeReply (s.stage, s.tally) (s.framer.feed nowMs b).1).2 } := by
  unfold absorb Sign.feed
  generalize s.framer.feed nowMs b = r
  obtain ⟨reply, framer⟩ := r
  cases reply with
  | none => rfl
  | some e =>
    cases e with
    | error e => rfl
    | ok f =>
      simp only [applyFrame, takeReply, takeEvent]
      generalize s.stage.applyFrame f = a
      obtain ⟨result, stage⟩ := a
      cases result <;> rfl

/-- What waits is not touched. -/
theorem pending_absorb (s : Sign S D) (nowMs : Nat) (report : Report) (b : UInt8) :
    (s.absorb nowMs report b).2.pending = s.pending := by
  rw [absorb_eq]

/-- The sign behind a byte does not depend on what was reported before. -/
theorem absorb_report (s : Sign S D) (nowMs : Nat) (report report' : Report) (b : UInt8) :
    (s.absorb nowMs report b).2 = (s.absorb nowMs report' b).2 := by
  rw [absorb_eq, absorb_eq]

/-- A byte that is taken and absorbed is one less that this poll can take. -/
theorem Pulls.reserve_absorb [Source S] {s s' : Sign S D} {b : UInt8} (h : Pulls s (.byte b) s')
    (nowMs : Nat) (report : Report) : (s'.absorb nowMs report b).2.reserve + 1 = s.reserve := by
  rw [absorb_eq]
  exact h.reserve

/-! ### Many polls -/

/-- The sign behind polls at the given times. -/
def polls [Source S] [Display D ε] (s : Sign S D) : List Nat → Sign S D
  | [] => s
  | now :: rest => (s.poll now).2.polls rest

/-- Only the display is changed by showing the scene. -/
theorem present_eq [Display D ε] (s : Sign S D) :
    s.present.2 = { s with display := s.present.2.display } := by
  unfold present
  simp only
  split <;> rfl

/-- A poll takes its bytes, gives up an overdue frame, plays the timeline, and shows the scene. -/
theorem snd_poll [Source S] [Display D ε] (s : Sign S D) (now : Nat) :
    ∃ report display, (s.poll now).2 =
      { (((s.intake (now / 1000000)).2.checkTimeout (now / 1000000)
          (s.intake (now / 1000000)).1).2.play now report).2 with display := display } := by
  generalize hchecked : (s.intake (now / 1000000)).2.checkTimeout (now / 1000000)
    (s.intake (now / 1000000)).1 = checked
  refine ⟨checked.1, (checked.2.play now checked.1).2.present.2.display, ?_⟩
  rw [← present_eq]
  unfold poll
  simp only [hchecked]
  split <;> rename_i h <;> rw [h]

end Sign

/-! ### Links that hand over a stream -/

/-- A link hands over a stream of bytes: a read that fails takes none of them, and any other takes as
many as it claims, which it has written and for which there was room. How many that are is left to
the link. -/
structure ByteStream (S : Type) [Source S] where
  /-- The bytes that are still to come. -/
  ahead : S → List UInt8
  /-- The states in which the link does so. -/
  sound : S → Prop
  /-- It goes on doing so. -/
  sound_read : ∀ s room, sound s → sound (Source.read s room).2
  /-- A read that fails. -/
  failed : ∀ s room, sound s → (Source.read s room).1.claimed = none →
    ahead (Source.read s room).2 = ahead s
  /-- A read that does not. -/
  taken : ∀ s room n, sound s → (Source.read s room).1.claimed = some n →
    n ≤ room ∧ n ≤ (Source.read s room).1.written.length ∧
      ahead s = (Source.read s room).1.written.take n ++ ahead (Source.read s room).2

/-- A queue that claims no more than it has fails, or hands over its next bytes. -/
theorem ByteQueue.read_of_exact {q : ByteQueue} (h : q.excess = 0) (room : Nat) :
    q.read room = (⟨[], none⟩, { q with failNext := false }) ∨
      ∃ limit, limit ≤ room ∧
        q.read room =
          (⟨q.bytes.take limit, some (q.bytes.take limit).length⟩,
            { q with bytes := q.bytes.drop limit }) := by
  obtain ⟨bytes, chunk, failNext, excess⟩ := q
  obtain rfl : excess = 0 := h
  cases failNext with
  | true => exact .inl rfl
  | false =>
    refine .inr ⟨if chunk = 0 then room else min room chunk, by split <;> omega, ?_⟩
    generalize hlimit : (if chunk = 0 then room else min room chunk) = limit
    simp only [read, hlimit, Bool.false_eq_true, if_false]
    by_cases hempty : (bytes.take limit).isEmpty = true
    · rw [if_pos hempty]
      have htake : bytes.take limit = [] := by simpa only [List.isEmpty_iff] using hempty
      have hdrop : bytes.drop limit = bytes := by
        have := List.take_append_drop limit bytes
        rwa [htake, List.nil_append] at this
      rw [htake, hdrop]
      rfl
    · rw [if_neg hempty]
      rfl

/-- A queue that claims no more than it has hands over its bytes, whatever the size of its chunks. -/
def ByteQueue.stream : ByteStream ByteQueue where
  ahead q := q.bytes
  sound q := q.excess = 0
  sound_read q room h := by
    rcases read_of_exact h room with hr | ⟨limit, -, hr⟩ <;> simp only [Source.read, hr] <;> exact h
  failed q room h hc := by
    rcases read_of_exact h room with hr | ⟨limit, -, hr⟩
    · simp only [Source.read, hr]
    · simp only [Source.read, hr, reduceCtorEq] at hc
  taken q room n h hc := by
    rcases read_of_exact h room with hr | ⟨limit, hle, hr⟩
    · simp only [Source.read, hr, reduceCtorEq] at hc
    · simp only [Source.read, hr, Option.some.injEq] at hc ⊢
      subst hc
      refine ⟨Nat.le_trans (List.length_take_le _ _) hle, Nat.le_refl _, ?_⟩
      rw [List.take_length, List.take_append_drop]

end Marquee
