import Marquee.Wire.Framer
import Mathlib.Tactic.SplitIfs

/-!
# Bytes that arrive one after another

A byte stream reaches a framer as a list of *arrivals*: each byte with its time. This file names what
the framer tells of each of them and what it is afterwards, so that theorems can speak of a position
in the stream.

* `Framer.Fed` : the six things that one byte can do, each with the condition under which it does;
  `Framer.fed_feed` says that there are no others.
* `Framer.replies` : what is told at each arrival, an event or nothing; `Framer.after` : the framer
  behind the last one. Both cut at any place (`replies_append`, `after_append`).
* `Framer.feedAll_eq` : `feedAll` tells the same events.
* `Framer.untimed` : a framer without its clock. **Without a limit on gaps the clock does not matter**
  (`feed_untimed`, `checkTimeout_of_noLimit`).
-/

namespace Marquee

namespace Wire

/-- A byte that opens or closes a frame. -/
def IsDelimiter (b : UInt8) : Prop := b = Grammar.opener ∨ b = Grammar.closer

instance : DecidablePred IsDelimiter := fun b =>
  inferInstanceAs (Decidable (b = Grammar.opener ∨ b = Grammar.closer))

theorem closer_ne_opener : Grammar.closer ≠ Grammar.opener := by decide

namespace Framer

/-! ### One byte -/

/-- What a byte that arrives at `now` does to a framer: what is told, and the framer behind it. -/
inductive Fed (f : Framer) (now : Nat) (b : UInt8) : Option FrameEvent → Framer → Prop where
  /-- Outside frames all but a `<` is dropped. -/
  | dropped (idle : f.current = none) (other : b ≠ Grammar.opener) :
      Fed f now b none { f with discarded := Counter.addUpTo Counter.cap32 f.discarded 1 }
  /-- A `<` outside frames opens one. -/
  | opened (idle : f.current = none) (start : b = Grammar.opener) : Fed f now b none (f.openFrame now)
  /-- A `<` inside a frame opens another one. -/
  | interrupted {o : OpenFrame} (busy : f.current = some o) (start : b = Grammar.opener) :
      Fed f now b (some (.error .interrupted)) ((f.giveUp o.bytes.size).openFrame now)
  /-- Any other byte behind a frame that is full. -/
  | overflowed {o : OpenFrame} (busy : f.current = some o) (other : b ≠ Grammar.opener)
      (full : f.maxLength ≤ o.bytes.size) :
      Fed f now b (some (.error .overflow)) (f.giveUp o.bytes.size)
  /-- A `>` ends the frame. -/
  | ended {o : OpenFrame} (busy : f.current = some o) (stop : b = Grammar.closer)
      (room : o.bytes.size < f.maxLength) :
      Fed f now b (some (.ok ⟨o.bytes.toList ++ [b]⟩)) f.reset
  /-- A byte of the body. -/
  | grown {o : OpenFrame} (busy : f.current = some o) (inner : ¬ IsDelimiter b)
      (room : o.bytes.size < f.maxLength) :
      Fed f now b none { f with current := some ⟨o.bytes.push b, now⟩ }

/-- **A byte does one of the six things, and nothing else.** -/
theorem fed_feed (f : Framer) (now : Nat) (b : UInt8) :
    Fed f now b (f.feed now b).1 (f.feed now b).2 := by
  unfold feed
  cases hcurrent : f.current with
  | none =>
    simp only
    split_ifs with start
    · exact .opened hcurrent start
    · have dropped : Fed f now b none _ := .dropped hcurrent start
      rwa [hcurrent] at dropped
  | some o =>
    simp only
    split_ifs with start full stop
    · exact .interrupted hcurrent start
    · exact .overflowed hcurrent start full
    · rw [Array.toList_push]
      exact .ended hcurrent stop (Nat.lt_of_not_le full)
    · exact .grown hcurrent (fun h => h.elim start stop) (Nat.lt_of_not_le full)

/-! ### Many bytes -/

/-- What the framer tells at each arrival: an event, or nothing. -/
def replies (f : Framer) : List (Nat × UInt8) → List (Option FrameEvent)
  | [] => []
  | (now, b) :: rest => (f.feed now b).1 :: (f.feed now b).2.replies rest

/-- The framer behind all arrivals. -/
def after (f : Framer) : List (Nat × UInt8) → Framer
  | [] => f
  | (now, b) :: rest => (f.feed now b).2.after rest

/-- Only events, in order. -/
def eventsOf (replies : List (Option FrameEvent)) : List FrameEvent := replies.filterMap id

theorem replies_append (f : Framer) (p q : List (Nat × UInt8)) :
    f.replies (p ++ q) = f.replies p ++ (f.after p).replies q := by
  induction p generalizing f with
  | nil => rfl
  | cons a p ih => simp [replies, after, ih]

theorem after_append (f : Framer) (p q : List (Nat × UInt8)) :
    f.after (p ++ q) = (f.after p).after q := by
  induction p generalizing f with
  | nil => rfl
  | cons a p ih => simp [after, ih]

theorem length_replies (f : Framer) (arrivals : List (Nat × UInt8)) :
    (f.replies arrivals).length = arrivals.length := by
  induction arrivals generalizing f with
  | nil => rfl
  | cons a rest ih => exact congrArg (· + 1) (ih _)

theorem eventsOf_cons (reply : Option FrameEvent) (replies : List (Option FrameEvent)) :
    eventsOf (reply :: replies) = reply.toList ++ eventsOf replies := by
  cases reply <;> rfl

/-- The reply at a position is what the framer behind the arrivals before it tells. -/
theorem replies_getElem? (f : Framer) (arrivals : List (Nat × UInt8)) (j : Nat) :
    (f.replies arrivals)[j]? =
      arrivals[j]?.map fun a => ((f.after (arrivals.take j)).feed a.1 a.2).1 := by
  induction arrivals generalizing f j with
  | nil => simp [replies]
  | cons a rest ih =>
    cases j with
    | zero => simp [replies, after]
    | succ j => simp [replies, after, ih]

theorem feedFrom_eq (f : Framer) (now position : Nat) (events : Array (Nat × FrameEvent))
    (bytes : List UInt8) :
    (feedFrom now f position events bytes).1.toList.map Prod.snd =
        events.toList.map Prod.snd ++ eventsOf (f.replies (bytes.map (now, ·))) ∧
      (feedFrom now f position events bytes).2 = f.after (bytes.map (now, ·)) := by
  induction bytes generalizing f position events with
  | nil => simp [feedFrom, replies, after, eventsOf]
  | cons b rest ih =>
    rw [feedFrom]
    rcases h : f.feed now b with ⟨_ | e, f'⟩
    · obtain ⟨h₁, h₂⟩ := ih f' (position + 1) events
      exact ⟨by simpa [replies, eventsOf, h] using h₁, by simpa [after, h] using h₂⟩
    · obtain ⟨h₁, h₂⟩ := ih f' (position + 1) (events.push (position, e))
      exact ⟨by simpa [replies, eventsOf, h] using h₁, by simpa [after, h] using h₂⟩

/-- `feedAll` tells the events of its bytes, in order, and leaves the framer behind them. -/
theorem feedAll_eq (f : Framer) (now : Nat) (bytes : List UInt8) :
    (f.feedAll now bytes).1.toList.map Prod.snd = eventsOf (f.replies (bytes.map (now, ·))) ∧
      (f.feedAll now bytes).2 = f.after (bytes.map (now, ·)) := by
  simpa [feedAll] using feedFrom_eq f now 0 #[] bytes

/-! ### The clock -/

/-- The framer as if its last byte had arrived at time zero. -/
def untimed (f : Framer) : Framer :=
  { f with current := f.current.map fun o => { o with lastMs := 0 } }

/-- What a byte does to a framer does not depend on the times of this byte and of those before. -/
theorem feed_untimed (f : Framer) (now : Nat) (b : UInt8) :
    f.untimed.feed 0 b = ((f.feed now b).1, (f.feed now b).2.untimed) := by
  obtain ⟨limit, timeout, current, discarded⟩ := f
  cases current with
  | none => by_cases hb : b = Grammar.opener <;> simp [untimed, feed, openFrame, hb]
  | some o =>
    by_cases hb : b = Grammar.opener
    · simp [untimed, feed, openFrame, giveUp, hb]
    · by_cases hfull : limit ≤ o.bytes.size
      · simp [untimed, feed, giveUp, hb, hfull]
      · by_cases hc : b = Grammar.closer
        · subst hc; simp [untimed, feed, reset, closer_ne_opener, hfull]
        · simp [untimed, feed, hb, hfull, hc]

@[simp] theorem timeoutMs_feed (f : Framer) (now : Nat) (b : UInt8) :
    (f.feed now b).2.timeoutMs = f.timeoutMs := by
  have h := fed_feed f now b
  generalize f.feed now b = r at h ⊢
  obtain ⟨e, f'⟩ := r
  cases h <;> rfl

@[simp] theorem timeoutMs_after (f : Framer) (arrivals : List (Nat × UInt8)) :
    (f.after arrivals).timeoutMs = f.timeoutMs := by
  induction arrivals generalizing f with
  | nil => rfl
  | cons a rest ih => rw [after, ih, timeoutMs_feed]

theorem checkTimeout_of_noLimit {f : Framer} (h : f.timeoutMs = 0) (now : Nat) :
    f.checkTimeout now = (none, f) := by
  have hd : f.overdue now = false := by
    unfold overdue
    split
    · rfl
    · simp [h]
  simp [checkTimeout, hd]

end Framer

end Wire

end Marquee
