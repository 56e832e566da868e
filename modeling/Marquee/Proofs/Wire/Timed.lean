import Marquee.Proofs.Wire.Arrivals
import Mathlib.Data.List.Induction

/-!
# Framers that look at the clock

Two things happen to a framer: a byte arrives, or the clock is looked at. `FramerInput` has both, so that
theorems can speak of any mixture of them. Runs are followed from the last input backwards
(`behind_concat`, `answers_concat`).

* `Framer.Checked` : the two things that a look at the clock can do; `Framer.checked_checkTimeout` says
  that there are no others.
* `Framer.answers` : what is told at each input, an event or nothing; `Framer.behind` : the framer behind
  the last one.
* `FramerInput.arrivals` : the bytes among the inputs.
-/

namespace Marquee

namespace Wire

/-- What happens to a framer. -/
inductive FramerInput where
  /-- A byte arrives, at a time in milliseconds. -/
  | byte (now : Nat) (b : UInt8)
  /-- The clock is looked at. -/
  | check (now : Nat)
  deriving DecidableEq, Repr

namespace FramerInput

/-- The byte that arrives, if one does. -/
def arrival? : FramerInput → Option (Nat × UInt8)
  | .byte now b => some (now, b)
  | .check _ => none

/-- The bytes among the inputs, in order. -/
def arrivals (inputs : List FramerInput) : List (Nat × UInt8) := inputs.filterMap arrival?

theorem arrivals_concat (inputs : List FramerInput) (i : FramerInput) :
    arrivals (inputs ++ [i]) = arrivals inputs ++ i.arrival?.toList := by
  cases h : i.arrival? <;> simp [arrivals, h]

end FramerInput

namespace Framer

/-! ### One look at the clock -/

/-- What a look at the clock does to a framer: what is told, and the framer behind it. -/
inductive Checked (f : Framer) (now : Nat) : Option FrameFault → Framer → Prop where
  /-- Nothing is overdue. -/
  | kept (inTime : f.overdue now = false) : Checked f now none f
  /-- The frame under way is overdue, and is given up. -/
  | cut {o : OpenFrame} (busy : f.current = some o) (late : f.overdue now = true) :
      Checked f now (some .timeout) (f.giveUp o.bytes.size)

/-- **A look at the clock does one of the two things, and nothing else.** -/
theorem checked_checkTimeout (f : Framer) (now : Nat) :
    Checked f now (f.checkTimeout now).1 (f.checkTimeout now).2 := by
  unfold checkTimeout
  split_ifs with late
  · cases hcurrent : f.current with
    | none => simp [overdue, hcurrent] at late
    | some o => exact .cut hcurrent late
  · exact .kept (Bool.not_eq_true _ ▸ late)

/-- The frame under way is overdue if there is a limit, and more than that lies behind its last byte. -/
theorem overdue_iff {f : Framer} {now : Nat} :
    f.overdue now = true ↔
      f.timeoutMs ≠ 0 ∧ ∃ o, f.current = some o ∧ f.timeoutMs < now - o.lastMs := by
  unfold overdue
  cases f.current with
  | none => simp
  | some o => simp

/-! ### Many inputs -/

/-- The framer behind an input. -/
def step (f : Framer) : FramerInput → Framer
  | .byte now b => (f.feed now b).2
  | .check now => (f.checkTimeout now).2

/-- What is told at an input. -/
def answer (f : Framer) : FramerInput → Option FrameEvent
  | .byte now b => (f.feed now b).1
  | .check now => (f.checkTimeout now).1.map .error

/-- The framer behind all inputs of a run. -/
def behind (f : Framer) (inputs : List FramerInput) : Framer := inputs.foldl step f

/-- What is told at each input of a run. -/
def answers (f : Framer) : List FramerInput → List (Option FrameEvent)
  | [] => []
  | i :: rest => f.answer i :: (f.step i).answers rest

theorem behind_append (f : Framer) (before later : List FramerInput) :
    f.behind (before ++ later) = (f.behind before).behind later := List.foldl_append

theorem behind_concat (f : Framer) (inputs : List FramerInput) (i : FramerInput) :
    f.behind (inputs ++ [i]) = (f.behind inputs).step i := f.behind_append inputs [i]

theorem answers_append (f : Framer) (before later : List FramerInput) :
    f.answers (before ++ later) = f.answers before ++ (f.behind before).answers later := by
  induction before generalizing f with
  | nil => rfl
  | cons i rest ih =>
    rw [List.cons_append, answers, ih, answers]
    rfl

theorem answers_concat (f : Framer) (inputs : List FramerInput) (i : FramerInput) :
    f.answers (inputs ++ [i]) = f.answers inputs ++ [(f.behind inputs).answer i] :=
  f.answers_append inputs [i]

/-! ### Limits -/

/-- Nothing changes the limits. -/
theorem limits_step (f : Framer) (i : FramerInput) :
    (f.step i).maxLength = f.maxLength ∧ (f.step i).timeoutMs = f.timeoutMs := by
  cases i with
  | byte now b =>
    have fed := f.fed_feed now b
    rw [step]
    generalize f.feed now b = r at fed ⊢
    obtain ⟨told, f'⟩ := r
    cases fed <;> exact ⟨rfl, rfl⟩
  | check now =>
    have checked := f.checked_checkTimeout now
    rw [step]
    generalize f.checkTimeout now = r at checked ⊢
    obtain ⟨told, f'⟩ := r
    cases checked <;> exact ⟨rfl, rfl⟩

theorem limits_behind (f : Framer) (inputs : List FramerInput) :
    (f.behind inputs).maxLength = f.maxLength ∧ (f.behind inputs).timeoutMs = f.timeoutMs := by
  induction inputs using List.reverseRecOn with
  | nil => exact ⟨rfl, rfl⟩
  | append_singleton inputs i ih =>
    obtain ⟨hlength, htimeout⟩ := limits_step (f.behind inputs) i
    rw [behind_concat]
    exact ⟨hlength.trans ih.1, htimeout.trans ih.2⟩

end Framer

end Wire

end Marquee
