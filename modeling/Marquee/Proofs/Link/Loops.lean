import Marquee.Proofs.Link.Intake

/-!
# The loops of a poll end

A poll takes bytes in two loops, one in the other, and neither has a bound of its own: the inner one ends
with a frame or with nothing left to take, and the outer one goes on behind every frame and every fault
but that of the link. This file has both as relations that say what the loops do and nothing of how often
they run.

* `Sign.Reads` : the inner loop. It comes to what `readFrame` finds, and to nothing else
  (`Sign.reads_iff`).
* `Sign.Drains` : the outer loop. It comes to what a poll absorbs, and to nothing else
  (`Sign.drains_iff`), so that **both loops end, whatever the link does**.

That they end rests on `Pulls.reserve`: a byte that is fed either waited or was taken from the budget of
the poll.
-/

namespace Marquee

open Wire

namespace Sign

variable {S D : Type} [Source S] {s s' t : Sign S D} {nowMs : Nat} {report : Report}

/-! ### One frame -/

/-- Bytes are taken and fed until one of them ends a frame, something fails, or nothing is left to
take. -/
inductive Reads (nowMs : Nat) : Sign S D → Except LinkFault (Option Frame) → Sign S D → Prop where
  /-- There is nothing to take. -/
  | nothing {s s' : Sign S D} (taking : s.pull = (.nothing, s')) : Reads nowMs s (.ok none) s'
  /-- The link fails. -/
  | failed {s s' : Sign S D} (taking : s.pull = (.failed, s')) : Reads nowMs s (.error .transport) s'
  /-- The framer has nothing to tell of the byte; on to the next one. -/
  | silent {s s' s'' t : Sign S D} {b : UInt8} {found : Except LinkFault (Option Frame)}
      (taking : s.pull = (.byte b, s')) (feeding : s'.feed nowMs b = (none, s''))
      (later : Reads nowMs s'' found t) : Reads nowMs s found t
  /-- The byte ends a frame. -/
  | whole {s s' s'' : Sign S D} {b : UInt8} {f : Frame} (taking : s.pull = (.byte b, s'))
      (feeding : s'.feed nowMs b = (some (.ok f), s'')) : Reads nowMs s (.ok (some f)) s''
  /-- A frame is given up. -/
  | broken {s s' s'' : Sign S D} {b : UInt8} {e : FrameFault} (taking : s.pull = (.byte b, s'))
      (feeding : s'.feed nowMs b = (some (.error e), s'')) : Reads nowMs s (.error (.frame e)) s''

/-- The loop has one result at most. -/
theorem Reads.unique {found found' : Except LinkFault (Option Frame)} (h : Reads nowMs s found t)
    (h' : Reads nowMs s found' s') : found = found' ∧ t = s' := by
  induction h with
  | nothing taking => cases h' <;> simp_all
  | failed taking => cases h' <;> simp_all
  | silent taking feeding _ ih =>
    cases h' with
    | silent taking' feeding' later =>
      obtain ⟨hbyte, rfl⟩ := Prod.mk.inj (taking.symm.trans taking')
      obtain rfl := Pulled.byte.inj hbyte
      obtain ⟨-, rfl⟩ := Prod.mk.inj (feeding.symm.trans feeding')
      exact ih later
    | _ => simp_all
  | whole taking feeding => cases h' <;> simp_all
  | broken taking feeding => cases h' <;> simp_all

/-- A sign with nothing in reserve finds nothing to take. -/
theorem pull_of_reserve_eq_zero (h : s.reserve = 0) : s.pull = (.nothing, s) := by
  rw [Sign.reserve, Nat.add_eq_zero_iff, List.length_eq_zero_iff] at h
  simp only [pull, h.2, fill, h.1, ↓reduceIte]

theorem reads_readUpTo {n : Nat} (hn : s.reserve ≤ n) :
    Reads nowMs s (readUpTo nowMs n s).1 (readUpTo nowMs n s).2 := by
  -- on the bytes that can still be fed, of which each round uses up one
  induction n generalizing s with
  | zero => exact .nothing (pull_of_reserve_eq_zero (Nat.le_zero.1 hn))
  | succ n ih =>
    have hp := s.pulls_pull
    rw [readUpTo]
    rcases taking : s.pull with ⟨p, s'⟩
    rw [taking] at hp
    cases p with
    | nothing => exact .nothing taking
    | failed => exact .failed taking
    | byte b =>
      have hreserve : s'.reserve + 1 = s.reserve := hp.reserve
      rcases feeding : s'.feed nowMs b with ⟨_ | _ | _, s''⟩ <;> simp only [feeding]
      case none =>
        have hfed : s'.reserve = s''.reserve := congrArg (fun r => r.2.reserve) feeding
        exact .silent taking feeding (ih (by omega))
      case some.error e => exact .broken taking feeding
      case some.ok f => exact .whole taking feeding

/-- **The inner loop comes to what is found up to the next frame**, and to nothing else. -/
theorem reads_iff {found : Except LinkFault (Option Frame)} :
    Reads nowMs s found t ↔ s.readFrame nowMs = (found, t) := by
  have h : Reads nowMs s (s.readFrame nowMs).1 (s.readFrame nowMs).2 := reads_readUpTo (Nat.le_refl _)
  constructor
  · intro h'
    obtain ⟨hfound, hbehind⟩ := h.unique h'
    exact Prod.ext hfound hbehind
  · intro hread
    rwa [hread] at h

/-! ### All frames -/

/-- Frames are read and carried out until nothing is left to take or the link fails. -/
inductive Drains (nowMs : Nat) : Sign S D → Report → Report × Sign S D → Prop where
  /-- There is no further frame. -/
  | drained {s s' : Sign S D} {report : Report} (reading : Reads nowMs s (.ok none) s') :
      Drains nowMs s report (report, s')
  /-- The link fails; that ends the loop. -/
  | failed {s s' : Sign S D} {report : Report} (reading : Reads nowMs s (.error .transport) s') :
      Drains nowMs s report (s'.noteFault report .transport)
  /-- A frame is carried out. -/
  | whole {s s' : Sign S D} {report : Report} {out : Report × Sign S D} {f : Frame}
      (reading : Reads nowMs s (.ok (some f)) s')
      (later : Drains nowMs (s'.applyFrame report f).2 (s'.applyFrame report f).1 out) :
      Drains nowMs s report out
  /-- Any other fault is noted. -/
  | broken {s s' : Sign S D} {report : Report} {out : Report × Sign S D} {e : LinkFault}
      (reading : Reads nowMs s (.error e) s') (other : e ≠ .transport)
      (later : Drains nowMs (s'.noteFault report e).2 (s'.noteFault report e).1 out) :
      Drains nowMs s report out

/-- The loop has one result at most. -/
theorem Drains.unique {out out' : Report × Sign S D} (h : Drains nowMs s report out)
    (h' : Drains nowMs s report out') : out = out' := by
  induction h with
  | drained reading =>
    cases h' with
    | drained reading' => rw [(reading.unique reading').2]
    | failed reading' | whole reading' | broken reading' => cases (reading.unique reading').1
  | failed reading =>
    cases h' with
    | failed reading' => rw [(reading.unique reading').2]
    | broken reading' other =>
      cases (reading.unique reading').1
      exact absurd rfl other
    | drained reading' | whole reading' => cases (reading.unique reading').1
  | whole reading _ ih =>
    cases h' with
    | whole reading' later' =>
      obtain ⟨hfound, rfl⟩ := reading.unique reading'
      cases hfound
      exact ih later'
    | drained reading' | failed reading' | broken reading' => cases (reading.unique reading').1
  | broken reading other _ ih =>
    cases h' with
    | broken reading' _ later' =>
      obtain ⟨hfound, rfl⟩ := reading.unique reading'
      cases hfound
      exact ih later'
    | failed reading' =>
      cases (reading.unique reading').1
      exact absurd rfl other
    | drained reading' | whole reading' => cases (reading.unique reading').1

/-- A byte of which nothing is told does not begin another round. -/
theorem Drains.of_silent {s'' : Sign S D} {b : UInt8} {out : Report × Sign S D}
    (taking : s.pull = (.byte b, s')) (feeding : s'.feed nowMs b = (none, s''))
    (h : Drains nowMs s'' report out) : Drains nowMs s report out := by
  cases h with
  | drained reading => exact .drained (.silent taking feeding reading)
  | failed reading => exact .failed (.silent taking feeding reading)
  | whole reading later => exact .whole (.silent taking feeding reading) later
  | broken reading other later => exact .broken (.silent taking feeding reading) other later

theorem drains_absorbUpTo {n : Nat} (hn : s.reserve ≤ n) :
    Drains nowMs s report (absorbUpTo nowMs n report s) := by
  induction n generalizing s report with
  | zero => exact .drained (.nothing (pull_of_reserve_eq_zero (Nat.le_zero.1 hn)))
  | succ n ih =>
    have hp := s.pulls_pull
    rw [absorbUpTo]
    rcases taking : s.pull with ⟨p, s'⟩
    rw [taking] at hp
    cases p with
    | nothing => exact .drained (.nothing taking)
    | failed => exact .failed (.failed taking)
    | byte b =>
      have hreserve : (s'.absorb nowMs report b).2.reserve + 1 = s.reserve :=
        hp.reserve_absorb nowMs report
      have later : Drains nowMs (s'.absorb nowMs report b).2 (s'.absorb nowMs report b).1
        (absorbUpTo nowMs n (s'.absorb nowMs report b).1 (s'.absorb nowMs report b).2) := ih (by omega)
      rcases feeding : s'.feed nowMs b with ⟨_ | _ | _, s''⟩ <;>
        simp only [absorb, feeding] at later ⊢
      case none => exact .of_silent taking feeding later
      case some.error e => exact .broken (.broken taking feeding) nofun later
      case some.ok f => exact .whole (.whole taking feeding) later

/-- **The outer loop comes to what is absorbed**, and to nothing else. -/
theorem drains_iff {out : Report × Sign S D} :
    Drains nowMs s report out ↔ absorbUpTo nowMs s.reserve report s = out :=
  ⟨fun h => (drains_absorbUpTo (Nat.le_refl _)).unique h,
    fun h => h ▸ drains_absorbUpTo (Nat.le_refl _)⟩

end Sign

end Marquee
