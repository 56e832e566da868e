import Marquee.Link.Report
import Mathlib.Data.List.Induction
import Mathlib.Tactic.SplitIfs

/-!
# What reports keep and tallies count

What a poll comes to is noted entry by entry, in a report that has room for few of them and in a tally
whose counts can stop. This file says when neither loses any.

* `Entry` : an outcome or a fault.
* `Report.Keeps` : which entries a report keeps; a report that notes them one by one does so
  (`Report.keeps_foldl`), and none is lost if there are few enough (`Report.Keeps.complete`).
* `LinkTally.Grows` : what a tally has counted, if none of its counts has stopped at its cap.
-/

namespace Marquee

/-- What there is to report: that a command was carried out, or that something failed. -/
abbrev Entry := Except LinkFault Outcome

namespace Entry

/-- The outcomes among entries. -/
def outcomes (entries : List Entry) : List Outcome := entries.filterMap Except.toOption

/-- The fault, if the entry is one. -/
def fault? : Entry → Option LinkFault
  | .ok _ => none
  | .error e => some e

/-- The faults among entries. -/
def faults (entries : List Entry) : List LinkFault := entries.filterMap fault?

/-- An entry is an outcome or a fault. -/
theorem length_outcomes_add_length_faults (entries : List Entry) :
    (outcomes entries).length + (faults entries).length = entries.length := by
  induction entries with
  | nil => rfl
  | cons e rest ih =>
    cases e <;>
    · simp only [outcomes, faults, fault?, List.filterMap_cons, Except.toOption, List.length_cons] at ih ⊢
      omega

end Entry

/-! ### Reports -/

namespace Report

/-- Note an entry. -/
def note (r : Report) : Entry → Report
  | .ok o => r.noteApplied o
  | .error e => r.noteFault e

/-- A report keeps the first outcomes and the first faults of the entries, and counts the others. -/
structure Keeps (entries : List Entry) (r : Report) : Prop where
  /-- The first outcomes. -/
  applied : r.applied = (Entry.outcomes entries).take maxKept
  /-- The first faults. -/
  faults : r.faults = (Entry.faults entries).take maxKept
  /-- All others. -/
  overflowed : r.overflowed =
    min (((Entry.outcomes entries).length - maxKept) + ((Entry.faults entries).length - maxKept))
      Counter.cap16

/-- One more behind the entries that are kept: it is kept too if there is room. -/
theorem take_concat {α : Type} (l : List α) (a : α) (n : Nat) :
    (l ++ [a]).take n = if (l.take n).length < n then l.take n ++ [a] else l.take n := by
  rw [List.length_take]
  split_ifs with h
  · rw [List.take_of_length_le (by simp; omega), List.take_of_length_le (by omega)]
  · rw [List.take_append_of_le_length (by omega)]

/-- If there is no room, it is one more that is not kept. -/
theorem length_concat_sub {α : Type} (l : List α) (a : α) (n : Nat) :
    (l ++ [a]).length - n = if (l.take n).length < n then l.length - n else l.length - n + 1 := by
  rw [List.length_take, List.length_append, List.length_singleton]
  split_ifs <;> omega

/-- An entry that is not kept is counted. -/
theorem overflowed_noteOverflow {r : Report} {n : Nat} (h : r.overflowed = min n Counter.cap16) :
    r.noteOverflow.overflowed = min (n + 1) Counter.cap16 := by
  simp only [noteOverflow, Counter.addUpTo, h]
  omega

theorem Keeps.note {entries : List Entry} {r : Report} (h : Keeps entries r) (e : Entry) :
    Keeps (entries ++ [e]) (r.note e) := by
  obtain ⟨happlied, hfaults, hoverflowed⟩ := h
  cases e with
  | ok o =>
    have houtcomes : Entry.outcomes (entries ++ [.ok o]) = Entry.outcomes entries ++ [o] := by
      simp [Entry.outcomes, Except.toOption]
    have hrest : Entry.faults (entries ++ [.ok o]) = Entry.faults entries := by
      simp [Entry.faults, Entry.fault?]
    refine ⟨?_, ?_, ?_⟩ <;> rw [Report.note, noteApplied, happlied]
    · rw [houtcomes, take_concat]
      split_ifs
      · rfl
      · exact happlied
    · rw [hrest]
      split_ifs <;> exact hfaults
    · rw [houtcomes, hrest, length_concat_sub]
      split_ifs
      · exact hoverflowed
      · rw [Nat.add_right_comm]
        exact overflowed_noteOverflow hoverflowed
  | error e =>
    have hrest : Entry.outcomes (entries ++ [.error e]) = Entry.outcomes entries := by
      simp [Entry.outcomes, Except.toOption]
    have hfaults' : Entry.faults (entries ++ [.error e]) = Entry.faults entries ++ [e] := by
      simp [Entry.faults, Entry.fault?]
    refine ⟨?_, ?_, ?_⟩ <;> rw [Report.note, noteFault, hfaults]
    · rw [hrest]
      split_ifs <;> exact happlied
    · rw [hfaults', take_concat]
      split_ifs
      · rfl
      · exact hfaults
    · rw [hrest, hfaults', length_concat_sub]
      split_ifs
      · exact hoverflowed
      · exact overflowed_noteOverflow hoverflowed

/-- **A report keeps what it notes.** -/
theorem keeps_foldl (entries : List Entry) : Keeps entries (entries.foldl note {}) := by
  induction entries using List.reverseRecOn with
  | nil => exact ⟨rfl, rfl, rfl⟩
  | append_singleton entries e ih =>
    rw [List.foldl_append]
    exact ih.note e

/-- With fewer entries than a 16-bit count can hold beside those that are kept, none is lost. -/
theorem Keeps.complete {entries : List Entry} {r : Report} (h : Keeps entries r)
    (few : entries.length < Counter.cap16 + maxKept) :
    r.applied.length + r.faults.length + r.overflowed = entries.length ∧
      r.overflowed < Counter.cap16 := by
  have htotal := Entry.length_outcomes_add_length_faults entries
  rw [h.applied, h.faults, h.overflowed, List.length_take, List.length_take]
  simp only [maxKept, Counter.cap16] at few ⊢
  omega

end Report

/-! ### Tallies -/

namespace LinkTally

/-- Count an entry. -/
def note (t : LinkTally) : Entry → LinkTally
  | .ok _ => t.noteApplied
  | .error e => t.noteFault e

/-- The number of entries that were counted. -/
def noted (t : LinkTally) : Nat :=
  t.framesApplied + t.frameFaults + t.grammarFaults + t.stageFaults + t.transportFaults

/-- No count stands at its cap. -/
structure Unsaturated (t : LinkTally) : Prop where
  bytesReceived : t.bytesReceived < Counter.cap32
  framesApplied : t.framesApplied < Counter.cap32
  frameFaults : t.frameFaults < Counter.cap32
  grammarFaults : t.grammarFaults < Counter.cap32
  stageFaults : t.stageFaults < Counter.cap32
  transportFaults : t.transportFaults < Counter.cap32

/-- Behind `t`, so many bytes and entries were counted, unless a count has stopped. -/
def Grows (bytes entries : Nat) (t t' : LinkTally) : Prop :=
  t'.Unsaturated → t.Unsaturated ∧ t'.bytesReceived = t.bytesReceived + bytes ∧
    t'.noted = t.noted + entries

theorem Grows.refl (t : LinkTally) : Grows 0 0 t t := fun h => ⟨h, rfl, rfl⟩

theorem Grows.trans {m n m' n' : Nat} {t t' t'' : LinkTally} (h : Grows m n t t')
    (h' : Grows m' n' t' t'') : Grows (m + m') (n + n') t t'' := by
  intro hroom
  obtain ⟨hroom', hbytes', hnoted'⟩ := h' hroom
  obtain ⟨hroom, hbytes, hnoted⟩ := h hroom'
  exact ⟨hroom, by omega, by omega⟩

theorem lt_of_add_lt {count more : Nat} (h : add count more < Counter.cap32) :
    count < Counter.cap32 ∧ add count more = count + more := by
  simp only [add, Counter.addUpTo] at h ⊢
  omega

theorem grows_noteBytes (t : LinkTally) (n : Nat) : Grows n 0 t (t.noteBytes n) := by
  intro h
  obtain ⟨hlt, hadd⟩ := lt_of_add_lt h.bytesReceived
  exact ⟨{ h with bytesReceived := hlt }, hadd, rfl⟩

theorem grows_note (t : LinkTally) (e : Entry) : Grows 0 1 t (t.note e) := by
  intro h
  cases e with
  | ok o =>
    obtain ⟨hlt, hadd⟩ := lt_of_add_lt h.framesApplied
    refine ⟨{ h with framesApplied := hlt }, rfl, ?_⟩
    simp only [noted, note, noteApplied, hadd]
    omega
  | error e =>
    cases e with
    | transport =>
      obtain ⟨hlt, hadd⟩ := lt_of_add_lt h.transportFaults
      refine ⟨{ h with transportFaults := hlt }, rfl, ?_⟩
      simp only [noted, note, noteFault, hadd]
      omega
    | frame e =>
      obtain ⟨hlt, hadd⟩ := lt_of_add_lt h.frameFaults
      refine ⟨{ h with frameFaults := hlt }, rfl, ?_⟩
      simp only [noted, note, noteFault, hadd]
      omega
    | grammar e =>
      obtain ⟨hlt, hadd⟩ := lt_of_add_lt h.grammarFaults
      refine ⟨{ h with grammarFaults := hlt }, rfl, ?_⟩
      simp only [noted, note, noteFault, hadd]
      omega
    | stage e =>
      obtain ⟨hlt, hadd⟩ := lt_of_add_lt h.stageFaults
      refine ⟨{ h with stageFaults := hlt }, rfl, ?_⟩
      simp only [noted, note, noteFault, hadd]
      omega

theorem grows_foldl (t : LinkTally) (entries : List Entry) :
    Grows 0 entries.length t (entries.foldl note t) := by
  induction entries generalizing t with
  | nil => exact .refl t
  | cons e rest ih =>
    rw [List.length_cons, Nat.add_comm]
    exact (t.grows_note e).trans (ih _)

end LinkTally

end Marquee
