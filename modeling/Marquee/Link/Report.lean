import Marquee.Counter
import Marquee.Stage.Frames

/-!
# Counting and reporting

* `LinkTally` counts over the whole life of a sign;
* `Report` tells of one poll. It keeps the first entries of each kind and counts the others.
-/

namespace Marquee

/-- What came over the link so far. -/
structure LinkTally where
  /-- Bytes taken from the link. -/
  bytesReceived : Nat := 0
  /-- Frames whose command was carried out. -/
  framesApplied : Nat := 0
  /-- Frames that were given up. -/
  frameFaults : Nat := 0
  /-- Frames that are not a command. -/
  grammarFaults : Nat := 0
  /-- Frames whose command was refused. -/
  stageFaults : Nat := 0
  /-- Reads that failed. -/
  transportFaults : Nat := 0
  deriving DecidableEq, Repr, Inhabited

namespace LinkTally

/-- Add to a 32-bit count. -/
def add (count more : Nat) : Nat := Counter.addUpTo Counter.cap32 count more

/-- Count bytes taken from the link. -/
def noteBytes (t : LinkTally) (n : Nat) : LinkTally :=
  { t with bytesReceived := add t.bytesReceived n }

/-- Count a command that was carried out. -/
def noteApplied (t : LinkTally) : LinkTally := { t with framesApplied := add t.framesApplied 1 }

/-- Count a fault by its kind. -/
def noteFault (t : LinkTally) : LinkFault → LinkTally
  | .transport => { t with transportFaults := add t.transportFaults 1 }
  | .frame _ => { t with frameFaults := add t.frameFaults 1 }
  | .grammar _ => { t with grammarFaults := add t.grammarFaults 1 }
  | .stage _ => { t with stageFaults := add t.stageFaults 1 }

/-- Frames that came and were not carried out. -/
def rejected (t : LinkTally) : Nat := add (add t.frameFaults t.grammarFaults) t.stageFaults

end LinkTally

/-- What happened in one poll. -/
structure Report where
  /-- Bytes taken from the link. -/
  bytesRead : Nat := 0
  /-- The first outcomes, in order. -/
  applied : List Outcome := []
  /-- The first faults, in order. -/
  faults : List LinkFault := []
  /-- Outcomes and faults beyond those. -/
  overflowed : Nat := 0
  /-- The active cue. -/
  cue : Option Nat := none
  deriving DecidableEq, Repr, Inhabited

namespace Report

/-- The most entries of one kind that are kept. -/
def maxKept : Nat := 8

/-- Count an entry that is not kept. -/
def noteOverflow (r : Report) : Report :=
  { r with overflowed := Counter.addUpTo Counter.cap16 r.overflowed 1 }

/-- Note an outcome. -/
def noteApplied (r : Report) (o : Outcome) : Report :=
  if r.applied.length < maxKept then { r with applied := r.applied ++ [o] } else r.noteOverflow

/-- Note a fault. -/
def noteFault (r : Report) (e : LinkFault) : Report :=
  if r.faults.length < maxKept then { r with faults := r.faults ++ [e] } else r.noteOverflow

/-- No byte came and nothing failed. -/
def isQuiet (r : Report) : Bool := r.bytesRead = 0 && r.faults.isEmpty

end Report

end Marquee
