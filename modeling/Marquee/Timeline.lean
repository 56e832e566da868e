import Marquee.Counter
import Marquee.Scene

/-!
# The timeline and its playhead

A `Cue` is a list of actions that hold for a while. The `Timeline` is the loop of all cues, each in a
window of its own: half-open, and beginning where the one before ends. Cues without duration have
empty windows and are never active.

The `Playhead` maps time to the active cue. Its clock starts with the first tick and restarts at the
tick that finds the loop over. All times are nanoseconds, and sums stop at the cap of the clock.

* `Timeline.cueAt?` : the cue whose window holds a time since the start of the loop;
* `Playhead.tick` : the active cue at a time.
-/

namespace Marquee

/-- What a cue does while it is active. -/
inductive Action where
  /-- Move a sprite, and show or hide it. -/
  | place (sprite : SpriteRef) (x y : Nat) (visible : Bool)
  /-- Overwrite a color of the palette. -/
  | recolor (index : UInt8) (color : Color)
  deriving DecidableEq, Repr, Inhabited

/-- Actions that hold for a while. -/
structure Cue where
  /-- How long, in nanoseconds. -/
  durationNs : Nat
  /-- What it does, in order. -/
  actions : List Action
  deriving DecidableEq, Repr, Inhabited

/-- The cues that are played in a loop. -/
structure Timeline where
  /-- The cues, in order. -/
  cues : Array Cue
  deriving DecidableEq, Repr, Inhabited

namespace Timeline

/-- A timeline without cues. -/
def empty : Timeline := ⟨#[]⟩

/-- The number of cues. -/
def size (t : Timeline) : Nat := t.cues.size

/-- There are no cues. -/
def isEmpty (t : Timeline) : Bool := t.cues.isEmpty

/-- Append a cue. -/
def push (t : Timeline) (cue : Cue) : Timeline := ⟨t.cues.push cue⟩

/-- The cue at an index. -/
def get? (t : Timeline) (index : Nat) : Option Cue := t.cues[index]?

/-- The end of a window that begins at `start`. -/
def windowEnd (start : Nat) (cue : Cue) : Nat :=
  Counter.addUpTo Counter.cap64 start cue.durationNs

/-- The duration of the loop. -/
def totalNs (t : Timeline) : Nat := t.cues.foldl windowEnd 0

/-- The index of the cue whose window holds `elapsed`, where the first cue has the given index and
its window begins at `start`. -/
def windowFrom (elapsed index start : Nat) : List Cue → Option Nat
  | [] => none
  | cue :: cues =>
    if start ≤ elapsed ∧ elapsed < windowEnd start cue then some index
    else windowFrom elapsed (index + 1) (windowEnd start cue) cues

/-- The index of the cue whose window holds `elapsed`. -/
def cueAt? (t : Timeline) (elapsed : Nat) : Option Nat := windowFrom elapsed 0 0 t.cues.toList

end Timeline

/-- The clock of a timeline. -/
structure Playhead where
  /-- When the loop began, in nanoseconds; none before the first tick. -/
  startNs : Option Nat
  /-- With fewer cues than this, nothing is played. -/
  minCues : Nat
  deriving DecidableEq, Repr, Inhabited

namespace Playhead

/-- The clock before its first tick. -/
def new (minCues : Nat) : Playhead := ⟨none, minCues⟩

/-- The number of cues asked for where nothing else is said. -/
def defaultMinCues : Nat := 2

/-- The usual clock. -/
def default : Playhead := new defaultMinCues

/-- Start again with the next tick. -/
def reset (p : Playhead) : Playhead := { p with startNs := none }

/-- The active cue at `now`, if any, and the clock after that tick. -/
def tick (p : Playhead) (now : Nat) (t : Timeline) : Option Nat × Playhead :=
  let start := p.startNs.getD now
  let p := { p with startNs := some start }
  if t.size < max p.minCues 1 ∨ t.totalNs = 0 then (none, p)
  else if t.totalNs ≤ now - start then (t.cueAt? 0, { p with startNs := some now })
  else (t.cueAt? (now - start), p)

end Playhead

end Marquee
