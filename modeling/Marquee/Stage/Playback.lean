import Marquee.Stage.Basic

/-!
# Playing the timeline

`Stage.tick` finds the active cue and carries out its actions in order. If one of them overwrites a
color, all sprites are colored anew once, after the last action.
-/

namespace Marquee

namespace Stage

/-- Carry out one action; tells whether it overwrote a color. Sprites are not yet colored anew. -/
def perform (s : Stage) : Action → Bool × Stage
  | .place sprite x y visible =>
    (false,
      { s with scene := s.scene.update sprite fun p => (p.moveTo x y).setVisible visible })
  | .recolor index color => s.writeColor index color

/-- Carry out actions in order; tells whether one of them, or one before them, overwrote a color. -/
def performAll (recolored : Bool) (s : Stage) : List Action → Bool × Stage
  | [] => (recolored, s)
  | a :: rest =>
    let (now, s) := s.perform a
    performAll (recolored || now) s rest

/-- Play the timeline at `now`, in nanoseconds; tells the active cue. -/
def tick (s : Stage) (now : Nat) : Option Nat × Stage :=
  let (index, playhead) := s.playhead.tick now s.timeline
  let s := { s with playhead := playhead, activeCue := index }
  match index.bind s.timeline.get? with
  | none => (none, s)
  | some cue =>
    let (recolored, s) := s.performAll false cue.actions
    (index, if recolored then s.rebind else s)

end Stage

end Marquee
