import Marquee.Stage.Commands
import Marquee.Wire.Script

/-!
# Carrying out frames and scripts

A frame can fail on its way to the stage in several places; `LinkFault` says where.

* `Stage.applyFrame` reads a frame and carries out its command;
* `Stage.applyScript` does so with all frames of a script, up to the first fault. What was carried
  out before stays.
-/

namespace Marquee

open Wire

/-- Why bytes of a link did not become a change of the stage. -/
inductive LinkFault where
  /-- The link could not be read. -/
  | transport
  /-- A frame was given up. -/
  | frame (fault : FrameFault)
  /-- A frame is not a command. -/
  | grammar (fault : GrammarFault)
  /-- A command was refused. -/
  | stage (fault : StageFault)
  deriving DecidableEq, Repr, Inhabited

/-- What is said of the fault. -/
def LinkFault.message : LinkFault → String
  | .transport => "transport read error"
  | .frame e => "frame: " ++ e.message
  | .grammar e => "parse: " ++ e.message
  | .stage e => "engine: " ++ e.message

namespace Stage

/-- Carry out the command of a frame. -/
def applyFrame (s : Stage) (f : Frame) : Except LinkFault Outcome × Stage :=
  match Command.ofBytes f.bytes with
  | .error e => (.error (.grammar e), s)
  | .ok c =>
    match s.apply c with
    | (.ok outcome, s) => (.ok outcome, s)
    | (.error e, s) => (.error (.stage e), s)

/-- Carry out frames up to the first fault, where `count` were carried out before; tells how many
were. -/
def applyEvents (count : Nat) (s : Stage) : List FrameEvent → Except LinkFault Nat × Stage
  | [] => (.ok count, s)
  | .error e :: _ => (.error (.frame e), s)
  | .ok f :: rest =>
    match s.applyFrame f with
    | (.ok _, s) => applyEvents (count + 1) s rest
    | (.error e, s) => (.error e, s)

/-- Carry out a script up to the first fault; tells the number of its frames. -/
def applyScript (s : Stage) (script : List UInt8) : Except LinkFault Nat × Stage :=
  s.applyEvents 0 (Script.events script)

end Stage

end Marquee
