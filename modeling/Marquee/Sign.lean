import Marquee.Display.Screen
import Marquee.Link.Report
import Marquee.Link.Source
import Marquee.Stage.Playback

/-!
# A running sign

A `Sign` takes commands from a link, carries them out on its stage, and shows the scene. All its work
is done in polls. One poll

* takes bytes from the link, at most as many as the settings allow, and carries out each frame that
  ends among them;
* gives up a frame whose next byte is overdue;
* plays the timeline;
* composes the scene and refreshes the display.

Frames that fail are counted and reported, and change nothing else. Only a fault of the display
keeps a poll from reporting.

Bytes are read into a buffer that is never cleared: of a link that claims more bytes than it has
written, the sign takes what the buffer still holds from earlier reads.
-/

namespace Marquee

open Wire

/-- What shows scenes, and what it fails with. -/
class Display (D : Type) (ε : outParam Type) where
  /-- Compose a scene. -/
  compose : D → Scene → Except ε Unit × D
  /-- Show what was composed. -/
  refresh : D → Except ε Unit × D

instance {P : Type} [Panel P] : Display (Screen P) PanelFault where
  compose s scene := (.ok (), s.composeRows (Array.replicate s.width s.background) scene)
  refresh := Screen.refresh

/-- A running sign. -/
structure Sign (S D : Type) where
  /-- The link. -/
  source : S
  /-- The display. -/
  display : D
  /-- The stage. -/
  stage : Stage
  /-- What cuts the bytes of the link into frames. -/
  framer : Framer
  /-- The buffer for reads, as the last one left it. -/
  buffer : List UInt8
  /-- Bytes that were taken from the link and not yet given to the framer. -/
  pending : List UInt8
  /-- Bytes that may still be taken in this poll. -/
  budget : Nat
  /-- The most bytes of one poll. -/
  bytesPerPoll : Nat
  /-- What came over the link so far. -/
  tally : LinkTally
  /-- Bytes taken in this poll. -/
  polledBytes : Nat

/-- What the link has to give. -/
inductive Pulled where
  /-- A byte. -/
  | byte (b : UInt8)
  /-- Nothing for now, or nothing more in this poll. -/
  | nothing
  /-- The read failed. -/
  | failed
  deriving DecidableEq, Repr, Inhabited

namespace Sign

variable {S D ε : Type}

/-- A sign before its first poll. -/
def new (settings : Settings) (source : S) (display : D) : Sign S D :=
  let bytesPerPoll := max settings.link.maxBytesPerPoll.toNat 1
  { source := source
    display := display
    stage := .new settings.stage
    framer := .new settings.link.maxFrameLength.toNat settings.link.frameTimeoutMs.toNat
    buffer := List.replicate bytesPerPoll 0
    pending := []
    budget := bytesPerPoll
    bytesPerPoll := bytesPerPoll
    tally := {}
    polledBytes := 0 }

/-- The most bytes that can still be given to the framer in this poll. -/
def reserve (s : Sign S D) : Nat := s.budget + s.pending.length

/-- The active cue. -/
def activeCue (s : Sign S D) : Option Nat := s.stage.activeCue

/-! ### Taking bytes -/

/-- Read from the link into the buffer. The number of bytes taken is at most the budget, whatever the
link claims. -/
def fill [Source S] (s : Sign S D) : Pulled × Sign S D :=
  if s.budget = 0 then (.nothing, s)
  else
    let (delivery, source) := Source.read s.source s.budget
    let written := delivery.written.take s.budget
    let buffer := written ++ s.buffer.drop written.length
    let s := { s with source := source, buffer := buffer }
    match delivery.claimed with
    | none => (.failed, s)
    | some claimed =>
      match buffer.take (min claimed s.budget) with
      | [] => (.nothing, s)
      | b :: rest =>
        let taken := rest.length + 1
        (.byte b,
          { s with
            pending := rest
            budget := s.budget - taken
            tally := s.tally.noteBytes taken
            polledBytes := Counter.addUpTo Counter.cap32 s.polledBytes taken })

/-- The next byte for the framer; the link is read only when none is pending. -/
def pull [Source S] (s : Sign S D) : Pulled × Sign S D :=
  match s.pending with
  | b :: rest => (.byte b, { s with pending := rest })
  | [] => s.fill

/-- Give a byte to the framer. -/
def feed (s : Sign S D) (nowMs : Nat) (b : UInt8) : Option FrameEvent × Sign S D :=
  let (event, framer) := s.framer.feed nowMs b
  (event, { s with framer := framer })

/-- Take at most `n` bytes, up to the end of a frame or to a fault. -/
def readUpTo [Source S] (nowMs : Nat) : (n : Nat) → Sign S D →
    Except LinkFault (Option Frame) × Sign S D
  | 0, s => (.ok none, s)
  | n + 1, s =>
    match s.pull with
    | (.nothing, s) => (.ok none, s)
    | (.failed, s) => (.error .transport, s)
    | (.byte b, s) =>
      match s.feed nowMs b with
      | (none, s) => readUpTo nowMs n s
      | (some (.ok f), s) => (.ok (some f), s)
      | (some (.error e), s) => (.error (.frame e), s)

/-- Take bytes up to the end of a frame. There is none if the link has no more bytes or the budget of
this poll is spent; a frame under way is kept. -/
def readFrame [Source S] (s : Sign S D) (nowMs : Nat) : Except LinkFault (Option Frame) × Sign S D :=
  readUpTo nowMs s.reserve s

/-! ### Polls -/

/-- Count and report a fault. -/
def noteFault (s : Sign S D) (report : Report) (e : LinkFault) : Report × Sign S D :=
  (report.noteFault e, { s with tally := s.tally.noteFault e })

/-- Carry out a frame, and count and report what came of it. -/
def applyFrame (s : Sign S D) (report : Report) (f : Frame) : Report × Sign S D :=
  let (result, stage) := s.stage.applyFrame f
  let s := { s with stage := stage }
  match result with
  | .ok outcome => (report.noteApplied outcome, { s with tally := s.tally.noteApplied })
  | .error e => s.noteFault report e

/-- Give a byte to the framer, and carry out the frame it ends. -/
def absorb (s : Sign S D) (nowMs : Nat) (report : Report) (b : UInt8) : Report × Sign S D :=
  match s.feed nowMs b with
  | (none, s) => (report, s)
  | (some (.ok f), s) => s.applyFrame report f
  | (some (.error e), s) => s.noteFault report (.frame e)

/-- Take and absorb at most `n` bytes, up to a read that fails. -/
def absorbUpTo [Source S] (nowMs : Nat) : (n : Nat) → Report → Sign S D → Report × Sign S D
  | 0, report, s => (report, s)
  | n + 1, report, s =>
    match s.pull with
    | (.nothing, s) => (report, s)
    | (.failed, s) => s.noteFault report .transport
    | (.byte b, s) =>
      let (report, s) := s.absorb nowMs report b
      absorbUpTo nowMs n report s

/-- Take all bytes of this poll. -/
def intake [Source S] (s : Sign S D) (nowMs : Nat) : Report × Sign S D :=
  let s := { s with budget := s.bytesPerPoll, polledBytes := 0 }
  absorbUpTo nowMs s.reserve {} s

/-- Give up a frame that is overdue. -/
def checkTimeout (s : Sign S D) (nowMs : Nat) (report : Report) : Report × Sign S D :=
  match s.framer.checkTimeout nowMs with
  | (none, _) => (report, s)
  | (some e, framer) => { s with framer := framer }.noteFault report (.frame e)

/-- Play the timeline. -/
def play (s : Sign S D) (now : Nat) (report : Report) : Report × Sign S D :=
  let (cue, stage) := s.stage.tick now
  ({ report with bytesRead := s.polledBytes, cue := cue }, { s with stage := stage })

/-- Compose the scene and refresh the display. -/
def present [Display D ε] (s : Sign S D) : Except ε Unit × Sign S D :=
  let (composed, display) := Display.compose s.display s.stage.scene
  let s := { s with display := display }
  match composed with
  | .error e => (.error e, s)
  | .ok () =>
    let (result, display) := Display.refresh s.display
    (result, { s with display := display })

/-- One poll at `now`, in nanoseconds. -/
def poll [Source S] [Display D ε] (s : Sign S D) (now : Nat) : Except ε Report × Sign S D :=
  let nowMs := now / 1000000
  let (report, s) := s.intake nowMs
  let (report, s) := s.checkTimeout nowMs report
  let (report, s) := s.play now report
  match s.present with
  | (.ok (), s) => (.ok report, s)
  | (.error e, s) => (.error e, s)

end Sign

end Marquee
