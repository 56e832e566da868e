import Marquee.Counter
import Marquee.Wire.Grammar

/-!
# Cutting a byte stream into frames

A `Frame` runs from a `<` to the next `>`. A `Framer` takes the bytes of a link one at a time and
tells of each frame that ends and of each frame it gives up.

* `Framer.feed` : one byte. A second `<` gives up the open frame and opens the next one; a byte
  that does not fit gives up the open frame.
* `Framer.checkTimeout` : gives up a frame whose next byte is overdue. Only the gap since the last
  byte counts, not the age of the frame.
* `Framer.feedAll` : many bytes, with the place of the byte behind each event.

`discarded` counts bytes outside frames and bytes of frames that were given up; a byte that did not
fit into its frame is not among them.
-/

namespace Marquee

namespace Wire

/-- Bytes from an opening to a closing byte, both included. -/
structure Frame where
  /-- All bytes of the frame. -/
  bytes : List UInt8
  deriving DecidableEq, Repr, Inhabited

namespace Frame

/-- What stands between the first and the last byte. -/
def body (f : Frame) : List UInt8 := f.bytes.tail.dropLast

/-- The first byte of the body, which names the command. -/
def letter? (f : Frame) : Option UInt8 := f.body.head?

/-- The number of bytes. -/
def size (f : Frame) : Nat := f.bytes.length

/-- There are no bytes at all. -/
def isEmpty (f : Frame) : Bool := f.bytes.isEmpty

end Frame

/-- Why a frame was given up. -/
inductive FrameFault where
  /-- It grew past the longest frame taken. -/
  | overflow
  /-- Its next byte did not arrive in time. -/
  | timeout
  /-- Another frame was opened before it ended. -/
  | interrupted
  deriving DecidableEq, Repr, Inhabited

/-- What is said of the fault. -/
def FrameFault.message : FrameFault → String
  | .overflow => "frame exceeds maximum length"
  | .timeout => "frame timed out before completion"
  | .interrupted => "frame interrupted by a new start"

/-- What there is to tell of a frame: that it ended, or why it was given up. -/
abbrev FrameEvent := Except FrameFault Frame

/-- A frame that has been opened and not yet ended. -/
structure OpenFrame where
  /-- Its bytes so far. -/
  bytes : Array UInt8
  /-- When the last of them arrived, in milliseconds. -/
  lastMs : Nat
  deriving DecidableEq, Repr, Inhabited

/-- The state of a byte stream that is being cut into frames. -/
structure Framer where
  /-- The most bytes of one frame. -/
  maxLength : Nat
  /-- The longest gap between two bytes of a frame, in milliseconds; `0` for no limit. -/
  timeoutMs : Nat
  /-- The frame under way. -/
  current : Option OpenFrame
  /-- Bytes dropped outside frames and with frames given up. -/
  discarded : Nat
  deriving DecidableEq, Repr, Inhabited

namespace Framer

/-- A framer before its first byte. No limit is below the two bytes of an empty frame. -/
def new (maxLength timeoutMs : Nat) : Framer := ⟨max maxLength 2, timeoutMs, none, 0⟩

/-- Room for the header and the tiles of a bitmap that fills a panel of 15 by 15 tiles. -/
def defaultMaxLength : Nat := 16 + 15 * 15 * Grammar.tileDigits

/-- The gap that is allowed where nothing else is said, in milliseconds. -/
def defaultTimeoutMs : Nat := 1000

/-- A framer with the usual limits. -/
def default : Framer := new defaultMaxLength defaultTimeoutMs

/-- A frame is under way. -/
def inFrame (f : Framer) : Bool := f.current.isSome

/-- Forget the frame under way, uncounted. -/
def reset (f : Framer) : Framer := { f with current := none }

/-- Open a frame, in place of the one under way. -/
def openFrame (f : Framer) (now : Nat) : Framer :=
  { f with current := some ⟨#[Grammar.opener], now⟩ }

/-- Give up a frame of `size` bytes. Its size is counted as a word of 32 bits. -/
def giveUp (f : Framer) (size : Nat) : Framer :=
  { f with
    current := none
    discarded := Counter.addUpTo Counter.cap32 f.discarded (size % 0x100000000) }

/-- Take one byte that arrives at `now`, in milliseconds. -/
def feed (f : Framer) (now : Nat) (b : UInt8) : Option FrameEvent × Framer :=
  match f.current with
  | none =>
    if b = Grammar.opener then (none, f.openFrame now)
    else (none, { f with discarded := Counter.addUpTo Counter.cap32 f.discarded 1 })
  | some o =>
    if b = Grammar.opener then
      (some (.error .interrupted), (f.giveUp o.bytes.size).openFrame now)
    else if f.maxLength ≤ o.bytes.size then
      (some (.error .overflow), f.giveUp o.bytes.size)
    else if b = Grammar.closer then
      (some (.ok ⟨(o.bytes.push b).toList⟩), f.reset)
    else
      (none, { f with current := some ⟨o.bytes.push b, now⟩ })

/-- The frame under way is overdue at `now`. -/
def overdue (f : Framer) (now : Nat) : Bool :=
  match f.current with
  | none => false
  | some o => f.timeoutMs ≠ 0 && f.timeoutMs < now - o.lastMs

/-- Give up the frame under way if it is overdue. -/
def checkTimeout (f : Framer) (now : Nat) : Option FrameFault × Framer :=
  if f.overdue now then
    (some .timeout, f.giveUp (f.current.elim 0 fun o => o.bytes.size))
  else (none, f)

/-- Feed bytes that arrive at `now`; `position` of them were fed before, with the given events. -/
def feedFrom (now : Nat) (f : Framer) (position : Nat) (events : Array (Nat × FrameEvent)) :
    List UInt8 → Array (Nat × FrameEvent) × Framer
  | [] => (events, f)
  | b :: rest =>
    match f.feed now b with
    | (none, f) => feedFrom now f (position + 1) events rest
    | (some e, f) => feedFrom now f (position + 1) (events.push (position, e)) rest

/-- Feed bytes that all arrive at `now`. Each event comes with the position of its byte. -/
def feedAll (f : Framer) (now : Nat) (bytes : List UInt8) :
    Array (Nat × FrameEvent) × Framer :=
  feedFrom now f 0 #[] bytes

end Framer

end Wire

end Marquee
