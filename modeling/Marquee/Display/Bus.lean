import Marquee.Display.Panel

/-!
# The serial bus of a panel

A panel hangs on a serial bus with three more lines: chip select, data/command, and reset. `Bus` logs
every step in order. A step can fail; `Bus.fails` says at which calls. A step that fails is logged as
failed and changes nothing on the bus. Waiting never fails and is not counted as a call.
-/

namespace Marquee

/-- A step on the bus. -/
inductive BusStep where
  /-- Set the chip select line; the panel listens while it is low. -/
  | select (high : Bool)
  /-- Set the data/command line: low for a command byte, high for its data. -/
  | dataCommand (high : Bool)
  /-- Set the reset line. -/
  | reset (high : Bool)
  /-- Send bytes. -/
  | write (bytes : List UInt8)
  /-- Wait until all bytes are sent. -/
  | flush
  /-- Wait for some milliseconds. -/
  | delay (ms : Nat)
  deriving DecidableEq, Repr, Inhabited

/-- A step that was tried. -/
structure BusEvent where
  /-- What was tried. -/
  step : BusStep
  /-- It succeeded. -/
  ok : Bool
  deriving DecidableEq, Repr, Inhabited

/-- A bus with its history. -/
structure Bus where
  /-- Whether the call of this number fails. -/
  fails : Nat → Bool
  /-- The number of calls so far. -/
  calls : Nat
  /-- All steps so far. -/
  log : Array BusEvent

namespace Bus

/-- A bus that never fails and was never used. -/
def quiet : Bus := ⟨fun _ => false, 0, #[]⟩

instance : Inhabited Bus := ⟨quiet⟩

/-- Count calls from now on, and let the call of the given number fail, if one is given. -/
def failAt (b : Bus) (call : Option Nat) : Bus :=
  { b with fails := fun n => call == some n, calls := 0 }

/-- Forget the log. -/
def clearLog (b : Bus) : Bus := { b with log := #[] }

/-- Try a step that can fail. -/
def call (b : Bus) (step : BusStep) : Except PanelFault Unit × Bus :=
  let ok := !b.fails b.calls
  (if ok then .ok () else .error .communication,
    { b with calls := b.calls + 1, log := b.log.push ⟨step, ok⟩ })

/-- Wait. -/
def wait (b : Bus) (ms : Nat) : Bus := { b with log := b.log.push ⟨.delay ms, true⟩ }

end Bus

/-- Steps on a bus, up to the first that fails. -/
abbrev BusProgram := ExceptT PanelFault (StateM Bus)

namespace BusProgram

/-- One step that can fail. -/
def step (s : BusStep) : BusProgram Unit := fun b => b.call s

/-- A wait. -/
def delay (ms : Nat) : BusProgram Unit := fun b => (.ok (), b.wait ms)

/-- Run a program with the panel listening. Afterwards the panel stops listening even if the program
failed; if that fails too, its fault is the one that is told. -/
def whileSelected (p : BusProgram Unit) : BusProgram Unit := do
  step (.select false)
  fun b =>
    let (result, b) := p b
    let (released, b) := b.call (.select true)
    (match released with
      | .ok () => result
      | .error e => .error e, b)

/-- Send a command byte and its data. -/
def send (command : UInt8) (data : List UInt8) : BusProgram Unit := do
  step (.dataCommand false)
  step (.write [command])
  unless data.isEmpty do
    step (.dataCommand true)
    step (.write data)
  step .flush

/-- Send a command with the panel listening for it alone. -/
def command (command : UInt8) (data : List UInt8) : BusProgram Unit :=
  whileSelected (send command data)

end BusProgram

end Marquee
