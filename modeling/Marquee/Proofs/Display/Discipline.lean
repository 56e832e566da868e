import Marquee.Display.RoundPanel
import Marquee.Proofs.Display.Traffic
import Mathlib.Data.List.Induction
import Mathlib.Tactic.SplitIfs

/-!
# The round panel on its bus

Any step on the bus of a round panel may fail, in any pattern. This file says what the panel hears all the
same, for all frames and all calls of the driver.

* `RoundPanel.startTransfers`, `RoundPanel.frameTransfers` : what the driver should send to start the
  panel, and for a frame; `RoundPanel.sends_startUp`, `RoundPanel.sends_sendFrame` say that it does.
* `RoundPanel.Obeys` : what holds of one call; `RoundPanel.obeys_call` proves it of each.
* `RoundPanel.released_after` : the invariant of all calls.
* `RoundPanel.bus_discipline` : **whatever fails, a listening panel hears a first part of what it should
  hear, the fault is told, and chip select is released**.
-/

namespace Marquee

open Lines BusProgram

/-- What is asked of the driver. -/
inductive PanelCall where
  /-- Start the panel. -/
  | start
  /-- Show a frame. -/
  | write (pixels : Array UInt16)
  deriving DecidableEq, Repr

namespace RoundPanel

/-! ### What the programs send -/

/-- The commands that start the panel, with their data. -/
def startCommands : List (UInt8 × List UInt8) := powerUp ++ [(sleepOut, []), (displayOn, [])]

/-- The transfers that start the panel. -/
def startTransfers : List Transfer :=
  startCommands.flatMap fun entry => Transfer.ofCommand entry.1 entry.2

/-- The transfers of a frame. -/
def frameTransfers (pixels : Array UInt16) : List Transfer :=
  Transfer.ofCommand columnWindow (window width) ++ Transfer.ofCommand rowWindow (window height) ++
    ⟨false, [memoryWrite]⟩ ::
      (List.range (transferCount pixels.size)).map fun i => ⟨true, transfer pixels i⟩

theorem sends_hardReset : Sends Released hardReset [] Released Released := by
  have reset {q : BusProgram Unit} (high : Bool) (hq : Sends Released q [] Released Released) :
      Sends Released (do step (.reset high); q) [] Released Released :=
    .afterStep Released (by simp) (fun _ h => h) (fun _ h => h) hq
  have wait {q : BusProgram Unit} (ms : Nat) (hq : Sends Released q [] Released Released) :
      Sends Released (do delay ms; q) [] Released Released := (Sends.delay ms).bind hq
  refine .afterStep Released (by simp) (fun _ _ => .inl rfl) (fun _ _ => .inr rfl) ?_
  exact reset true (wait 10 (reset false (wait 10 (reset true (.delay 120)))))

theorem sends_startUp : Sends Released startUp startTransfers Released Released := by
  have powerUp : Sends Released (powerUp.forM fun entry => command entry.1 entry.2)
      (powerUp.flatMap fun entry => Transfer.ofCommand entry.1 entry.2) Released Released :=
    .forM fun entry _ => .command entry.1 entry.2
  have display : Sends Released
      (do command sleepOut []; delay 120; command displayOn []; delay 20)
      ([(sleepOut, []), (displayOn, [])].flatMap fun entry => Transfer.ofCommand entry.1 entry.2)
      Released Released :=
    (Sends.command sleepOut []).bind ((Sends.delay 120).bind
      ((Sends.command displayOn []).bind (.delay 20)))
  rw [startTransfers, startCommands, List.flatMap_append]
  exact sends_hardReset.bind (powerUp.bind display)

theorem sends_sendPixels (pixels : Array UInt16) :
    Sends (fun l => l.select = false) (sendPixels pixels)
      (⟨false, [memoryWrite]⟩ ::
        (List.range (transferCount pixels.size)).map fun i => ⟨true, transfer pixels i⟩)
      (fun _ => True) fun _ => True := by
  have transfers : Sends (Listening true)
      ((List.range (transferCount pixels.size)).forM fun i => step (.write (transfer pixels i)))
      ((List.range (transferCount pixels.size)).flatMap fun i => [⟨true, transfer pixels i⟩])
      (Listening true) fun _ => True :=
    .forM fun i _ => .write (fun l hl => hl.hears (transfer pixels i)) fun _ _ => trivial
  refine .afterStep (Listening false) (by simp) (fun l hl => ⟨hl, rfl⟩) (fun _ _ => trivial) ?_
  refine .afterWrite (fun l hl => hl.hears [memoryWrite]) (fun _ _ => trivial) ?_
  refine .afterStep (Listening true) (by simp) (fun l hl => ⟨hl.1, rfl⟩) (fun _ _ => trivial) ?_
  have both := transfers.bind .flush
  rwa [List.append_nil, ← List.map_eq_flatMap] at both

/-- A frame is sent whichever way the lines stand before it. -/
theorem sends_sendFrame (pre : Lines → Prop) (pixels : Array UInt16) :
    Sends pre (sendFrame pixels) (frameTransfers pixels) Released Released := by
  have window : Sends pre setFullWindow (Transfer.ofCommand columnWindow (window width) ++
      Transfer.ofCommand rowWindow (window height)) Released Released :=
    (Sends.command columnWindow (window width)).bind (.command rowWindow (window height))
  exact window.bind (.whileSelected (sends_sendPixels pixels))

/-! ### Calls -/

/-- Do what is asked. -/
def call (p : RoundPanel) : PanelCall → Except PanelFault Unit × RoundPanel
  | .start => p.start
  | .write pixels => p.write pixels

/-- The panel behind all calls. -/
def after (p : RoundPanel) (calls : List PanelCall) : RoundPanel :=
  calls.foldl (fun p c => (p.call c).2) p

theorem after_concat (p : RoundPanel) (calls : List PanelCall) (c : PanelCall) :
    p.after (calls ++ [c]) = ((p.after calls).call c).2 := by
  simp [after]

/-- What a call should send. -/
def transfersOf : PanelCall → List Transfer
  | .start => startTransfers
  | .write pixels => frameTransfers pixels

/-- What holds of a call with this answer and these events, from lines `l`. -/
structure Obeys (l : Lines) (c : PanelCall) (answer : Except PanelFault Unit)
    (events : List BusEvent) : Prop where
  /-- The panel hears each write, and hears a first part of what it should, or all of it if all went
  well. -/
  heard : ∃ sent, sent <+: transfersOf c ∧ l.writes events = sent.map some ∧
    (answer = .ok () → sent = transfersOf c)
  /-- A fault of the bus is told if there was one. -/
  told : answer = .error .communication ↔ ∃ e ∈ events, e.ok = false
  /-- The panel does not listen any more. -/
  left : Released (l.after events)

theorem Obeys.of_ran {l : Lines} {c : PanelCall} {answer : Except PanelFault Unit}
    {events : List BusEvent} (ran : Ran l (transfersOf c) Released Released answer events) :
    Obeys l c answer events := by
  cases ran with
  | done clean heard left =>
    refine ⟨⟨_, List.prefix_refl _, heard, fun _ => rfl⟩, ⟨nofun, ?_⟩, left⟩
    rintro ⟨e, he, hfault⟩
    exact absurd (clean e he) (by simp [hfault])
  | stopped fault part heard left => exact ⟨⟨_, part, heard, nofun⟩, ⟨fun _ => fault, fun _ => rfl⟩, left⟩

/-- A call that is turned down does nothing. -/
theorem Obeys.of_silent {l : Lines} (h : Released l) (c : PanelCall) {e : PanelFault}
    (he : e ≠ .communication) : Obeys l c (.error e) [] :=
  ⟨⟨[], List.nil_prefix, rfl, nofun⟩, by simpa using he, h⟩

/-- **What one call does.** -/
theorem obeys_call (p : RoundPanel) (c : PanelCall) {l : Lines} (h : Released l) :
    ∃ events, (p.call c).2.bus.log.toList = p.bus.log.toList ++ events ∧
      Obeys l c (p.call c).1 events := by
  cases c with
  | start =>
    obtain ⟨events, hlog, ran⟩ := sends_startUp p.bus l h
    have hcall : (p.call .start).1 = (startUp p.bus).1 ∧ (p.call .start).2.bus = (startUp p.bus).2 := by
      rw [call, start]
      rcases startUp p.bus with ⟨_ | _, bus⟩ <;> exact ⟨rfl, rfl⟩
    exact ⟨events, by rw [hcall.2, hlog], hcall.1 ▸ .of_ran ran⟩
  | write pixels =>
    rw [call, write]
    split_ifs
    · obtain ⟨events, hlog, ran⟩ := sends_sendFrame Released pixels p.bus l h
      exact ⟨events, hlog, .of_ran ran⟩
    · exact ⟨[], (List.append_nil _).symm, .of_silent h _ nofun⟩
    · exact ⟨[], (List.append_nil _).symm, .of_silent h _ nofun⟩

/-- The invariant: between calls, chip select is released. -/
theorem released_after {bus : Bus} {l : Lines} (h : Released (l.after bus.log.toList))
    (calls : List PanelCall) :
    Released (l.after ((RoundPanel.new bus).after calls).bus.log.toList) := by
  induction calls using List.reverseRecOn with
  | nil => exact h
  | append_singleton calls c ih =>
    obtain ⟨events, hlog, obeys⟩ := obeys_call ((RoundPanel.new bus).after calls) c ih
    rw [after_concat, hlog, Lines.after_append]
    exact obeys.left

/-- **Discipline on the bus, whatever fails.** The driver of a new panel whose chip select is high is
called in any way, and any steps on the bus fail. Then a call has these events:

* each write reaches a panel that listens, command bytes with data/command low and their data with
  data/command high, and what was sent is a first part of what the call should send, or all of it if the
  call tells no fault;
* the call tells a fault of the bus just if a step failed;
* behind it chip select is high, unless a step that set it failed, in this call or an earlier one. -/
theorem bus_discipline (fails : Nat → Bool) (dataCommand : Bool) (before : List PanelCall)
    (c : PanelCall) :
    let p := (RoundPanel.new ⟨fails, 0, #[]⟩).after before
    let l := Lines.after ⟨true, dataCommand, false⟩ p.bus.log.toList
    ∃ events, (p.call c).2.bus.log.toList = p.bus.log.toList ++ events ∧
      (∃ sent, sent <+: transfersOf c ∧ l.writes events = sent.map some ∧
        ((p.call c).1 = .ok () → sent = transfersOf c)) ∧
      ((p.call c).1 = .error .communication ↔ ∃ e ∈ events, e.ok = false) ∧
      ((l.after events).select = true ∨
        ∃ e ∈ p.bus.log.toList ++ events, e.step.isSelect = true ∧ e.ok = false) := by
  intro p l
  have released : Released l := released_after (.inl rfl) before
  obtain ⟨events, hlog, obeys⟩ := obeys_call p c released
  refine ⟨events, hlog, obeys.heard, obeys.told, obeys.left.imp_right fun slipped => ?_⟩
  rw [← Lines.after_append, Lines.slipped_after] at slipped
  exact slipped.resolve_left Bool.false_ne_true

/-- A step that should release chip select fails, and the panel goes on to listen behind the call. The
next call goes well. -/
example :
    let p := ((RoundPanel.new ⟨(· == 8), 0, #[]⟩).call .start).2
    (Lines.after ⟨true, true, false⟩ p.bus.log.toList).select = false ∧
      (p.call .start).1.isOk := by decide +kernel

end RoundPanel

end Marquee
