import Marquee.Proofs.Display.Discipline

/-!
# When a round panel takes frames

The driver of a round panel turns frames down until it was started. It remembers that a start went well,
and never forgets it: a start that fails behind a good one may leave the panel reset and half set up,
but the next frame is sent all the same.

* `RoundPanel.startAnswers` : what the starts among some calls told.
* `RoundPanel.started_after` : what the driver remembers behind all calls.
* `RoundPanel.Touches` : a frame gets to the bus; `RoundPanel.touches_iff` says when.
* `RoundPanel.Steady` : no start failed behind a good one. Then what the driver remembers is how the last
  start went (`RoundPanel.Steady.ok_mem_iff`).
* `RoundPanel.frames_need_start` : **frames get to the bus only behind a good start**, and the last start
  was good unless some start failed behind a good one.
* `RoundPanel.frame_behind_failed_restart` : a frame that gets to a panel whose last start failed.
-/

namespace Marquee

/-- A program with something to send does something on the bus. -/
theorem Ran.events_ne_nil {l : Lines} {ts : List Transfer} {post fail : Lines → Prop}
    {answer : Except PanelFault Unit} {events : List BusEvent}
    (ran : Ran l ts post fail answer events) (h : ts ≠ []) : events ≠ [] := by
  rintro rfl
  cases ran with
  | done _ heard => exact h (List.map_eq_nil_iff.mp heard.symm)
  | stopped fault => simp at fault

/-- Only faults of the bus stop a program. -/
theorem Ran.answer_eq {l : Lines} {ts : List Transfer} {post fail : Lines → Prop}
    {answer : Except PanelFault Unit} {events : List BusEvent}
    (ran : Ran l ts post fail answer events) : answer = .ok () ∨ answer = .error .communication := by
  cases ran with
  | done => exact .inl rfl
  | stopped => exact .inr rfl

namespace RoundPanel

/-! ### What the driver remembers -/

/-- The answers of the starts among these calls, in order. -/
def startAnswers (p : RoundPanel) : List PanelCall → List (Except PanelFault Unit)
  | [] => []
  | .start :: calls => p.start.1 :: p.start.2.startAnswers calls
  | .write pixels :: calls => (p.write pixels).2.startAnswers calls

/-- A start that fails takes nothing back. -/
theorem started_start (p : RoundPanel) :
    p.start.2.started = true ↔ p.started = true ∨ p.start.1 = .ok () := by
  unfold start
  rcases startUp p.bus with ⟨_ | _, bus⟩ <;> simp

theorem started_write (p : RoundPanel) (pixels : Array UInt16) :
    (p.write pixels).2.started = p.started := by
  unfold write
  split_ifs <;> rfl

/-- The invariant of all calls: the driver remembers just that some start went well. -/
theorem started_after (p : RoundPanel) (calls : List PanelCall) :
    (p.after calls).started = true ↔ p.started = true ∨ .ok () ∈ p.startAnswers calls := by
  induction calls generalizing p with
  | nil => simp [after, startAnswers]
  | cons c calls ih =>
    change ((p.call c).2.after calls).started = true ↔ _
    rw [ih]
    cases c with
    | start => rw [call, started_start, startAnswers, List.mem_cons, or_assoc, eq_comm (a := Except.ok ())]
    | write pixels => rw [call, started_write, startAnswers]

/-! ### What becomes of a frame -/

/-- This frame gets to the bus: the driver does something there for it. -/
def Touches (p : RoundPanel) (pixels : Array UInt16) : Prop :=
  ∃ events, events ≠ [] ∧ (p.write pixels).2.bus.log.toList = p.bus.log.toList ++ events

variable {p : RoundPanel} {pixels : Array UInt16}

theorem write_of_not_started (h : p.started = false) :
    p.write pixels = (.error .notInitialized, p) := by
  simp [write, h]

theorem write_of_size_ne (h : p.started = true) (hsize : pixels.size ≠ width * height) :
    p.write pixels = (.error .invalidDimensions, p) := by
  simp [write, h, hsize]

theorem write_of_size (h : p.started = true) (hsize : pixels.size = width * height) :
    p.write pixels = ((sendFrame pixels p.bus).1, { p with bus := (sendFrame pixels p.bus).2 }) := by
  rw [write, if_pos h, if_pos hsize]
  rfl

/-- A frame of the right size gets to the bus of a panel that counts as started. -/
theorem write_of_started (h : p.started = true) (hsize : pixels.size = width * height) :
    p.Touches pixels ∧
      ((p.write pixels).1 = .ok () ∨ (p.write pixels).1 = .error .communication) := by
  obtain ⟨events, hlog, ran⟩ :=
    sends_sendFrame Lines.Released pixels p.bus ⟨true, false, false⟩ (.inl rfl)
  rw [Touches, write_of_size h hsize]
  exact ⟨⟨events, ran.events_ne_nil (by simp [frameTransfers]), hlog⟩, ran.answer_eq⟩

/-- A frame that is turned down does not get to the bus. -/
theorem not_touches_of_write_eq {e : PanelFault} (h : p.write pixels = (.error e, p)) :
    ¬p.Touches pixels := by
  rintro ⟨events, hne, hlog⟩
  rw [h] at hlog
  exact hne (List.self_eq_append_right.mp hlog)

theorem touches_iff : p.Touches pixels ↔ p.started = true ∧ pixels.size = width * height := by
  refine ⟨fun touches => ?_, fun h => (write_of_started h.1 h.2).1⟩
  by_contra h
  cases hstarted : p.started with
  | false => exact not_touches_of_write_eq (write_of_not_started hstarted) touches
  | true =>
    have hsize : pixels.size ≠ width * height := fun hsize => h ⟨hstarted, hsize⟩
    exact not_touches_of_write_eq (write_of_size_ne hstarted hsize) touches

/-- The driver tells that it was not started just if it does not remember a start. -/
theorem write_eq_notInitialized_iff :
    (p.write pixels).1 = .error .notInitialized ↔ p.started = false := by
  refine ⟨fun told => ?_, fun h => congrArg Prod.fst (write_of_not_started h)⟩
  by_contra h
  rw [Bool.not_eq_false] at h
  by_cases hsize : pixels.size = width * height
  · rcases (write_of_started h hsize).2 with answer | answer <;> simp [answer] at told
  · simp [write_of_size_ne h hsize] at told

/-! ### The last start -/

/-- No start failed behind one that went well. -/
def Steady (starts : List (Except PanelFault Unit)) : Prop :=
  starts.Pairwise fun earlier later => earlier = .ok () → later = .ok ()

/-- Then some start went well just if the last one did. -/
theorem Steady.ok_mem_iff {starts : List (Except PanelFault Unit)} (h : Steady starts) :
    .ok () ∈ starts ↔ starts.getLast? = some (.ok ()) := by
  refine ⟨fun hok => ?_, List.mem_of_getLast?⟩
  cases starts using List.reverseRecOn with
  | nil => simp at hok
  | append_singleton earlier last =>
    have kept := (List.pairwise_append.mp h).2.2
    rw [List.getLast?_concat, Option.some_inj]
    rcases List.mem_append.mp hok with hok | hok
    · exact kept _ hok last (List.mem_singleton_self last) rfl
    · exact (List.mem_singleton.mp hok).symm

/-- **Frames get to the bus only behind a good start.** A new driver on any bus is called in any way, and
any steps on the bus fail. Then

* a frame gets to the bus just if some start before it went well and it has the size of the panel;
* the driver tells that it was not started just if no start before it went well;
* a frame that does not get to the bus changes nothing at all;
* if no start failed behind a good one, then a frame gets to the bus only if the last start before it went
  well, and else the driver tells that it was not started, and changes nothing. -/
theorem frames_need_start (bus : Bus) (calls : List PanelCall) (pixels : Array UInt16) :
    let p := (RoundPanel.new bus).after calls
    let starts := (RoundPanel.new bus).startAnswers calls
    (p.Touches pixels ↔ .ok () ∈ starts ∧ pixels.size = width * height) ∧
      ((p.write pixels).1 = .error .notInitialized ↔ .ok () ∉ starts) ∧
      (¬p.Touches pixels → (p.write pixels).2 = p) ∧
      (Steady starts →
        (p.Touches pixels → starts.getLast? = some (.ok ())) ∧
        (starts.getLast? ≠ some (.ok ()) → p.write pixels = (.error .notInitialized, p))) := by
  intro p starts
  have remembers : p.started = true ↔ .ok () ∈ starts :=
    (started_after (RoundPanel.new bus) calls).trans (or_iff_right Bool.false_ne_true)
  have forgot : p.started = false ↔ .ok () ∉ starts := by rw [← remembers, Bool.not_eq_true]
  refine ⟨?_, ?_, fun hdown => ?_, fun steady => ⟨fun touches => ?_, fun hlast => ?_⟩⟩
  · rw [touches_iff, remembers]
  · rw [write_eq_notInitialized_iff, forgot]
  · rw [touches_iff, not_and] at hdown
    cases hstarted : p.started with
    | false => rw [write_of_not_started hstarted]
    | true => rw [write_of_size_ne hstarted (hdown hstarted)]
  · exact steady.ok_mem_iff.mp (remembers.mp (touches_iff.mp touches).1)
  · exact write_of_not_started (forgot.mpr fun hok => hlast (steady.ok_mem_iff.mp hok))

/-- The first start fails, and is tried again. The last start counts. -/
theorem frames_need_start_after_retry :
    let fresh := RoundPanel.new ⟨(· == 6), 0, #[]⟩
    let starts := fresh.startAnswers [.start, .start]
    starts = [.error .communication, .ok ()] ∧ Steady starts ∧
      (fresh.after [.start, .start]).Touches (Array.replicate (width * height) 0) := by
  intro fresh starts
  have hstarts : starts = [.error .communication, .ok ()] := by decide +kernel
  have law := frames_need_start ⟨(· == 6), 0, #[]⟩ [.start, .start] (Array.replicate (width * height) 0)
  refine ⟨hstarts, by simp [hstarts, Steady], law.1.mpr ⟨?_, by simp⟩⟩
  change .ok () ∈ starts
  simp [hstarts]

/-- **A failed start is not remembered.** The panel is started, and started again. Behind the second reset
the first command fails, and the start tells that. The next frame gets to the bus all the same. -/
theorem frame_behind_failed_restart :
    let fresh := RoundPanel.new ⟨(· == 346), 0, #[]⟩
    let p := fresh.after [.start, .start]
    let frame := Array.replicate (width * height) 0
    fresh.startAnswers [.start, .start] = [.ok (), .error .communication] ∧
      p.Touches frame ∧ (p.write frame).1 ≠ .error .notInitialized := by
  intro fresh p frame
  have hstarts : fresh.startAnswers [.start, .start] = [.ok (), .error .communication] := by
    decide +kernel
  have hstarted : p.started = true := by simp [p, started_after, hstarts]
  refine ⟨hstarts, touches_iff.mpr ⟨hstarted, by simp [frame]⟩, ?_⟩
  simp [write_eq_notInitialized_iff, hstarted]

end RoundPanel

end Marquee
