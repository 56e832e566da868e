import Marquee.Display.Bus

/-!
# What travels on the bus

A panel does not see the steps of the bus, but lines and bytes: it listens while chip select is low, and
takes bytes for a command or for data by the level of data/command. `Lines` are the levels that the
events of a bus lead to; any step may have failed, and then moved no line.

* `Lines.writes` : each write that was tried, as the panel hears it.
* `Sends` : a triple for programs on the bus: what they send, and where they leave the lines if all went
  well and if a step failed. The answer tells which of the two it was.
* `Sends.bind`, `Sends.forM`, `Sends.whileSelected` : rules for the ways in which programs are put
  together.
* `Released` : chip select is high, unless a step that set it failed. `BusProgram.whileSelected` leaves
  the lines so wherever it stops.
-/

namespace Marquee

/-- Bytes that a panel hears as one command or as data. -/
structure Transfer where
  /-- They are data, not a command. -/
  isData : Bool
  /-- The bytes. -/
  bytes : List UInt8
  deriving DecidableEq, Repr

/-- A command and its data, if there are any. -/
def Transfer.ofCommand (command : UInt8) (data : List UInt8) : List Transfer :=
  ⟨false, [command]⟩ :: if data.isEmpty then [] else [⟨true, data⟩]

/-- The step sets chip select. -/
def BusStep.isSelect : BusStep → Bool
  | .select _ => true
  | _ => false

/-! ### Lines -/

/-- The lines beside the bytes. -/
structure Lines where
  /-- Chip select is high: the panel does not listen. -/
  select : Bool
  /-- Data/command is high: bytes are data. -/
  dataCommand : Bool
  /-- Some step that set chip select failed. -/
  slipped : Bool
  deriving DecidableEq, Repr

namespace Lines

/-- The lines behind a step. -/
def moved (l : Lines) : BusEvent → Lines
  | ⟨.select high, true⟩ => { l with select := high }
  | ⟨.select _, false⟩ => { l with slipped := true }
  | ⟨.dataCommand high, true⟩ => { l with dataCommand := high }
  | _ => l

/-- The lines behind all events. -/
def after (l : Lines) (events : List BusEvent) : Lines := events.foldl moved l

/-- What the panel takes bytes for; nothing if it does not listen. -/
def hears (l : Lines) (bytes : List UInt8) : Option Transfer :=
  if l.select then none else some ⟨l.dataCommand, bytes⟩

/-- All writes that were tried, as the panel hears them. -/
def writes (l : Lines) : List BusEvent → List (Option Transfer)
  | [] => []
  | e :: rest =>
    match e.step with
    | .write bytes => l.hears bytes :: (l.moved e).writes rest
    | _ => (l.moved e).writes rest

theorem after_append (l : Lines) (events later : List BusEvent) :
    l.after (events ++ later) = (l.after events).after later := List.foldl_append

theorem writes_append (l : Lines) (events later : List BusEvent) :
    l.writes (events ++ later) = l.writes events ++ (l.after events).writes later := by
  induction events generalizing l with
  | nil => rfl
  | cons e rest ih =>
    obtain ⟨step, ok⟩ := e
    cases step <;> simp [writes, after, ih]

/-- The flag remembers the steps that set chip select and failed. -/
theorem slipped_after (l : Lines) (events : List BusEvent) :
    (l.after events).slipped = true ↔
      l.slipped = true ∨ ∃ e ∈ events, e.step.isSelect = true ∧ e.ok = false := by
  induction events generalizing l with
  | nil => simp [after]
  | cons e rest ih =>
    have hmoved : (l.moved e).slipped = true ↔
        l.slipped = true ∨ e.step.isSelect = true ∧ e.ok = false := by
      obtain ⟨step, ok⟩ := e
      cases step <;> cases ok <;> simp [moved, BusStep.isSelect]
    rw [after, List.foldl_cons, ← after, ih, hmoved, or_assoc]
    simp

/-- The panel listens, with data/command at this level. -/
def Listening (dataCommand : Bool) (l : Lines) : Prop :=
  l.select = false ∧ l.dataCommand = dataCommand

theorem Listening.hears {dataCommand : Bool} {l : Lines} (h : Listening dataCommand l)
    (bytes : List UInt8) : l.hears bytes = some ⟨dataCommand, bytes⟩ := by
  simp [Lines.hears, h.1, h.2]

/-- Chip select is high, unless a step that set it failed. -/
def Released (l : Lines) : Prop := l.select = true ∨ l.slipped = true

end Lines

open Lines

/-! ### Programs -/

/-- What a program did: its answer and its events, from lines `l`, where it should send `transfers`. -/
inductive Ran (l : Lines) (transfers : List Transfer) (post fail : Lines → Prop) :
    Except PanelFault Unit → List BusEvent → Prop where
  /-- It sent all. No step failed. -/
  | done {events : List BusEvent} (clean : ∀ e ∈ events, e.ok = true)
      (heard : l.writes events = transfers.map some) (left : post (l.after events)) :
      Ran l transfers post fail (.ok ()) events
  /-- It stopped, and tells that. Some step failed. What it tried to send until then is a part of what it
  should send. -/
  | stopped {events : List BusEvent} {sent : List Transfer} (fault : ∃ e ∈ events, e.ok = false)
      (part : sent <+: transfers) (heard : l.writes events = sent.map some)
      (left : fail (l.after events)) : Ran l transfers post fail (.error .communication) events

/-- One program behind another that sent all. -/
theorem Ran.append {l : Lines} {ts ts' : List Transfer} {post fail : Lines → Prop}
    {answer : Except PanelFault Unit} {events later : List BusEvent}
    (clean : ∀ e ∈ events, e.ok = true) (heard : l.writes events = ts.map some)
    (ran : Ran (l.after events) ts' post fail answer later) :
    Ran l (ts ++ ts') post fail answer (events ++ later) := by
  cases ran with
  | done clean' heard' left =>
    refine .done ?_ ?_ (after_append .. ▸ left)
    · exact fun e he => (List.mem_append.mp he).elim (clean e) (clean' e)
    · rw [writes_append, heard, heard', List.map_append]
  | @stopped _ sent fault part heard' left =>
    obtain ⟨e, he, hfault⟩ := fault
    refine .stopped ⟨e, List.mem_append_right _ he, hfault⟩ ((List.prefix_append_right_inj ts).mpr part)
      ?_ (after_append .. ▸ left)
    rw [writes_append, heard, heard', List.map_append]

/-- The step that releases chip select, behind whatever a program did. -/
theorem Ran.released {l : Lines} {ts : List Transfer} {post fail : Lines → Prop}
    {answer : Except PanelFault Unit} {events : List BusEvent}
    (ran : Ran l ts post fail answer events) (ok : Bool) :
    Ran l ts Released Released (if ok then answer else .error .communication)
      (events ++ [⟨.select true, ok⟩]) := by
  have hwrites : l.writes (events ++ [⟨.select true, ok⟩]) = l.writes events := by
    rw [writes_append]
    exact List.append_nil _
  have hleft : Released (l.after (events ++ [⟨.select true, ok⟩])) := by
    rw [after_append]
    cases ok with
    | true => exact .inl rfl
    | false => exact .inr rfl
  cases ok with
  | true =>
    cases ran with
    | done clean heard =>
      refine .done ?_ (hwrites.trans heard) hleft
      simpa [or_imp, forall_and] using clean
    | stopped fault part heard =>
      obtain ⟨e, he, hfault⟩ := fault
      exact .stopped ⟨e, List.mem_append_left _ he, hfault⟩ part (hwrites.trans heard) hleft
  | false =>
    have fault : ∃ e ∈ events ++ [⟨.select true, false⟩], e.ok = false :=
      ⟨_, List.mem_append_right _ (List.mem_singleton_self _), rfl⟩
    cases ran with
    | done clean heard => exact .stopped fault (List.prefix_refl ts) (hwrites.trans heard) hleft
    | stopped fault' part heard => exact .stopped fault part (hwrites.trans heard) hleft

/-- From lines with `pre` the program sends `transfers` and leaves lines with `post`, or stops short of
that and leaves lines with `fail`, whichever steps the bus lets fail. -/
def Sends (pre : Lines → Prop) (p : BusProgram Unit) (transfers : List Transfer)
    (post fail : Lines → Prop) : Prop :=
  ∀ (b : Bus) (l : Lines), pre l → ∃ events, (p b).2.log.toList = b.log.toList ++ events ∧
    Ran l transfers post fail (p b).1 events

namespace Sends

variable {pre mid post fail : Lines → Prop} {p q : BusProgram Unit} {ts ts' : List Transfer}

open BusProgram

/-! ### One step -/

/-- A step with what it sends, be it bytes or nothing. What fails was sent all the same. -/
theorem one {s : BusStep} (hears : ∀ l, pre l → ∀ ok, l.writes [⟨s, ok⟩] = ts.map some)
    (hpost : ∀ l, pre l → post (l.moved ⟨s, true⟩)) (hfail : ∀ l, pre l → fail (l.moved ⟨s, false⟩)) :
    Sends pre (step s) ts post fail := by
  intro b l hl
  refine ⟨[⟨s, !b.fails b.calls⟩], by simp [BusProgram.step, Bus.call], ?_⟩
  simp only [BusProgram.step, Bus.call]
  cases b.fails b.calls with
  | false => exact .done (by simp) (hears l hl true) (hpost l hl)
  | true => exact .stopped (by simp) (List.prefix_refl ts) (hears l hl false) (hfail l hl)

/-- A step that sends nothing. -/
theorem step {s : BusStep} (silent : ∀ bytes, s ≠ .write bytes)
    (hpost : ∀ l, pre l → post (l.moved ⟨s, true⟩)) (hfail : ∀ l, pre l → fail (l.moved ⟨s, false⟩)) :
    Sends pre (step s) [] post fail := by
  refine one (fun l _ ok => ?_) hpost hfail
  cases s with
  | write bytes => exact absurd rfl (silent bytes)
  | _ => rfl

/-- A step that sends bytes. It moves no line. -/
theorem write {bytes : List UInt8} {t : Transfer} (hears : ∀ l, pre l → l.hears bytes = some t)
    (hfail : ∀ l, pre l → fail l) : Sends pre (BusProgram.step (.write bytes)) [t] pre fail :=
  one (fun l hl _ => congrArg (· :: []) (hears l hl)) (fun _ hl => hl) hfail

theorem delay (ms : Nat) : Sends pre (delay ms) [] pre fail := by
  intro b l hl
  exact ⟨[⟨.delay ms, true⟩], by simp [BusProgram.delay, Bus.wait], .done (by simp) rfl hl⟩

theorem flush : Sends pre (BusProgram.step .flush) [] (fun _ => True) fun _ => True :=
  step (by simp) (fun _ _ => trivial) fun _ _ => trivial

theorem pure : Sends pre (pure ()) [] pre fail := by
  intro b l hl
  exact ⟨[], (List.append_nil _).symm, .done (by simp) rfl hl⟩

/-! ### Programs in a row -/

theorem bind_apply (p q : BusProgram Unit) (b : Bus) :
    (do p; q : BusProgram Unit) b =
      match p b with
      | (.ok (), b') => q b'
      | (.error e, b') => (.error e, b') := by
  change ExceptT.bindCont (fun _ => q) (p b).1 (p b).2 = _
  rcases p b with ⟨_ | _, b'⟩ <;> rfl

/-- One program behind another. -/
theorem bind (hp : Sends pre p ts mid fail) (hq : Sends mid q ts' post fail) :
    Sends pre (do p; q) (ts ++ ts') post fail := by
  intro b l hl
  obtain ⟨events, hlog, ran⟩ := hp b l hl
  rw [bind_apply]
  generalize p b = r at hlog ran ⊢
  obtain ⟨answer, b'⟩ := r
  cases ran with
  | done clean heard left =>
    obtain ⟨later, hlog', ran'⟩ := hq b' _ left
    exact ⟨events ++ later, by rw [hlog', hlog, List.append_assoc], ran'.append clean heard⟩
  | stopped fault part heard left =>
    exact ⟨events, hlog, .stopped fault (part.trans (List.prefix_append ts ts')) heard left⟩

/-- A program behind a step that sends nothing. -/
theorem afterStep {s : BusStep} (mid : Lines → Prop) (silent : ∀ bytes, s ≠ .write bytes)
    (hmid : ∀ l, pre l → mid (l.moved ⟨s, true⟩)) (hfail : ∀ l, pre l → fail (l.moved ⟨s, false⟩))
    (hq : Sends mid q ts post fail) : Sends pre (do BusProgram.step s; q) ts post fail :=
  (step silent hmid hfail).bind hq

/-- A program behind a step that sends bytes. -/
theorem afterWrite {bytes : List UInt8} {t : Transfer} (hears : ∀ l, pre l → l.hears bytes = some t)
    (hfail : ∀ l, pre l → fail l) (hq : Sends pre q ts post fail) :
    Sends pre (do BusProgram.step (.write bytes); q) (t :: ts) post fail :=
  (write hears hfail).bind hq

/-- A program for each entry of a list, each of which keeps what the next one needs. -/
theorem forM {α : Type} {as : List α} {f : α → BusProgram Unit} {g : α → List Transfer}
    (h : ∀ a ∈ as, Sends pre (f a) (g a) pre fail) : Sends pre (as.forM f) (as.flatMap g) pre fail := by
  induction as with
  | nil => exact pure
  | cons a as ih =>
    rw [List.flatMap_cons]
    exact (h a List.mem_cons_self).bind (ih fun a' ha => h a' (List.mem_cons_of_mem _ ha))

/-! ### Chip select -/

/-- **Chip select is released wherever the program stops**, unless the step that releases it fails. -/
theorem whileSelected (h : Sends (fun l => l.select = false) p ts (fun _ => True) fun _ => True) :
    Sends pre (whileSelected p) ts Released Released := by
  refine afterStep (fun l => l.select = false) (by simp) (fun _ _ => rfl) (fun _ _ => .inr rfl) ?_
  intro b l hl
  obtain ⟨events, hlog, ran⟩ := h b l hl
  rcases hp : p b with ⟨answer, b'⟩
  simp only [hp] at hlog ran
  simp only [hp, Bus.call]
  refine ⟨events ++ [⟨.select true, !b'.fails b'.calls⟩], by simp [hlog], ?_⟩
  -- this step is tried whatever the program told, and if it fails that is what is told
  have released := ran.released (!b'.fails b'.calls)
  cases hfails : b'.fails b'.calls <;> simpa [hfails] using released

/-- A command and its data, with the panel listening. -/
theorem send (c : UInt8) (data : List UInt8) :
    Sends (fun l => l.select = false) (send c data) (Transfer.ofCommand c data)
      (fun _ => True) fun _ => True := by
  unfold BusProgram.send Transfer.ofCommand
  refine afterStep (Listening false) (by simp) (fun l hl => ⟨hl, rfl⟩) (fun _ _ => trivial) ?_
  refine afterWrite (fun l hl => hl.hears [c]) (fun _ _ => trivial) ?_
  cases data.isEmpty with
  | true => exact flush
  | false =>
    refine afterStep (Listening true) (by simp) (fun l hl => ⟨hl.1, rfl⟩) (fun _ _ => trivial) ?_
    exact afterWrite (fun l hl => hl.hears data) (fun _ _ => trivial) flush

/-- A command and its data. -/
theorem command (c : UInt8) (data : List UInt8) :
    Sends pre (command c data) (Transfer.ofCommand c data) Released Released :=
  whileSelected (send c data)

end Sends

end Marquee
