import Marquee.Proofs.Display.Readiness

/-!
# Pixels on the bus

A frame goes to the round panel as a stream of bytes. This file says which bytes the panel hears, and that
they are the frame.

* `Transfer.byCommand` : transfers as commands, each with its data.
* `Bus.Sound`, `BusProgram.Succeeds` : a bus that does not fail any more, and programs that come to their
  end on it.
* `RoundPanel.flatMap_transfer` : the transfers of pixels are together the bytes of the pixels, high byte
  first; `RoundPanel.words` reads them back.
* `RoundPanel.sendPixelsThrough` : the same with one buffer for all transfers.
* `RoundPanel.frames_arrive_whole` : **a frame that is shown arrives whole, pixel by pixel**.
-/

namespace Marquee

open Lines

/-! ### Commands with their data -/

/-- A transfer in front of later ones, which are bytes that go on with its data, and commands with their
data. -/
def Transfer.inFront (t : Transfer) (later : List UInt8 × List (UInt8 × List UInt8)) :
    List UInt8 × List (UInt8 × List UInt8) :=
  if t.isData then (t.bytes ++ later.1, later.2)
  else t.bytes.foldr (fun command later => ([], (command, later.1) :: later.2)) later

/-- Transfers by commands: the data in front of the first command, and each command byte with all data up
to the next one. -/
def Transfer.byCommand (transfers : List Transfer) : List UInt8 × List (UInt8 × List UInt8) :=
  transfers.foldr Transfer.inFront ([], [])

namespace Transfer

theorem byCommand_command (command : UInt8) (transfers : List Transfer) :
    byCommand (⟨false, [command]⟩ :: transfers) =
      ([], (command, (byCommand transfers).1) :: (byCommand transfers).2) := rfl

/-- Data may come in any number of transfers. -/
theorem byCommand_data (parts : List (List UInt8)) (transfers : List Transfer) :
    byCommand (parts.map (⟨true, ·⟩) ++ transfers) =
      (parts.flatten ++ (byCommand transfers).1, (byCommand transfers).2) := by
  induction parts with
  | nil => rfl
  | cons part parts ih =>
    have hfront : byCommand ((part :: parts).map (⟨true, ·⟩) ++ transfers) =
        inFront ⟨true, part⟩ (byCommand (parts.map (⟨true, ·⟩) ++ transfers)) := rfl
    rw [hfront, ih, inFront, List.flatten_cons, List.append_assoc]
    rfl

theorem byCommand_ofCommand (command : UInt8) {data : List UInt8} (h : data.isEmpty = false)
    (transfers : List Transfer) : byCommand (ofCommand command data ++ transfers) =
      ([], (command, data ++ (byCommand transfers).1) :: (byCommand transfers).2) := by
  have hdata := byCommand_data [data] transfers
  rw [List.flatten_singleton] at hdata
  have hparts : ofCommand command data = ⟨false, [command]⟩ :: [data].map (⟨true, ·⟩) := by
    rw [ofCommand, h]
    rfl
  rw [hparts, List.cons_append, byCommand_command, hdata]

end Transfer

/-! ### Buses that do not fail -/

/-- No call fails from now on. -/
def Bus.Sound (b : Bus) : Prop := ∀ call, b.calls ≤ call → b.fails call = false

namespace BusProgram

/-- On a bus that does not fail any more the program comes to its end, and the bus does not fail behind it
either. -/
def Succeeds (p : BusProgram Unit) : Prop :=
  ∀ b : Bus, b.Sound → (p b).1 = .ok () ∧ (p b).2.Sound

namespace Succeeds

variable {p q : BusProgram Unit}

theorem step (s : BusStep) : Succeeds (step s) := by
  intro b hb
  refine ⟨?_, fun call hcall => hb call (Nat.le_of_succ_le hcall)⟩
  simp [BusProgram.step, Bus.call, hb b.calls (Nat.le_refl _)]

theorem delay (ms : Nat) : Succeeds (delay ms) := fun _ hb => ⟨rfl, hb⟩

theorem bind (hp : Succeeds p) (hq : Succeeds q) : Succeeds (do p; q) := by
  intro b hb
  obtain ⟨hok, hsound⟩ := hp b hb
  rw [Sends.bind_apply]
  generalize p b = r at hok hsound ⊢
  obtain ⟨answer, b'⟩ := r
  obtain rfl : answer = .ok () := hok
  exact hq b' hsound

theorem forM {α : Type} {f : α → BusProgram Unit} (h : ∀ a, Succeeds (f a)) (as : List α) :
    Succeeds (as.forM f) := by
  induction as with
  | nil => exact fun b hb => ⟨rfl, hb⟩
  | cons a as ih => exact (h a).bind ih

theorem whileSelected (hp : Succeeds p) : Succeeds (whileSelected p) := by
  refine (step (.select false)).bind fun b hb => ?_
  obtain ⟨hok, hsound⟩ := hp b hb
  rcases hrun : p b with ⟨answer, b'⟩
  rw [hrun] at hok hsound
  obtain rfl : answer = .ok () := hok
  obtain ⟨hreleased, hsound'⟩ := step (.select true) b' hsound
  have hcall : (b'.call (.select true)).1 = .ok () := hreleased
  simp only [hcall, true_and]
  exact hsound'

theorem command (c : UInt8) (data : List UInt8) : Succeeds (command c data) := by
  refine whileSelected ?_
  unfold send
  cases data.isEmpty with
  | true => exact (step _).bind ((step _).bind (step _))
  | false => exact (step _).bind ((step _).bind ((step _).bind ((step _).bind (step _))))

end Succeeds

end BusProgram

namespace RoundPanel

open BusProgram

/-! ### Bytes of pixels -/

/-- Transfers hold the pixels in order, each as many as fit: by induction on the number of transfers, of
which the last takes what is left. -/
theorem flatMap_transfer_eq_take (pixels : Array UInt16) (count : Nat) :
    (List.range count).flatMap (transfer pixels) =
      (pixels.toList.take (count * transferPixels)).flatMap bigEndian := by
  induction count with
  | zero => simp
  | succ count ih =>
    -- one transfer more takes the pixels behind the first `count * transferPixels`
    rw [List.range_succ, List.flatMap_append, ih, List.flatMap_singleton, transfer, Array.toList_extract,
      List.extract_eq_take_drop, Nat.add_sub_cancel_left, ← List.flatMap_append, ← List.take_add,
      Nat.succ_mul]

theorem le_transferCount (n : Nat) : n ≤ transferCount n * transferPixels := by
  unfold transferCount transferPixels
  omega

/-- **The transfers are together the bytes of all pixels**, also if the last one is short. -/
theorem flatMap_transfer (pixels : Array UInt16) :
    (List.range (transferCount pixels.size)).flatMap (transfer pixels) =
      pixels.toList.flatMap bigEndian := by
  rw [flatMap_transfer_eq_take, List.take_of_length_le]
  rw [Array.length_toList]
  exact le_transferCount pixels.size

/-- Words from bytes, two by two, the high byte first. -/
def words : List UInt8 → List UInt16
  | [] | [_] => []
  | high :: low :: bytes => (256 * high.toNat + low.toNat).toUInt16 :: words bytes

theorem words_bigEndian (pixels : List UInt16) : words (pixels.flatMap bigEndian) = pixels := by
  induction pixels with
  | nil => rfl
  | cons w pixels ih =>
    have hword : (256 * (w >>> 8).toUInt8.toNat + w.toUInt8.toNat).toUInt16 = w := by
      have hw := w.toNat_lt
      rw [← UInt16.toNat_inj]
      simp [Nat.shiftRight_eq_div_pow]
      omega
    rw [List.flatMap_cons, bigEndian, List.cons_append, List.cons_append, List.nil_append, words, hword, ih]

/-! ### One buffer for all transfers -/

/-- Put the bytes of pixels over the front of a buffer, as far as both go. -/
def load : List UInt8 → List UInt16 → List UInt8
  | _ :: _ :: buffer, pixel :: pixels => bigEndian pixel ++ load buffer pixels
  | buffer, _ => buffer

/-- Send pixels part by part. Each part is put over what the buffer holds, and then as much of the buffer
as the part fills is sent. -/
def sendThrough (buffer : List UInt8) : List (List UInt16) → BusProgram Unit
  | [] => pure ()
  | part :: parts => do
    step (.write ((load buffer part).take (2 * part.length)))
    sendThrough (load buffer part) parts

/-- The pixels of each transfer. -/
def parts (pixels : Array UInt16) : List (List UInt16) :=
  (List.range (transferCount pixels.size)).map fun i =>
    (pixels.extract (i * transferPixels) (i * transferPixels + transferPixels)).toList

/-- Send pixels through one buffer, with the panel listening. -/
def sendPixelsThrough (buffer : List UInt8) (pixels : Array UInt16) : BusProgram Unit := do
  step (.dataCommand false)
  step (.write [memoryWrite])
  step (.dataCommand true)
  sendThrough buffer (parts pixels)
  step .flush

theorem length_load (buffer : List UInt8) (pixels : List UInt16) :
    (load buffer pixels).length = buffer.length := by
  fun_induction load buffer pixels with
  | case1 _ _ buffer pixel pixels ih => simp [bigEndian, ih]
  | case2 buffer pixels => rfl

/-- What the buffer held before is not sent. -/
theorem take_load {buffer : List UInt8} {pixels : List UInt16}
    (h : 2 * pixels.length ≤ buffer.length) :
    (load buffer pixels).take (2 * pixels.length) = pixels.flatMap bigEndian := by
  induction pixels generalizing buffer with
  | nil => simp
  | cons pixel pixels ih =>
    match buffer, h with
    | _ :: _ :: buffer, h =>
      have hrest : 2 * pixels.length ≤ buffer.length := by
        simp only [List.length_cons] at h
        omega
      rw [List.flatMap_cons, ← ih hrest, List.length_cons, Nat.mul_succ]
      rfl
    | [_], h | [], h =>
      simp only [List.length_cons, List.length_nil] at h
      omega

theorem sendThrough_eq {buffer : List UInt8} {ps : List (List UInt16)}
    (h : ∀ part ∈ ps, 2 * part.length ≤ buffer.length) :
    sendThrough buffer ps = ps.forM fun part => step (.write (part.flatMap bigEndian)) := by
  induction ps generalizing buffer with
  | nil => rfl
  | cons part ps ih =>
    -- the buffer is another one for the parts that follow, but it is as long as before
    rw [sendThrough, take_load (h part List.mem_cons_self), ih]
    · rfl
    · intro part' hpart'
      rw [length_load]
      exact h part' (List.mem_cons_of_mem _ hpart')

/-- **A buffer that fits one transfer does for all**, whatever it holds at first. -/
theorem sendPixelsThrough_eq {buffer : List UInt8} (h : buffer.length = 2 * transferPixels)
    (pixels : Array UInt16) : sendPixelsThrough buffer pixels = sendPixels pixels := by
  have hparts : ∀ part ∈ parts pixels, 2 * part.length ≤ buffer.length := by
    intro part hpart
    obtain ⟨i, -, rfl⟩ := List.mem_map.1 hpart
    rw [h, Array.length_toList, Array.size_extract]
    omega
  rw [sendPixelsThrough, sendPixels, sendThrough_eq hparts, parts, List.forM_eq_forM, List.forM_map]
  rfl

/-! ### Frames -/

/-- Between these buses all steps went well, and the panel heard these commands with their data, and
nothing beside them. -/
def Delivers (l : Lines) (before behind : Bus) (commands : List (UInt8 × List UInt8)) : Prop :=
  ∃ events sent, behind.log.toList = before.log.toList ++ events ∧ (∀ e ∈ events, e.ok = true) ∧
    l.writes events = sent.map some ∧ Transfer.byCommand sent = ([], commands)

/-- What a program should send is heard in full if the bus does not fail. -/
theorem delivers_of_sends {p : BusProgram Unit} {ts : List Transfer} {pre post fail : Lines → Prop}
    (sends : Sends pre p ts post fail) (succeeds : Succeeds p)
    {commands : List (UInt8 × List UInt8)} (hts : Transfer.byCommand ts = ([], commands)) {b : Bus}
    (hb : b.Sound) {l : Lines} (hl : pre l) : (p b).1 = .ok () ∧ Delivers l b (p b).2 commands := by
  obtain ⟨events, hlog, ran⟩ := sends b l hl
  obtain ⟨hok, -⟩ := succeeds b hb
  rw [hok] at ran
  cases ran with
  | done clean heard => exact ⟨hok, events, ts, hlog, clean, heard, hts⟩

theorem succeeds_startUp : Succeeds startUp := by
  have reset : Succeeds hardReset :=
    (Succeeds.step _).bind ((Succeeds.step _).bind ((Succeeds.delay _).bind ((Succeeds.step _).bind
      ((Succeeds.delay _).bind ((Succeeds.step _).bind (.delay _))))))
  have entries (entry : UInt8 × List UInt8) : Succeeds (command entry.1 entry.2) := .command _ _
  have display : Succeeds (do command sleepOut []; delay 120; command displayOn []; delay 20) :=
    (Succeeds.command sleepOut []).bind ((Succeeds.delay 120).bind
      ((Succeeds.command displayOn []).bind (.delay 20)))
  exact reset.bind ((Succeeds.forM entries powerUp).bind display)

/-- A panel is started on a bus that does not fail, and then its bus goes on not to fail. -/
theorem start_of_sound {p : RoundPanel} (h : p.bus.Sound) :
    p.start.1 = .ok () ∧ p.start.2.started = true ∧ p.start.2.bus.Sound := by
  obtain ⟨hok, hsound⟩ := succeeds_startUp p.bus h
  unfold start
  generalize startUp p.bus = r at hok hsound
  obtain ⟨answer, b⟩ := r
  obtain rfl : answer = .ok () := hok
  exact ⟨rfl, rfl, hsound⟩

theorem succeeds_sendPixels (pixels : Array UInt16) : Succeeds (sendPixels pixels) := by
  have transfers := Succeeds.forM (fun i => .step (.write (transfer pixels i)))
    (List.range (transferCount pixels.size))
  exact (Succeeds.step _).bind ((Succeeds.step _).bind ((Succeeds.step _).bind
    (transfers.bind (.step .flush))))

theorem succeeds_sendFrame (pixels : Array UInt16) : Succeeds (sendFrame pixels) :=
  ((Succeeds.command _ _).bind (.command _ _)).bind (.whileSelected (succeeds_sendPixels pixels))

theorem byCommand_pixels (pixels : Array UInt16) :
    Transfer.byCommand (⟨false, [memoryWrite]⟩ ::
        (List.range (transferCount pixels.size)).map fun i => ⟨true, transfer pixels i⟩) =
      ([], [(memoryWrite, pixels.toList.flatMap bigEndian)]) := by
  have hdata : Transfer.byCommand
      ((List.range (transferCount pixels.size)).map fun i => ⟨true, transfer pixels i⟩) =
        (pixels.toList.flatMap bigEndian, []) := by
    have h := Transfer.byCommand_data
      ((List.range (transferCount pixels.size)).map (transfer pixels)) []
    rw [List.append_nil, List.map_map, ← List.flatMap_def, flatMap_transfer] at h
    exact h.trans (Prod.ext (List.append_nil _) rfl)
  rw [Transfer.byCommand_command, hdata]

theorem byCommand_frameTransfers (pixels : Array UInt16) :
    Transfer.byCommand (frameTransfers pixels) =
      ([], [(columnWindow, window width), (rowWindow, window height),
        (memoryWrite, pixels.toList.flatMap bigEndian)]) := by
  rw [frameTransfers, List.append_assoc, Transfer.byCommand_ofCommand _ rfl,
    Transfer.byCommand_ofCommand _ rfl, byCommand_pixels, List.append_nil, List.append_nil]

/-- **A frame that is shown arrives whole, pixel by pixel.** The driver counts as started, its bus does not
fail any more, and the lines stand in any way.

* A frame of 240 by 240 pixels is shown. The panel hears three commands: the columns from 0 to 239, the
  rows from 0 to 239, and the bytes of all pixels in order, in however many transfers.
* Read two by two, these bytes are the frame. This holds for any number of pixels.
* With the panel listening, any number of pixels is sent as one such command.
* Pixels may as well be sent through one buffer of 64 pixels: what it held before is not sent.
* A frame of any other size is turned down, and nothing is sent. -/
theorem frames_arrive_whole (p : RoundPanel) (l : Lines) (pixels : Array UInt16)
    (hstarted : p.started = true) (hsound : p.bus.Sound) :
    let bytes := pixels.toList.flatMap bigEndian
    (pixels.size = 240 * 240 → (p.write pixels).1 = .ok () ∧
        Delivers l p.bus (p.write pixels).2.bus
          [(0x2A, [0, 0, 0, 239]), (0x2B, [0, 0, 0, 239]), (0x2C, bytes)]) ∧
      words bytes = pixels.toList ∧
      (l.select = false → (sendPixels pixels p.bus).1 = .ok () ∧
        Delivers l p.bus (sendPixels pixels p.bus).2 [(0x2C, bytes)]) ∧
      (∀ buffer : List UInt8, buffer.length = 2 * 64 →
        sendPixelsThrough buffer pixels = sendPixels pixels) ∧
      (pixels.size ≠ 240 * 240 → p.write pixels = (.error .invalidDimensions, p)) := by
  intro bytes
  refine ⟨fun hsize => ?_, words_bigEndian _, fun hselect => ?_, fun buffer hbuffer => ?_, fun hsize => ?_⟩
  · rw [write_of_size hstarted hsize]
    exact delivers_of_sends (sends_sendFrame (fun _ => True) pixels) (succeeds_sendFrame pixels)
      (byCommand_frameTransfers pixels) hsound trivial
  · exact delivers_of_sends (sends_sendPixels pixels) (succeeds_sendPixels pixels)
      (byCommand_pixels pixels) hsound hselect
  · exact sendPixelsThrough_eq hbuffer pixels
  · exact write_of_size_ne hstarted hsize

/-- A frame of all colors, on a panel that was just started. -/
theorem frames_arrive_whole_of_all_colors :
    let p := ((RoundPanel.new Bus.quiet).start).2
    let frame := (Array.range (240 * 240)).map Nat.toUInt16
    p.started = true ∧ p.bus.Sound ∧ frame.size = 240 * 240 ∧ (p.write frame).1 = .ok () ∧
      Delivers ⟨true, false, false⟩ p.bus (p.write frame).2.bus
        [(0x2A, [0, 0, 0, 239]), (0x2B, [0, 0, 0, 239]), (0x2C, frame.toList.flatMap bigEndian)] ∧
      words (frame.toList.flatMap bigEndian) = frame.toList := by
  intro p frame
  obtain ⟨-, hstarted, hsound⟩ := start_of_sound (p := RoundPanel.new Bus.quiet) fun _ _ => rfl
  have hsize : frame.size = 240 * 240 := by rw [Array.size_map, Array.size_range]
  obtain ⟨hshown, hread, -⟩ := frames_arrive_whole p ⟨true, false, false⟩ frame hstarted hsound
  exact ⟨hstarted, hsound, hsize, (hshown hsize).1, (hshown hsize).2, hread⟩

end RoundPanel

end Marquee
