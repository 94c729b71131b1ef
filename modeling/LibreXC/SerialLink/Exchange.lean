import LibreXC.Lib.Lines
import LibreXC.SerialLink.AnswerLines
import LibreXC.SerialLink.Delivery

/-! # Requests and answers over the serial link

The whole way of a command: a message goes to `request_cmd`, which opens the device, flushes it and
writes a frame; the sketch reads the line byte by byte, and a handler prints one line with what the
ELM library answers; the bytes of that line arrive in the input queue one by one, where `readline`
takes them. Opening, writing, reading and arriving interleave in any order. When the Data thread calls
`readline` is left open here: the thread is the subject of `Feed`.

A link is `Exchange.Intact` as long as every request finds the input queue empty and carries a byte.

* **`Exchange.Intact.answers`** — the line number `n` that `readline` returns is the answer to the
  command number `n`.
* **`Exchange.Intact.length_delivered_eq`** — where nothing can go on, every command is answered.
* **`Exchange.Intact.remaining_lt`** — every action but a request leaves less to do. -/

namespace LibreXC.SerialLink

open Arduino Ascii Linuino Python2 TransitionSystem Transducer

/-- **The serial link with both ends.** The line delivers what is written on it. -/
structure Exchange where
  device : Device
  /-- The commands whose message is on the line, in order. -/
  issued : List Unicode
  /-- The command `request_cmd` has opened the device for. -/
  opened : Option Unicode
  /-- How many of the bytes on the line the sketch has read. -/
  consumed : ℕ
  receiver : Receiver
  /-- The payloads `handleData()` was called for, in order. -/
  handled : List Payload
  /-- What was printed and has not arrived yet. -/
  transmit : Str

/-- **What may happen next** on the link. -/
inductive Action
  /-- `request_cmd` for an accepted message: `serial.Serial(...)`. -/
  | request (cmd : Unicode)
  /-- `request_cmd`: `tty.write(message)`. -/
  | write
  /-- The sketch: `nextByte()` returns, and a handler runs if the byte completes a packet. -/
  | receive
  /-- A printed byte arrives in the input queue. -/
  | transmit
  /-- `readline`: `select` returns. -/
  | select
  /-- `readline`: `os.read`. -/
  | read

namespace Exchange

/-- The daemon and the sketch have started. -/
def start : Exchange := ⟨.start, [], none, 0, .start, [], []⟩

/-- **One action**, where `elm n` is what the library answers to the handler number `n`. -/
def step (elm : ℕ → ELM) (x : Exchange) : Action → Option Exchange
  | .request cmd =>
      match external cmd with
      | some (.byteId byteId, value) =>
          (x.device.step (.request byteId value)).map fun device =>
            { x with device := device, opened := some cmd }
      | _ => none
  | .write =>
      match x.opened with
      | none => none
      | some cmd =>
          (x.device.step .write).map fun device =>
            { x with device := device, issued := x.issued ++ [cmd], opened := none }
  | .receive =>
      match x.device.output[x.consumed]? with
      | none => none
      | some b =>
          match x.receiver.step b with
          | (receiver, none) => some { x with consumed := x.consumed + 1, receiver := receiver }
          | (receiver, some data) =>
              some { x with
                consumed := x.consumed + 1
                receiver := receiver
                handled := x.handled ++ [data]
                transmit := x.transmit ++ (respondTo (elm x.handled.length) data).printed }
  | .transmit =>
      match x.transmit with
      | [] => none
      | b :: transmit =>
          (x.device.step (.emit b)).map fun device =>
            { x with device := device, transmit := transmit }
  | .select => (x.device.step .select).map fun device => { x with device := device }
  | .read => (x.device.step .read).map fun device => { x with device := device }

end Exchange

/-- The line is what the handler the command names prints. -/
def Answers (elm : ELM) (cmd : Unicode) (line : Str) : Prop :=
  ∃ handler, called handler = (firstWord cmd, typedInteger cmd) ∧
    (dispatch elm handler ⟨[], []⟩).2.printed = line

/-- Nothing can happen but a new request. -/
def Exchange.Idle (elm : ℕ → ELM) (x : Exchange) : Prop :=
  ∀ a, (∀ cmd, a ≠ .request cmd) → x.step elm a = none

/-- **The condition on a step**: a request finds the input queue empty, and its integer is a byte. -/
def Careful (x : Exchange) (a : Action) : Prop :=
  ∀ cmd, a = .request cmd →
    (x.device.request = none → x.device.queue = []) ∧ ∀ n ∈ typedInteger cmd, 0 ≤ n ∧ n ≤ 255

/-! ## One action -/

variable {elm : ℕ → ELM} {x x' : Exchange} {a : Action}

/-- What the handlers print for these payloads, the first being the payload number `n`. -/
def printedFrom (elm : ℕ → ELM) (n : ℕ) (handled : List Payload) : List Str :=
  handled.mapIdx fun i data => (respondTo (elm (n + i)) data).printed

theorem printedFrom_append (elm : ℕ → ELM) (n : ℕ) (handled handled' : List Payload) :
    printedFrom elm n (handled ++ handled')
      = printedFrom elm n handled ++ printedFrom elm (n + handled.length) handled' := by
  rw [printedFrom, List.mapIdx_append]
  simp only [printedFrom, Nat.add_assoc, Nat.add_comm handled.length]

/-- The request an accepted message makes: byte id and value. -/
def requested (cmd : Unicode) : Option (ℤ × ℤ) :=
  match external cmd with
  | some (.byteId byteId, value) => some (byteId, value)
  | _ => none

theorem requested_eq_some {cmd : Unicode} {byteId value : ℤ} :
    requested cmd = some (byteId, value) ↔ external cmd = some (.byteId byteId, value) := by
  unfold requested
  split
  · next b v h => simp [h]
  · next h => exact ⟨fun hnone => (nomatch hnone), fun hext => absurd hext (h _ _)⟩

theorem requestOf_eq {cmd : Unicode} {byteId value : ℤ} (h : requested cmd = some (byteId, value)) :
    requestOf cmd = requestBytes byteId value := by
  rw [requestOf, requested_eq_some.mp h]

/-- Opening the device for a request. -/
theorem Device.request_step {d d' : Device} {byteId value : ℤ}
    (h : d.step (.request byteId value) = some d') :
    d.request = none ∧ d' = { d with request := some (byteId, value), queue := [] } := by
  rw [step] at h
  split at h
  · next hnone => exact ⟨hnone, (Option.some.inj h).symm⟩
  · cases h

/-- Writing the message of the open request. -/
theorem Device.write_step {d d' : Device} (h : d.step .write = some d') :
    ∃ byteId value, d.request = some (byteId, value) ∧
      d' = { d with request := none, output := d.output ++ requestBytes byteId value } := by
  rw [step] at h
  split at h
  · cases h
  · next byteId value hrequest => exact ⟨byteId, value, hrequest, (Option.some.inj h).symm⟩

/-- The Data thread moves bytes from the queue to the lines, and that is all it does. -/
theorem Device.frame_select {d d' : Device} (h : d.step .select = some d') :
    d'.emitted = d.emitted ∧ d'.output = d.output ∧ d'.request = d.request := by
  rw [step] at h
  split at h
  · cases h
    exact ⟨rfl, rfl, rfl⟩
  · cases h

theorem Device.frame_read {d d' : Device} (h : d.step .read = some d') :
    d'.emitted = d.emitted ∧ d'.output = d.output ∧ d'.request = d.request := by
  rw [step] at h
  split at h
  · split at h
    · cases h
      exact ⟨rfl, rfl, rfl⟩
    · split at h <;> cases h <;> exact ⟨rfl, rfl, rfl⟩
  · cases h

/-- **What an action does.** -/
theorem Exchange.step_cases (h : x.step elm a = some x') :
    (∃ cmd byteId value, a = .request cmd ∧ requested cmd = some (byteId, value) ∧
        x.device.request = none ∧ x' = { x with
          device := { x.device with request := some (byteId, value), queue := [] }
          opened := some cmd }) ∨
      (∃ cmd byteId value, a = .write ∧ x.opened = some cmd ∧
        x.device.request = some (byteId, value) ∧ x' = { x with
          device := { x.device with
            request := none
            output := x.device.output ++ requestBytes byteId value }
          issued := x.issued ++ [cmd]
          opened := none }) ∨
      (∃ b, a = .receive ∧ x.device.output[x.consumed]? = some b ∧ x' = { x with
          consumed := x.consumed + 1
          receiver := (x.receiver.step b).1
          handled := x.handled ++ (x.receiver.step b).2.toList
          transmit := x.transmit
            ++ (printedFrom elm x.handled.length (x.receiver.step b).2.toList).flatten }) ∨
      (∃ b transmit, a = .transmit ∧ x.transmit = b :: transmit ∧ x' = { x with
          device := { x.device with
            emitted := x.device.emitted ++ [b]
            queue := x.device.queue ++ [b] }
          transmit := transmit }) ∨
      ∃ e device, (a = .select ∧ e = .select ∨ a = .read ∧ e = .read) ∧
        x.device.step e = some device ∧ x' = { x with device := device } := by
  cases a with
  | request cmd =>
      rw [step] at h
      split at h
      · next byteId value hext =>
          obtain ⟨device, hdevice, rfl⟩ := Option.map_eq_some_iff.mp h
          obtain ⟨hnone, rfl⟩ := Device.request_step hdevice
          exact .inl ⟨cmd, byteId, value, rfl, requested_eq_some.mpr hext, hnone, rfl⟩
      · cases h
  | write =>
      rw [step] at h
      split at h
      · cases h
      · next cmd hcmd =>
          obtain ⟨device, hdevice, rfl⟩ := Option.map_eq_some_iff.mp h
          obtain ⟨byteId, value, hrequest, rfl⟩ := Device.write_step hdevice
          exact .inr (.inl ⟨cmd, byteId, value, rfl, hcmd, hrequest, rfl⟩)
  | receive =>
      rw [step] at h
      split at h
      · cases h
      · next b hb =>
          refine .inr (.inr (.inl ⟨b, rfl, hb, ?_⟩))
          split at h
          · next receiver hstep =>
              obtain rfl := Option.some.inj h
              simp [hstep, printedFrom]
          · next receiver data hstep =>
              obtain rfl := Option.some.inj h
              simp [hstep, printedFrom]
  | transmit =>
      rw [step] at h
      split at h
      · cases h
      · next b transmit hb =>
          obtain rfl := Option.some.inj h
          exact .inr (.inr (.inr (.inl ⟨b, transmit, rfl, hb, rfl⟩)))
  | select =>
      obtain ⟨device, hdevice, rfl⟩ := Option.map_eq_some_iff.mp h
      exact .inr (.inr (.inr (.inr ⟨.select, device, .inl ⟨rfl, rfl⟩, hdevice, rfl⟩)))
  | read =>
      obtain ⟨device, hdevice, rfl⟩ := Option.map_eq_some_iff.mp h
      exact .inr (.inr (.inr (.inr ⟨.read, device, .inr ⟨rfl, rfl⟩, hdevice, rfl⟩)))

/-- The device sees every action as an access of its own, except for the sketch reading. -/
theorem Exchange.device_step (h : x.step elm a = some x') :
    x'.device = x.device ∨ ∃ e, x.device.step e = some x'.device ∧
      ((∃ byteId value, e = .request byteId value) → ∃ cmd, a = .request cmd) := by
  rcases step_cases h with ⟨cmd, byteId, value, rfl, -, hnone, rfl⟩
    | ⟨cmd, byteId, value, rfl, -, hrequest, rfl⟩ | ⟨b, rfl, -, rfl⟩ | ⟨b, transmit, rfl, -, rfl⟩
    | ⟨e, device, ha, hdevice, rfl⟩
  · refine .inr ⟨.request byteId value, ?_, fun _ => ⟨cmd, rfl⟩⟩
    rw [Device.step, hnone]
  · refine .inr ⟨.write, ?_, ?_⟩
    · rw [Device.step, hrequest]
    · rintro ⟨_, _, ⟨⟩⟩
  · exact .inl rfl
  · refine .inr ⟨.emit b, rfl, ?_⟩
    rintro ⟨_, _, ⟨⟩⟩
  · refine .inr ⟨e, hdevice, ?_⟩
    rintro ⟨_, _, he⟩
    rcases ha with ⟨-, rfl⟩ | ⟨-, rfl⟩ <;> cases he

/-! ## What holds on every run -/

/-- **Both ends agree on what is between them**, whatever gets lost in the input queue. -/
structure Exchange.Consistent (elm : ℕ → ELM) (x : Exchange) : Prop where
  request : x.device.request = x.opened.bind requested
  external : ∀ cmd ∈ x.issued ++ x.opened.toList, (external cmd).isSome
  output : x.device.output = x.issued.flatMap requestOf
  consumed : x.consumed ≤ x.device.output.length
  handled : outputs Receiver.step .start (x.device.output.take x.consumed) = x.handled
  receiver : after Receiver.step .start (x.device.output.take x.consumed) = x.receiver
  printed : (printedFrom elm 0 x.handled).flatten = x.device.emitted ++ x.transmit

theorem Exchange.consistent_start : start.Consistent elm :=
  ⟨rfl, fun _ h => absurd h List.not_mem_nil, rfl, Nat.zero_le _, rfl, rfl, rfl⟩

/-- **Every action keeps them in agreement.** -/
theorem Exchange.Consistent.step (hc : x.Consistent elm) (h : x.step elm a = some x') :
    x'.Consistent elm := by
  rcases step_cases h with ⟨cmd, byteId, value, -, hcmd, -, rfl⟩
    | ⟨cmd, byteId, value, -, hopened, hrequest, rfl⟩ | ⟨b, -, hb, rfl⟩ | ⟨b, transmit, -, htransmit, rfl⟩
    | ⟨e, device, ha, hdevice, rfl⟩
  · refine ⟨?_, fun c hc' => ?_, hc.output, hc.consumed, hc.handled, hc.receiver, hc.printed⟩
    · exact hcmd.symm
    · rcases List.mem_append.mp hc' with hc' | hc'
      · exact hc.external c (List.mem_append_left _ hc')
      · rw [List.mem_singleton.mp hc', requested_eq_some.mp hcmd]
        rfl
  · have hcmd : requested cmd = some (byteId, value) := by
      rw [← hrequest, hc.request, hopened, Option.bind_some]
    have htake : (x.device.output ++ requestBytes byteId value).take x.consumed
        = x.device.output.take x.consumed := List.take_append_of_le_length hc.consumed
    refine ⟨rfl, fun c hc' => ?_, ?_, ?_, ?_, ?_, hc.printed⟩
    · refine hc.external c ?_
      rw [hopened]
      simpa using hc'
    · dsimp only
      rw [hc.output, List.flatMap_append, List.flatMap_singleton, requestOf_eq hcmd]
    · exact hc.consumed.trans (by rw [List.length_append]; exact Nat.le_add_right _ _)
    · exact htake ▸ hc.handled
    · exact htake ▸ hc.receiver
  · -- the byte read is the one after those read before
    have htake : x.device.output.take (x.consumed + 1) = x.device.output.take x.consumed ++ [b] := by
      rw [List.take_add_one, hb, Option.toList_some]
    refine ⟨hc.request, hc.external, hc.output, ?_, ?_, ?_, ?_⟩
    · exact (List.getElem?_eq_some_iff.mp hb).1
    · dsimp only
      rw [htake, outputs_append, hc.handled, hc.receiver]
      simp [outputs, emits]
    · dsimp only
      rw [htake, after_append, hc.receiver]
      rfl
    · dsimp only
      rw [printedFrom_append, List.flatten_append, hc.printed, List.append_assoc, Nat.zero_add]
  · refine ⟨hc.request, hc.external, hc.output, hc.consumed, hc.handled, hc.receiver, ?_⟩
    rw [hc.printed, htransmit, List.append_assoc, List.singleton_append]
  · obtain ⟨hemitted, houtput, hrequest⟩ : device.emitted = x.device.emitted ∧
        device.output = x.device.output ∧ device.request = x.device.request := by
      rcases ha with ⟨-, rfl⟩ | ⟨-, rfl⟩
      · exact Device.frame_select hdevice
      · exact Device.frame_read hdevice
    exact ⟨hrequest ▸ hc.request, hc.external, houtput ▸ hc.output, houtput ▸ hc.consumed,
      houtput ▸ hc.handled, houtput ▸ hc.receiver, hemitted ▸ hc.printed⟩

/-- The commands issued or being issued carry bytes. -/
def Exchange.CarriesBytes (x : Exchange) : Prop :=
  ∀ cmd ∈ x.issued ++ x.opened.toList, ∀ n ∈ typedInteger cmd, 0 ≤ n ∧ n ≤ 255

theorem Exchange.CarriesBytes.step (hb : x.CarriesBytes) (hcareful : Careful x a)
    (h : x.step elm a = some x') : x'.CarriesBytes := by
  rcases step_cases h with ⟨cmd, byteId, value, rfl, -, -, rfl⟩
    | ⟨cmd, byteId, value, -, hopened, -, rfl⟩ | ⟨b, -, -, rfl⟩ | ⟨b, transmit, -, -, rfl⟩
    | ⟨e, device, -, -, rfl⟩
  · intro c hc
    rcases List.mem_append.mp hc with hc | hc
    · exact hb c (List.mem_append_left _ hc)
    · rw [List.mem_singleton.mp hc]
      exact (hcareful cmd rfl).2
  · intro c hc
    refine hb c ?_
    rw [hopened]
    simpa using hc
  · exact hb
  · exact hb
  · exact hb

/-- **What holds on a careful run**: nothing is lost on the way there or back. -/
structure Exchange.Intact (elm : ℕ → ELM) (x : Exchange) : Prop where
  consistent : x.Consistent elm
  bytes : x.CarriesBytes
  framed : x.device.Framed
  whole : x.device.Whole

theorem Exchange.intact_start : start.Intact elm where
  consistent := consistent_start
  bytes _ h := absurd h List.not_mem_nil
  framed := ⟨fun _ h => absurd h List.not_mem_nil, List.not_mem_nil⟩
  whole := ⟨rfl, fun h => absurd h Bool.false_ne_true⟩

/-- **Every careful action keeps the link intact.** -/
theorem Exchange.Intact.step (hi : x.Intact elm) (hcareful : Careful x a)
    (h : x.step elm a = some x') : x'.Intact elm := by
  refine ⟨hi.consistent.step h, hi.bytes.step hcareful h, ?_, ?_⟩
  · rcases device_step h with heq | ⟨e, hdevice, -⟩
    · rw [heq]
      exact hi.framed
    · exact hi.framed.step hdevice
  · rcases device_step h with heq | ⟨e, hdevice, hrequest⟩
    · rw [heq]
      exact hi.whole
    · refine hi.whole.step (fun byteId value he hnone => ?_) hdevice
      obtain ⟨cmd, rfl⟩ := hrequest ⟨byteId, value, he⟩
      exact (hcareful cmd rfl).1 hnone

/-! ## Frames and answers -/

/-- The command travels as this frame. -/
def Carries (cmd : Unicode) (f : Frame) : Prop :=
  requestOf cmd = f.bytes ∧ ∃ handler, handleData f.payload = some handler ∧
    called handler = (firstWord cmd, typedInteger cmd)

/-- Commands that carry bytes travel as frames, one each. -/
theorem exists_carries {cmds : List Unicode} (hext : ∀ cmd ∈ cmds, (external cmd).isSome)
    (hbyte : ∀ cmd ∈ cmds, ∀ n ∈ typedInteger cmd, 0 ≤ n ∧ n ≤ 255) :
    ∃ fs, List.Forall₂ Carries cmds fs := by
  induction cmds with
  | nil => exact ⟨[], .nil⟩
  | cons cmd cmds ih =>
      rw [List.forall_mem_cons] at hext hbyte
      obtain ⟨f, hf⟩ := exists_frame hext.1 hbyte.1
      obtain ⟨fs, hfs⟩ := ih hext.2 hbyte.2
      exact ⟨f :: fs, .cons hf hfs⟩

theorem flatMap_requestOf {cmds : List Unicode} {fs : List Frame} (h : List.Forall₂ Carries cmds fs) :
    cmds.flatMap requestOf = fs.flatMap Frame.bytes := by
  induction h with
  | nil => rfl
  | cons hcmd _ ih => rw [List.flatMap_cons, List.flatMap_cons, hcmd.1, ih]

/-- The sketch hands on the payloads of the frames. -/
theorem outputs_start_frames (fs : List Frame) :
    outputs Receiver.step .start (fs.flatMap Frame.bytes) = fs.map Frame.payload := by
  rw [outputs, (frames_from_start fs 0).1, frameEnds, map_snd_wordEnds]

/-- Related lists have related elements at every place. -/
theorem exists_of_forall₂ {α β : Type*} {R : α → β → Prop} {as : List α} {bs : List β}
    (h : List.Forall₂ R as bs) {n : ℕ} {b : β} (hb : bs[n]? = some b) : ∃ a, as[n]? = some a ∧ R a b := by
  induction h generalizing n with
  | nil => cases hb
  | cons hab _ ih =>
      cases n with
      | zero => exact ⟨_, rfl, Option.some.inj hb ▸ hab⟩
      | succ n => exact ih hb

/-- A prefix has the elements of the whole. -/
theorem getElem?_of_isPrefix {α : Type*} {as bs : List α} (h : as <+: bs) {n : ℕ} {a : α}
    (ha : as[n]? = some a) : bs[n]? = some a := by
  obtain ⟨cs, rfl⟩ := h
  rw [List.getElem?_append_left (List.getElem?_eq_some_iff.mp ha).1, ha]

/-- **The printed lines are the answers to the first commands.** -/
theorem Exchange.Intact.exists_cmd (hi : x.Intact elm) {n : ℕ} {line : Str}
    (hline : (printedFrom elm 0 x.handled)[n]? = some line) :
    ∃ cmd handler, x.issued[n]? = some cmd ∧ called handler = (firstWord cmd, typedInteger cmd) ∧
      (dispatch (elm n) handler ⟨[], []⟩).2.printed = line := by
  obtain ⟨fs, hfs⟩ := exists_carries (fun cmd h => hi.consistent.external cmd (List.mem_append_left _ h))
    (fun cmd h => hi.bytes cmd (List.mem_append_left _ h))
  -- the sketch has handled the payloads of the first frames
  have hpayloads : x.handled <+: fs.map Frame.payload := by
    rw [← outputs_start_frames, ← flatMap_requestOf hfs, ← hi.consistent.output,
      ← List.take_append_drop x.consumed x.device.output, outputs_append, hi.consistent.handled]
    exact List.prefix_append _ _
  rw [printedFrom, List.getElem?_mapIdx, Option.map_eq_some_iff] at hline
  obtain ⟨data, hdata, rfl⟩ := hline
  have hframe := getElem?_of_isPrefix hpayloads hdata
  rw [List.getElem?_map, Option.map_eq_some_iff] at hframe
  obtain ⟨f, hf, rfl⟩ := hframe
  obtain ⟨cmd, hcmd, -, handler, hhandler, hcalled⟩ := exists_of_forall₂ hfs hf
  refine ⟨cmd, handler, hcmd, hcalled, ?_⟩
  rw [respondTo, hhandler, Nat.zero_add]

/-- Every line printed on an intact link is a line. -/
theorem Exchange.Intact.isLine_printed (hi : x.Intact elm) (helm : ∀ n, SingleLine (elm n)) :
    ∀ line ∈ printedFrom elm 0 x.handled, IsLine line := by
  intro line hline
  obtain ⟨n, hn⟩ := List.getElem?_of_mem hline
  obtain ⟨cmd, handler, -, -, rfl⟩ := hi.exists_cmd hn
  exact isLine_dispatch (helm n) handler

/-- **The lines read are the first lines printed**, and the rest is on its way. -/
theorem Exchange.Intact.exists_rest (hi : x.Intact elm) (helm : ∀ n, SingleLine (elm n)) :
    ∃ rest, printedFrom elm 0 x.handled = x.device.delivered ++ rest ∧
      x.device.line ++ x.device.queue ++ x.transmit = rest.flatten := by
  refine Terminated.exists_of_flatten_append hi.framed.lines (hi.isLine_printed helm) ?_
  rw [hi.consistent.printed, ← hi.whole.intact]
  simp only [List.append_assoc]

/-! ## The link at rest -/

/-- Where the link is at rest nothing is on its way. -/
structure Exchange.Resting (x : Exchange) : Prop where
  opened : x.opened = none
  consumed : x.device.output.length ≤ x.consumed
  transmit : x.transmit = []
  queue : x.device.queue = []

/-- An open request can be written. -/
theorem Exchange.Intact.opened_eq_none (hi : x.Intact elm) (hwrite : x.step elm .write = none) :
    x.opened = none := by
  cases hopened : x.opened with
  | none => rfl
  | some cmd =>
      have hext := hi.consistent.external cmd (by simp [hopened])
      have hrequest := hi.consistent.request
      rw [hopened, Option.bind_some] at hrequest
      cases hreq : x.device.request with
      | none =>
          obtain ⟨⟨key, value⟩, hcmd⟩ := Option.isSome_iff_exists.mp hext
          obtain ⟨row, -, -, -, -, -, rfl⟩ := external_eq_some hcmd
          rw [hreq, requested_eq_some.mpr hcmd] at hrequest
          cases hrequest
      | some req => simp [Exchange.step, hopened, Device.step, hreq] at hwrite

/-- **An idle link has nothing on its way.** -/
theorem Exchange.Intact.resting (hi : x.Intact elm) (hidle : x.Idle elm) : x.Resting := by
  have hreceive : x.step elm .receive = none := hidle _ fun _ h => (nomatch h)
  have htransmit : x.step elm .transmit = none := hidle _ fun _ h => (nomatch h)
  have hselect : x.step elm .select = none := hidle _ fun _ h => (nomatch h)
  have hread : x.step elm .read = none := hidle _ fun _ h => (nomatch h)
  refine ⟨hi.opened_eq_none (hidle _ fun _ h => (nomatch h)), ?_, ?_, ?_⟩
  · by_contra hlt
    rw [Exchange.step, List.getElem?_eq_getElem (not_le.mp hlt)] at hreceive
    dsimp only at hreceive
    split at hreceive <;> cases hreceive
  · cases h : x.transmit with
    | nil => rfl
    | cons b transmit => simp [Exchange.step, h, Device.step] at htransmit
  · cases hselected : x.device.selected with
    | true =>
        -- a `select` that has returned is followed by an `os.read`
        rw [Exchange.step, Option.map_eq_none_iff, Device.step, if_pos hselected] at hread
        split at hread
        · cases hread
        · split at hread <;> cases hread
    | false =>
        by_contra hqueue
        simp [Exchange.step, Device.step, hselected, hqueue] at hselect

/-- **The line number `n` answers the command number `n`.** -/
theorem Exchange.Intact.answers (hi : x.Intact elm) (helm : ∀ n, SingleLine (elm n)) {n : ℕ}
    {line : Str} (hline : x.device.delivered[n]? = some line) :
    ∃ cmd, x.issued[n]? = some cmd ∧ Answers (elm n) cmd line := by
  obtain ⟨rest, hprinted, -⟩ := hi.exists_rest helm
  have hn := getElem?_of_isPrefix (List.prefix_append _ rest) hline
  obtain ⟨cmd, handler, hcmd, hcalled, hline⟩ := hi.exists_cmd (hprinted ▸ hn)
  exact ⟨cmd, hcmd, handler, hcalled, hline⟩

/-- No line comes before its command. -/
theorem Exchange.Intact.length_delivered_le (hi : x.Intact elm) (helm : ∀ n, SingleLine (elm n)) :
    x.device.delivered.length ≤ x.issued.length := by
  by_contra hlt
  obtain ⟨cmd, hcmd, -⟩ := hi.answers helm (List.getElem?_eq_getElem (not_le.mp hlt))
  rw [List.getElem?_eq_none le_rfl] at hcmd
  cases hcmd

/-- **Where nothing can go on, every command is answered.** -/
theorem Exchange.Intact.length_delivered_eq (hi : x.Intact elm) (helm : ∀ n, SingleLine (elm n))
    (hidle : x.Idle elm) : x.device.delivered.length = x.issued.length := by
  obtain ⟨rest, hprinted, hrest⟩ := hi.exists_rest helm
  obtain ⟨hopened, hconsumed, htransmit, hqueue⟩ := hi.resting hidle
  -- what is left of the printed lines is the line being read, which is not complete
  have hnil : rest = [] := by
    rw [htransmit, hqueue, List.append_nil, List.append_nil] at hrest
    cases rest with
    | nil => rfl
    | cons line rest =>
        obtain ⟨body, rfl, -⟩ := hi.isLine_printed helm line (by simp [hprinted])
        exact absurd (by simp [hrest]) hi.framed.line
  -- and the sketch has read all frames
  obtain ⟨fs, hfs⟩ := exists_carries
    (fun cmd h => hi.consistent.external cmd (List.mem_append_left _ h))
    (fun cmd h => hi.bytes cmd (List.mem_append_left _ h))
  have hhandled : x.handled = fs.map Frame.payload := by
    rw [← hi.consistent.handled, List.take_of_length_le hconsumed, hi.consistent.output,
      flatMap_requestOf hfs, outputs_start_frames]
  have hlength := congrArg List.length hprinted
  rw [hnil, List.append_nil, printedFrom, List.length_mapIdx, hhandled, List.length_map] at hlength
  rw [← hlength, hfs.length_eq]

/-! ## The link comes to rest -/

/-- The bytes the sketch has still to read, those of the open request included. -/
def Exchange.unread (x : Exchange) : Str :=
  x.device.output.drop x.consumed ++ x.opened.toList.flatMap requestOf

/-- What the handlers have still to print. -/
def Exchange.unprinted (elm : ℕ → ELM) (x : Exchange) : Str :=
  (printedFrom elm x.handled.length (outputs Receiver.step x.receiver x.unread)).flatten

/-- **How much is left to do**: a printed byte has to arrive, to be selected and to be read. -/
def Exchange.remaining (elm : ℕ → ELM) (x : Exchange) : ℕ :=
  x.opened.toList.length + x.unread.length + 3 * (x.transmit ++ x.unprinted elm).length
    + 2 * x.device.queue.length + if x.device.selected then 0 else 1

/-- The action is no request. -/
def NoRequest (_ : Exchange) (a : Action) : Prop := ∀ cmd, a ≠ .request cmd

/-- **Every action but a request leaves less to do.** -/
theorem Exchange.Intact.remaining_lt (hi : x.Intact elm) (hno : NoRequest x a)
    (h : x.step elm a = some x') : x'.remaining elm < x.remaining elm := by
  rcases step_cases h with ⟨cmd, byteId, value, rfl, -, -, rfl⟩
    | ⟨cmd, byteId, value, -, hopened, hrequest, rfl⟩ | ⟨b, -, hb, rfl⟩ | ⟨b, transmit, -, htransmit, rfl⟩
    | ⟨e, device, ha, hdevice, rfl⟩
  · exact absurd rfl (hno cmd)
  · -- the message moves onto the line, where it is as unread as before
    have hcmd : requested cmd = some (byteId, value) := by
      rw [← hrequest, hi.consistent.request, hopened, Option.bind_some]
    have hunread : (x.device.output ++ requestBytes byteId value).drop x.consumed
          ++ (none : Option Unicode).toList.flatMap requestOf = x.unread := by
      rw [unread, hopened, List.drop_append_of_le_length hi.consistent.consumed, Option.toList_some,
        List.flatMap_singleton, requestOf_eq hcmd, Option.toList_none, List.flatMap_nil, List.append_nil]
    unfold remaining unprinted
    unfold unread at hunread ⊢
    dsimp only
    rw [hunread, hopened, Option.toList_none, Option.toList_some, List.length_nil,
      List.length_singleton]
    omega
  · -- one byte less, and what its packet makes print has been printed
    obtain ⟨hlt, hget⟩ := List.getElem?_eq_some_iff.mp hb
    have hunread : x.unread = b :: (x.device.output.drop (x.consumed + 1)
        ++ x.opened.toList.flatMap requestOf) := by
      rw [unread, List.drop_eq_getElem_cons hlt, hget]
      rfl
    have hunprinted : x.unprinted elm
        = (printedFrom elm x.handled.length (x.receiver.step b).2.toList).flatten
          ++ (printedFrom elm (x.handled ++ (x.receiver.step b).2.toList).length
            (outputs Receiver.step (x.receiver.step b).1
              (x.device.output.drop (x.consumed + 1) ++ x.opened.toList.flatMap requestOf))).flatten := by
      have hsplit : ∀ rest, outputs Receiver.step x.receiver (b :: rest)
          = (x.receiver.step b).2.toList ++ outputs Receiver.step (x.receiver.step b).1 rest := by
        intro rest
        rw [← List.singleton_append, outputs_append]
        simp [outputs, emits, after]
      rw [unprinted, hunread, hsplit, printedFrom_append, List.flatten_append, List.length_append]
    unfold remaining
    rw [hunprinted, hunread]
    unfold unprinted unread
    dsimp only
    simp only [List.length_append, List.length_cons]
    omega
  · unfold remaining unprinted unread
    dsimp only
    rw [htransmit]
    simp only [List.length_append, List.length_cons, List.length_nil]
    omega
  · have hsame : device.output = x.device.output := by
      rcases ha with ⟨-, rfl⟩ | ⟨-, rfl⟩
      · exact (Device.frame_select hdevice).2.1
      · exact (Device.frame_read hdevice).2.1
    have hless : 2 * device.queue.length + (if device.selected then 0 else 1)
        < 2 * x.device.queue.length + if x.device.selected then 0 else 1 := by
      rcases ha with ⟨-, rfl⟩ | ⟨-, rfl⟩
      · rw [Device.step] at hdevice
        split at hdevice
        · next hcond =>
            obtain rfl := Option.some.inj hdevice
            simp [hcond.1]
        · cases hdevice
      · rw [Device.step] at hdevice
        split at hdevice
        · next hselected =>
            cases hqueue : x.device.queue with
            | nil => exact absurd hqueue (hi.whole.ready hselected)
            | cons b queue =>
                rw [hqueue] at hdevice
                dsimp only at hdevice
                split at hdevice <;> obtain rfl := Option.some.inj hdevice <;>
                  simp only [hselected, List.length_cons] <;> simp <;> omega
        · cases hdevice
    unfold remaining unprinted unread
    dsimp only
    rw [hsame]
    omega

/-- An action that is no request is careful. -/
theorem NoRequest.careful (hno : NoRequest x a) : Careful x a := fun cmd heq => absurd heq (hno cmd)

/-- Only requests add commands. -/
theorem Exchange.issued_step (hno : NoRequest x a) (h : x.step elm a = some x') :
    x'.issued ++ x'.opened.toList = x.issued ++ x.opened.toList := by
  rcases step_cases h with ⟨cmd, byteId, value, rfl, -, -, rfl⟩
    | ⟨cmd, byteId, value, -, hopened, -, rfl⟩ | ⟨b, -, -, rfl⟩ | ⟨b, transmit, -, -, rfl⟩
    | ⟨e, device, -, -, rfl⟩
  · exact absurd rfl (hno cmd)
  · rw [hopened]
    exact List.append_nil _
  · rfl
  · rfl
  · rfl

end LibreXC.SerialLink
