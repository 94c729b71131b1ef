import LibreXC.SerialLink.Frames

/-! # End-to-end delivery of external commands

A text message travels through `validate_cmd` and `request_cmd` onto the serial line, and from there
through the receiver of the sketch to a handler. This file composes the four pieces and states for
which messages the handler that runs is the command that was typed.

Two inputs break the chain. An integer above 255 or below -1 makes `write` raise, and `request_cmd`
swallows it: the command vanishes. The integer -1 is taken for "no parameter" and sent as 255. -/

namespace LibreXC.SerialLink

open Arduino Ascii Linuino Python2

/-! ## The pieces in a row -/

/-- What `validate_cmd` returns for an accepted external command: `(byteId, value, True)`. -/
def external (cmd : Unicode) : Option (CmdKey × ℤ) :=
  match validate_cmd cmd with
  | .ok (key, value, true) => some (key, value)
  | _ => none

/-- The accepted external commands among the messages, in order. -/
def accepted (messages : List Unicode) : List Unicode :=
  messages.filter fun cmd => (external cmd).isSome

/-- The integer a message carries as the parameter of its command, none when the command has no
parameter. -/
def typedInteger (cmd : Unicode) : Option ℤ :=
  match cmdParams (firstWord cmd) with
  | none => none
  | some params =>
      params.parameter.bind fun parameter =>
        (index (splitSpace cmd) 1 >>= parameter.convert).toOption

variable {Client : Type}

/-- An accepted external command goes to `request_cmd`. -/
def handOver (cmd : Unicode) : Py Client Unit :=
  match external cmd with
  | some (key, value) => request_cmd key value
  | none => pure ()

/-- The bytes on the line after all messages, in a world where the device opens and nothing was
written before. -/
def serialLine (w : World Client) (messages : List Unicode) : List BYTE :=
  (Py.exec (messages.forM handOver) { w with ttyOpens := true, tty := [] }).tty

/-- The handlers `loop()` calls on a line, in order. -/
def dispatches (line : List BYTE) : List Handler :=
  (runLoop 0 line).1.filterMap fun a => handleData a.2

/-- A dispatched handler in the words of the client: its name and its parameter. -/
def called (h : Handler) : Unicode × Option ℤ :=
  (unicode h.name, h.argument.map fun pid => (pid.toNat : ℤ))

/-- **The messages are delivered.** -/
structure Delivered (w : World Client) (messages : List Unicode) : Prop where
  /-- Every accepted command puts a complete frame on the line. -/
  complete : ∀ cmd ∈ accepted messages, ∃ f : Frame, serialLine w [cmd] = f.bytes
  /-- The handlers called are the accepted commands, in order and with the typed integers. -/
  dispatched : (dispatches (serialLine w messages)).map called
    = (accepted messages).map fun cmd => (firstWord cmd, typedInteger cmd)
  /-- Commands with different integers are not confused. -/
  distinct : ∀ cmd ∈ accepted messages, ∀ cmd' ∈ accepted messages,
    typedInteger cmd ≠ typedInteger cmd' →
      dispatches (serialLine w [cmd]) ≠ dispatches (serialLine w [cmd'])

/-! ## One command -/

/-- What an accepted external command is: a row of the table with a byte id, and the value that
`validate_cmd` found for it. -/
theorem external_eq_some {cmd : Unicode} {key : CmdKey} {value : ℤ}
    (h : external cmd = some (key, value)) :
    ∃ row ∈ valid_cmds, unicode row.1 = firstWord cmd ∧ row.2.byteId ≠ -1 ∧
      cmdParams (firstWord cmd) = some row.2 ∧ typedValue row.2 cmd = .ok value ∧
      key = .byteId row.2.byteId := by
  unfold external at h
  cases hv : validate_cmd cmd with
  | error e =>
      rw [hv] at h
      cases h
  | ok v =>
      obtain ⟨params, value', hparams, htyped, hval⟩ := validate_cmd_eq_ok.mp hv
      obtain ⟨name, hrow, hname⟩ := cmdParams_eq_some hparams
      rw [hv, ← hval, validated] at h
      by_cases hid : params.byteId = -1
      · rw [if_pos hid] at h
        cases h
      · rw [if_neg hid] at h
        cases h
        exact ⟨(name, params), hrow, hname, hid, hparams, htyped, rfl⟩

/-- The value of an accepted command is the typed integer, or -1 when there is none. -/
theorem typedInteger_of_typedValue {cmd : Unicode} {params : CmdParams} {value : ℤ}
    (hparams : cmdParams (firstWord cmd) = some params) (h : typedValue params cmd = .ok value) :
    typedInteger cmd = params.parameter.map (fun _ => value) ∧
      (params.parameter = none → value = -1) := by
  unfold typedInteger
  rw [hparams]
  unfold typedValue at h
  dsimp only
  cases hp : params.parameter with
  | none =>
      rw [hp] at h
      exact ⟨rfl, fun _ => (Except.ok.inj h).symm⟩
  | some parameter =>
      rw [hp] at h
      dsimp only at h
      refine ⟨?_, fun hnone => by cases hnone⟩
      rw [Option.bind_some, h]
      rfl

/-- **The byte ids of the table are the cases of `handleData()`**: the handler of a row's byte id has
the row's name, and takes the parameter byte iff the row has a parameter. -/
theorem handleData_of_mem_valid_cmds {row : String × CmdParams} (hrow : row ∈ valid_cmds)
    {c : BYTE} (hc : (c.toNat : ℤ) = row.2.byteId) (p : BYTE) :
    ∃ h, handleData ⟨c, p⟩ = some h ∧ h.name = row.1 ∧
      h.argument = row.2.parameter.map fun _ => p := by
  have hnat : ∀ n : ℕ, row.2.byteId = n → n < 256 → c = UInt8.ofNat n := by
    intro n hn hlt
    apply UInt8.toNat_inj.mp
    rw [UInt8.toNat_ofNat', Nat.mod_eq_of_lt hlt]
    omega
  simp only [valid_cmds, List.mem_cons, List.not_mem_nil, or_false] at hrow
  rcases hrow with rfl | rfl | rfl | rfl | rfl | rfl | rfl | rfl | rfl | rfl | rfl
  · exact hnat 1 rfl (by decide) ▸ ⟨_, rfl, rfl, rfl⟩
  · exact hnat 2 rfl (by decide) ▸ ⟨_, rfl, rfl, rfl⟩
  · exact hnat 3 rfl (by decide) ▸ ⟨_, rfl, rfl, rfl⟩
  · exact hnat 4 rfl (by decide) ▸ ⟨_, rfl, rfl, rfl⟩
  · exact hnat 5 rfl (by decide) ▸ ⟨_, rfl, rfl, rfl⟩
  · exact hnat 6 rfl (by decide) ▸ ⟨_, rfl, rfl, rfl⟩
  · exact hnat 7 rfl (by decide) ▸ ⟨_, rfl, rfl, rfl⟩
  -- the internal commands: -1 is no byte
  all_goals
    dsimp only at hc
    omega

/-- The bytes one message puts on the line. -/
def requestOf (cmd : Unicode) : List BYTE :=
  match external cmd with
  | some (.byteId byteId, value) => requestBytes byteId value
  | _ => []

/-- **A command with a byte as its integer travels as a frame** that makes the receiver call the
handler of its name with that integer. -/
theorem exists_frame {cmd : Unicode} (hcmd : (external cmd).isSome)
    (hbyte : ∀ n ∈ typedInteger cmd, 0 ≤ n ∧ n ≤ 255) :
    ∃ f : Frame, requestOf cmd = f.bytes ∧ ∃ h, handleData f.payload = some h ∧
      called h = (firstWord cmd, typedInteger cmd) := by
  obtain ⟨⟨key, value⟩, hext⟩ := Option.isSome_iff_exists.mp hcmd
  obtain ⟨row, hrow, hname, hid, hparams, htyped, rfl⟩ := external_eq_some hext
  obtain ⟨hint, hnone⟩ := typedInteger_of_typedValue hparams htyped
  have hvalue : value = -1 ∨ 0 ≤ value ∧ value ≤ 255 := by
    cases hpar : row.2.parameter with
    | none => exact .inl (hnone hpar)
    | some parameter => exact .inr (hbyte value (by rw [hint, hpar]; rfl))
  obtain ⟨f, hf, hcmd, hparam⟩ := exists_frame_requestBytes hrow hid hvalue
  obtain ⟨h, hh, hhname, harg⟩ := handleData_of_mem_valid_cmds hrow hcmd f.param
  refine ⟨f, ?_, h, hh, ?_⟩
  · rw [requestOf, hext]
    exact hf
  · rw [called, hhname, hname, harg, hint, Option.map_map]
    cases hpar : row.2.parameter with
    | none => rfl
    | some parameter =>
        -- a typed integer is a byte, so it is not the -1 that is sent as 255
        have hrange := hbyte value (by rw [hint, hpar]; rfl)
        rw [Option.map_some, Option.map_some, Function.comp_apply, hparam (by omega)]

/-! ## Sequences of commands -/

/-- One message adds its bytes to the line. -/
theorem handOver_eq (cmd : Unicode) {w : World Client} (hopen : w.ttyOpens = true) :
    handOver cmd w = .ok () { w with tty := w.tty ++ requestOf cmd } := by
  rw [requestOf]
  cases hext : external cmd with
  | none =>
      have hskip : handOver cmd = (pure () : Py Client Unit) := by rw [handOver, hext]
      rw [hskip, List.append_nil]
      rfl
  | some r =>
      obtain ⟨key, value⟩ := r
      obtain ⟨row, -, -, -, -, -, rfl⟩ := external_eq_some hext
      have hrequest : handOver cmd
          = (request_cmd (.byteId row.2.byteId) value : Py Client Unit) := by rw [handOver, hext]
      rw [hrequest, request_cmd_eq, if_pos hopen]

/-- Messages that are not accepted add nothing. -/
theorem flatMap_requestOf_accepted (messages : List Unicode) :
    (accepted messages).flatMap requestOf = messages.flatMap requestOf := by
  induction messages with
  | nil => rfl
  | cons cmd messages ih =>
      rw [accepted] at ih
      rw [accepted, List.filter_cons, List.flatMap_cons, ← ih]
      split
      · rfl
      · next hnone =>
          rw [Bool.not_eq_true, Option.isSome_eq_false_iff, Option.isNone_iff_eq_none] at hnone
          rw [requestOf, hnone, List.nil_append]

/-- **The line is the concatenation of the requests** of the accepted commands. -/
theorem serialLine_eq (w : World Client) (messages : List Unicode) :
    serialLine w messages = (accepted messages).flatMap requestOf := by
  have hrun : ∀ (messages : List Unicode) (w : World Client), w.ttyOpens = true →
      messages.forM handOver w = .ok () { w with tty := w.tty ++ messages.flatMap requestOf } := by
    intro messages
    induction messages with
    | nil =>
        intro w _
        rw [List.flatMap_nil, List.append_nil]
        rfl
    | cons cmd messages ih =>
        intro w hopen
        have hnext := Py.bind_of_ok (f := fun _ => messages.forM handOver) (handOver_eq cmd hopen)
        have htail := ih { w with tty := w.tty ++ requestOf cmd } hopen
        rw [List.flatMap_cons, ← List.append_assoc]
        exact hnext.trans htail
  rw [serialLine, Py.exec_of_ok (hrun messages _ rfl), flatMap_requestOf_accepted]
  exact List.nil_append _

/-- **Commands that all carry bytes are dispatched one by one**, over the frames they travel as. -/
theorem exists_frames {cmds : List Unicode} (hcmds : ∀ cmd ∈ cmds, (external cmd).isSome)
    (hbyte : ∀ cmd ∈ cmds, ∀ n ∈ typedInteger cmd, 0 ≤ n ∧ n ≤ 255) :
    ∃ fs : List Frame, cmds.flatMap requestOf = fs.flatMap Frame.bytes ∧
      (fs.filterMap fun f => handleData f.payload).map called
        = cmds.map fun cmd => (firstWord cmd, typedInteger cmd) := by
  induction cmds with
  | nil => exact ⟨[], rfl, rfl⟩
  | cons cmd cmds ih =>
      rw [List.forall_mem_cons] at hcmds hbyte
      obtain ⟨f, hf, h, hh, hcall⟩ := exists_frame hcmds.1 hbyte.1
      obtain ⟨fs, hfs, hcalls⟩ := ih hcmds.2 hbyte.2
      refine ⟨f :: fs, ?_, ?_⟩
      · rw [List.flatMap_cons, List.flatMap_cons, hf, hfs]
      · rw [List.filterMap_cons, hh, List.map_cons, List.map_cons, hcall, hcalls]

/-- A sequence of frames calls the handlers of its payloads. -/
theorem dispatches_frames (fs : List Frame) :
    dispatches (fs.flatMap Frame.bytes) = fs.filterMap fun f => handleData f.payload := by
  -- the receiver starts in step, so it accepts every frame
  have hpayloads : (runLoop 0 (fs.flatMap Frame.bytes)).1.map Prod.snd = fs.map Frame.payload := by
    rw [runLoop_eq, (frames_from_start fs 0).1, frameEnds, Transducer.map_snd_wordEnds]
  have hmap := congrArg (List.filterMap handleData) hpayloads
  rw [List.filterMap_map, List.filterMap_map] at hmap
  exact hmap

/-- The calls on the line of commands that carry bytes. -/
theorem map_called_dispatches {w : World Client} {messages : List Unicode}
    (hbyte : ∀ cmd ∈ accepted messages, ∀ n ∈ typedInteger cmd, 0 ≤ n ∧ n ≤ 255) :
    (dispatches (serialLine w messages)).map called
      = (accepted messages).map fun cmd => (firstWord cmd, typedInteger cmd) := by
  have hacc : ∀ cmd ∈ accepted messages, (external cmd).isSome :=
    fun cmd hcmd => (List.mem_filter.mp hcmd).2
  obtain ⟨fs, hline, hcalls⟩ := exists_frames hacc hbyte
  rw [serialLine_eq, hline, dispatches_frames, hcalls]

/-- An accepted command is the one command accepted when it is sent alone. -/
theorem accepted_singleton {messages : List Unicode} {cmd : Unicode} (h : cmd ∈ accepted messages) :
    accepted [cmd] = [cmd] := by
  have hcmd : (external cmd).isSome = true := (List.mem_filter.mp h).2
  simp [accepted, hcmd]

/-- **When commands are delivered**: exactly when every accepted command with a parameter has an
integer between 0 and 255. -/
theorem delivered_iff (w : World Client) (messages : List Unicode) :
    Delivered w messages ↔
      ∀ cmd ∈ accepted messages, ∀ n ∈ typedInteger cmd, 0 ≤ n ∧ n ≤ 255 := by
  constructor
  · intro hdel cmd hcmd n hn
    -- the handler called for the command got a byte, and that byte is the typed integer
    have hmem : (firstWord cmd, typedInteger cmd) ∈ (dispatches (serialLine w messages)).map called := by
      rw [hdel.dispatched]
      exact List.mem_map_of_mem hcmd
    obtain ⟨h, -, hcall⟩ := List.mem_map.mp hmem
    have harg : h.argument.map (fun pid => (pid.toNat : ℤ)) = some n := (congrArg Prod.snd hcall).trans hn
    obtain ⟨pid, -, rfl⟩ := Option.map_eq_some_iff.mp harg
    have := pid.toNat_lt
    omega
  · intro hbyte
    have hone : ∀ cmd ∈ accepted messages, ∀ cmd' ∈ accepted [cmd], ∀ n ∈ typedInteger cmd',
        0 ≤ n ∧ n ≤ 255 := by
      intro cmd hcmd cmd' hcmd'
      rw [accepted_singleton hcmd, List.mem_singleton] at hcmd'
      rw [hcmd']
      exact hbyte cmd hcmd
    -- alone on the line, too, an accepted command is dispatched with its integer
    refine ⟨fun cmd hcmd => ?_, map_called_dispatches hbyte, fun cmd hcmd cmd' hcmd' hne heq => ?_⟩
    · obtain ⟨f, hf, -⟩ := exists_frame (List.mem_filter.mp hcmd).2 (hbyte cmd hcmd)
      refine ⟨f, ?_⟩
      rw [serialLine_eq, accepted_singleton hcmd, List.flatMap_singleton, hf]
    · have hcalls := congrArg (List.map called) heq
      rw [map_called_dispatches (hone cmd hcmd), map_called_dispatches (hone cmd' hcmd'),
        accepted_singleton hcmd, accepted_singleton hcmd'] at hcalls
      exact hne (Prod.mk.inj (List.cons.inj hcalls).1).2

/-- `read_pid 300` is accepted and leaves no byte on the line. -/
theorem not_delivered_read_pid_300 :
    ¬ ∀ messages, Delivered (⟨[], ⟨[], List.nodup_nil⟩, true, [], []⟩ : World Unit) messages := by
  intro h
  have hcmd : unicode "read_pid 300" ∈ accepted [unicode "read_pid 300"] := by decide +kernel
  obtain ⟨f, hf⟩ := (h [unicode "read_pid 300"]).complete _ hcmd
  have hline : serialLine (⟨[], ⟨[], List.nodup_nil⟩, true, [], []⟩ : World Unit)
      [unicode "read_pid 300"] = [] := by decide +kernel
  have hlen := f.length_bytes
  rw [← hf, hline] at hlen
  cases hlen

end LibreXC.SerialLink
