import LibreXC.Linuino.World

/-! # Command validation and execution: `commands.py`

The table `valid_cmds`, the parser `Commands.validate_cmd` and the two ways a valid command goes:
`Commands.request_cmd` to the Arduino and `Commands.execute_cmd` on the log directory. -/

namespace LibreXC.Linuino

open Ascii Python2

/-- The `"parameter"` conversions that occur in `valid_cmds`. -/
inductive Parameter
  | int
  deriving DecidableEq

/-- Apply a parameter conversion to a word. -/
def Parameter.convert : Parameter → Unicode → Except Exc ℤ
  | .int => Python2.int

/-- The settings of one command. -/
structure CmdParams where
  byteId : ℤ
  parameter : Option Parameter
  desc : String
  deriving DecidableEq

/-- **The table of all commands.** -/
def valid_cmds : List (String × CmdParams) :=
  [("reset", ⟨1, none, "Resets the OBD2UART connection."⟩),
    ("available_pids", ⟨2, none, "Lists all available OBD-pids."⟩),
    ("read_all", ⟨3, none, "Returns values from each available OBD-pids."⟩),
    ("read_pid", ⟨4, some .int, "Returns the value of a handed OBD-pid (e.g. 'read_pid 100')."⟩),
    ("read_car", ⟨5, none, "Returns all available car values."⟩),
    ("read_dtc", ⟨6, none, "Returns all buffered error codes."⟩),
    ("delete_dtc", ⟨7, none, "Resets all buffered error codes."⟩),
    ("available_logs", ⟨-1, none, "Returns a list of all available log-files with their IDs."⟩),
    ("read_log", ⟨-1, some .int,
      "Returns the content of a log-file identified by its ID (e.g. 'read_log 1')"⟩),
    ("delete_log", ⟨-1, some .int,
      "Deletes a log-file identified by its ID (e.g. 'delete_log 1')"⟩),
    ("help", ⟨-1, none, "Shows this help."⟩)]

/-- `valid_cmds[word]`, none when the word is no key. -/
def cmdParams (word : Unicode) : Option CmdParams :=
  (valid_cmds.find? fun cmd => unicode cmd.1 = word).map Prod.snd

/-- The byte ids of the external commands. -/
theorem byteId_mem_range : ∀ row ∈ valid_cmds, row.2.byteId ≠ -1 →
    1 ≤ row.2.byteId ∧ row.2.byteId ≤ 7 := by
  decide

/-- What `validate_cmd` returns first: the byte id of an external command, the name of an internal
one. -/
inductive CmdKey
  | byteId (id : ℤ)
  | name (word : Unicode)
  deriving DecidableEq

/-- The error text for an unknown command. Building it raises when the word is not ASCII. -/
def invalidCommand (word : Unicode) : Except Exc Str := do
  let word ← encodeAscii word
  return str "Error: '" ++ word
    ++ str "' is not a valid command, enter 'help' for all available commands."

/-- The error text for a bad parameter. Building it raises when a word is not ASCII. -/
def invalidParameter (parameter word : Unicode) : Except Exc Str := do
  let parameter ← encodeAscii parameter
  let word ← encodeAscii word
  return str "Error: '" ++ parameter ++ str "' is not a valid parameter for command '" ++ word
    ++ str "'."

/-- The `cmdValue` of a command: `-1`, or the converted second word. The handler of a failed
conversion reads that word again. -/
def cmdValue (params : CmdParams) (cmd : List Unicode) (cmd0 : Unicode) : Except Exc ℤ :=
  match params.parameter with
  | none => .ok (-1)
  | some parameter =>
      match index cmd 1 >>= parameter.convert with
      | .ok value => .ok value
      -- a missing word makes the handler itself raise, on the same index
      | .error _ => do
          let cmd1 ← index cmd 1
          throw (.exception (← invalidParameter cmd1 cmd0))

/-- **`Commands.validate_cmd(cmd)`**: `(cmdKey, cmdValue, cmdArduino)`. -/
def validate_cmd (cmd : Unicode) : Except Exc (CmdKey × ℤ × Bool) := do
  let cmd := splitSpace cmd
  let cmd0 ← index cmd 0
  match cmdParams cmd0 with
  | none => throw (.exception (← invalidCommand cmd0))
  | some params =>
      let value ← cmdValue params cmd cmd0
      if params.byteId = -1 then return (.name cmd0, value, false)
      else return (.byteId params.byteId, value, true)

/-! ## The request path -/

/-- The `message` of `request_cmd`. -/
def request_message (byteId value : ℤ) : List ℤ :=
  let start_byte := 0x11
  let cmd_byte := byteId
  let parameter_byte := if value = -1 then 255 else value
  let check_byte := Int.xor cmd_byte parameter_byte
  let end_byte := 0x22
  [start_byte, start_byte, start_byte, cmd_byte, parameter_byte, check_byte,
    end_byte, end_byte, end_byte]

variable {Client : Type}

/-- **`Commands.request_cmd(byteId, value)`**. Whatever goes wrong with the device is printed and
swallowed; only the xor of a name is outside the `try`. -/
def request_cmd (key : CmdKey) (value : ℤ) : Py Client Unit :=
  match key with
  -- the xor of a name comes before the `try`; `onMessage` never asks for it
  | .name _ => throw (.typeError (str "unsupported operand type(s) for ^"))
  | .byteId byteId =>
      try do
        serialOpen
        serialWrite (request_message byteId value)
      catch _ => pure ()

/-- What one request puts on the line: its message, or nothing when a byte is out of range. -/
def requestBytes (byteId value : ℤ) : Str :=
  match to_bytes (request_message byteId value) with
  | .ok d => d
  | .error _ => []

/-- **What `request_cmd` does** for a byte id: it returns, and when the device opens the request is
on the line. -/
theorem request_cmd_eq (byteId value : ℤ) (w : World Client) :
    request_cmd (.byteId byteId) value w
      = .ok () (if w.ttyOpens then { w with tty := w.tty ++ requestBytes byteId value } else w) := by
  have hcmd : request_cmd (.byteId byteId) value = tryCatch
      (serialOpen >>= fun _ => serialWrite (request_message byteId value))
      (fun _ => (pure () : Py Client Unit)) := rfl
  rw [hcmd]
  by_cases hopen : w.ttyOpens = true
  · have hserial := Py.bind_of_ok (f := fun _ => serialWrite (request_message byteId value))
      (serialOpen_of_opens hopen)
    rw [if_pos hopen, requestBytes]
    cases hbytes : to_bytes (request_message byteId value) with
    | ok d => exact Py.tryCatch_of_ok (hserial.trans (serialWrite_of_ok hbytes w))
    | error e =>
        rw [Py.tryCatch_of_error (hserial.trans (serialWrite_of_error hbytes w)), List.append_nil]
        rfl
  · obtain ⟨e, he⟩ := serialOpen_of_not_opens (Bool.eq_false_iff.mpr hopen)
    rw [if_neg hopen, Py.tryCatch_of_error (Py.bind_of_error he)]
    rfl

/-- A value that is neither a byte nor -1 leaves nothing on the line. -/
theorem requestBytes_of_not_mem {value : ℤ} (h : ¬ (value = -1 ∨ 0 ≤ value ∧ value ≤ 255))
    (byteId : ℤ) : requestBytes byteId value = [] := by
  rw [not_or] at h
  obtain ⟨e, he⟩ : ∃ e, byteOf value = .error e := byteOf_of_not_mem (by omega)
  have herror : ∃ e, to_bytes (request_message byteId value) = .error e := by
    rw [request_message, if_neg h.1, to_bytes]
    simp only [List.mapM_cons, he, bind, Except.bind]
    -- the marker bytes go through; the command byte may be the first to raise
    cases byteOf 0x11 with
    | error e' => exact ⟨e', rfl⟩
    | ok b => cases byteOf byteId <;> exact ⟨_, rfl⟩
  obtain ⟨e', he'⟩ := herror
  rw [requestBytes, he']

/-! ## The internal commands -/

/-- An order in which `for cmd in valid_cmds` may run through the keys: Python 2 leaves it open. -/
structure KeyOrder where
  cmds : List (String × CmdParams)
  perm : cmds.Perm valid_cmds

/-- One line of the help text. -/
def help_line (cmd : String × CmdParams) : Str :=
  str cmd.1 ++ str " - " ++ str cmd.2.desc ++ str "\n"

/-- **`Commands.execute_cmd(key, value)`**. Deleting a log falls off the end of the function and
returns `None`, as a key without a branch does. -/
def execute_cmd (order : KeyOrder) (key : CmdKey) (value : ℤ) : Py Client (Option Str) := do
  if key = .name (unicode "available_logs") then
    let logs := get_log_list (← get).logs
    return some (str "All available logs with their ids:\n\n" ++ logs)
  else if key = .name (unicode "read_log") then
    let log := get_log (← get).logs value
    return some (str "\n" ++ log)
  else if key = .name (unicode "delete_log") then
    modify fun w => { w with logs := (remove_log w.logs value).1 }
    return none
  else if key = .name (unicode "help") then
    return some (order.cmds.foldl (fun result cmd => result ++ help_line cmd)
      (str "All available commands:\n\n"))
  else
    return none

/-! ## What validation accepts -/

/-- The first word of a message. -/
def firstWord (cmd : Unicode) : Unicode := (splitSpace cmd).headD []

theorem index_zero_splitSpace (cmd : Unicode) : index (splitSpace cmd) 0 = .ok (firstWord cmd) := by
  rw [show (0 : ℤ) = ((0 : ℕ) : ℤ) from rfl, index_ofNat, firstWord]
  cases h : splitSpace cmd with
  | nil => exact absurd h (splitSpace_ne_nil cmd)
  | cons w ws => rfl

/-- A word has settings iff the table has a row of that name. -/
theorem cmdParams_eq_some {word : Unicode} {params : CmdParams} (h : cmdParams word = some params) :
    ∃ name, (name, params) ∈ valid_cmds ∧ unicode name = word := by
  obtain ⟨row, hfind, rfl⟩ := Option.map_eq_some_iff.mp h
  exact ⟨row.1, List.mem_of_find?_eq_some hfind, by simpa using List.find?_some hfind⟩

/-- The integer a message carries for a command with the given settings. -/
def typedValue (params : CmdParams) (cmd : Unicode) : Except Exc ℤ :=
  match params.parameter with
  | none => .ok (-1)
  | some parameter => index (splitSpace cmd) 1 >>= parameter.convert

/-- `cmdValue` returns exactly the integer the message carries. -/
theorem cmdValue_eq_ok {params : CmdParams} {cmd cmd0 : Unicode} {value : ℤ} :
    cmdValue params (splitSpace cmd) cmd0 = .ok value ↔ typedValue params cmd = .ok value := by
  unfold cmdValue typedValue
  cases params.parameter with
  | none => exact Iff.rfl
  | some parameter =>
      dsimp only
      cases h : index (splitSpace cmd) 1 >>= parameter.convert with
      | ok v => exact Iff.rfl
      | error e =>
          -- the handler only ever raises
          refine ⟨fun hok => ?_, fun hok => by cases hok⟩
          obtain ⟨_, _, hthrow⟩ := bind_eq_ok.mp hok
          obtain ⟨_, _, hthrow⟩ := bind_eq_ok.mp hthrow
          cases hthrow

/-- The result `validate_cmd` builds for a command of the table. -/
def validated (params : CmdParams) (word : Unicode) (value : ℤ) : CmdKey × ℤ × Bool :=
  if params.byteId = -1 then (.name word, value, false) else (.byteId params.byteId, value, true)

/-- `validate_cmd` on the first word: a raised error, or the value and then the result. -/
theorem validate_cmd_eq (cmd : Unicode) :
    validate_cmd cmd = match cmdParams (firstWord cmd) with
      | none => invalidCommand (firstWord cmd) >>= fun msg => .error (.exception msg)
      | some params => cmdValue params (splitSpace cmd) (firstWord cmd) >>= fun value =>
          .ok (validated params (firstWord cmd) value) := by
  unfold validate_cmd
  simp only [index_zero_splitSpace]
  change (match cmdParams (firstWord cmd) with | none => _ | some params => _) = _
  cases cmdParams (firstWord cmd) with
  | none => rfl
  | some params =>
      dsimp only
      congr 1
      funext value
      rw [validated]
      split <;> rfl

/-- **What `validate_cmd` accepts, and with which result.** -/
theorem validate_cmd_eq_ok {cmd : Unicode} {r : CmdKey × ℤ × Bool} :
    validate_cmd cmd = .ok r ↔
      ∃ params value, cmdParams (firstWord cmd) = some params ∧ typedValue params cmd = .ok value ∧
        validated params (firstWord cmd) value = r := by
  rw [validate_cmd_eq]
  cases h : cmdParams (firstWord cmd) with
  | none =>
      refine ⟨fun hok => ?_, fun ⟨_, _, hp, _⟩ => by cases hp⟩
      obtain ⟨_, _, hthrow⟩ := bind_eq_ok.mp hok
      cases hthrow
  | some params =>
      dsimp only
      rw [bind_eq_ok]
      simp only [cmdValue_eq_ok, Option.some.injEq, Except.ok.injEq, exists_and_left,
        exists_eq_left']

/-! ## What validation raises -/

/-- An error text that could be built is ASCII, and so is the text of the error that building one
raises. -/
def AsciiText (text : Except Exc Str) : Prop :=
  (∀ msg, text = .ok msg → IsAscii msg) ∧ ∀ e, text = .error e → IsAscii e.str

/-- The attempt to raise `Exception(text)` raises something with an ASCII text. -/
theorem AsciiText.of_throw {α : Type} {text : Except Exc Str} (htext : AsciiText text) {e : Exc}
    (h : (text >>= fun msg => (.error (.exception msg) : Except Exc α)) = .error e) :
    IsAscii e.str := by
  rcases bind_eq_error.mp h with hraise | ⟨msg, hmsg, hthrow⟩
  · exact htext.2 e hraise
  · obtain rfl := Except.error.inj hthrow
    exact htext.1 msg hmsg

/-- The text for an unknown command. -/
theorem asciiText_invalidCommand (word : Unicode) : AsciiText (invalidCommand word) := by
  have hlit : IsAscii (str "Error: '")
      ∧ IsAscii (str "' is not a valid command, enter 'help' for all available commands.") := by
    decide +kernel
  constructor
  · intro msg h
    obtain ⟨w, hw, hmsg⟩ := bind_eq_ok.mp h
    obtain rfl := Except.ok.inj hmsg
    simp only [isAscii_append, hlit, isAscii_of_encodeAscii hw, and_self]
  · intro e h
    rcases bind_eq_error.mp h with hw | ⟨w, hw, hmsg⟩
    · exact isAscii_str_of_encodeAscii hw
    · cases hmsg

/-- The text for a bad parameter. -/
theorem asciiText_invalidParameter (parameter word : Unicode) :
    AsciiText (invalidParameter parameter word) := by
  have hlit : IsAscii (str "Error: '") ∧ IsAscii (str "' is not a valid parameter for command '")
      ∧ IsAscii (str "'.") := by decide +kernel
  constructor
  · intro msg h
    obtain ⟨p, hp, h⟩ := bind_eq_ok.mp h
    obtain ⟨w, hw, hmsg⟩ := bind_eq_ok.mp h
    obtain rfl := Except.ok.inj hmsg
    simp only [isAscii_append, hlit, isAscii_of_encodeAscii hp, isAscii_of_encodeAscii hw, and_self]
  · intro e h
    rcases bind_eq_error.mp h with hp | ⟨p, hp, h⟩
    · exact isAscii_str_of_encodeAscii hp
    · rcases bind_eq_error.mp h with hw | ⟨w, hw, hmsg⟩
      · exact isAscii_str_of_encodeAscii hw
      · cases hmsg

/-- What `cmdValue` raises comes from its handler and has an ASCII text. -/
theorem isAscii_str_of_cmdValue {params : CmdParams} {cmd : List Unicode} {cmd0 : Unicode} {e : Exc}
    (h : cmdValue params cmd cmd0 = .error e) : IsAscii e.str := by
  unfold cmdValue at h
  split at h
  · cases h
  · split at h
    · cases h
    · rcases bind_eq_error.mp h with hindex | ⟨cmd1, _, h⟩
      · rw [index_eq_error hindex]
        decide +kernel
      · exact (asciiText_invalidParameter cmd1 cmd0).of_throw h

/-- **What `validate_cmd` raises has an ASCII text.** The errors it builds echo words of the message,
which have to be ASCII for the building to succeed; when they are not, the error of the attempt
shows the offending characters escaped. -/
theorem isAscii_str_of_validate_cmd {cmd : Unicode} {e : Exc} (h : validate_cmd cmd = .error e) :
    IsAscii e.str := by
  rw [validate_cmd_eq] at h
  split at h
  · exact (asciiText_invalidCommand (firstWord cmd)).of_throw h
  · rcases bind_eq_error.mp h with hvalue | ⟨value, _, hok⟩
    · exact isAscii_str_of_cmdValue hvalue
    · cases hok

end LibreXC.Linuino
