import LibreXC.Linuino.Websocket
import LibreXC.SerialLink.Frames

/-! # Every message is answered

`onMessage` is to return without an exception and to have exactly one visible outcome: a request
frame on the serial line or one message broadcast. The `try` of the handler covers decoding and
validation only, so the outcome of the rest depends on what comes out of it:

* `delete_log` returns `None`, which `broadcast` cannot encode;
* the names in `available_logs` and the content in `read_log` are bytes of the file system, which
  `broadcast` can encode only when they are ASCII;
* an external command with an integer that is no byte is swallowed by `request_cmd`.

`Answerable` excludes exactly these, and `answered_iff` shows that nothing else goes wrong. -/

namespace LibreXC.Linuino

open Ascii Python2 SerialLink

variable {Client : Type} {w w' : World Client}

/-- A complete request frame went out on the line, and nothing was broadcast. -/
def FrameWritten (w w' : World Client) : Prop :=
  ∃ f : Frame, w'.tty = w.tty ++ f.bytes ∧ w'.sent = w.sent

/-- One message was broadcast to the subscribers, and nothing went out on the line. -/
def BroadcastOnce (w w' : World Client) : Prop :=
  ∃ text, w'.sent = w.sent ++ w.subscribers.map (·, text) ∧ w'.tty = w.tty

/-- The computation returns, with exactly one visible outcome. -/
def Succeeds (m : Py Client Unit) (w : World Client) : Prop :=
  (∃ w', m w = .ok () w') ∧ Xor (FrameWritten w (Py.exec m w)) (BroadcastOnce w (Py.exec m w))

/-- The payload is a valid external command. -/
def IsExternal (payload : Str) : Prop :=
  ∃ cmd value, decodeUtf8 payload >>= validate_cmd = .ok (cmd, value, true)

/-- **The message is answered**: the handler returns, and a text message has exactly one visible
outcome. A valid external command is exempt from that when the port cannot be opened: `request_cmd`
prints the error then, and writes and broadcasts nothing. -/
structure Answered (order : KeyOrder) (payload : Str) (isBinary : Bool) (w : World Client) :
    Prop where
  returns : ∃ w', onMessage order payload isBinary w = .ok () w'
  outcome : isBinary = false → (IsExternal payload → w.ttyOpens = true) →
    Succeeds (onMessage order payload isBinary) w

/-- The condition on a message that is decoded and validated, or for which that has raised. -/
def AnswerableReceived (w : World Client) : Except Exc (CmdKey × ℤ × Bool) → Prop
  | .error _ => True
  | .ok (.byteId _, value, _) => w.ttyOpens = true → value = -1 ∨ 0 ≤ value ∧ value ≤ 255
  | .ok (.name word, value, _) =>
      word ≠ unicode "delete_log" ∧
        (word = unicode "available_logs" → ∀ entry ∈ w.logs.entries, IsAscii entry.name) ∧
        (word = unicode "read_log" → ∀ name content,
          selected w.logs value = some ⟨name, .file content⟩ → IsAscii content)

/-- **The condition**: `payload` is none of the messages that go wrong in the world `w`. -/
def Answerable (w : World Client) (payload : Str) (isBinary : Bool) : Prop :=
  isBinary = false → AnswerableReceived w (decodeUtf8 payload >>= validate_cmd)

/-! ## Outcomes -/

/-- With a subscriber, a broadcast message is visible. -/
theorem not_broadcastOnce (hsubs : w.subscribers ≠ []) (hsent : w'.sent = w.sent) :
    ¬ BroadcastOnce w w' := by
  rintro ⟨text, hnew, -⟩
  rw [hsent, List.self_eq_append_right, List.map_eq_nil_iff] at hnew
  exact hsubs hnew

/-- A frame on the line is visible. -/
theorem not_frameWritten (htty : w'.tty = w.tty) : ¬ FrameWritten w w' := by
  rintro ⟨f, hframe, -⟩
  rw [htty, List.self_eq_append_right] at hframe
  have hlen := f.length_bytes
  rw [hframe] at hlen
  cases hlen

/-- A text that encodes is ASCII. -/
theorem encodeJson_eq_ok {json : Str} : (∃ payload, encodeJson (some json) = .ok payload) ↔ IsAscii json := by
  constructor
  · rintro ⟨payload, h⟩
    by_contra hascii
    obtain ⟨e, he⟩ := encode_of_not_isAscii hascii
    rw [encodeJson, he] at h
    cases h
  · intro h
    exact ⟨json, encode_of_isAscii h⟩

/-- **A computation that ends in a broadcast succeeds iff the text encodes.** What it did before may
have changed the log directory. -/
theorem succeeds_broadcast_iff {m : Py Client Unit} {json : Option Str} {logs : Directory}
    (hsubs : w.subscribers ≠ []) (hm : m w = broadcast json { w with logs := logs }) :
    Succeeds m w ↔ ∃ payload, encodeJson json = .ok payload := by
  cases h : encodeJson json with
  | ok payload =>
      rw [broadcast_of_ok h] at hm
      refine ⟨fun _ => ⟨payload, rfl⟩, fun _ => ⟨⟨_, hm⟩, .inr ⟨?_, ?_⟩⟩⟩
      · rw [Py.exec_of_ok hm]
        exact ⟨payload, rfl, rfl⟩
      · rw [Py.exec_of_ok hm]
        exact not_frameWritten rfl
  | error e =>
      rw [broadcast_of_error h, if_neg hsubs] at hm
      refine ⟨fun ⟨⟨w', hok⟩, _⟩ => ?_, fun ⟨_, h⟩ => by cases h⟩
      rw [hm] at hok
      cases hok

/-- **A request succeeds iff what it writes is a frame.** -/
theorem succeeds_request_iff {byteId value : ℤ} (hsubs : w.subscribers ≠ [])
    (hopen : w.ttyOpens = true) :
    Succeeds (request_cmd (.byteId byteId) value) w ↔ ∃ f : Frame, requestBytes byteId value = f.bytes := by
  have hm := request_cmd_eq byteId value w
  rw [if_pos hopen] at hm
  rw [Succeeds, Py.exec_of_ok hm]
  have hnot : ¬ BroadcastOnce w { w with tty := w.tty ++ requestBytes byteId value } :=
    not_broadcastOnce hsubs rfl
  constructor
  · rintro ⟨-, ⟨⟨f, hf, -⟩, -⟩ | ⟨hb, -⟩⟩
    · exact ⟨f, List.append_cancel_left hf⟩
    · exact absurd hb hnot
  · rintro ⟨f, hf⟩
    exact ⟨⟨_, hm⟩, .inl ⟨⟨f, by rw [hf], rfl⟩, hnot⟩⟩

/-! ## The internal commands -/

/-- A text extended by ASCII lines stays ASCII. -/
theorem isAscii_foldl_help_line {cmds : List (String × CmdParams)} {result : Str}
    (hresult : IsAscii result) (hcmds : ∀ cmd ∈ cmds, IsAscii (help_line cmd)) :
    IsAscii (cmds.foldl (fun result cmd => result ++ help_line cmd) result) := by
  induction cmds generalizing result with
  | nil => exact hresult
  | cons cmd cmds ih =>
      rw [List.forall_mem_cons] at hcmds
      exact ih (isAscii_append.mpr ⟨hresult, hcmds.1⟩) hcmds.2

/-- The help text is ASCII, whatever order the keys come in. -/
theorem isAscii_help (order : KeyOrder) :
    IsAscii (order.cmds.foldl (fun result cmd => result ++ help_line cmd)
      (str "All available commands:\n\n")) := by
  have htable : ∀ cmd ∈ valid_cmds, IsAscii (help_line cmd) := by decide +kernel
  exact isAscii_foldl_help_line (by decide +kernel)
    fun cmd hcmd => htable cmd (order.perm.mem_iff.mp hcmd)

/-- What `get_log` returns is ASCII iff the content of the file the id selects is. -/
theorem isAscii_get_log (logs : Directory) (id : ℤ) :
    IsAscii (get_log logs id) ↔
      ∀ name content, selected logs id = some ⟨name, .file content⟩ → IsAscii content := by
  have hnone : IsAscii (doesNotExist id) := by
    have hlit : IsAscii (str "Log with id ") ∧ IsAscii (str " does not exist!") := by decide
    simp [doesNotExist, hlit]
  rw [get_log_eq]
  cases selected logs id with
  | none => exact ⟨fun _ _ _ h => (nomatch h), fun _ => hnone⟩
  | some entry =>
      obtain ⟨name, node⟩ := entry
      cases node with
      | directory => exact ⟨fun _ _ _ h => (nomatch h), fun _ => hnone⟩
      | file content =>
          refine ⟨fun h _ _ heq => ?_, fun h => h name content rfl⟩
          cases heq
          exact h

/-- The words of the internal commands. -/
theorem internal_word {word : Unicode} {params : CmdParams} (h : cmdParams word = some params)
    (hid : params.byteId = -1) :
    word = unicode "available_logs" ∨ word = unicode "read_log" ∨ word = unicode "delete_log" ∨
      word = unicode "help" := by
  obtain ⟨name, hrow, rfl⟩ := cmdParams_eq_some h
  simp only [valid_cmds, List.mem_cons, List.not_mem_nil, or_false, Prod.mk.injEq] at hrow
  rcases hrow with ⟨rfl, rfl⟩ | ⟨rfl, rfl⟩ | ⟨rfl, rfl⟩ | ⟨rfl, rfl⟩ | ⟨rfl, rfl⟩ | ⟨rfl, rfl⟩
    | ⟨rfl, rfl⟩ | ⟨rfl, rfl⟩ | ⟨rfl, rfl⟩ | ⟨rfl, rfl⟩ | ⟨rfl, rfl⟩
  iterate 7 exact absurd hid (by decide)
  · exact .inl rfl
  · exact .inr (.inl rfl)
  · exact .inr (.inr (.inl rfl))
  · exact .inr (.inr (.inr rfl))

/-- The text an internal command broadcasts, none for `None`. -/
def resultText (order : KeyOrder) (logs : Directory) (word : Unicode) (value : ℤ) : Option Str :=
  if word = unicode "available_logs" then
    some (str "All available logs with their ids:\n\n" ++ get_log_list logs)
  else if word = unicode "read_log" then some (str "\n" ++ get_log logs value)
  else if word = unicode "delete_log" then none
  else if word = unicode "help" then
    some (order.cmds.foldl (fun result cmd => result ++ help_line cmd)
      (str "All available commands:\n\n"))
  else none

/-- An internal command returns its text. -/
theorem execute_cmd_eq (order : KeyOrder) (word : Unicode) (value : ℤ) (w : World Client) :
    ∃ logs, execute_cmd order (.name word) value w
      = .ok (resultText order w.logs word value) { w with logs := logs } := by
  unfold execute_cmd resultText
  simp only [CmdKey.name.injEq]
  split_ifs
  · exact ⟨_, rfl⟩
  · exact ⟨_, rfl⟩
  · exact ⟨_, rfl⟩
  · exact ⟨_, rfl⟩
  · exact ⟨_, rfl⟩

/-- **When an internal command has a text to broadcast.** -/
theorem encodeJson_resultText (order : KeyOrder) (logs : Directory) {word : Unicode} (value : ℤ)
    (hword : word = unicode "available_logs" ∨ word = unicode "read_log" ∨
      word = unicode "delete_log" ∨ word = unicode "help") :
    (∃ payload, encodeJson (resultText order logs word value) = .ok payload) ↔
      word ≠ unicode "delete_log" ∧
        (word = unicode "available_logs" → ∀ entry ∈ logs.entries, IsAscii entry.name) ∧
        (word = unicode "read_log" → ∀ name content,
          selected logs value = some ⟨name, .file content⟩ → IsAscii content) := by
  have hne : unicode "read_log" ≠ unicode "available_logs" ∧
      unicode "delete_log" ≠ unicode "available_logs" ∧ unicode "delete_log" ≠ unicode "read_log" ∧
      unicode "help" ≠ unicode "available_logs" ∧ unicode "help" ≠ unicode "read_log" ∧
      unicode "help" ≠ unicode "delete_log" := by decide +kernel
  obtain ⟨hra, hda, hdr, hha, hhr, hhd⟩ := hne
  rcases hword with rfl | rfl | rfl | rfl
  · have hlit : IsAscii (str "All available logs with their ids:\n\n") := by decide +kernel
    rw [resultText, if_pos rfl, encodeJson_eq_ok, isAscii_append, isAscii_get_log_list]
    simp [hlit, hda.symm, hra.symm]
  · have hlit : IsAscii (str "\n") := by decide
    rw [resultText, if_neg hra, if_pos rfl, encodeJson_eq_ok, isAscii_append, isAscii_get_log]
    simp [hlit, hdr.symm, hra]
  · rw [resultText, if_neg hda, if_neg hdr, if_pos rfl]
    exact ⟨fun ⟨_, h⟩ => (nomatch h), fun h => absurd rfl h.1⟩
  · rw [resultText, if_neg hha, if_neg hhr, if_neg hhd, if_pos rfl, encodeJson_eq_ok]
    exact ⟨fun _ => ⟨hhd, fun h => absurd h hha, fun h => absurd h hhr⟩, fun _ => isAscii_help order⟩

/-! ## The result -/

/-- Where the outcome is asked for, being answered is succeeding. -/
theorem answered_text_iff {order : KeyOrder} {payload : Str}
    (hasked : IsExternal payload → w.ttyOpens = true) :
    Answered order payload false w ↔ Succeeds (onMessage order payload false) w :=
  ⟨fun h => h.outcome rfl hasked, fun h => ⟨h.1, fun _ _ => h⟩⟩

section cases

variable {order : KeyOrder} {payload : Str}

/-- The handler of a text message, once it is decoded and validated. -/
theorem onMessage_of_received {received : Except Exc (CmdKey × ℤ × Bool)}
    (h : decodeUtf8 payload >>= validate_cmd = received) :
    onMessage order payload false = (onReceived order received : Py Client Unit) := by
  rw [← h]
  rfl

/-- A message is external only if validation says so. -/
theorem not_isExternal {received : Except Exc (CmdKey × ℤ × Bool)}
    (h : decodeUtf8 payload >>= validate_cmd = received)
    (hne : ∀ cmd value, received ≠ .ok (cmd, value, true)) : ¬ IsExternal payload := by
  rintro ⟨cmd, value, hok⟩
  exact hne cmd value (h.symm.trans hok)

/-- What cannot be decoded or validated is answered with the error text. -/
theorem answered_of_error {error : Exc} (hsubs : w.subscribers ≠ [])
    (h : decodeUtf8 payload >>= validate_cmd = .error error) : Answered order payload false w := by
  have hbody : onMessage order payload false w = broadcast (some error.str) { w with logs := w.logs } := by
    rw [onMessage_of_received h]
    rfl
  -- both sources of errors produce ASCII texts, which `broadcast` can encode
  have hascii : IsAscii error.str := by
    rcases bind_eq_error.mp h with hdecode | ⟨cmd, -, hvalidate⟩
    · exact isAscii_str_of_decodeUtf8 hdecode
    · exact isAscii_str_of_validate_cmd hvalidate
  rw [answered_text_iff fun hext => absurd hext (not_isExternal h fun _ _ hok => nomatch hok),
    succeeds_broadcast_iff hsubs hbody, encodeJson_eq_ok]
  exact hascii

/-- A valid internal command is answered iff its text can be broadcast. -/
theorem answered_internal_iff {word : Unicode} {params : CmdParams} {value : ℤ}
    (hsubs : w.subscribers ≠ [])
    (h : decodeUtf8 payload >>= validate_cmd = .ok (.name word, value, false))
    (hparams : cmdParams word = some params) (hid : params.byteId = -1) :
    Answered order payload false w ↔ AnswerableReceived w (.ok (.name word, value, false)) := by
  obtain ⟨logs, hexec⟩ := execute_cmd_eq order word value w
  have hbody : onMessage order payload false w
      = broadcast (resultText order w.logs word value) { w with logs := logs } := by
    rw [onMessage_of_received h]
    exact Py.bind_of_ok (f := broadcast) hexec
  rw [answered_text_iff fun hext => absurd hext (not_isExternal h fun _ _ hok => nomatch hok),
    succeeds_broadcast_iff hsubs hbody, encodeJson_resultText order w.logs value
      (internal_word hparams hid)]
  exact Iff.rfl

/-- A valid external command is answered iff its value travels as a frame. -/
theorem answered_external_iff {name : String} {params : CmdParams} {value : ℤ}
    (hsubs : w.subscribers ≠ [])
    (h : decodeUtf8 payload >>= validate_cmd = .ok (.byteId params.byteId, value, true))
    (hrow : (name, params) ∈ valid_cmds) (hid : params.byteId ≠ -1) :
    Answered order payload false w
      ↔ AnswerableReceived w (.ok (.byteId params.byteId, value, true)) := by
  have hbody : onMessage order payload false
      = (request_cmd (.byteId params.byteId) value : Py Client Unit) := by
    rw [onMessage_of_received h]
    rfl
  have hexternal : IsExternal payload := ⟨_, _, h⟩
  by_cases hopen : w.ttyOpens = true
  · rw [answered_text_iff fun _ => hopen, hbody, succeeds_request_iff hsubs hopen]
    constructor
    · rintro ⟨f, hf⟩ -
      -- a frame is not empty, so no byte was out of range
      by_contra hvalue
      rw [requestBytes_of_not_mem hvalue] at hf
      have hlen := f.length_bytes
      rw [← hf] at hlen
      cases hlen
    · intro hvalue
      obtain ⟨f, hf, -, -⟩ := exists_frame_requestBytes hrow hid (hvalue hopen)
      exact ⟨f, hf⟩
  · -- without the port the outcome is not asked for, only that the handler returns
    refine ⟨fun _ h => absurd h hopen, fun _ => ⟨?_, fun _ hasked => absurd (hasked hexternal) hopen⟩⟩
    rw [hbody]
    exact ⟨_, request_cmd_eq _ _ _⟩

end cases

/-- **Which messages are answered**, in a world with at least one subscriber. -/
theorem answered_iff (order : KeyOrder) (payload : Str) (isBinary : Bool) (w : World Client)
    {sender : Client} (hsender : sender ∈ w.subscribers) :
    Answered order payload isBinary w ↔ Answerable w payload isBinary := by
  have hsubs : w.subscribers ≠ [] := List.ne_nil_of_mem hsender
  cases isBinary with
  | true => exact ⟨fun _ h => (nomatch h), fun _ => ⟨⟨w, rfl⟩, fun h => (nomatch h)⟩⟩
  | false =>
      have hcond : Answerable w payload false
          ↔ AnswerableReceived w (decodeUtf8 payload >>= validate_cmd) :=
        ⟨fun h => h rfl, fun h _ => h⟩
      rw [hcond]
      cases hreceived : decodeUtf8 payload >>= validate_cmd with
      | error error => exact ⟨fun _ => trivial, fun _ => answered_of_error hsubs hreceived⟩
      | ok received =>
          obtain ⟨cmd, -, hvalidate⟩ := bind_eq_ok.mp hreceived
          obtain ⟨params, value, hparams, -, rfl⟩ := validate_cmd_eq_ok.mp hvalidate
          obtain ⟨name, hrow, -⟩ := cmdParams_eq_some hparams
          by_cases hid : params.byteId = -1
          · rw [validated, if_pos hid] at hreceived ⊢
            exact answered_internal_iff hsubs hreceived hparams hid
          · rw [validated, if_neg hid] at hreceived ⊢
            exact answered_external_iff hsubs hreceived hrow hid

/-- The world of a single client whose log directory holds one file. -/
def oneLog (name content : Str) : World Unit :=
  ⟨[()], ⟨[⟨name, .file content⟩], List.nodup_singleton _⟩, true, [], []⟩

/-- An ASCII log is answered with its content. -/
theorem answered_read_log_ascii :
    () ∈ (oneLog (str "a.json") (str "{}")).subscribers ∧
      Answered ⟨valid_cmds, .refl _⟩ (str "read_log 1") false (oneLog (str "a.json") (str "{}")) := by
  have hreceived : decodeUtf8 (str "read_log 1") >>= validate_cmd
      = .ok (.name (unicode "read_log"), 1, false) := by decide +kernel
  have hselected : selected (oneLog (str "a.json") (str "{}")).logs 1
      = some ⟨str "a.json", .file (str "{}")⟩ := by decide +kernel
  refine ⟨List.mem_singleton_self _, (answered_iff _ _ _ _ (List.mem_singleton_self ())).mpr ?_⟩
  intro _
  rw [hreceived]
  refine ⟨by decide, fun h => absurd h (by decide), fun _ name content hfile => ?_⟩
  rw [hselected] at hfile
  cases hfile
  decide

/-- `delete_log 1` is not answered: the log is removed and the handler raises. -/
theorem not_answered_delete_log :
    ¬ ∀ (order : KeyOrder) (payload : Str) (isBinary : Bool) (w : World Unit),
      () ∈ w.subscribers → Answered order payload isBinary w := by
  intro h
  have hreceived : decodeUtf8 (str "delete_log 1") >>= validate_cmd
      = .ok (.name (unicode "delete_log"), 1, false) := by decide +kernel
  have hparams : ∃ params, cmdParams (unicode "delete_log") = some params ∧ params.byteId = -1 :=
    ⟨⟨-1, some .int, "Deletes a log-file identified by its ID (e.g. 'delete_log 1')"⟩,
      by decide +kernel⟩
  obtain ⟨params, hparams, hid⟩ := hparams
  have hansw := h ⟨valid_cmds, .refl _⟩ (str "delete_log 1") false (oneLog (str "a.json") (str "{}"))
    (List.mem_singleton_self _)
  have hsubs : (oneLog (str "a.json") (str "{}")).subscribers ≠ [] := List.cons_ne_nil _ _
  exact ((answered_internal_iff hsubs hreceived hparams hid).mp hansw).1 rfl

end LibreXC.Linuino
