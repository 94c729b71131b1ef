import LibreXC.Linuino.Commands

/-! # The WebSocket handlers: `websocket.py` and `security.py`

`LibreSocketEvents` and the subscriber list of `LibreSocketFactory`. A handler is a computation on
the world; the exception of a refused connection has a type of its own, every other one is a Python
exception that escapes to the library. -/

namespace LibreXC.Linuino

open Ascii Python2

/-- Request headers: a dictionary of texts, as the WebSocket library hands them over. -/
abbrev Headers := Unicode → Option Unicode

/-- `Config.get_user()` and `Config.get_password()`. -/
structure Credentials where
  user : Str
  password : Str

/-- `text == s` for a text and a byte string: a non-ASCII byte string equals no text. -/
def eqStr (text : Unicode) (s : Str) : Bool :=
  match decodeAscii s with
  | .ok t => text == t
  | .error _ => false

/-- `Security.auth_status(headers, valid_user, valid_password)`. -/
def auth_status (headers : Headers) (valid_user valid_password : Str) : Bool :=
  match headers (unicode "user"), headers (unicode "password") with
  | some header_user, some header_password =>
      if !eqStr header_user valid_user then false
      else if !eqStr header_password valid_password then false
      else true
  | _, _ => false

variable {Client : Type}

/-! ## The factory -/

/-- `json.encode("utf-8")`; `None` has no such method. -/
def encodeJson : Option Str → Except Exc Str
  | some json => encode json
  | none => .error (.attributeError (str "'NoneType' object has no attribute 'encode'"))

/-- The loop body of `broadcast`: `subscriber.sendMessage(json.encode("utf-8"))`. -/
def sendJson (json : Option Str) (subscriber : Client) : Py Client Unit := do
  let payload ← Py.lift (encodeJson json)
  sendMessage subscriber payload

/-- **`LibreSocketFactory.broadcast(json)`**. The text is encoded anew for every subscriber. -/
def broadcast (json : Option Str) : Py Client Unit := do
  (← get).subscribers.forM (sendJson json)

variable [DecidableEq Client]

/-- `LibreSocketFactory.add_client(client)`. -/
def add_client (client : Client) (w : World Client) : World Client :=
  if client ∈ w.subscribers then w
  else { w with subscribers := w.subscribers ++ [client] }

/-- `LibreSocketFactory.remove_client(client)`; `list.remove` takes the first occurrence. -/
def remove_client (client : Client) (w : World Client) : World Client :=
  if client ∈ w.subscribers then { w with subscribers := w.subscribers.erase client }
  else w

/-! ## The events -/

/-- `HttpException(code, reason)`: how `onConnect` denies a connection. -/
structure HttpException where
  code : ℕ
  reason : Str

/-- **`LibreSocketEvents.onConnect(request)`**. -/
def onConnect (config : Credentials) (client : Client) (headers : Headers) :
    EStateM HttpException (World Client) Unit :=
  if auth_status headers config.user config.password then modify (add_client client)
  else throw ⟨401, str "Invalid authentication data."⟩

omit [DecidableEq Client] in
/-- What `onMessage` does once `received` is decoded and validated, or that has raised. -/
def onReceived (order : KeyOrder) : Except Exc (CmdKey × ℤ × Bool) → Py Client Unit
  | .error error => broadcast (some error.str)
  | .ok (cmd, value, external) =>
      if external then request_cmd cmd value
      else do
        let result ← execute_cmd order cmd value
        broadcast result

omit [DecidableEq Client] in
/-- **`LibreSocketEvents.onMessage(payload, isBinary)`**. Only decoding and validation are inside
the `try`. -/
def onMessage (order : KeyOrder) (payload : Str) (isBinary : Bool) : Py Client Unit :=
  if isBinary then pure ()
  else onReceived order (decodeUtf8 payload >>= validate_cmd)

/-- The `reason` the library passes to `onClose`: the peer's text, a text of its own as a byte
string, or nothing. -/
inductive CloseReason
  | none
  | text (reason : Unicode)
  | bytes (reason : Str)

/-- `"WebSocket connection closed: {0}".format(reason)`: a byte-string format, which encodes a text
argument as ASCII. -/
def CloseReason.format : CloseReason → Except Exc Str
  | .none => .ok (str "WebSocket connection closed: None")
  | .text reason => do
      let reason ← encodeAscii reason
      return str "WebSocket connection closed: " ++ reason
  | .bytes reason => .ok (str "WebSocket connection closed: " ++ reason)

/-- **`LibreSocketEvents.onClose(wasClean, code, reason)`**. -/
def onClose (client : Client) (reason : CloseReason) : Py Client Unit := do
  let _ ← Py.lift reason.format
  modify (remove_client client)

/-! ## Broadcasting -/

section broadcast

omit [DecidableEq Client]

/-- The loop over all subscribers, when the text encodes. -/
theorem forM_sendJson {json : Option Str} {payload : Str} (h : encodeJson json = .ok payload)
    (subscribers : List Client) (w : World Client) :
    subscribers.forM (sendJson json) w
      = .ok () { w with sent := w.sent ++ subscribers.map (·, payload) } := by
  induction subscribers generalizing w with
  | nil =>
      rw [List.map_nil, List.append_nil]
      rfl
  | cons subscriber subscribers ih =>
      have hsend : sendJson json subscriber w
          = .ok () { w with sent := w.sent ++ [(subscriber, payload)] } := by
        rw [sendJson, h]
        rfl
      have hrest := ih { w with sent := w.sent ++ [(subscriber, payload)] }
      rw [List.append_assoc, List.singleton_append] at hrest
      exact (Py.bind_of_ok hsend).trans hrest

/-- **A text that encodes reaches every subscriber once, in list order.** -/
theorem broadcast_of_ok {json : Option Str} {payload : Str} (h : encodeJson json = .ok payload)
    (w : World Client) :
    broadcast json w = .ok () { w with sent := w.sent ++ w.subscribers.map (·, payload) } :=
  forM_sendJson h w.subscribers w

/-- **A text that does not encode reaches no one**, and the first subscriber makes it raise. -/
theorem broadcast_of_error {json : Option Str} {e : Exc} (h : encodeJson json = .error e)
    (w : World Client) :
    broadcast json w = if w.subscribers = [] then .ok () w else .error e w := by
  have hloop : broadcast json w = w.subscribers.forM (sendJson json) w := rfl
  rw [hloop]
  cases w.subscribers with
  | nil => rfl
  | cons subscriber subscribers =>
      have hsend : sendJson json subscriber w = .error e w := by
        rw [sendJson, h]
        rfl
      exact Py.bind_of_error hsend

end broadcast

/-! ## What a handler may change

Apart from `onConnect` and `onClose`, a handler leaves the subscriber list alone and broadcasts at most
once. -/

/-- From `w` to `w'` the subscribers stay, and what is sent on top goes to them. -/
structure Serves (w w' : World Client) : Prop where
  subscribers : w'.subscribers = w.subscribers
  sent : ∃ new, w'.sent = w.sent ++ new ∧ ∀ message ∈ new, message.1 ∈ w.subscribers

/-- From `w` to `w'` the subscribers stay, and at most one payload is sent, once to each of them. -/
structure Broadcasts (w w' : World Client) (payload : Option Str) : Prop where
  subscribers : w'.subscribers = w.subscribers
  sent : w'.sent = w.sent ++ payload.toList.flatMap fun p => w.subscribers.map (·, p)

section Broadcasts

omit [DecidableEq Client]

/-- Changing neither the subscribers nor what was sent is a special case. -/
theorem Broadcasts.of_eq {w w' : World Client} (hsubs : w'.subscribers = w.subscribers)
    (hsent : w'.sent = w.sent) : Broadcasts w w' none :=
  ⟨hsubs, by rw [hsent, Option.toList_none, List.flatMap_nil, List.append_nil]⟩

/-- A broadcast goes to the subscribers. -/
theorem Broadcasts.serves {w w' : World Client} {payload : Option Str} (h : Broadcasts w w' payload) :
    Serves w w' := by
  refine ⟨h.subscribers, _, h.sent, fun message hmessage => ?_⟩
  obtain ⟨p, -, hmessage⟩ := List.mem_flatMap.mp hmessage
  obtain ⟨subscriber, hsub, rfl⟩ := List.mem_map.mp hmessage
  exact hsub

/-- Changing nothing serves. -/
theorem Serves.of_eq {w w' : World Client} (hsubs : w'.subscribers = w.subscribers)
    (hsent : w'.sent = w.sent) : Serves w w' := (Broadcasts.of_eq hsubs hsent).serves

/-- **A broadcast reaches every subscriber once, or none**: none when the text does not encode. -/
theorem broadcast_broadcasts (json : Option Str) (w : World Client) :
    Broadcasts w (Py.exec (broadcast json) w) (encodeJson json).toOption := by
  cases h : encodeJson json with
  | ok payload =>
      rw [Py.exec_of_ok (broadcast_of_ok h w)]
      exact ⟨rfl, by rw [Except.toOption, Option.toList_some, List.flatMap_singleton]⟩
  | error e =>
      have hb := broadcast_of_error h w
      split at hb
      · rw [Py.exec_of_ok hb]
        exact .of_eq rfl rfl
      · rw [Py.exec_of_error hb]
        exact .of_eq rfl rfl

/-- An internal command returns; it may change the log directory and nothing else. -/
theorem execute_cmd_eq_ok (order : KeyOrder) (key : CmdKey) (value : ℤ) (w : World Client) :
    ∃ result logs, execute_cmd order key value w = .ok result { w with logs := logs } := by
  unfold execute_cmd
  split_ifs
  · exact ⟨_, _, rfl⟩
  · exact ⟨_, _, rfl⟩
  · exact ⟨_, _, rfl⟩
  · exact ⟨_, _, rfl⟩
  · exact ⟨_, _, rfl⟩

/-- **A message is answered by one broadcast at most.** -/
theorem onMessage_broadcasts (order : KeyOrder) (payload : Str) (isBinary : Bool) (w : World Client) :
    ∃ answer, Broadcasts w (Py.exec (onMessage order payload isBinary) w) answer := by
  cases isBinary with
  | true => exact ⟨none, .of_eq rfl rfl⟩
  | false =>
      have hreceived : onMessage order payload false
          = (onReceived order (decodeUtf8 payload >>= validate_cmd) : Py Client Unit) := rfl
      rw [hreceived]
      rcases decodeUtf8 payload >>= validate_cmd with error | ⟨cmd, value, external⟩
      · exact ⟨_, broadcast_broadcasts (some error.str) w⟩
      · cases external with
        | true =>
            cases cmd with
            | name word => exact ⟨none, .of_eq rfl rfl⟩
            | byteId byteId =>
                have hrequest := request_cmd_eq byteId value w
                rw [show onReceived order (.ok (.byteId byteId, value, true))
                  = (request_cmd (.byteId byteId) value : Py Client Unit) from rfl,
                  Py.exec_of_ok hrequest]
                split <;> exact ⟨none, .of_eq rfl rfl⟩
        | false =>
            obtain ⟨result, logs, hexec⟩ := execute_cmd_eq_ok order cmd value w
            have hb := broadcast_broadcasts result { w with logs := logs }
            rw [show onReceived order (.ok (cmd, value, false))
              = execute_cmd order cmd value >>= broadcast from rfl, Py.exec_bind_of_ok hexec]
            exact ⟨_, hb.subscribers, hb.sent⟩

end Broadcasts

end LibreXC.Linuino
