import LibreXC.Autobahn.Utf8Validator
import LibreXC.Autobahn.XorMasker
import LibreXC.Lib.Struct

/-! # The WebSocket protocol

The protocol instance of one connection once the opening handshake is done: bytes come in from the
transport and are cut into frames, data frames are put together to messages, control frames are
answered, and the application sends messages. Server and client share the code and differ in the
options.

The attributes of the instance are those of a **`Protocol`**, which the hooks and the senders work on,
of the **`Incoming`** message in it, and of a **`Connection`** around it: the buffered bytes and the
current frame. A method that may raise
returns a **`Result`**: what a caller tests (`false` where the code returns `False`) and the state it
leaves behind, or the exception. Lists of byte strings that the code only ever joins are kept joined. -/

namespace LibreXC.Autobahn

open Ascii Python2 Struct

/-! ## Data -/

/-- `STATE_OPEN`, `STATE_CLOSING` and `STATE_CLOSED`; the others end with the opening handshake. -/
inductive State
  | OPEN | CLOSING | CLOSED
  deriving DecidableEq

structure FrameHeader where
  opcode : ℕ
  fin : Bool
  rsv : ℕ
  length : ℕ
  mask : Option Mask
  deriving DecidableEq

/-- What the protocol does to the outside. -/
inductive Effect
  /-- `transport.write`. -/
  | write (raw : Str)
  | closeConnection (abort : Bool)
  | onMessage (payload : Str) (isBinary : Bool)
  /-- The reason is a byte string where the library has made it up, and a text where the peer has sent
  it. -/
  | onClose (wasClean : Bool) (code : Option ℕ) (reason : Option (Str ⊕ Unicode))
  deriving DecidableEq

/-- **The options of a connection**, the masks its random numbers make, and its application. -/
structure Options where
  isServer : Bool
  requireMaskedClientFrames : Bool
  acceptMaskedServerFrames : Bool
  maskClientFrames : Bool
  maskServerFrames : Bool
  applyMask : Bool
  utf8validateIncoming : Bool
  failByDrop : Bool
  maxFramePayloadSize : ℕ
  maxMessagePayloadSize : ℕ
  autoFragmentSize : ℕ
  /-- `struct.pack("!I", random.getrandbits(32))`, call by call. -/
  random : ℕ → Mask
  /-- What the application sends back on this connection while it handles a message, text by text, and the
  exception it leaves with, if there is one. All it may depend on is in what has been done so far, the
  message being the last of it. -/
  broadcasts : List Effect → List Str × Option Exc

/-- `WebSocketServerFactory.resetProtocolOptions`. -/
def Options.server (random : ℕ → Mask) (broadcasts : List Effect → List Str × Option Exc) : Options where
  isServer := true
  requireMaskedClientFrames := true
  acceptMaskedServerFrames := false
  maskClientFrames := true
  maskServerFrames := false
  applyMask := true
  utf8validateIncoming := true
  failByDrop := true
  maxFramePayloadSize := 0
  maxMessagePayloadSize := 0
  autoFragmentSize := 0
  random := random
  broadcasts := broadcasts

/-- `WebSocketClientFactory.resetProtocolOptions`. -/
def Options.client (random : ℕ → Mask) (broadcasts : List Effect → List Str × Option Exc) : Options :=
  { Options.server random broadcasts with isServer := false }

/-- **What is being received**: the attributes of the current message and of the current frame. -/
structure Incoming where
  inside_message : Bool
  utf8validator : Utf8Validator
  utf8validateIncomingCurrentMessage : Bool
  /-- What `validate` last said, without the index within the piece, which nobody reads. -/
  utf8validateLast : Bool × Bool × ℕ
  control_frame_data : Option Str
  message_is_binary : Bool
  message_data : Option Str
  message_data_total_length : ℕ
  frame_data : Option Str
  deriving DecidableEq

/-- **The protocol instance** (`WebSocketProtocol`), as far as messages and closing are concerned. -/
structure Protocol where
  state : State
  incoming : Incoming
  wasMaxFramePayloadSizeExceeded : Bool
  wasMaxMessagePayloadSizeExceeded : Bool
  closedByMe : Bool
  failedByMe : Bool
  droppedByMe : Bool
  wasClean : Bool
  wasNotCleanReason : Option Str
  wasCloseHandshakeTimeout : Bool
  wasServerConnectionDropTimeout : Bool
  localCloseCode : Option ℕ
  localCloseReason : Option Str
  remoteCloseCode : Option ℕ
  remoteCloseReason : Option Unicode
  /-- The timers that are set. -/
  closeHandshakeTimeoutCall : Bool
  serverConnectionDropTimeoutCall : Bool
  /-- The number of masks drawn. -/
  drawn : ℕ
  effects : List Effect
  deriving DecidableEq

/-- **The protocol instance with what has been received** and not yet been consumed. -/
structure Connection where
  data : Str
  current_frame : Option FrameHeader
  current_frame_masker : XorMasker
  protocol : Protocol
  deriving DecidableEq

/-- What a method leaves behind. -/
inductive Result (α : Type)
  | returned (more : Bool) (p : α)
  | raised (e : Exc) (p : α)
  deriving DecidableEq

namespace Result

variable {α β : Type}

/-- Go on unless the method has returned `False` or raised. -/
def andThen : Result α → (α → Result α) → Result α
  | returned true p, f => f p
  | returned false p, _ => returned false p
  | raised e p, _ => raised e p

/-- The method runs inside a larger state. -/
def map (f : α → β) : Result α → Result β
  | returned more p => returned more (f p)
  | raised e p => raised e (f p)

/-- The state afterwards. -/
def state : Result α → α
  | returned _ p => p
  | raised _ p => p

/-- The exception, if there is one. -/
def exception : Result α → Option Exc
  | returned _ _ => none
  | raised e _ => some e

end Result

/-- Nothing has been received. -/
def Incoming.start : Incoming where
  inside_message := false
  utf8validator := .reset
  utf8validateIncomingCurrentMessage := false
  utf8validateLast := (true, true, 0)
  control_frame_data := none
  message_is_binary := false
  message_data := none
  message_data_total_length := 0
  frame_data := none

namespace Protocol

/-- After the opening handshake. -/
def start : Protocol where
  state := .OPEN
  incoming := .start
  wasMaxFramePayloadSizeExceeded := false
  wasMaxMessagePayloadSizeExceeded := false
  closedByMe := false
  failedByMe := false
  droppedByMe := false
  wasClean := false
  wasNotCleanReason := none
  wasCloseHandshakeTimeout := false
  wasServerConnectionDropTimeout := false
  localCloseCode := none
  localCloseReason := none
  remoteCloseCode := none
  remoteCloseReason := none
  closeHandshakeTimeoutCall := false
  serverConnectionDropTimeoutCall := false
  drawn := 0
  effects := []

/-! ## Sending frames -/

/-- The payload length in the second byte, and the bytes `el` of an extended one. -/
def lengthBytes (l : ℕ) : ℕ × Str :=
  if l ≤ 125 then (l, []) else if l ≤ 0xFFFF then (126, pack 2 l) else (127, pack 8 l)

/-- The payload as it is sent. -/
def maskedPayload (mask : Option Mask) (applyMask : Bool) (payload : Str) : Str :=
  match mask with
  | some mask =>
      if 0 < payload.length ∧ applyMask = true then
        ((XorMasker.createXorMasker mask (some payload.length)).process payload).1
      else payload
  | none => payload

/-- The bytes of a frame. -/
def frame (mask : Option Mask) (applyMask : Bool) (opcode : ℕ) (payload : Str) (fin : Bool) (rsv : ℕ) : Str :=
  let len := lengthBytes payload.length
  let b0 := (if fin then 1 <<< 7 else 0) ||| (rsv % 8) <<< 4 ||| opcode % 128
  let b1 := (if mask.isSome then 1 <<< 7 else 0) ||| len.1
  let mv := mask.elim [] Mask.octets
  [UInt8.ofNat b0, UInt8.ofNat b1] ++ len.2 ++ mv ++ maskedPayload mask applyMask payload

/-- Write to the transport. -/
def sendData (raw : Str) (p : Protocol) : Protocol := { p with effects := p.effects ++ [.write raw] }

/-- **Send a frame**, masked where the role and its options want it. -/
def sendFrame (o : Options) (opcode : ℕ) (payload : Str) (fin : Bool) (rsv : ℕ) (p : Protocol) : Protocol :=
  if (!o.isServer && o.maskClientFrames) || (o.isServer && o.maskServerFrames) then
    sendData (frame (some (o.random p.drawn)) o.applyMask opcode payload fin rsv)
      { p with drawn := p.drawn + 1 }
  else sendData (frame none o.applyMask opcode payload fin rsv) p

/-! ## Sending messages -/

/-- The loop over the fragments of a message: `rest` is `payload[i:]`. A payload that is a multiple of
the fragment size ends in an empty fragment. The size is not zero, as `sendMessage` has checked. -/
def sendFragments (o : Options) (pfs : ℕ) (opcode : ℕ) (first : Bool) (rest : Str) (p : Protocol) : Protocol :=
  if _h : rest.length < pfs ∨ pfs = 0 then sendFrame o (if first then opcode else 0) rest true 0 p
  else
    sendFragments o pfs opcode false (rest.drop pfs)
      (sendFrame o (if first then opcode else 0) (rest.take pfs) false 0 p)
termination_by rest.length
decreasing_by
  rw [List.length_drop]
  omega

/-- The fragment size in force, if there is one. -/
def fragmentSizeOf (o : Options) : Option ℕ → Option ℕ
  | some size => some size
  | none => if 0 < o.autoFragmentSize then some o.autoFragmentSize else none

/-- **Send a message**, in fragments when a size is given or set and the payload is longer. -/
def sendMessage (o : Options) (payload : Str) (isBinary : Bool) (fragmentSize : Option ℕ) (p : Protocol) : Result Protocol :=
  if p.state ≠ .OPEN then .returned true p
  else
    let opcode := if isBinary then 2 else 1
    match fragmentSizeOf o fragmentSize with
    | none => .returned true (sendFrame o opcode payload true 0 p)
    | some pfs =>
        if payload.length ≤ pfs then .returned true (sendFrame o opcode payload true 0 p)
        else if pfs < 1 then
          .raised (.exception (str "payload fragment size must be at least 1 (was " ++ decimalNat pfs ++ str ")")) p
        else .returned true (sendFragments o pfs opcode true payload p)

/-! ## Closing -/

/-- Drop the TCP connection. -/
def dropConnection (abort : Bool) (p : Protocol) : Protocol :=
  if p.state ≠ .CLOSED then
    { p with droppedByMe := true, state := .CLOSED, effects := p.effects ++ [.closeConnection abort] }
  else p

/-- Send a close frame, once. -/
def sendCloseFrame (o : Options) (code : Option ℕ) (reasonUtf8 : Option Str) (isReply : Bool)
    (p : Protocol) : Protocol :=
  match p.state with
  | .CLOSING | .CLOSED => p
  | .OPEN =>
      let payload := code.elim [] (pack 2) ++ reasonUtf8.getD []
      let p := sendFrame o 8 payload true 0 p
      { p with
        state := .CLOSING
        closedByMe := !isReply
        localCloseCode := code
        localCloseReason := reasonUtf8
        closeHandshakeTimeoutCall := if isReply then p.closeHandshakeTimeoutCall else true }

/-- **Fail the connection**, by dropping it or by the closing handshake. The reasons are ASCII, so that
`encode` leaves them as they are. -/
def failConnection (o : Options) (code : ℕ) (reason : Str) (p : Protocol) : Protocol :=
  if p.state ≠ .CLOSED then
    let p := { p with failedByMe := true }
    if o.failByDrop then
      dropConnection true { p with
        wasClean := false
        wasNotCleanReason := some (str "I failed the WebSocket connection by dropping the TCP connection") }
    else if p.state ≠ .CLOSING then sendCloseFrame o (some code) (some (reason.take (125 - 2))) false p
    else dropConnection false p
  else p

def CLOSE_STATUS_CODE_NORMAL : ℕ := 1000
def CLOSE_STATUS_CODE_PROTOCOL_ERROR : ℕ := 1002
def CLOSE_STATUS_CODE_ABNORMAL_CLOSE : ℕ := 1006
def CLOSE_STATUS_CODE_INVALID_PAYLOAD : ℕ := 1007
def CLOSE_STATUS_CODE_POLICY_VIOLATION : ℕ := 1008
def CLOSE_STATUS_CODE_MESSAGE_TOO_BIG : ℕ := 1009

/-- The codes below 3000 that a close frame may carry. -/
def CLOSE_STATUS_CODES_ALLOWED : List ℕ := [1000, 1001, 1002, 1003, 1007, 1008, 1009, 1010, 1011]

/-- A protocol violation fails the connection; `true` when any further processing is discontinued. -/
def protocolViolation (o : Options) (reason : Str) (p : Protocol) : Bool × Protocol :=
  (o.failByDrop, failConnection o CLOSE_STATUS_CODE_PROTOCOL_ERROR reason p)

/-- So does a payload that is not UTF-8. -/
def invalidPayload (o : Options) (reason : Str) (p : Protocol) : Bool × Protocol :=
  (o.failByDrop, failConnection o CLOSE_STATUS_CODE_INVALID_PAYLOAD reason p)

/-- Checks in order, each with the violation it finds: `true` when one of them discontinues the
processing. -/
def violations (o : Options) : List (Bool × Str) → Protocol → Bool × Protocol
  | [], p => (false, p)
  | (false, _) :: checks, p => violations o checks p
  | (true, reason) :: checks, p =>
      match protocolViolation o reason p with
      | (true, p) => (true, p)
      | (false, p) => violations o checks p

/-! ## The hooks of a message -/

def onMessageBegin (isBinary : Bool) (m : Incoming) : Incoming :=
  { m with message_is_binary := isBinary, message_data := some [], message_data_total_length := 0 }

/-- A frame of a message begins; a message or frame above the limits fails the connection. -/
def onMessageFrameBegin (o : Options) (length : ℕ) (p : Protocol) : Protocol :=
  let total := p.incoming.message_data_total_length + length
  let p := { p with incoming := { p.incoming with frame_data := some [], message_data_total_length := total } }
  if p.failedByMe = false then
    if 0 < o.maxMessagePayloadSize ∧ o.maxMessagePayloadSize < total then
      failConnection o CLOSE_STATUS_CODE_MESSAGE_TOO_BIG
        (str "message exceeds payload limit of " ++ decimalNat o.maxMessagePayloadSize ++ str " octets")
        { p with wasMaxMessagePayloadSizeExceeded := true }
    else if 0 < o.maxFramePayloadSize ∧ o.maxFramePayloadSize < length then
      failConnection o CLOSE_STATUS_CODE_POLICY_VIOLATION
        (str "frame exceeds payload limit of " ++ decimalNat o.maxFramePayloadSize ++ str " octets")
        { p with wasMaxFramePayloadSizeExceeded := true }
    else p
  else p

def onMessageFrameData (payload : Str) (p : Protocol) : Result Protocol :=
  if p.failedByMe = false then
    match p.incoming.frame_data with
    | some frame_data =>
        .returned true { p with incoming := { p.incoming with frame_data := some (frame_data ++ payload) } }
    | none => .raised (.attributeError (str "'NoneType' object has no attribute 'append'")) p
  else .returned true p

/-- The frame is added to its message, by way of `onMessageFrame`. -/
def onMessageFrameEnd (p : Protocol) : Result Protocol :=
  if p.failedByMe = false then
    match p.incoming.message_data, p.incoming.frame_data with
    | some message_data, some frame_data =>
        .returned true { p with
          incoming := { p.incoming with message_data := some (message_data ++ frame_data), frame_data := none } }
    | none, _ => .raised (.attributeError (str "'NoneType' object has no attribute 'extend'")) p
    | some _, none => .raised (.typeError (str "'NoneType' object is not iterable")) p
  else .returned true { p with incoming := { p.incoming with frame_data := none } }

/-- `broadcast`, as far as this connection is concerned. -/
def broadcast (o : Options) (texts : List Str) (p : Protocol) : Protocol :=
  texts.foldl (fun p text => (p.sendMessage o text false none).state) p

/-- **`onMessage` of the application**: it sends back what it has to say, and may raise. -/
def onMessage (o : Options) (payload : Str) (isBinary : Bool) (p : Protocol) : Result Protocol :=
  let p := { p with effects := p.effects ++ [Effect.onMessage payload isBinary] }
  let reaction := o.broadcasts p.effects
  match reaction.2 with
  | none => .returned true (p.broadcast o reaction.1)
  | some e => .raised e (p.broadcast o reaction.1)

/-- **The message is complete** and goes to the application. -/
def onMessageEnd (o : Options) (p : Protocol) : Result Protocol :=
  if p.failedByMe = false then
    match p.incoming.message_data with
    | some payload =>
        (p.onMessage o payload p.incoming.message_is_binary).andThen fun p =>
          .returned true { p with incoming := { p.incoming with message_data := none } }
    | none => .raised (.typeError (str "can only join an iterable")) p
  else .returned true { p with incoming := { p.incoming with message_data := none } }

/-! ## Control frames -/

/-- `sendPong` and, with the opcode 9, `sendPing`. -/
def sendPong (o : Options) (opcode : ℕ) (payload : Str) (p : Protocol) : Result Protocol :=
  if p.state ≠ .OPEN then .returned true p
  else if payload ≠ [] ∧ 125 < payload.length then
    .raised (.exception (str (if opcode = 9 then "invalid payload for PING" else "invalid payload for PONG")
      ++ str " (payload length must be <= 125, was " ++ decimalNat payload.length ++ str ")")) p
  else .returned true (sendFrame o opcode payload true 0 p)

/-- The state decides what a close frame of the peer means: the reply to ours, or the request to reply. -/
def closeByState (o : Options) (p : Protocol) : Protocol :=
  match p.state with
  | .CLOSING =>
      let p := { p with closeHandshakeTimeoutCall := false, wasClean := true }
      if o.isServer then dropConnection true p else { p with serverConnectionDropTimeoutCall := true }
  | .OPEN =>
      let p := sendCloseFrame o (some CLOSE_STATUS_CODE_NORMAL) none true { p with wasClean := true }
      if o.isServer then dropConnection false p else p
  | .CLOSED => { p with wasClean := false }

/-- **A close frame.** The validator is asked whether the reason is valid so far, not whether it ends on
a character, so `decode` may still raise. -/
def onCloseFrame (o : Options) (code : Option ℕ) (reasonRaw : Option Str) (p : Protocol) : Result Protocol :=
  let p := { p with remoteCloseCode := code }
  let codeViolations := match code with
    | some code =>
        [(decide (code < 1000 ∨ (1000 ≤ code ∧ code ≤ 2999 ∧ code ∉ CLOSE_STATUS_CODES_ALLOWED) ∨ 5000 ≤ code),
          str "invalid close code " ++ decimalNat code)]
    | none => []
  match violations o codeViolations p with
  | (true, p) => .returned true p
  | (false, p) =>
      match reasonRaw with
      | none => .returned true (closeByState o { p with remoteCloseReason := none })
      | some reasonRaw =>
          let val := (Utf8Validator.reset.validate reasonRaw).1
          match if val.valid = false then
              invalidPayload o (str "invalid close reason (non-UTF-8 payload)") p else (false, p) with
          | (true, p) => .returned true p
          | (false, p) =>
              match decodeUtf8 reasonRaw with
              | .ok reason => .returned true (closeByState o { p with remoteCloseReason := some reason })
              | .error e => .raised e p

/-- **A control frame is complete.** Nothing is done for a pong, as no automatic pings are sent. -/
def processControlFrame (o : Options) (opcode : ℕ) (p : Protocol) : Result Protocol :=
  match p.incoming.control_frame_data with
  | none => .raised (.typeError (str "can only join an iterable")) p
  | some payload =>
      let p := { p with incoming := { p.incoming with control_frame_data := none } }
      if opcode = 8 then
        let code := if 1 < payload.length then some (unpack (payload.take 2)) else none
        let reasonRaw := if 2 < payload.length then some (payload.drop 2) else none
        onCloseFrame o code reasonRaw p
      else if opcode = 9 then sendPong o 10 payload p
      else .returned true p

/-! ## Frames -/

/-- A new message begins, and the validator with it if it is a text. -/
def beginMessage (o : Options) (header : FrameHeader) (m : Incoming) : Incoming :=
  let m := { m with inside_message := true }
  let m :=
    if header.opcode = 1 ∧ o.utf8validateIncoming = true then
      { m with
        utf8validator := .reset
        utf8validateIncomingCurrentMessage := true
        utf8validateLast := (true, true, 0) }
    else { m with utf8validateIncomingCurrentMessage := false }
  onMessageBegin (header.opcode = 2) m

/-- A new frame begins, perhaps a new message with it. -/
def onFrameBegin (o : Options) (header : FrameHeader) (p : Protocol) : Protocol :=
  if 7 < header.opcode then { p with incoming := { p.incoming with control_frame_data := some [] } }
  else
    onMessageFrameBegin o header.length
      (if p.incoming.inside_message = false then { p with incoming := beginMessage o header p.incoming } else p)

/-- Payload of the current frame arrives. -/
def onFrameData (o : Options) (header : FrameHeader) (payload : Str) (p : Protocol) : Result Protocol :=
  if 7 < header.opcode then
    match p.incoming.control_frame_data with
    | some data =>
        .returned true { p with incoming := { p.incoming with control_frame_data := some (data ++ payload) } }
    | none => .raised (.attributeError (str "'NoneType' object has no attribute 'append'")) p
  else if p.incoming.utf8validateIncomingCurrentMessage = true then
    let validated := p.incoming.utf8validator.validate payload
    let p := { p with incoming := { p.incoming with
      utf8validator := validated.2
      utf8validateLast := (validated.1.valid, validated.1.endsOnCodePoint, validated.1.totalIndex) } }
    if validated.1.valid = false then
      match invalidPayload o (str "encountered invalid UTF-8 while processing text message at payload octet index "
          ++ decimalNat validated.1.totalIndex) p with
      | (true, p) => .returned false p
      | (false, p) => onMessageFrameData payload p
    else onMessageFrameData payload p
  else onMessageFrameData payload p

/-- The last frame of a message is complete: its text must end on a character. -/
def onLastFrame (o : Options) (p : Protocol) : Result Protocol :=
  match if p.incoming.utf8validateIncomingCurrentMessage = true ∧ p.incoming.utf8validateLast.2.1 = false then
      invalidPayload o (str "UTF-8 text message payload ended within Unicode code point at payload octet index "
        ++ decimalNat p.incoming.utf8validateLast.2.2) p else (false, p) with
  | (true, p) => .returned false p
  | (false, p) =>
      (onMessageEnd o p).andThen fun p =>
        .returned true { p with incoming := { p.incoming with inside_message := false } }

/-- The frame is complete: the part of `onFrameEnd` that concerns its message. What
`processControlFrame` returns is ignored. -/
def endFrame (o : Options) (header : FrameHeader) (p : Protocol) : Result Protocol :=
  if 7 < header.opcode then processControlFrame o header.opcode p
  else (onMessageFrameEnd p).andThen fun p =>
    if header.fin = true then onLastFrame o p else .returned true p

end Protocol

namespace Connection

/-- After the opening handshake, with the bytes that came with it. -/
def start (data : Str) : Connection := ⟨data, none, .null 0, .start⟩

/-- **The current frame is complete.** -/
def onFrameEnd (o : Options) (header : FrameHeader) (c : Connection) : Result Connection :=
  ((Protocol.endFrame o header c.protocol).map fun p => { c with protocol := p }).andThen fun c =>
    .returned true { c with current_frame := none }

/-! ## Incoming bytes -/

/-- The checks on the first two bytes of a frame. -/
def headerChecks (o : Options) (inside_message fin : Bool) (rsv opcode : ℕ) (masked : Bool) (len1 : ℕ) :
    List (Bool × Str) :=
  [(rsv != 0, str "RSV = " ++ decimalNat rsv ++ str " and no extension negotiated"),
    (o.isServer && o.requireMaskedClientFrames && !masked, str "unmasked client-to-server frame"),
    (!o.isServer && !o.acceptMaskedServerFrames && masked, str "masked server-to-client frame")] ++
  if 7 < opcode then
    [(!fin, str "fragmented control frame"),
      (decide (125 < len1), str "control frame with payload length > 125 octets"),
      (decide (opcode ∉ [8, 9, 10]), str "control frame using reserved opcode " ++ decimalNat opcode),
      (decide (opcode = 8 ∧ len1 = 1), str "received close control frame with payload len 1")]
  else
    [(decide (opcode ∉ [0, 1, 2]), str "data frame using reserved opcode " ++ decimalNat opcode),
      (!inside_message && opcode == 0,
        str "received continuation data frame outside fragmented message"),
      (inside_message && opcode != 0,
        str "received non-continuation data frame while inside fragmented message")]

/-- The checks on an extended length. -/
def lengthChecks (len1 length : ℕ) : List (Bool × Str) :=
  if len1 = 126 then
    [(decide (length < 126), str "invalid data frame length (not using minimal length encoding)")]
  else if len1 = 127 then
    [(decide (0x7FFFFFFFFFFFFFFF < length), str "invalid data frame length (>2^63)"),
      (decide (length < 65536), str "invalid data frame length (not using minimal length encoding)")]
  else []

/-- The bytes of the extended length. -/
def extendedLength (len1 : ℕ) : ℕ := if len1 = 126 then 2 else if len1 = 127 then 8 else 0

/-- The mask that starts at the index `i`. -/
def maskAt (data : Str) (i : ℕ) : Mask where
  octets := (List.range 4).map fun k => data.getD (i + k) 0
  length_octets := by rw [List.length_map, List.length_range]

/-- The complete length of the header. -/
def headerLength (masked : Bool) (len1 : ℕ) : ℕ := 2 + extendedLength len1 + if masked then 4 else 0

/-- The length of the payload. -/
def payloadLength (len1 : ℕ) (data : Str) : ℕ :=
  if extendedLength len1 = 0 then len1 else unpack ((data.drop 2).take (extendedLength len1))

/-- The mask, behind the extended length. -/
def frameMask (masked : Bool) (len1 : ℕ) (data : Str) : Option Mask :=
  if masked then some (maskAt data (2 + extendedLength len1)) else none

/-- The masker of a frame. -/
def maskerOf (o : Options) (mask : Option Mask) (length : ℕ) : XorMasker :=
  match mask with
  | some mask =>
      if 0 < length ∧ o.applyMask = true then XorMasker.createXorMasker mask (some length) else .null 0
  | none => .null 0

/-- The header is complete: the frame begins. -/
def beginFrame (o : Options) (fin : Bool) (rsv opcode : ℕ) (masked : Bool) (len1 : ℕ) (c : Connection) :
    Result Connection :=
  let length := payloadLength len1 c.data
  match Protocol.violations o (lengthChecks len1 length) c.protocol with
  | (true, p) => .returned false { c with protocol := p }
  | (false, p) =>
      let mask := frameMask masked len1 c.data
      let header : FrameHeader := ⟨opcode, fin, rsv, length, mask⟩
      let data := c.data.drop (headerLength masked len1)
      .returned (length == 0 || 0 < data.length)
        ⟨data, some header, maskerOf o mask length, p.onFrameBegin o header⟩

/-- Awaiting a frame: its first two bytes are checked before the header is complete. -/
def processHeader (o : Options) (c : Connection) : Result Connection :=
  match c.data with
  | b0 :: b1 :: _ =>
      let fin := b0 &&& 0x80 != 0
      let rsv := ((b0 &&& 0x70) >>> 4).toNat
      let opcode := (b0 &&& 0x0F).toNat
      let masked := b1 &&& 0x80 != 0
      let len1 := (b1 &&& 0x7F).toNat
      let checks := headerChecks o c.protocol.incoming.inside_message fin rsv opcode masked len1
      match Protocol.violations o checks c.protocol with
      | (true, p) => .returned false { c with protocol := p }
      | (false, p) =>
          if headerLength masked len1 ≤ c.data.length then
            beginFrame o fin rsv opcode masked len1 { c with protocol := p }
          else .returned false { c with protocol := p }
  | _ => .returned false c

/-- Inside a frame: as much of its payload as has arrived is unmasked and handed on. -/
def processPayload (o : Options) (header : FrameHeader) (c : Connection) : Result Connection :=
  let rest := header.length - c.current_frame_masker.pointer
  let data := c.data.take rest
  let processed := if 0 < data.length then c.current_frame_masker.process data else ([], c.current_frame_masker)
  let c := { c with data := c.data.drop rest, current_frame_masker := processed.2 }
  (((Protocol.onFrameData o header processed.1 c.protocol).map fun p => { c with protocol := p }).andThen fun c =>
    if c.current_frame_masker.pointer = header.length then onFrameEnd o header c else .returned true c).andThen
    fun c => .returned (0 < c.data.length) c

/-- **`processDataHybi`**: one step over the buffered bytes, `true` if there may be another. -/
def processDataHybi (o : Options) (c : Connection) : Result Connection :=
  match c.current_frame with
  | none => processHeader o c
  | some header => processPayload o header c

/-- The loop `while self.processData() and self.state != STATE_CLOSED`, for at most `n` rounds. -/
def processLoop (o : Options) : ℕ → Connection → Result Connection
  | 0, c => .returned false c
  | n + 1, c =>
      (processDataHybi o c).andThen fun c =>
        if c.protocol.state ≠ .CLOSED then processLoop o n c else .returned true c

/-- Rounds that suffice for the buffered bytes: a frame takes two, and at least two bytes. -/
def rounds (c : Connection) : ℕ := 2 * c.data.length + 2

/-- **Consume the buffered bytes.** Bytes received after the connection was closed are ignored. -/
def consumeData (o : Options) (c : Connection) : Result Connection :=
  if c.protocol.state ≠ .CLOSED then processLoop o c.rounds c else .returned true c

/-- **`dataReceived`**, the entry of the transport. -/
def dataReceived (o : Options) (data : Str) (c : Connection) : Result Connection :=
  consumeData o { c with data := c.data ++ data }

end Connection

namespace Protocol

/-! ## The application and the transport -/

/-- **Close the connection.** The reason is UTF-8 and cut where it is too long. -/
def sendClose (o : Options) (code : Option ℕ) (reason : Option Str) (p : Protocol) : Result Protocol :=
  match code with
  | some c =>
      if c ≠ 1000 ∧ ¬ (3000 ≤ c ∧ c ≤ 4999) then
        .raised (.exception (str "invalid close code " ++ decimalNat c)) p
      else
        let reasonUtf8 := reason.map fun r => if 125 < r.length + 2 then r.take 120 ++ str "..." else r
        .returned true (sendCloseFrame o code reasonUtf8 false p)
  | none =>
      match reason with
      | some _ => .raised (.exception (str "close reason without close code")) p
      | none => .returned true (sendCloseFrame o none none false p)

/-- The peer has not answered the close frame in time. -/
def onCloseHandshakeTimeout (p : Protocol) : Protocol :=
  let p := { p with closeHandshakeTimeoutCall := false }
  if p.state ≠ .CLOSED then
    dropConnection true { p with
      wasClean := false
      wasNotCleanReason := some (str "peer did not respond (in time) in closing handshake")
      wasCloseHandshakeTimeout := true }
  else p

/-- The server has not dropped the connection in time. -/
def onServerConnectionDropTimeout (p : Protocol) : Protocol :=
  let p := { p with serverConnectionDropTimeoutCall := false }
  if p.state ≠ .CLOSED then
    dropConnection true { p with
      wasClean := false
      wasNotCleanReason := some (str "server did not drop TCP connection (in time)")
      wasServerConnectionDropTimeout := true }
  else p

/-- **The transport is gone**: the application is told. -/
def connectionLost (p : Protocol) : Protocol :=
  let p := { p with serverConnectionDropTimeoutCall := false, state := .CLOSED }
  if p.wasClean = false then
    let p :=
      if p.droppedByMe = false ∧ p.wasNotCleanReason = none then
        { p with
          wasNotCleanReason :=
            some (str "peer dropped the TCP connection without previous WebSocket closing handshake") }
      else p
    let reason := str "connection was closed uncleanly (" ++ p.wasNotCleanReason.getD (str "None") ++ str ")"
    { p with effects := p.effects ++ [.onClose false (some CLOSE_STATUS_CODE_ABNORMAL_CLOSE) (some (.inl reason))] }
  else
    { p with effects := p.effects ++ [.onClose true p.remoteCloseCode (p.remoteCloseReason.map .inr)] }

end Protocol

end LibreXC.Autobahn
