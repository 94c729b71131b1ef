import LibreXC.Autobahn.Acts
import LibreXC.Lib.TransitionSystem

/-! # A connection as the outside sees it

Bytes arrive, the application calls `sendMessage`, `sendPing`, `sendPong` or `sendClose`, timers fire and
the transport goes away, in any order. Whatever the order, what the protocol instance does to the
outside follows the **`Phase`**s of a WebSocket connection: frames and messages while it is open, no
frame after a close frame, nothing but the report to the application once it is dropped, and that once.

* **`Session.step`** — one event at a connection.
* **`session_phases`** — every run follows the phases.
* **`session_texts`** — every text handed to the application is one.
* **`close_frame_last`** — none of these senders sends anything after a close frame.
* **`session_raises`** — what may leave `dataReceived` as an exception.
* **`session_pieces`** — how the transport cuts the bytes does not matter. -/

namespace LibreXC.Autobahn

open Ascii Python2 Struct Incremental

variable {o : Options} {header : FrameHeader}

/-! ## Phases -/

/-- How far a connection has come. -/
inductive Phase
  | opened
  /-- A close frame has been sent. -/
  | closing
  /-- The transport has been told to close. -/
  | dropped
  /-- The application has been told. -/
  | lost
  deriving DecidableEq

/-- Whether the bytes are a close frame. -/
def isClose (raw : Str) : Bool := raw.head?.any fun b => b &&& 0x0F == 8

/-- **What may happen in a phase**, and the phase it leads to. -/
def Phase.next : Phase → Effect → Option Phase
  | .opened, .write raw => some (if isClose raw then .closing else .opened)
  | .opened, .onMessage _ _ => some .opened
  | .closing, .onMessage _ _ => some .closing
  | .opened, .closeConnection _ => some .dropped
  | .closing, .closeConnection _ => some .dropped
  | .opened, .onClose _ _ _ => some .lost
  | .closing, .onClose _ _ _ => some .lost
  | .dropped, .onClose _ _ _ => some .lost
  | _, _ => none

/-- The phase of a connection whose transport is there. -/
def State.phase : State → Phase
  | .OPEN => .opened
  | .CLOSING => .closing
  | .CLOSED => .dropped

/-- The low bits of the first byte of a frame are its opcode. -/
theorem isClose_frame (mask : Option Mask) (applyMask : Bool) {opcode : ℕ} (hopcode : opcode < 16)
    (payload : Str) (fin : Bool) : isClose (Protocol.frame mask applyMask opcode payload fin 0) = (opcode == 8) := by
  have hbyte : ∀ fin : Bool, ∀ opcode : Fin 16,
      (UInt8.ofNat ((if fin then 1 <<< 7 else 0) ||| (0 % 8) <<< 4 ||| opcode.val % 128) &&& 0x0F == 8)
        = (opcode.val == 8) := by decide
  exact hbyte fin ⟨opcode, hopcode⟩

namespace Protocol

/-- **What a method does to the outside follows the phases**, and every text it hands over is one. -/
def Follows (o : Options) (p q : Protocol) : Prop :=
  ∃ effects, q.effects = p.effects ++ effects ∧ TransitionSystem.run Phase.next p.state.phase effects = some q.state.phase ∧
    ∀ payload, .onMessage payload false ∈ effects → o.utf8validateIncoming = true → IsText payload

theorem Follows.refl (p : Protocol) : Follows o p p :=
  ⟨[], (List.append_nil _).symm, rfl, fun _ h => nomatch h⟩

/-- A method that changes neither the state nor the effects. -/
theorem Follows.of_eq {p q : Protocol} (hstate : q.state = p.state) (heffects : q.effects = p.effects) :
    Follows o p q := by
  refine ⟨[], heffects.trans (List.append_nil _).symm, ?_, fun _ h => nomatch h⟩
  rw [TransitionSystem.run_nil, hstate]

theorem Follows.trans {p q r : Protocol} (hpq : Follows o p q) (hqr : Follows o q r) : Follows o p r := by
  obtain ⟨es, hes, hrun, htexts⟩ := hpq
  obtain ⟨fs, hfs, hrun', htexts'⟩ := hqr
  refine ⟨es ++ fs, ?_, ?_, ?_⟩
  · rw [hfs, hes, List.append_assoc]
  · rw [TransitionSystem.run_append, hrun]
    exact hrun'
  · intro payload hpayload
    rcases List.mem_append.mp hpayload with h | h
    · exact htexts payload h
    · exact htexts' payload h

/-- One effect. -/
theorem Follows.effect {p q : Protocol} {e : Effect} (heffects : q.effects = p.effects ++ [e])
    (hnext : p.state.phase.next e = some q.state.phase)
    (htext : ∀ payload, e = .onMessage payload false → o.utf8validateIncoming = true → IsText payload) :
    Follows o p q := by
  refine ⟨[e], heffects, ?_, fun payload hpayload => htext payload (List.mem_singleton.mp hpayload).symm⟩
  rw [TransitionSystem.run_cons, hnext]
  rfl

/-- Frames other than close frames. -/
theorem follows_sendFrame {p : Protocol} (hopen : p.state = .OPEN) {opcode : ℕ} (hopcode : opcode < 16)
    (h8 : opcode ≠ 8) (payload : Str) (fin : Bool) : Follows o p (p.sendFrame o opcode payload fin 0) := by
  unfold sendFrame sendData
  split
  all_goals
    refine Follows.effect rfl ?_ fun _ h => nomatch h
    dsimp only
    rw [hopen, State.phase, Phase.next, isClose_frame _ _ hopcode, beq_false_of_ne h8]
    rfl

theorem follows_dropConnection (abort : Bool) (p : Protocol) : Follows o p (p.dropConnection abort) := by
  unfold dropConnection
  split
  · next hopen =>
      refine Follows.effect rfl ?_ fun _ h => nomatch h
      cases hstate : p.state with
      | OPEN => rfl
      | CLOSING => rfl
      | CLOSED => exact absurd hstate hopen
  · exact .refl p

theorem follows_dropped (p : Protocol) : Follows o p p.dropped := by
  unfold dropped
  split
  · next hopen =>
      refine Follows.effect rfl ?_ fun _ h => nomatch h
      cases hstate : p.state with
      | OPEN => rfl
      | CLOSING => rfl
      | CLOSED => exact absurd hstate hopen
  · exact .refl p

/-- A close frame is sent once. -/
theorem follows_sendCloseFrame (code : Option ℕ) (reasonUtf8 : Option Str) (isReply : Bool) (p : Protocol) :
    Follows o p (p.sendCloseFrame o code reasonUtf8 isReply) := by
  unfold sendCloseFrame
  split
  · exact .refl p
  · exact .refl p
  · next hopen =>
      unfold sendFrame sendData
      split
      all_goals
        refine Follows.effect rfl ?_ fun _ h => nomatch h
        rw [hopen, State.phase, Phase.next, isClose_frame _ _ (by decide)]
        rfl

theorem follows_closeByState (p : Protocol) : Follows o p (p.closeByState o) := by
  unfold closeByState
  dsimp only
  split
  · split
    · exact Follows.trans (.of_eq rfl rfl) (follows_dropConnection true _)
    · exact .of_eq rfl rfl
  · have hsend := follows_sendCloseFrame (o := o) (some CLOSE_STATUS_CODE_NORMAL) none true { p with wasClean := true }
    split
    · exact Follows.trans (.of_eq rfl rfl) (hsend.trans (follows_dropConnection false _))
    · exact Follows.trans (.of_eq rfl rfl) hsend
  · exact .of_eq rfl rfl

theorem follows_sendPong {opcode : ℕ} (hopcode : opcode = 9 ∨ opcode = 10) (payload : Str) (p : Protocol) :
    Follows o p (p.sendPong o opcode payload).state := by
  have h16 : opcode < 16 := by omega
  have h8 : opcode ≠ 8 := by omega
  unfold sendPong
  by_cases hopen : p.state ≠ .OPEN
  · rw [if_pos hopen]
    exact .refl p
  · rw [if_neg hopen]
    split
    · exact .refl p
    · exact follows_sendFrame (not_not.mp hopen) h16 h8 payload true

/-- **What a method of the application does**: it follows the phases and leaves the message alone. -/
structure Behaves (o : Options) (p q : Protocol) : Prop where
  follows : Follows o p q
  keeps : Keeps p q

theorem Behaves.refl (p : Protocol) : Behaves o p p := ⟨.refl p, .refl p⟩

theorem Behaves.trans {p q r : Protocol} (hpq : Behaves o p q) (hqr : Behaves o q r) : Behaves o p r :=
  ⟨hpq.follows.trans hqr.follows, hpq.keeps.trans hqr.keeps⟩

theorem behaves_sendFrame {p : Protocol} (hopen : p.state = .OPEN) {opcode : ℕ} (hopcode : opcode < 16)
    (h8 : opcode ≠ 8) (payload : Str) (fin : Bool) : Behaves o p (p.sendFrame o opcode payload fin 0) :=
  ⟨follows_sendFrame hopen hopcode h8 payload fin, keeps_sendFrame o opcode payload fin 0 p⟩

theorem behaves_sendFrames {fs : List (ℕ × Str × Bool)} (hfs : ∀ f ∈ fs, f.1 ≤ 2) {p : Protocol}
    (hopen : p.state = .OPEN) : Behaves o p (p.sendFrames o fs) := by
  unfold sendFrames
  induction fs generalizing p with
  | nil => exact .refl p
  | cons f fs ih =>
      have hopcode := hfs f List.mem_cons_self
      exact (behaves_sendFrame hopen (by omega) (by omega) f.2.1 f.2.2).trans
        (ih (fun f hf => hfs f (List.mem_cons_of_mem _ hf)) ((state_sendFrame ..).trans hopen))

theorem behaves_sendMessage (payload : Str) (isBinary : Bool) (fragmentSize : Option ℕ) (p : Protocol) :
    Behaves o p (p.sendMessage o payload isBinary fragmentSize).state := by
  by_cases hopen : p.state = .OPEN
  · obtain ⟨fs, hfs, hsend⟩ := sendMessage_frames o payload isBinary fragmentSize
    rw [hsend p hopen]
    exact behaves_sendFrames hfs hopen
  · rw [sendMessage_not_open hopen]
    exact .refl p

theorem behaves_broadcast (texts : List Str) (p : Protocol) : Behaves o p (p.broadcast o texts) := by
  obtain ⟨fs, hfs, hopen | rfl, heq⟩ := exists_broadcast o texts p
  · exact heq ▸ behaves_sendFrames hfs hopen
  · exact heq ▸ .refl p

/-- **What received bytes do follows the phases.** -/
theorem follows_act {p q : Protocol} (h : Act o p q) : Follows o p q := by
  cases h with
  | quiet hstate heffects => exact .of_eq hstate heffects
  | dropped => exact follows_dropped p
  | closeByState => exact follows_closeByState p
  | pong payload hopen => exact follows_sendFrame hopen (by decide) (by decide) payload true
  | handed payload isBinary hopen htext =>
      have hmessage : Follows o p { p with effects := p.effects ++ [.onMessage payload isBinary] } := by
        refine Follows.effect rfl ?_ ?_
        · dsimp only
          cases hstate : p.state with
          | OPEN => rfl
          | CLOSING => rfl
          | CLOSED => exact absurd hstate hopen
        · intro payload' heq
          obtain ⟨rfl, hbinary⟩ := Effect.onMessage.inj heq
          exact htext hbinary
      exact hmessage.trans (behaves_broadcast _ _).follows

theorem follows_acts {p q : Protocol} (h : Acts o p q) : Follows o p q := by
  induction h with
  | refl => exact .refl p
  | tail _ hact ih => exact ih.trans (follows_act hact)

/-! ## Sending -/

theorem behaves_sendPong {opcode : ℕ} (hopcode : opcode = 9 ∨ opcode = 10) (payload : Str) (p : Protocol) :
    Behaves o p (p.sendPong o opcode payload).state := by
  refine ⟨follows_sendPong hopcode payload p, ?_⟩
  unfold sendPong
  by_cases hopen : p.state ≠ .OPEN
  · rw [if_pos hopen]
    exact .refl p
  · rw [if_neg hopen]
    split
    · exact .refl p
    · exact keeps_sendFrame o opcode payload true 0 p

theorem behaves_sendClose (code : Option ℕ) (reason : Option Str) (p : Protocol) :
    Behaves o p (p.sendClose o code reason).state := by
  have hsend : ∀ code reason, Behaves o p (p.sendCloseFrame o code reason false) := fun code reason =>
    ⟨follows_sendCloseFrame code reason false p, keeps_sendCloseFrame o code reason false p⟩
  unfold sendClose
  cases code with
  | some c =>
      dsimp only
      split
      · exact .refl p
      · exact hsend _ _
  | none =>
      cases reason with
      | some reason => exact .refl p
      | none => exact hsend _ _

theorem behaves_dropConnection (abort : Bool) (p : Protocol) : Behaves o p (p.dropConnection abort) :=
  ⟨follows_dropConnection abort p, keeps_dropConnection abort p⟩

theorem behaves_onCloseHandshakeTimeout (p : Protocol) : Behaves o p p.onCloseHandshakeTimeout := by
  unfold onCloseHandshakeTimeout
  dsimp only
  split
  · refine Behaves.trans ?_ (behaves_dropConnection true _)
    exact ⟨.of_eq rfl rfl, ⟨rfl, rfl⟩⟩
  · exact ⟨.of_eq rfl rfl, ⟨rfl, rfl⟩⟩

theorem behaves_onServerConnectionDropTimeout (p : Protocol) : Behaves o p p.onServerConnectionDropTimeout := by
  unfold onServerConnectionDropTimeout
  dsimp only
  split
  · refine Behaves.trans ?_ (behaves_dropConnection true _)
    exact ⟨.of_eq rfl rfl, ⟨rfl, rfl⟩⟩
  · exact ⟨.of_eq rfl rfl, ⟨rfl, rfl⟩⟩

/-- The transport is gone: one report, and the state is closed. -/
theorem connectionLost_eq (p : Protocol) : p.connectionLost.state = .CLOSED ∧
    ∃ wasClean code reason, p.connectionLost.effects = p.effects ++ [.onClose wasClean code reason] := by
  unfold connectionLost
  dsimp only
  split_ifs <;> exact ⟨rfl, _, _, _, rfl⟩

end Protocol

/-! ## Sessions -/

/-- A connection and its transport. -/
structure Session where
  connection : Connection
  lost : Bool
  deriving DecidableEq

/-- What happens at a connection. The senders are the four that look at the state: left out are
`sendPreparedMessage` and `sendFrame`, which write in every state, and the senders of a message in parts
(`beginMessage` to `endMessage`, `sendMessageFrame`). -/
inductive Event
  | dataReceived (data : Str)
  | connectionLost
  | onCloseHandshakeTimeout
  | onServerConnectionDropTimeout
  | sendMessage (payload : Str) (isBinary : Bool) (fragmentSize : Option ℕ)
  | sendPing (payload : Str)
  | sendPong (payload : Str)
  | sendClose (code : Option ℕ) (reason : Option Str)

namespace Session

/-- After the opening handshake. -/
def start : Session := ⟨.start [], false⟩

/-- Something happens to the protocol instance. -/
def update (s : Session) (f : Protocol → Protocol) : Session :=
  { s with connection := { s.connection with protocol := f s.connection.protocol } }

/-- **One event.** The transport reports its end once and hands over nothing afterwards; it takes an
exception for its end. A timer fires only if it is set. What the senders raise does not matter here. -/
def step (o : Options) (s : Session) : Event → Option Session
  | .dataReceived data =>
      if s.lost then none
      else match s.connection.dataReceived o data with
        | .returned _ c => some { s with connection := c }
        | .raised _ c => some { update { s with connection := c } Protocol.connectionLost with lost := true }
  | .connectionLost => if s.lost then none else some { s.update Protocol.connectionLost with lost := true }
  | .onCloseHandshakeTimeout =>
      if s.connection.protocol.closeHandshakeTimeoutCall then some (s.update Protocol.onCloseHandshakeTimeout)
      else none
  | .onServerConnectionDropTimeout =>
      if s.connection.protocol.serverConnectionDropTimeoutCall then
        some (s.update Protocol.onServerConnectionDropTimeout)
      else none
  | .sendMessage payload isBinary fragmentSize =>
      some (s.update fun p => (p.sendMessage o payload isBinary fragmentSize).state)
  | .sendPing payload => some (s.update fun p => (p.sendPong o 9 payload).state)
  | .sendPong payload => some (s.update fun p => (p.sendPong o 10 payload).state)
  | .sendClose code reason => some (s.update fun p => (p.sendClose o code reason).state)

/-- The phase of a connection. -/
def phase (s : Session) : Phase := if s.lost then .lost else s.connection.protocol.state.phase

/-- **What holds after any run.** -/
structure Invariant (o : Options) (s : Session) : Prop where
  live : s.connection.Live o
  closed : s.lost = true → s.connection.protocol.state = .CLOSED
  phases : TransitionSystem.run Phase.next .opened s.connection.protocol.effects = some s.phase
  texts : ∀ payload, .onMessage payload false ∈ s.connection.protocol.effects → o.utf8validateIncoming = true →
    IsText payload

theorem invariant_start (o : Options) : start.Invariant o where
  live := Connection.live_start o []
  closed h := nomatch h
  phases := rfl
  texts _ h := nomatch h

/-- Nothing follows the phases from a closed connection but silence. -/
theorem follows_closed {p q : Protocol} (h : p.Follows o q) (hclosed : p.state = .CLOSED) :
    q.state = .CLOSED ∧ q.effects = p.effects := by
  obtain ⟨effects, heffects, hrun, -⟩ := h
  rw [hclosed] at hrun
  cases effects with
  | nil =>
      refine ⟨?_, heffects.trans (List.append_nil _)⟩
      cases hstate : q.state with
      | CLOSED => rfl
      | OPEN =>
          rw [hstate] at hrun
          cases hrun
      | CLOSING =>
          rw [hstate] at hrun
          cases hrun
  | cons e effects =>
      exfalso
      obtain ⟨ph, hnext, hrest⟩ := TransitionSystem.run_cons_eq_some.mp hrun
      -- only the report of the end is possible, and then nothing more
      have hlost : ph = .lost := by
        cases e with
        | onClose => exact (Option.some.inj hnext).symm
        | write => cases hnext
        | closeConnection => cases hnext
        | onMessage => cases hnext
      subst hlost
      cases effects with
      | nil =>
          cases hstate : q.state <;>
            · rw [hstate] at hrest
              cases hrest
      | cons e' effects =>
          obtain ⟨ph', hnext', -⟩ := TransitionSystem.run_cons_eq_some.mp hrest
          cases e' <;> cases hnext'

/-- **What the methods of the application keep.** -/
theorem Invariant.update {s : Session} (hs : s.Invariant o) {f : Protocol → Protocol}
    (hf : s.connection.protocol.Behaves o (f s.connection.protocol)) : (s.update f).Invariant o := by
  obtain ⟨hfollows, hkeeps⟩ := hf
  have hclosed := fun h => (follows_closed hfollows h)
  refine ⟨fun hopen => ?_, fun hlost => (hclosed (hs.closed hlost)).1, ?_, ?_⟩
  · have hopen' : s.connection.protocol.state ≠ .CLOSED := fun h => hopen (hclosed h).1
    have hsound := hs.live hopen'
    have hincoming := hkeeps.incoming
    refine ⟨hkeeps.failedByMe.trans hsound.failedByMe, ?_, ?_, ?_, ?_, hsound.pointer, hsound.masker⟩
    all_goals
      dsimp only [Session.update]
      rw [hincoming]
    · exact hsound.incoming
    · exact hsound.inside
    · exact hsound.between
    · exact hsound.short
  · cases hlost : s.lost with
    | true =>
        have hphases := hs.phases
        have hphase : (s.update f).phase = s.phase := by
          rw [phase, phase, show (s.update f).lost = s.lost from rfl, hlost, if_pos rfl, if_pos rfl]
        rw [hphase, ← hphases]
        exact congrArg _ (hclosed (hs.closed hlost)).2
    | false =>
        obtain ⟨effects, heffects, hrun, -⟩ := hfollows
        have hphases := hs.phases
        rw [phase, hlost, if_neg (by decide)] at hphases
        rw [phase, show (s.update f).lost = s.lost from rfl, hlost, if_neg (by decide)]
        dsimp only [Session.update]
        rw [heffects]
        exact TransitionSystem.run_trans hphases hrun
  · obtain ⟨effects, heffects, -, htexts⟩ := hfollows
    intro payload hpayload
    dsimp only [Session.update] at hpayload
    rw [heffects] at hpayload
    rcases List.mem_append.mp hpayload with h | h
    · exact hs.texts payload h
    · exact htexts payload h

/-- The report of the end, wherever the connection stands. -/
theorem invariant_connectionLost {c : Connection}
    (hphases : TransitionSystem.run Phase.next .opened c.protocol.effects = some c.protocol.state.phase)
    (htexts : ∀ payload, .onMessage payload false ∈ c.protocol.effects → o.utf8validateIncoming = true →
      IsText payload) : Invariant o ⟨{ c with protocol := c.protocol.connectionLost }, true⟩ := by
  obtain ⟨hstate, wasClean, code, reason, heffects⟩ := c.protocol.connectionLost_eq
  refine ⟨fun hopen => absurd hstate hopen, fun _ => hstate, ?_, ?_⟩
  · dsimp only
    rw [heffects]
    refine TransitionSystem.run_trans hphases ?_
    rw [TransitionSystem.run_cons]
    cases c.protocol.state <;> rfl
  · intro payload hpayload
    dsimp only at hpayload
    rw [heffects] at hpayload
    rcases List.mem_append.mp hpayload with h | h
    · exact htexts payload h
    · cases List.mem_singleton.mp h

/-- **Received bytes keep the invariant**, also where an exception escapes. -/
theorem Invariant.dataReceived (ho : o.failByDrop = true) {s s' : Session} (hs : s.Invariant o) {data : Str}
    (hstep : s.step o (.dataReceived data) = some s') : s'.Invariant o := by
  rw [step] at hstep
  split_ifs at hstep with hlost
  have hlost' : s.lost = false := Bool.eq_false_iff.mpr hlost
  obtain ⟨hacts, hlive⟩ := Connection.dataReceived_acts ho hs.live data
  obtain ⟨effects, heffects, hrun, htexts⟩ := Protocol.follows_acts hacts
  have hphases := hs.phases
  rw [phase, hlost', if_neg (by decide)] at hphases
  have hphases' := TransitionSystem.run_trans hphases hrun
  rw [← heffects] at hphases'
  have htexts' : ∀ payload,
      .onMessage payload false ∈ (s.connection.dataReceived o data).state.protocol.effects →
        o.utf8validateIncoming = true → IsText payload := by
    intro payload hpayload
    rw [heffects] at hpayload
    rcases List.mem_append.mp hpayload with h | h
    · exact hs.texts payload h
    · exact htexts payload h
  cases hresult : s.connection.dataReceived o data with
  | returned more c =>
      rw [hresult] at hstep hphases' htexts'
      obtain rfl := Option.some.inj hstep
      refine ⟨hlive more c hresult, fun h => absurd h hlost, ?_, htexts'⟩
      rw [phase, if_neg hlost]
      exact hphases'
  | raised e c =>
      rw [hresult] at hstep hphases' htexts'
      obtain rfl := Option.some.inj hstep
      exact invariant_connectionLost hphases' htexts'

/-- **Every event keeps the invariant.** -/
theorem Invariant.step (ho : o.failByDrop = true) {s : Session} {e : Event} {s' : Session} (hs : s.Invariant o)
    (hstep : s.step o e = some s') : s'.Invariant o := by
  cases e with
  | dataReceived data => exact hs.dataReceived ho hstep
  | connectionLost =>
      rw [Session.step] at hstep
      split_ifs at hstep with hlost
      obtain rfl := Option.some.inj hstep
      have hphases := hs.phases
      rw [phase, if_neg hlost] at hphases
      exact invariant_connectionLost hphases hs.texts
  | onCloseHandshakeTimeout =>
      rw [Session.step] at hstep
      split_ifs at hstep
      obtain rfl := Option.some.inj hstep
      exact hs.update (Protocol.behaves_onCloseHandshakeTimeout _)
  | onServerConnectionDropTimeout =>
      rw [Session.step] at hstep
      split_ifs at hstep
      obtain rfl := Option.some.inj hstep
      exact hs.update (Protocol.behaves_onServerConnectionDropTimeout _)
  | sendMessage payload isBinary fragmentSize =>
      obtain rfl := Option.some.inj hstep
      exact hs.update (Protocol.behaves_sendMessage payload isBinary fragmentSize _)
  | sendPing payload =>
      obtain rfl := Option.some.inj hstep
      exact hs.update (Protocol.behaves_sendPong (.inl rfl) payload _)
  | sendPong payload =>
      obtain rfl := Option.some.inj hstep
      exact hs.update (Protocol.behaves_sendPong (.inr rfl) payload _)
  | sendClose code reason =>
      obtain rfl := Option.some.inj hstep
      exact hs.update (Protocol.behaves_sendClose code reason _)

theorem invariant_run (ho : o.failByDrop = true) {events : List Event} {s : Session}
    (hrun : TransitionSystem.run (step o) start events = some s) : s.Invariant o :=
  TransitionSystem.run_invariant (Invariant o) (fun _ _ _ hs hstep => hs.step ho hstep) (invariant_start o) hrun

end Session

/-! ## Whole runs -/

/-- **Every run follows the phases**, whatever the peer sends and in whatever order the events come. -/
theorem session_phases (ho : o.failByDrop = true) {events : List Event} {s : Session}
    (hrun : TransitionSystem.run (Session.step o) .start events = some s) :
    TransitionSystem.run Phase.next .opened s.connection.protocol.effects = some s.phase :=
  (Session.invariant_run ho hrun).phases

/-- A server whose application says nothing. -/
def quiet : Options := .server (fun _ => ⟨[1, 2, 3, 4], rfl⟩) fun _ => ([], none)

/-- "Hi" in a masked frame. -/
def hi : Str := [0x81, 0x82, 1, 2, 3, 4, 0x49, 0x6B]

/-- A message, then the server closes, the peer does not answer and the timer fires. -/
theorem session_phases_timeout : ∃ s, TransitionSystem.run (Session.step quiet) .start
    [.dataReceived hi, .sendClose (some 1000) none, .onCloseHandshakeTimeout, .connectionLost] = some s ∧
      TransitionSystem.run Phase.next .opened s.connection.protocol.effects = some s.phase := by
  obtain ⟨s, hs⟩ := Option.isSome_iff_exists.mp (show (TransitionSystem.run (Session.step quiet) .start
    [.dataReceived hi, .sendClose (some 1000) none, .onCloseHandshakeTimeout, .connectionLost]).isSome = true by
      decide +kernel)
  exact ⟨s, hs, session_phases rfl hs⟩

/-- **Every text handed to the application is one.** -/
theorem session_texts (ho : o.failByDrop = true) (hvalidate : o.utf8validateIncoming = true) {events : List Event}
    {s : Session} (hrun : TransitionSystem.run (Session.step o) .start events = some s) {payload : Str}
    (hpayload : .onMessage payload false ∈ s.connection.protocol.effects) : IsText payload :=
  (Session.invariant_run ho hrun).texts payload hpayload hvalidate

theorem session_texts_hi : ∃ s, TransitionSystem.run (Session.step quiet) .start [.dataReceived hi] = some s ∧
    IsText (str "Hi") := by
  obtain ⟨s, hs, heffects⟩ := Option.map_eq_some_iff.mp (show (TransitionSystem.run (Session.step quiet) .start
    [.dataReceived hi]).map (fun s => s.connection.protocol.effects) = some [.onMessage (str "Hi") false] by
      decide +kernel)
  exact ⟨s, hs, session_texts rfl rfl hs (heffects ▸ List.mem_singleton.mpr rfl)⟩

/-- Once a close frame has been sent, nothing more is. -/
theorem Phase.no_write {phase phase' : Phase} (hphase : phase ≠ .opened) {effects : List Effect}
    (hrun : TransitionSystem.run Phase.next phase effects = some phase') (raw : Str) : .write raw ∉ effects := by
  intro hmem
  obtain ⟨pre, post, rfl⟩ := List.append_of_mem hmem
  rw [TransitionSystem.run_append] at hrun
  obtain ⟨middle, hpre, hpost⟩ := Option.bind_eq_some_iff.mp hrun
  have hmiddle : middle ≠ .opened := by
    refine TransitionSystem.run_invariant (· ≠ .opened) ?_ hphase hpre
    rintro phase e phase' hne hnext rfl
    cases phase <;> cases e <;> first | exact hne rfl | cases hnext
  obtain ⟨_, hnext, -⟩ := TransitionSystem.run_cons_eq_some.mp hpost
  cases middle <;> first | exact hmiddle rfl | cases hnext

/-- **A close frame is the last frame sent**, in every run of these events. -/
theorem close_frame_last (ho : o.failByDrop = true) {events : List Event} {s : Session}
    (hrun : TransitionSystem.run (Session.step o) .start events = some s) {pre post : List Effect} {raw : Str}
    (heffects : s.connection.protocol.effects = pre ++ .write raw :: post) (hclose : isClose raw = true)
    (raw' : Str) : .write raw' ∉ post := by
  have hphases := session_phases ho hrun
  rw [heffects, TransitionSystem.run_append] at hphases
  obtain ⟨phase, -, hpost⟩ := Option.bind_eq_some_iff.mp hphases
  obtain ⟨phase', hnext, hrest⟩ := TransitionSystem.run_cons_eq_some.mp hpost
  refine Phase.no_write ?_ hrest raw'
  rintro rfl
  cases phase with
  | opened =>
      rw [Phase.next, hclose] at hnext
      cases hnext
  | closing => cases hnext
  | dropped => cases hnext
  | lost => cases hnext

/-- A close frame is sent, and a message asked for afterwards is not. -/
theorem close_frame_last_message : ∃ s post, TransitionSystem.run (Session.step quiet) .start
    [.sendClose (some 1000) none, .sendMessage (str "Hi") false none] = some s ∧
      s.connection.protocol.effects = .write [0x88, 2, 3, 0xE8] :: post ∧ .write hi ∉ post := by
  obtain ⟨s, hs, heffects⟩ := Option.map_eq_some_iff.mp (show (TransitionSystem.run (Session.step quiet) .start
    [.sendClose (some 1000) none, .sendMessage (str "Hi") false none]).map (fun s => s.connection.protocol.effects)
      = some [.write [0x88, 2, 3, 0xE8]] by decide +kernel)
  have hfirst : s.connection.protocol.effects = [] ++ .write [0x88, 2, 3, 0xE8] :: [] := heffects
  exact ⟨s, [], hs, heffects, close_frame_last rfl hs hfirst (by decide) hi⟩

namespace Connection

end Connection

/-- **The pieces do not matter**, wherever a run has led. -/
theorem session_pieces (ho : o.failByDrop = true) {events : List Event} {s : Session}
    (hrun : TransitionSystem.run (Session.step o) .start events = some s) (data : Str) (chunks : List Str) :
    Connection.outcome (Connection.receiveAll o (data :: chunks) s.connection)
      = Connection.outcome (s.connection.dataReceived o (data ++ chunks.flatten)) :=
  Connection.receiveAll_flatten ho (Session.invariant_run ho hrun).live data chunks

/-- The frame in two pieces, of which the first ends inside the mask. -/
theorem session_pieces_hi : ∃ s, TransitionSystem.run (Session.step quiet) .start [.dataReceived hi] = some s ∧
    Connection.outcome (Connection.receiveAll quiet [hi.take 4, hi.drop 4] s.connection)
      = Connection.outcome (s.connection.dataReceived quiet (hi.take 4 ++ [hi.drop 4].flatten)) := by
  obtain ⟨s, hs⟩ := Option.isSome_iff_exists.mp (show (TransitionSystem.run (Session.step quiet) .start
    [.dataReceived hi]).isSome = true by decide +kernel)
  exact ⟨s, hs, session_pieces rfl hs (hi.take 4) [hi.drop 4]⟩

end LibreXC.Autobahn
