import LibreXC.Lib.TransitionSystem
import LibreXC.Linuino.Websocket
import Mathlib.Data.List.Nodup
import Mathlib.Logic.Function.Basic

/-! # The WebSocket server over whole runs

The reactor takes one event at a time: a connection is requested or closed, a client sends a message,
a line of the Arduino is broadcast. A **`Server`** is the world of the handlers with the phase each
connection is in, and `Server.step` runs the handler of an event if the library may call it then:
`onConnect` once and first, `onMessage` only on an open connection, `onClose` at most once and last.
The log directory and the device may change between events.

The subject is the subscriber list. It is exactly the authenticated connections that are not closed,
as long as `onClose` does not raise for one of them (`exact_iff`): its `print` formats the closing
reason into a byte string, which fails on a text that is not ASCII, and the client stays subscribed. -/

namespace LibreXC.Linuino

open Ascii Python2 TransitionSystem

/-- The phases of a connection, as far as the calls of the library depend on them. -/
inductive Phase
  | fresh | opened | refused | closed
  deriving DecidableEq

/-- **The server**: the world and the phase of every connection. -/
structure Server (Client : Type) where
  world : World Client
  phase : Client → Phase

/-- **What the reactor may do next.** -/
inductive Event (Client : Type)
  | connect (client : Client) (headers : Headers)
  | message (client : Client) (payload : Str) (isBinary : Bool)
  | close (client : Client) (reason : CloseReason)
  /-- A broadcast scheduled by `Websocket.update` runs. -/
  | update (json : Str)
  /-- Other programs change the log directory. -/
  | files (logs : Directory)
  /-- The serial device appears or disappears. -/
  | device (opens : Bool)

variable {Client : Type} [DecidableEq Client]

namespace Server

/-- Before the first connection. -/
def init (w : World Client) : Server Client :=
  ⟨{ w with subscribers := [], sent := [] }, fun _ => .fresh⟩

/-- **One event**, none when the library does not call the handler in this phase. An exception that
escapes from `onMessage` or `onClose` leaves the effects made before it. -/
def step (config : Credentials) (order : KeyOrder) (s : Server Client) :
    Event Client → Option (Server Client)
  | .connect client headers =>
      if s.phase client = .fresh then
        match onConnect config client headers s.world with
        | .ok _ w => some ⟨w, Function.update s.phase client .opened⟩
        | .error _ w => some ⟨w, Function.update s.phase client .refused⟩
      else none
  | .message client payload isBinary =>
      if s.phase client = .opened then
        some { s with world := Py.exec (onMessage order payload isBinary) s.world }
      else none
  | .close client reason =>
      if s.phase client = .closed then none
      else some ⟨Py.exec (onClose client reason) s.world, Function.update s.phase client .closed⟩
  | .update json => some { s with world := Py.exec (broadcast (some json)) s.world }
  | .files logs => some { s with world := { s.world with logs := logs } }
  | .device opens => some { s with world := { s.world with ttyOpens := opens } }

end Server

/-! ## What the handlers do to the subscriber list -/

/-- The headers name the configured user and password. -/
def Presents (config : Credentials) (headers : Headers) : Prop :=
  ∃ user password, headers (unicode "user") = some user ∧
    headers (unicode "password") = some password ∧
    eqStr user config.user = true ∧ eqStr password config.password = true

/-- `auth_status` accepts exactly the right credentials. -/
theorem auth_status_iff (config : Credentials) (headers : Headers) :
    auth_status headers config.user config.password = true ↔ Presents config headers := by
  unfold auth_status Presents
  cases headers (unicode "user") with
  | none => simp
  | some user =>
      cases headers (unicode "password") with
      | none => simp
      | some password => cases h : eqStr user config.user <;> simp [h]

/-- **`onConnect` subscribes a client with the right credentials**, once. -/
theorem onConnect_of_presents {config : Credentials} {headers : Headers}
    (h : Presents config headers) (client : Client) (w : World Client) :
    onConnect config client headers w = .ok () (add_client client w) := by
  rw [onConnect, if_pos ((auth_status_iff config headers).mpr h)]
  rfl

/-- `onConnect` refuses every other client and changes nothing. -/
theorem onConnect_of_not_presents {config : Credentials} {headers : Headers}
    (h : ¬ Presents config headers) (client : Client) (w : World Client) :
    onConnect config client headers w = .error ⟨401, str "Invalid authentication data."⟩ w := by
  rw [onConnect, if_neg (mt (auth_status_iff config headers).mp h)]
  rfl

/-- The reasons `onClose` can print. -/
def CloseReason.Printable : CloseReason → Prop
  | .none => True
  | .text reason => ∀ c ∈ reason, c.val < 0x80
  | .bytes _ => True

/-- Removing erases, also where there is nothing to erase. -/
theorem remove_client_eq (client : Client) (w : World Client) :
    remove_client client w = { w with subscribers := w.subscribers.erase client } := by
  unfold remove_client
  split
  · rfl
  · next h => rw [List.erase_of_not_mem h]

/-- A printable reason is printed and the client removed. -/
theorem exec_onClose_of_printable {reason : CloseReason} (h : reason.Printable) (client : Client)
    (w : World Client) :
    Py.exec (onClose client reason) w = { w with subscribers := w.subscribers.erase client } := by
  obtain ⟨line, hline⟩ : ∃ line, reason.format = .ok line := by
    cases reason with
    | none => exact ⟨_, rfl⟩
    | bytes reason => exact ⟨_, rfl⟩
    | text reason =>
        have henc : encodeAscii reason = .ok (reason.map fun c => UInt8.ofNat c.val) := if_pos h
        rw [CloseReason.format, henc]
        exact ⟨_, rfl⟩
  rw [onClose, hline, ← remove_client_eq]
  rfl

/-- Any other reason makes `onClose` raise before it removes the client. -/
theorem exec_onClose_of_not_printable {reason : CloseReason} (h : ¬ reason.Printable)
    (client : Client) (w : World Client) : Py.exec (onClose client reason) w = w := by
  obtain ⟨e, he⟩ : ∃ e, reason.format = .error e := by
    cases reason with
    | none => exact absurd trivial h
    | bytes reason => exact absurd trivial h
    | text reason =>
        have henc : ∃ e, encodeAscii reason = .error e := by
          rw [encodeAscii, if_neg (show ¬ ∀ c ∈ reason, c.val < 0x80 from h)]
          exact ⟨_, rfl⟩
        obtain ⟨e, he⟩ := henc
        rw [CloseReason.format, he]
        exact ⟨e, rfl⟩
  rw [onClose, he]
  rfl

/-- Closing an unsubscribed client changes nothing, whatever the reason. -/
theorem exec_onClose_of_not_mem {client : Client} {w : World Client} (h : client ∉ w.subscribers)
    (reason : CloseReason) : Py.exec (onClose client reason) w = w := by
  by_cases hp : reason.Printable
  · rw [exec_onClose_of_printable hp, List.erase_of_not_mem h]
  · exact exec_onClose_of_not_printable hp client w

/-! ## Histories -/

/-- The client has presented the right credentials. -/
def Authenticated (config : Credentials) (h : List (Event Client)) (client : Client) : Prop :=
  ∃ headers, Event.connect client headers ∈ h ∧ Presents config headers

/-- The client has been closed. -/
def Closed (h : List (Event Client)) (client : Client) : Prop :=
  ∃ reason, Event.close client reason ∈ h

/-- **The subscription and authentication invariant**, for a server reached by the events `h`. -/
structure Exact (config : Credentials) (order : KeyOrder) (h : List (Event Client))
    (s : Server Client) : Prop where
  nodup : s.world.subscribers.Nodup
  /-- The subscribers are the authenticated connections that are not closed. -/
  mem_iff : ∀ client, client ∈ s.world.subscribers ↔ Authenticated config h client ∧ ¬ Closed h client
  /-- Nothing is sent to anyone else. -/
  sent : ∀ message ∈ s.world.sent, Authenticated config h message.1
  /-- No message of anyone else is executed. -/
  executed : ∀ client payload isBinary, Event.message client payload isBinary ∈ h →
    Authenticated config h client
  /-- Closing a refused connection leaves the subscriptions as they are. -/
  close_refused : ∀ client reason s', s.step config order (.close client reason) = some s' →
    ¬ Authenticated config h client → s'.world.subscribers = s.world.subscribers

omit [DecidableEq Client] in
/-- Authentication over one more event. -/
theorem authenticated_concat {config : Credentials} {h : List (Event Client)} {e : Event Client}
    {client : Client} : Authenticated config (h ++ [e]) client ↔
      Authenticated config h client ∨
        ∃ headers, e = .connect client headers ∧ Presents config headers := by
  simp only [Authenticated, List.mem_append, List.mem_singleton, or_and_right, exists_or]
  simp only [eq_comm]

omit [DecidableEq Client] in
/-- Closing over one more event. -/
theorem closed_concat {h : List (Event Client)} {e : Event Client} {client : Client} :
    Closed (h ++ [e]) client ↔ Closed h client ∨ ∃ reason, e = .close client reason := by
  simp only [Closed, List.mem_append, List.mem_singleton, exists_or]
  simp only [eq_comm]

/-! ## One step -/

variable {config : Credentials} {order : KeyOrder} {s s' : Server Client} {e : Event Client}

/-- The events between connecting and closing serve the subscribers. -/
structure Server.Serves (s s' : Server Client) (e : Event Client) : Prop where
  phase : s'.phase = s.phase
  world : Linuino.Serves s.world s'.world
  not_connect : ∀ client headers, e ≠ .connect client headers
  not_close : ∀ client reason, e ≠ .close client reason
  opened : ∀ client payload isBinary, e = .message client payload isBinary → s.phase client = .opened

/-- **What a step does.** -/
theorem Server.step_cases (hstep : s.step config order e = some s') :
    (∃ client headers, e = .connect client headers ∧ s.phase client = .fresh ∧
        Presents config headers ∧
        s' = ⟨add_client client s.world, Function.update s.phase client .opened⟩) ∨
      (∃ client headers, e = .connect client headers ∧ s.phase client = .fresh ∧
        ¬ Presents config headers ∧ s' = ⟨s.world, Function.update s.phase client .refused⟩) ∨
      (∃ client reason, e = .close client reason ∧ s.phase client ≠ .closed ∧
        s' = ⟨Py.exec (onClose client reason) s.world, Function.update s.phase client .closed⟩) ∨
      Server.Serves s s' e := by
  cases e with
  | connect client headers =>
      rw [step] at hstep
      split at hstep
      · next hfresh =>
          by_cases hp : Presents config headers
          · rw [onConnect_of_presents hp] at hstep
            exact .inl ⟨client, headers, rfl, hfresh, hp, (Option.some.inj hstep).symm⟩
          · rw [onConnect_of_not_presents hp] at hstep
            exact .inr (.inl ⟨client, headers, rfl, hfresh, hp, (Option.some.inj hstep).symm⟩)
      · cases hstep
  | message client payload isBinary =>
      rw [step] at hstep
      split at hstep
      · next hopened =>
          obtain rfl := Option.some.inj hstep
          obtain ⟨_, hanswer⟩ := onMessage_broadcasts order payload isBinary s.world
          refine .inr (.inr (.inr ⟨rfl, hanswer.serves, ?_, ?_, ?_⟩))
          · exact fun _ _ h => (nomatch h)
          · exact fun _ _ h => (nomatch h)
          · rintro _ _ _ ⟨⟩
            exact hopened
      · cases hstep
  | close client reason =>
      rw [step] at hstep
      split at hstep
      · cases hstep
      · next hne => exact .inr (.inr (.inl ⟨client, reason, rfl, hne, (Option.some.inj hstep).symm⟩))
  | update json =>
      obtain rfl := Option.some.inj hstep
      exact .inr (.inr (.inr ⟨rfl, (broadcast_broadcasts (some json) s.world).serves, fun _ _ h => (nomatch h),
        fun _ _ h => (nomatch h), fun _ _ _ h => (nomatch h)⟩))
  | files logs =>
      obtain rfl := Option.some.inj hstep
      exact .inr (.inr (.inr ⟨rfl, .of_eq rfl rfl, fun _ _ h => (nomatch h), fun _ _ h => (nomatch h),
        fun _ _ _ h => (nomatch h)⟩))
  | device opens =>
      obtain rfl := Option.some.inj hstep
      exact .inr (.inr (.inr ⟨rfl, .of_eq rfl rfl, fun _ _ h => (nomatch h), fun _ _ h => (nomatch h),
        fun _ _ _ h => (nomatch h)⟩))

/-- The subscriber list never holds a client twice. -/
theorem Server.nodup_step (hstep : s.step config order e = some s')
    (h : s.world.subscribers.Nodup) : s'.world.subscribers.Nodup := by
  rcases step_cases hstep with ⟨client, headers, -, -, -, rfl⟩ | ⟨client, headers, -, -, -, rfl⟩
    | ⟨client, reason, -, -, rfl⟩ | hserves
  · by_cases hmem : client ∈ s.world.subscribers
    · rw [add_client, if_pos hmem]
      exact h
    · rw [add_client, if_neg hmem]
      exact List.nodup_append.mpr ⟨h, List.nodup_singleton _, by
        rintro a ha b hb rfl
        exact hmem (List.mem_singleton.mp hb ▸ ha)⟩
  · exact h
  · by_cases hp : reason.Printable
    · rw [exec_onClose_of_printable hp]
      exact h.erase client
    · rwa [exec_onClose_of_not_printable hp]
  · rwa [hserves.world.subscribers]

/-- A subscriber stays one until it closes. -/
theorem Server.mem_step (hstep : s.step config order e = some s') {c : Client}
    (hc : c ∈ s.world.subscribers) (hclose : ∀ reason, e ≠ .close c reason) :
    c ∈ s'.world.subscribers := by
  rcases step_cases hstep with ⟨client, headers, -, -, -, rfl⟩ | ⟨client, headers, -, -, -, rfl⟩
    | ⟨client, reason, rfl, -, rfl⟩ | hserves
  · unfold add_client
    split
    · exact hc
    · exact List.mem_append_left _ hc
  · exact hc
  · have hne : c ≠ client := fun heq => hclose reason (heq ▸ rfl)
    by_cases hp : reason.Printable
    · rw [exec_onClose_of_printable hp]
      exact (List.mem_erase_of_ne hne).mpr hc
    · rwa [exec_onClose_of_not_printable hp]
  · rwa [hserves.world.subscribers]

/-! ## What holds on every run -/

/-- The part of the invariant no close can break: everyone who should be subscribed is, and only
authenticated clients are. -/
structure Kept (config : Credentials) (h : List (Event Client)) (s : Server Client) : Prop where
  nodup : s.world.subscribers.Nodup
  mem : ∀ client ∈ s.world.subscribers, Authenticated config h client
  of_not_closed : ∀ client, Authenticated config h client → ¬ Closed h client →
    client ∈ s.world.subscribers
  sent : ∀ message ∈ s.world.sent, Authenticated config h message.1
  executed : ∀ client payload isBinary, Event.message client payload isBinary ∈ h →
    Authenticated config h client
  fresh : ∀ client, s.phase client = .fresh → ¬ Authenticated config h client ∧ ¬ Closed h client
  opened : ∀ client, s.phase client = .opened → Authenticated config h client
  closed : ∀ client, s.phase client = .closed → Closed h client

omit [DecidableEq Client] in
theorem kept_init (config : Credentials) (w : World Client) : Kept config [] (Server.init w) where
  nodup := List.nodup_nil
  mem _ h := absurd h List.not_mem_nil
  of_not_closed _ h := by
    obtain ⟨_, hmem, -⟩ := h
    cases hmem
  sent _ h := absurd h List.not_mem_nil
  executed _ _ _ h := absurd h List.not_mem_nil
  fresh _ _ := ⟨fun ⟨_, h, _⟩ => absurd h List.not_mem_nil, fun ⟨_, h⟩ => absurd h List.not_mem_nil⟩
  opened _ h := nomatch h
  closed _ h := nomatch h

/-- The phase of a client after one phase has changed. -/
theorem update_phase_eq {phase : Client → Phase} {client c : Client} {p q : Phase} :
    Function.update phase client p c = q ↔ c = client ∧ p = q ∨ c ≠ client ∧ phase c = q := by
  by_cases hc : c = client
  · subst hc
    rw [Function.update_self]
    simp
  · rw [Function.update_of_ne hc]
    simp [hc]

/-- A connection request decides about one client and leaves the others as they are. -/
theorem Kept.connect {h : List (Event Client)} {client : Client} {headers : Headers}
    {w : World Client} {phase : Phase} (hk : Kept config h s) (hfresh : s.phase client = .fresh)
    (hsent : w.sent = s.world.sent) (hnodup : w.subscribers.Nodup)
    (hsubs : ∀ c, c ∈ w.subscribers ↔ c ∈ s.world.subscribers ∨ c = client ∧ Presents config headers)
    (hphase : phase = .opened ∧ Presents config headers ∨ phase = .refused) :
    Kept config (h ++ [.connect client headers]) ⟨w, Function.update s.phase client phase⟩ := by
  have hauth : ∀ c, Authenticated config (h ++ [.connect client headers]) c ↔
      Authenticated config h c ∨ c = client ∧ Presents config headers := by
    intro c
    rw [authenticated_concat]
    simp only [Event.connect.injEq]
    exact or_congr_right ⟨fun ⟨_, ⟨hc, hh⟩, hp⟩ => ⟨hc.symm, hh ▸ hp⟩,
      fun ⟨hc, hp⟩ => ⟨headers, ⟨hc.symm, rfl⟩, hp⟩⟩
  have hclosed : ∀ c, Closed (h ++ [.connect client headers]) c ↔ Closed h c := by
    intro c
    simp [closed_concat]
  constructor
  · exact hnodup
  · intro c hc
    exact (hauth c).mpr (((hsubs c).mp hc).imp_left (hk.mem c))
  · intro c hc hnc
    refine (hsubs c).mpr (((hauth c).mp hc).imp_left fun hc => ?_)
    exact hk.of_not_closed c hc (mt (hclosed c).mpr hnc)
  · intro message hm
    rw [hsent] at hm
    exact (hauth _).mpr (.inl (hk.sent message hm))
  · intro c payload isBinary hm
    have hold := (List.mem_append.mp hm).resolve_right (by simp)
    exact (hauth c).mpr (.inl (hk.executed c payload isBinary hold))
  · intro c hc
    rcases update_phase_eq.mp hc with ⟨-, hphase'⟩ | ⟨hne, hc⟩
    · rcases hphase with ⟨rfl, -⟩ | rfl <;> cases hphase'
    · rw [hauth, hclosed]
      exact ⟨fun hor => hor.elim (hk.fresh c hc).1 fun heq => hne heq.1, (hk.fresh c hc).2⟩
  · intro c hc
    rw [hauth]
    rcases update_phase_eq.mp hc with ⟨rfl, hphase'⟩ | ⟨-, hc⟩
    · rcases hphase with ⟨-, hp⟩ | rfl
      · exact .inr ⟨rfl, hp⟩
      · cases hphase'
    · exact .inl (hk.opened c hc)
  · intro c hc
    rcases update_phase_eq.mp hc with ⟨-, hphase'⟩ | ⟨-, hc⟩
    · rcases hphase with ⟨rfl, -⟩ | rfl <;> cases hphase'
    · exact (hclosed c).mpr (hk.closed c hc)

/-- A close concerns one client; whether it was removed does not matter here. -/
theorem Kept.close {h : List (Event Client)} {client : Client} (hk : Kept config h s)
    (reason : CloseReason) :
    Kept config (h ++ [.close client reason])
      ⟨Py.exec (onClose client reason) s.world, Function.update s.phase client .closed⟩ := by
  have hauth : ∀ c, Authenticated config (h ++ [.close client reason]) c ↔ Authenticated config h c := by
    intro c
    simp [authenticated_concat]
  have hclosed : ∀ c, Closed (h ++ [.close client reason]) c ↔ Closed h c ∨ c = client := by
    intro c
    simp [closed_concat, eq_comm]
  have hsent : (Py.exec (onClose client reason) s.world).sent = s.world.sent := by
    by_cases hp : reason.Printable
    · rw [exec_onClose_of_printable hp]
    · rw [exec_onClose_of_not_printable hp]
  -- whether or not `onClose` gets to `remove_client`, nobody else leaves and nobody comes
  have hsub : (Py.exec (onClose client reason) s.world).subscribers.Sublist s.world.subscribers := by
    by_cases hp : reason.Printable
    · rw [exec_onClose_of_printable hp]
      exact List.erase_sublist
    · rw [exec_onClose_of_not_printable hp]
  have hothers : ∀ c ≠ client, c ∈ s.world.subscribers →
      c ∈ (Py.exec (onClose client reason) s.world).subscribers := by
    intro c hne hc
    by_cases hp : reason.Printable
    · rw [exec_onClose_of_printable hp]
      exact (List.mem_erase_of_ne hne).mpr hc
    · rwa [exec_onClose_of_not_printable hp]
  constructor
  · exact hk.nodup.sublist hsub
  · exact fun c hc => (hauth c).mpr (hk.mem c (hsub.subset hc))
  · intro c hc hnc
    rw [hclosed, not_or] at hnc
    exact hothers c hnc.2 (hk.of_not_closed c ((hauth c).mp hc) hnc.1)
  · intro message hm
    rw [hsent] at hm
    exact (hauth _).mpr (hk.sent message hm)
  · intro c payload isBinary hm
    have hold := (List.mem_append.mp hm).resolve_right (by simp)
    exact (hauth c).mpr (hk.executed c payload isBinary hold)
  · intro c hc
    rcases update_phase_eq.mp hc with ⟨-, hphase⟩ | ⟨hne, hc⟩
    · cases hphase
    · rw [hauth, hclosed]
      exact ⟨(hk.fresh c hc).1, fun hor => hor.elim (hk.fresh c hc).2 hne⟩
  · intro c hc
    rcases update_phase_eq.mp hc with ⟨-, hphase⟩ | ⟨-, hc⟩
    · cases hphase
    · exact (hauth c).mpr (hk.opened c hc)
  · intro c hc
    rw [hclosed]
    rcases update_phase_eq.mp hc with ⟨heq, -⟩ | ⟨-, hc⟩
    · exact .inr heq
    · exact .inl (hk.closed c hc)

omit [DecidableEq Client] in
/-- An event between connecting and closing adds messages to subscribers at most. -/
theorem Kept.serves {h : List (Event Client)} (hk : Kept config h s) (hs : Server.Serves s s' e) :
    Kept config (h ++ [e]) s' := by
  have hauth : ∀ c, Authenticated config (h ++ [e]) c ↔ Authenticated config h c := by
    intro c
    rw [authenticated_concat, or_iff_left]
    rintro ⟨headers, he, -⟩
    exact hs.not_connect c headers he
  have hclosed : ∀ c, Closed (h ++ [e]) c ↔ Closed h c := by
    intro c
    rw [closed_concat, or_iff_left]
    rintro ⟨reason, he⟩
    exact hs.not_close c reason he
  obtain ⟨new, hsent, hnew⟩ := hs.world.sent
  constructor
  · rw [hs.world.subscribers]
    exact hk.nodup
  · intro c hc
    rw [hs.world.subscribers] at hc
    exact (hauth c).mpr (hk.mem c hc)
  · intro c hc hnc
    rw [hs.world.subscribers]
    exact hk.of_not_closed c ((hauth c).mp hc) (mt (hclosed c).mpr hnc)
  · intro message hm
    rw [hsent] at hm
    rw [hauth]
    exact (List.mem_append.mp hm).elim (hk.sent message) fun hm => hk.mem _ (hnew message hm)
  · intro c payload isBinary hm
    rw [hauth]
    rcases List.mem_append.mp hm with hm | hm
    · exact hk.executed c payload isBinary hm
    · exact hk.opened c (hs.opened c payload isBinary (List.mem_singleton.mp hm).symm)
  · intro c hc
    rw [hs.phase] at hc
    rw [hauth, hclosed]
    exact hk.fresh c hc
  · intro c hc
    rw [hs.phase] at hc
    exact (hauth c).mpr (hk.opened c hc)
  · intro c hc
    rw [hs.phase] at hc
    exact (hclosed c).mpr (hk.closed c hc)

/-- **Every step keeps it.** -/
theorem Kept.step {h : List (Event Client)} (hk : Kept config h s)
    (hstep : s.step config order e = some s') : Kept config (h ++ [e]) s' := by
  have hnodup := Server.nodup_step hstep hk.nodup
  rcases Server.step_cases hstep with ⟨client, headers, rfl, hfresh, hp, rfl⟩
    | ⟨client, headers, rfl, hfresh, hp, rfl⟩ | ⟨client, reason, rfl, -, rfl⟩ | hserves
  · -- a fresh connection has not been authenticated, so it is not in the list yet
    have hnew : client ∉ s.world.subscribers := fun hc => (hk.fresh client hfresh).1 (hk.mem client hc)
    rw [add_client, if_neg hnew] at hnodup ⊢
    refine hk.connect hfresh rfl hnodup (fun c => ?_) (.inl ⟨rfl, hp⟩)
    rw [List.mem_append, List.mem_singleton, and_iff_left hp]
  · refine hk.connect hfresh rfl hk.nodup (fun c => ?_) (.inr rfl)
    rw [or_iff_left fun hc => hp hc.2]
  · exact hk.close reason
  · exact hk.serves hserves

/-! ## The result -/

/-- **The condition on a step**: a subscribed client closes with a reason `onClose` can print. -/
def ClosesPrintably (s : Server Client) (e : Event Client) : Prop :=
  ∀ client reason, e = .close client reason → client ∈ s.world.subscribers → reason.Printable

/-- **A printable close removes the client**, and no other step brings a closed client back. -/
theorem not_closed_step {h : List (Event Client)} (hk : Kept config h s)
    (hnone : ∀ client ∈ s.world.subscribers, ¬ Closed h client) (hp : ClosesPrintably s e)
    (hstep : s.step config order e = some s') :
    ∀ client ∈ s'.world.subscribers, ¬ Closed (h ++ [e]) client := by
  intro c hc
  rw [closed_concat]
  rcases Server.step_cases hstep with ⟨client, headers, rfl, hfresh, -, rfl⟩
    | ⟨client, headers, rfl, -, -, rfl⟩ | ⟨client, reason, rfl, -, rfl⟩ | hserves
  · have hnew : client ∉ s.world.subscribers := fun hc => (hk.fresh client hfresh).1 (hk.mem client hc)
    rw [add_client, if_neg hnew] at hc
    -- the client that was added has not been closed before, by its phase
    rintro (hclosed | ⟨reason, he⟩)
    · rcases List.mem_append.mp hc with hc | hc
      · exact hnone c hc hclosed
      · rw [List.mem_singleton.mp hc] at hclosed
        exact (hk.fresh client hfresh).2 hclosed
    · cases he
  · rintro (hclosed | ⟨reason, he⟩)
    · exact hnone c hc hclosed
    · cases he
  · have hne : c ≠ client ∧ c ∈ s.world.subscribers := by
      by_cases hclient : client ∈ s.world.subscribers
      · rw [exec_onClose_of_printable (hp client reason rfl hclient)] at hc
        exact hk.nodup.mem_erase_iff.mp hc
      · rw [exec_onClose_of_not_mem hclient] at hc
        exact ⟨fun heq => hclient (heq ▸ hc), hc⟩
    rintro (hclosed | ⟨reason', he⟩)
    · exact hnone c hne.2 hclosed
    · cases he
      exact hne.1 rfl
  · rw [hserves.world.subscribers] at hc
    rintro (hclosed | ⟨reason, he⟩)
    · exact hnone c hc hclosed
    · exact hserves.not_close c reason he

/-- Where no subscriber is closed, the invariant holds. -/
theorem Kept.exact {h : List (Event Client)} (hk : Kept config h s)
    (hnone : ∀ client ∈ s.world.subscribers, ¬ Closed h client) : Exact config order h s where
  nodup := hk.nodup
  mem_iff client :=
    ⟨fun hc => ⟨hk.mem client hc, hnone client hc⟩, fun hc => hk.of_not_closed client hc.1 hc.2⟩
  sent := hk.sent
  executed := hk.executed
  close_refused client reason s' hstep hauth := by
    rw [Server.step] at hstep
    split at hstep
    · cases hstep
    · obtain rfl := Option.some.inj hstep
      rw [exec_onClose_of_not_mem (mt (hk.mem client) hauth)]

/-- **When the subscriptions are exact**: along every run, exactly as long as every subscribed client
closes with a printable reason. -/
theorem exact_iff (config : Credentials) (order : KeyOrder) (w : World Client)
    (es : List (Event Client)) :
    (∀ pre s, pre <+: es → run (Server.step config order) (.init w) pre = some s →
        Exact config order pre s) ↔
      Along (Server.step config order) ClosesPrintably (.init w) es := by
  have hkept : ∀ pre s, run (Server.step config order) (.init w) pre = some s → Kept config pre s :=
    fun pre s => run_history (Kept config) (fun h s e s' hk hstep => hk.step hstep)
      (kept_init config w)
  constructor
  · intro hexact
    rw [along_iff]
    rintro pre _ s hpre hrun client reason rfl hclient
    by_contra hp
    -- the close is possible, and leaves the client subscribed
    have hopen : s.phase client ≠ .closed := fun hphase =>
      ((hexact pre s ((List.prefix_append _ _).trans hpre) hrun).mem_iff client |>.mp hclient).2
        ((hkept pre s hrun).closed client hphase)
    have hstep : s.step config order (.close client reason)
        = some ⟨s.world, Function.update s.phase client .closed⟩ := by
      rw [Server.step, if_neg hopen, exec_onClose_of_not_printable hp]
    have hnext := hexact _ _ hpre (run_concat_eq_some.mpr ⟨s, hrun, hstep⟩)
    exact ((hnext.mem_iff client).mp hclient).2 ⟨reason, by simp⟩
  · intro halong pre s hpre hrun
    have hprefix : Along (Server.step config order) ClosesPrintably (.init w) pre :=
      along_of_isPrefix hpre halong
    have hboth := run_history_along
      (fun h s => Kept config h s ∧ ∀ client ∈ s.world.subscribers, ¬ Closed h client)
      (fun h s e s' hI hP hstep => ⟨hI.1.step hstep, not_closed_step hI.1 hI.2 hP hstep⟩)
      ⟨kept_init config w, fun _ hc => absurd hc List.not_mem_nil⟩ hprefix hrun
    exact hboth.1.exact hboth.2

/-- The headers of a client that logs in. -/
def headersOf (user password : Unicode) : Headers := fun key =>
  if key = unicode "user" then some user
  else if key = unicode "password" then some password
  else none

omit [DecidableEq Client] in
theorem presents_headersOf {config : Credentials} {user password : Unicode}
    (huser : eqStr user config.user = true) (hpassword : eqStr password config.password = true) :
    Presents config (headersOf user password) :=
  ⟨user, password, if_pos rfl, rfl, huser, hpassword⟩

/-- A client with the right credentials is subscribed after its connection request. -/
theorem run_connect {headers : Headers} (h : Presents config headers) (client : Client)
    (w : World Client) :
    run (Server.step config order) (.init w) [.connect client headers]
      = some ⟨{ w with subscribers := [client], sent := [] },
          Function.update (fun _ => .fresh) client .opened⟩ := by
  simp only [run_cons, run_nil, Server.step, onConnect_of_presents h]
  rfl

/-- Some run subscribes a client. -/
theorem exists_subscribed : ∃ (config : Credentials) (order : KeyOrder) (w : World Unit)
    (es : List (Event Unit)) (server : Server Unit),
    run (Server.step config order) (.init w) es = some server ∧ () ∈ server.world.subscribers ∧
      server.phase () = .opened := by
  have hpresents : Presents ⟨str "u", str "p"⟩ (headersOf (unicode "u") (unicode "p")) :=
    presents_headersOf (by decide +kernel) (by decide +kernel)
  exact ⟨_, ⟨valid_cmds, .refl _⟩, ⟨[], ⟨[], List.nodup_nil⟩, true, [], []⟩, _, _,
    run_connect hpresents () _, List.mem_singleton_self (), rfl⟩

/-- A client that closes with the reason `é` stays subscribed. -/
theorem not_exact_close_e_acute :
    ¬ ∀ (config : Credentials) (order : KeyOrder) (w : World Unit) (es : List (Event Unit))
      (s : Server Unit),
      run (Server.step config order) (.init w) es = some s → Exact config order es s := by
  intro h
  obtain ⟨config, order, w, es, server, hserver, hmem, hphase⟩ := exists_subscribed
  have hprintable : ¬ (CloseReason.text [0xE9]).Printable := by
    intro hp
    exact absurd (hp 0xE9 (List.mem_singleton_self _)) (by decide)
  have hclose : server.step config order (.close () (.text [0xE9]))
      = some ⟨server.world, Function.update server.phase () .closed⟩ := by
    rw [Server.step, exec_onClose_of_not_printable hprintable, hphase]
    rfl
  have hexact := h _ _ _ _ _ (run_concat_eq_some.mpr ⟨server, hserver, hclose⟩)
  exact ((hexact.mem_iff ()).mp hmem).2 ⟨.text [0xE9], by simp⟩

end LibreXC.Linuino
