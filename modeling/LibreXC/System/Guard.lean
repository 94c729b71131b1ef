import LibreXC.System.Turns

/-! # Who reaches the car

Anyone may connect and send; the serial line carries only what clients with the right credentials have
asked for. This file follows the commands from the connections to the handlers of the sketch, over
runs of the whole system in which anything may get lost. -/

namespace LibreXC

open Arduino Ascii Linuino Python2 SerialLink TransitionSystem

variable {Client : Type} [DecidableEq Client] {config : Credentials} {order : KeyOrder}
  {elm : ℕ → ELM} {s s' : System Client} {t : Turn Client}

/-! ## The reactor -/

omit [DecidableEq Client] in
/-- A broadcast writes nothing on the line. -/
theorem Linuino.tty_broadcast (json : Option Str) (w : World Client) :
    (Py.exec (broadcast json) w).tty = w.tty := by
  cases h : encodeJson json with
  | ok payload => rw [Py.exec_of_ok (broadcast_of_ok h w)]
  | error e =>
      have hb := broadcast_of_error h w
      split at hb
      · rw [Py.exec_of_ok hb]
      · rw [Py.exec_of_error hb]

omit [DecidableEq Client] in
/-- **What a message writes on the line**: the request of the command it asks for, when the device
opens. -/
theorem Linuino.tty_onMessage (order : KeyOrder) (payload : Str) (isBinary : Bool) (w : World Client) :
    (Py.exec (onMessage order payload isBinary) w).tty = w.tty ++
      if isBinary = false ∧ w.ttyOpens = true then (asksFor payload).toList.flatMap requestOf
      else [] := by
  cases isBinary with
  | true =>
      rw [if_neg (by simp), List.append_nil]
      rfl
  | false =>
      have hreceived : onMessage order payload false
          = (onReceived order (decodeUtf8 payload >>= validate_cmd) : Py Client Unit) := rfl
      rw [hreceived, asksFor]
      cases hd : decodeUtf8 payload with
      | error e =>
          have hbroadcast : onReceived order (.error e >>= validate_cmd)
              = (broadcast (some e.str) : Py Client Unit) := rfl
          rw [hbroadcast, tty_broadcast]
          simp
      | ok cmd =>
          have hbind : (Except.ok cmd >>= validate_cmd) = validate_cmd cmd := rfl
          dsimp only
          rw [hbind]
          cases hv : validate_cmd cmd with
          | error e =>
              have hext : external cmd = none := by rw [external, hv]
              have hbroadcast : onReceived order (.error e) = (broadcast (some e.str) : Py Client Unit) := rfl
              rw [hbroadcast, tty_broadcast, hext]
              simp
          | ok r =>
              obtain ⟨key, value, toArduino⟩ := r
              cases toArduino with
              | true =>
                  have hext : external cmd = some (key, value) := by rw [external, hv]
                  obtain ⟨row, -, -, -, -, -, rfl⟩ := external_eq_some hext
                  have hrequest := request_cmd_eq row.2.byteId value w
                  rw [show onReceived order (.ok (.byteId row.2.byteId, value, true))
                    = (request_cmd (.byteId row.2.byteId) value : Py Client Unit) from rfl,
                    Py.exec_of_ok hrequest, hext]
                  cases w.ttyOpens <;> simp [requestOf, hext]
              | false =>
                  have hext : external cmd = none := by rw [external, hv]
                  obtain ⟨result, logs, hexec⟩ := execute_cmd_eq_ok order key value w
                  rw [show onReceived order (.ok (key, value, false))
                    = execute_cmd order key value >>= broadcast from rfl, Py.exec_bind_of_ok hexec,
                    tty_broadcast, hext]
                  simp

/-- What an event writes on the line. -/
def Linuino.Event.written (w : World Client) : Event Client → Str
  | .message _ payload isBinary =>
      if isBinary = false ∧ w.ttyOpens = true then (asksFor payload).toList.flatMap requestOf else []
  | _ => []

/-- **Only messages write on the line.** -/
theorem Linuino.Server.tty_step {server server' : Server Client} {e : Event Client}
    (h : server.step config order e = some server') :
    server'.world.tty = server.world.tty ++ e.written server.world := by
  cases e with
  | connect client headers =>
      rw [step] at h
      split at h
      · by_cases hp : Presents config headers
        · rw [onConnect_of_presents hp] at h
          obtain rfl := Option.some.inj h
          dsimp only [add_client]
          split <;> exact (List.append_nil _).symm
        · rw [onConnect_of_not_presents hp] at h
          obtain rfl := Option.some.inj h
          exact (List.append_nil _).symm
      · cases h
  | message client payload isBinary =>
      rw [step] at h
      split at h
      · obtain rfl := Option.some.inj h
        exact tty_onMessage order payload isBinary server.world
      · cases h
  | close client reason =>
      rw [step] at h
      split at h
      · cases h
      · obtain rfl := Option.some.inj h
        dsimp only
        by_cases hp : reason.Printable
        · rw [exec_onClose_of_printable hp]
          exact (List.append_nil _).symm
        · rw [exec_onClose_of_not_printable hp]
          exact (List.append_nil _).symm
  | update json =>
      obtain rfl := Option.some.inj h
      exact (tty_broadcast (some json) server.world).trans (List.append_nil _).symm
  | files logs =>
      obtain rfl := Option.some.inj h
      exact (List.append_nil _).symm
  | device opens =>
      obtain rfl := Option.some.inj h
      exact (List.append_nil _).symm

/-- **A connection is opened by the right credentials only.** -/
theorem Linuino.Server.opened_step {server server' : Server Client} {e : Event Client}
    (h : server.step config order e = some server') {client : Client}
    (hclient : server'.phase client = .opened) :
    server.phase client = .opened ∨ ∃ headers, e = .connect client headers ∧ Presents config headers := by
  rcases Server.step_cases h with ⟨c, headers, rfl, -, hp, rfl⟩ | ⟨c, headers, -, -, -, rfl⟩
    | ⟨c, reason, -, -, rfl⟩ | hserves
  · rcases update_phase_eq.mp hclient with ⟨rfl, -⟩ | ⟨-, hclient⟩
    · exact .inr ⟨headers, rfl, hp⟩
    · exact .inl hclient
  · rcases update_phase_eq.mp hclient with ⟨-, hphase⟩ | ⟨-, hclient⟩
    · cases hphase
    · exact .inl hclient
  · rcases update_phase_eq.mp hclient with ⟨-, hphase⟩ | ⟨-, hclient⟩
    · cases hphase
    · exact .inl hclient
  · exact .inl (hserves.phase ▸ hclient)

/-- **A closed connection stays closed.** -/
theorem Linuino.Server.closed_step {server server' : Server Client} {e : Event Client}
    (h : server.step config order e = some server') {client : Client}
    (hclient : server.phase client = .closed ∨ ∃ reason, e = .close client reason) :
    server'.phase client = .closed := by
  -- only a connection that is fresh may change otherwise
  have hkeep : ∀ c phase, server.phase c = .fresh → server.phase client = .closed →
      Function.update server.phase c phase client = .closed := by
    intro c phase hfresh hclosed
    refine update_phase_eq.mpr (.inr ⟨?_, hclosed⟩)
    rintro rfl
    rw [hclosed] at hfresh
    cases hfresh
  rcases Server.step_cases h with ⟨c, headers, rfl, hfresh, -, rfl⟩ | ⟨c, headers, rfl, hfresh, -, rfl⟩
    | ⟨c, reason, rfl, -, rfl⟩ | hserves
  · exact hkeep c _ hfresh (hclient.resolve_right (by simp))
  · exact hkeep c _ hfresh (hclient.resolve_right (by simp))
  · by_cases hc : client = c
    · exact update_phase_eq.mpr (.inl ⟨hc, rfl⟩)
    · refine update_phase_eq.mpr (.inr ⟨hc, hclient.resolve_right ?_⟩)
      rintro ⟨reason', heq⟩
      exact hc (Event.close.inj heq).1.symm
  · have hclosed := hclient.resolve_right fun ⟨reason, heq⟩ => hserves.not_close client reason heq
    rw [hserves.phase, hclosed]

/-- The server moves by an event of the reactor, or by a scheduled broadcast. -/
theorem Linuino.Daemon.server_step {d d' : Daemon Client} {task : Linuino.Task Client}
    (h : d.step config order task = some d') :
    (task = .data ∧ d'.server = d.server) ∨ ∃ e, d.server.step config order e = some d'.server ∧
      (task = .reactor e ∨ task = .call ∧ ∃ line, e = .update line) := by
  cases task with
  | data =>
      obtain ⟨-, -, -, -, -, -, -, hserver⟩ := data_told h
      exact .inl ⟨rfl, hserver⟩
  | call =>
      rw [Daemon.step] at h
      split at h
      · cases h
      · next line calls hline =>
          obtain ⟨server, hserver, rfl⟩ := Option.map_eq_some_iff.mp h
          exact .inr ⟨.update line, hserver, .inr ⟨rfl, line, rfl⟩⟩
  | reactor e =>
      rw [Daemon.step] at h
      split at h
      · cases h
      · obtain ⟨server, hserver, rfl⟩ := Option.map_eq_some_iff.mp h
        exact .inr ⟨e, hserver, .inl rfl⟩

/-- Reading, arriving and reading by the sketch leave the requests alone. -/
theorem SerialLink.Exchange.frame_step {x x' : Exchange} {a : Action} (h : x.step elm a = some x')
    (hrequest : ∀ cmd, a ≠ .request cmd) (hwrite : a ≠ .write) :
    x'.issued = x.issued ∧ x'.opened = x.opened ∧ x'.device.output = x.device.output := by
  rcases Exchange.step_cases h with ⟨cmd, byteId, value, rfl, -, -, rfl⟩
    | ⟨cmd, byteId, value, rfl, -, -, rfl⟩ | ⟨b, -, -, rfl⟩ | ⟨b, transmit, -, -, rfl⟩
    | ⟨e, device, ha, hdevice, rfl⟩
  · exact absurd rfl (hrequest cmd)
  · exact absurd rfl hwrite
  · exact ⟨rfl, rfl, rfl⟩
  · exact ⟨rfl, rfl, rfl⟩
  · refine ⟨rfl, rfl, ?_⟩
    rcases ha with ⟨-, rfl⟩ | ⟨-, rfl⟩
    · exact (Device.frame_select hdevice).2.1
    · exact (Device.frame_read hdevice).2.1

/-- A request opens the device for its command. -/
theorem SerialLink.Exchange.request_step {x x' : Exchange} {cmd : Unicode}
    (h : x.step elm (.request cmd) = some x') : x.device.request = none ∧
      x'.issued = x.issued ∧ x'.opened = some cmd ∧ x'.device.output = x.device.output := by
  rcases Exchange.step_cases h with ⟨cmd', byteId, value, heq, -, hnone, rfl⟩
    | ⟨cmd', byteId, value, heq, -, -, rfl⟩ | ⟨b, heq, -, rfl⟩ | ⟨b, transmit, heq, -, rfl⟩
    | ⟨e, device, ⟨heq, -⟩ | ⟨heq, -⟩, -, rfl⟩ <;> cases heq
  exact ⟨hnone, rfl, rfl, rfl⟩

/-- Writing puts the request of the command on the line. -/
theorem SerialLink.Exchange.Consistent.write_step {x x' : Exchange} (hc : x.Consistent elm)
    (h : x.step elm .write = some x') : ∃ cmd, x.opened = some cmd ∧ x'.issued = x.issued ++ [cmd] ∧
      x'.opened = none ∧ x'.device.output = x.device.output ++ requestOf cmd := by
  rcases Exchange.step_cases h with ⟨cmd, byteId, value, heq, -, -, rfl⟩
    | ⟨cmd, byteId, value, -, hopened, hrequest, rfl⟩ | ⟨b, heq, -, rfl⟩ | ⟨b, transmit, heq, -, rfl⟩
    | ⟨e, device, ⟨heq, -⟩ | ⟨heq, -⟩, -, rfl⟩
  · cases heq
  · have hcmd : requested cmd = some (byteId, value) := by
      rw [← hrequest, hc.request, hopened, Option.bind_some]
    exact ⟨cmd, hopened, rfl, rfl, by rw [requestOf_eq hcmd]⟩
  all_goals cases heq

/-! ## The history of a run -/

/-- The event a turn brings to the server by itself. -/
def Turn.event : Turn Client → Option (Event Client)
  | .reactor (.reactor e) => some e
  | _ => none

/-- The command a turn asks the sketch for. -/
def Turn.command : Turn Client → Option Unicode
  | .request _ payload => asksFor payload
  | _ => none

/-- The commands asked for, in order. -/
def commands (ts : List (Turn Client)) : List Unicode := ts.filterMap Turn.command

/-- The client has presented the right credentials and has not closed since. -/
def LoggedIn (config : Credentials) (ts : List (Turn Client)) (client : Client) : Prop :=
  Authenticated config (ts.filterMap Turn.event) client ∧ ¬ Closed (ts.filterMap Turn.event) client

omit [DecidableEq Client] in
theorem commands_concat (ts : List (Turn Client)) (t : Turn Client) :
    commands (ts ++ [t]) = commands ts ++ t.command.toList := by
  rw [commands, List.filterMap_append]
  cases h : t.command <;> simp [h, commands]

/-- **The server moves by the event of the turn**, and between its events no client comes or goes. -/
theorem System.server_step (h : s.step config order elm t = some s') :
    (t.event = none ∧ s'.daemon.server.phase = s.daemon.server.phase) ∨
      ∃ e, t.event = some e ∧ s.daemon.server.step config order e = some s'.daemon.server := by
  have hmessage : ∀ {server : Server Client} {e : Event Client}, (∀ c headers, e ≠ .connect c headers) →
      (∀ c reason, e ≠ .close c reason) → s.daemon.server.step config order e = some server →
        server.phase = s.daemon.server.phase := by
    intro server e hconnect hclose hserver
    rcases Server.step_cases hserver with ⟨c, headers, heq, -⟩ | ⟨c, headers, heq, -⟩
      | ⟨c, reason, heq, -⟩ | hserves
    · exact absurd heq (hconnect c headers)
    · exact absurd heq (hconnect c headers)
    · exact absurd heq (hclose c reason)
    · exact hserves.phase
  rcases step_cases h with ⟨a, ha, -, -, hdaemon, -⟩ | ⟨rfl, -, -, -, new, -, hdaemon⟩
    | ⟨task, ht, htask, -, -⟩ | ⟨client, payload, cmd, rfl, -, -, -, -, -, hdaemon, -⟩
    | ⟨client, payload, rfl, -, -, htask, -⟩
  · refine .inl ⟨?_, by rw [hdaemon]⟩
    rcases ha with ⟨rfl, -⟩ | ⟨rfl, -⟩ | ⟨rfl, -⟩ <;> rfl
  · exact .inl ⟨rfl, by rw [hdaemon]; rfl⟩
  · rcases Daemon.server_step htask with ⟨rfl, hserver⟩ | ⟨e, hserver, rfl | ⟨rfl, line, rfl⟩⟩
    · refine .inl ⟨?_, by rw [hserver]⟩
      rcases ht with ⟨rfl, -⟩ | ⟨rfl, -⟩ <;> rfl
    · rcases ht with ⟨-, heq⟩ | ⟨rfl, -⟩
      · cases heq
      · exact .inr ⟨e, rfl, hserver⟩
    · refine .inl ⟨?_, hmessage (by simp) (by simp) hserver⟩
      rcases ht with ⟨rfl, -⟩ | ⟨rfl, -⟩ <;> rfl
  · exact .inl ⟨rfl, by rw [hdaemon]⟩
  · rcases Daemon.server_step htask with ⟨heq, -⟩ | ⟨e, hserver, heq | ⟨heq, -⟩⟩
    · cases heq
    · obtain rfl := Task.reactor.inj heq
      exact .inl ⟨rfl, hmessage (by simp) (by simp) hserver⟩
    · cases heq

/-- **Who is let in**, after the turns `ts`. -/
structure System.Admits (config : Credentials) (ts : List (Turn Client)) (s : System Client) : Prop where
  opened : ∀ client, s.daemon.server.phase client = .opened →
    Authenticated config (ts.filterMap Turn.event) client
  closed : ∀ client, Closed (ts.filterMap Turn.event) client → s.daemon.server.phase client = .closed
  /-- Every request came from a client that was logged in. -/
  requests : ∀ pre client payload, pre ++ [.request client payload] <+: ts → LoggedIn config pre client

omit [DecidableEq Client] in
theorem System.admits_start (config : Credentials) (w : World Client) :
    Admits config [] (.start (.init w)) where
  opened _ h := nomatch h
  closed _ h := absurd h.choose_spec List.not_mem_nil
  requests _ _ _ h := absurd (List.prefix_nil.mp h) (by simp)

/-- **Every turn lets in the clients with the right credentials only.** -/
theorem System.Admits.step {ts : List (Turn Client)} (hs : s.Admits config ts)
    (h : s.step config order elm t = some s') : s'.Admits config (ts ++ [t]) := by
  have hrequests : ∀ pre client payload, pre ++ [.request client payload] <+: ts ++ [t] →
      LoggedIn config pre client := by
    intro pre client payload hpre
    rcases List.prefix_concat_iff.mp hpre with heq | hpre
    · -- the turn is a request, and only an open connection makes one
      obtain ⟨rfl, ht⟩ := List.append_inj' heq rfl
      obtain rfl := List.singleton_inj.mp ht
      rcases step_cases h with ⟨a, ⟨ht, -⟩ | ⟨ht, -⟩ | ⟨ht, -⟩, -⟩ | ⟨ht, -⟩
        | ⟨task, ⟨ht, -⟩ | ⟨ht, -⟩, -⟩ | ⟨c, p, cmd, ht, -, hphase, -⟩ | ⟨_, _, ht, -⟩
      any_goals cases ht
      refine ⟨hs.opened client hphase, fun hclosed => ?_⟩
      rw [hs.closed client hclosed] at hphase
      cases hphase
    · exact hs.requests pre client payload hpre
  rcases server_step h with ⟨hevent, hphase⟩ | ⟨e, hevent, hserver⟩
  · have hevents : (ts ++ [t]).filterMap Turn.event = ts.filterMap Turn.event := by
      rw [List.filterMap_append]
      simp [hevent]
    refine ⟨fun c hc => ?_, fun c hc => ?_, hrequests⟩
    · rw [hevents]
      exact hs.opened c (hphase ▸ hc)
    · rw [hphase]
      exact hs.closed c (hevents ▸ hc)
  · have hevents : (ts ++ [t]).filterMap Turn.event = ts.filterMap Turn.event ++ [e] := by
      rw [List.filterMap_append]
      simp [hevent]
    refine ⟨fun c hc => ?_, fun c hc => ?_, hrequests⟩
    · rw [hevents, authenticated_concat]
      exact (Server.opened_step hserver hc).imp_left (hs.opened c)
    · rw [hevents, closed_concat] at hc
      exact Server.closed_step hserver (hc.imp_left (hs.closed c))

/-! ## The reactor and the link -/

/-- **The reactor and the link agree**, after the turns `ts` from a world `w`. -/
structure System.Serving (w : World Client) (elm : ℕ → ELM) (ts : List (Turn Client))
    (s : System Client) : Prop where
  consistent : s.link.Consistent elm
  opened : s.link.opened = s.busy.bind fun message => asksFor message.2
  busy : ∀ client payload, s.busy = some (client, payload) →
    s.daemon.server.phase client = .opened ∧ s.daemon.server.world.ttyOpens = true ∧
      (asksFor payload).isSome
  tty : s.daemon.server.world.tty = w.tty ++ s.link.device.output
  issued : s.link.issued ++ s.link.opened.toList = commands ts

omit [DecidableEq Client] in
theorem System.serving_start (w : World Client) (elm : ℕ → ELM) :
    Serving w elm [] (.start (.init w)) where
  consistent := Exchange.consistent_start
  opened := rfl
  busy _ _ h := nomatch h
  tty := (List.append_nil _).symm
  issued := rfl

omit [DecidableEq Client] in
/-- Where the link goes on by itself and the reactor does not move, nothing changes. -/
theorem System.Serving.link {w : World Client} {ts : List (Turn Client)} {a : Action}
    (hs : s.Serving w elm ts) (hlink : s.link.step elm a = some s'.link)
    (hrequest : ∀ cmd, a ≠ .request cmd) (hwrite : a ≠ .write) (ht : t.command = none)
    (hserver : s'.daemon.server = s.daemon.server) (hbusy : s'.busy = s.busy) :
    s'.Serving w elm (ts ++ [t]) := by
  obtain ⟨hissued, hopened, houtput⟩ := Exchange.frame_step hlink hrequest hwrite
  refine ⟨hs.consistent.step hlink, ?_, ?_, ?_, ?_⟩
  · rw [hopened, hbusy]
    exact hs.opened
  · rw [hbusy, hserver]
    exact hs.busy
  · rw [hserver, houtput]
    exact hs.tty
  · rw [hissued, hopened, hs.issued, commands_concat, ht, Option.toList_none, List.append_nil]

/-- The daemon moves by a task while no device is open, or by the Data thread. -/
theorem System.Serving.task {w : World Client} {ts : List (Turn Client)} {task : Linuino.Task Client}
    (hs : s.Serving w elm ts) (hlink : s'.link = s.link) (hbusy : s'.busy = s.busy)
    (ht : t = .data ∧ task = .data ∨ t = .reactor task ∧ s.busy = none ∧ task.isData = false ∧
      ¬ (task.asks = true ∧ s.daemon.server.world.ttyOpens = true))
    (htask : s.daemon.step config order task = some s'.daemon) :
    s'.Serving w elm (ts ++ [t]) := by
  have hissued : s'.link.issued ++ s'.link.opened.toList = commands (ts ++ [t]) := by
    have hnone : t.command = none := by rcases ht with ⟨rfl, -⟩ | ⟨rfl, -⟩ <;> rfl
    rw [hlink, hs.issued, commands_concat, hnone, Option.toList_none, List.append_nil]
  rcases Daemon.server_step htask with ⟨-, hserver⟩ | ⟨e, hserver, he⟩
  · refine ⟨hlink ▸ hs.consistent, ?_, ?_, ?_, hissued⟩
    · rw [hlink, hbusy]
      exact hs.opened
    · rw [hbusy, hserver]
      exact hs.busy
    · rw [hserver, hlink]
      exact hs.tty
  · obtain ⟨hnone, hasks⟩ : s.busy = none ∧
        ¬ (task.asks = true ∧ s.daemon.server.world.ttyOpens = true) := by
      rcases ht with ⟨-, rfl⟩ | ⟨-, hnone, -, hasks⟩
      · rcases he with he | ⟨he, -⟩ <;> cases he
      · exact ⟨hnone, hasks⟩
    -- a message that would be written is not executed this way
    have hwritten : e.written s.daemon.server.world = [] := by
      rcases he with rfl | ⟨-, line, rfl⟩
      · cases e with
        | message client payload isBinary =>
            rw [Event.written]
            split
            · next hcond =>
                obtain ⟨rfl, hopens⟩ := hcond
                have hnoask : ¬ (asksFor payload).isSome = true := fun hsome => hasks ⟨hsome, hopens⟩
                rw [Option.not_isSome_iff_eq_none.mp hnoask]
                rfl
            · rfl
        | _ => rfl
      · rfl
    refine ⟨hlink ▸ hs.consistent, ?_, ?_, ?_, hissued⟩
    · rw [hlink, hbusy]
      exact hs.opened
    · rw [hbusy, hnone]
      exact fun _ _ h => nomatch h
    · rw [Server.tty_step hserver, hwritten, List.append_nil, hlink]
      exact hs.tty

/-- **Every turn keeps the reactor and the link in agreement.** -/
theorem System.Serving.step {w : World Client} {ts : List (Turn Client)}
    (hs : s.Serving w elm ts) (h : s.step config order elm t = some s') :
    s'.Serving w elm (ts ++ [t]) := by
  rcases step_cases h with ⟨a, ha, -, hlink, hdaemon, hbusy⟩ | ⟨rfl, -, hlink, hbusy, new, -, hdaemon⟩
    | ⟨task, ht, htask, hlink, hbusy⟩
    | ⟨client, payload, cmd, rfl, hnone, hphase, hopens, hcmd, hlink, hdaemon, hbusy⟩
    | ⟨client, payload, rfl, hbusy, hlink, htask, hdone⟩
  · refine hs.link hlink ?_ ?_ ?_ (by rw [hdaemon]) hbusy <;>
      rcases ha with ⟨rfl, rfl⟩ | ⟨rfl, rfl⟩ | ⟨rfl, rfl⟩ <;> simp [Turn.command]
  · exact hs.link hlink (by simp) (by simp) rfl (by rw [hdaemon]; rfl) hbusy
  · exact hs.task hlink hbusy ht htask
  · -- the device is open for a client that is logged in
    obtain ⟨-, hissued, hopened, houtput⟩ := Exchange.request_step hlink
    have hclosed : s.link.opened = none := by rw [hs.opened, hnone, Option.bind_none]
    refine ⟨hs.consistent.step hlink, ?_, ?_, ?_, ?_⟩
    · rw [hopened, hbusy]
      exact hcmd.symm
    · rw [hbusy, hdaemon]
      rintro c p heq
      obtain ⟨rfl, rfl⟩ := Prod.mk.inj (Option.some.inj heq)
      exact ⟨hphase, hopens, by rw [hcmd]; rfl⟩
    · rw [hdaemon, houtput]
      exact hs.tty
    · rw [hissued, hopened, commands_concat, ← hs.issued, hclosed, Option.toList_none, List.append_nil,
        Turn.command, hcmd]
  · -- the message is executed as a whole now
    obtain ⟨cmd, hopened, hissued, hopened', houtput⟩ := hs.consistent.write_step hlink
    have hcmd : asksFor payload = some cmd := by
      rw [← hopened, hs.opened, hbusy, Option.bind_some]
    obtain ⟨hphase, hopens, -⟩ := hs.busy client payload hbusy
    rcases Daemon.server_step htask with ⟨heq, -⟩ | ⟨e, hserver, he | ⟨heq, -⟩⟩
    · cases heq
    · obtain rfl := Task.reactor.inj he
      refine ⟨hs.consistent.step hlink, ?_, ?_, ?_, ?_⟩
      · rw [hopened', hdone]
        rfl
      · rw [hdone]
        exact fun _ _ h => nomatch h
      · rw [Server.tty_step hserver, Event.written, if_pos ⟨rfl, hopens⟩, hcmd, hs.tty, houtput,
          Option.toList_some, List.flatMap_singleton, List.append_assoc]
      · rw [hissued, hopened', commands_concat, ← hs.issued, hopened]
        simp [Turn.command]
    · cases heq

/-- The command names the handler that runs for the payload. -/
def Names (cmd : Unicode) (data : Payload) : Prop :=
  ∃ handler, handleData data = some handler ∧ unicode handler.name = firstWord cmd

/-- **What reaches the sketch was asked for by clients that are logged in**, whatever the others do
and in whatever order. -/
structure Guarded (config : Credentials) (w : World Client) (ts : List (Turn Client))
    (s : System Client) : Prop where
  /-- The bytes on the line are the requests of the issued commands. -/
  line : s.link.device.output = s.link.issued.flatMap requestOf
  /-- They are what the reactor believes to have written. -/
  tty : s.daemon.server.world.tty = w.tty ++ s.link.device.output
  /-- The issued commands are the texts of the requests in order; the device may be open for the last. -/
  issued : s.link.issued ++ s.link.opened.toList = commands ts
  /-- Each request came from a client that was logged in then. -/
  authorized : ∀ pre client payload, pre ++ [.request client payload] <+: ts →
    LoggedIn config pre client
  /-- The handlers that ran were named by some of these commands, in order. -/
  handled : ∃ cmds, cmds.Sublist s.link.issued ∧ List.Forall₂ Names cmds s.link.handled

/-- A request is a frame for the handler its command names, or nothing. -/
theorem SerialLink.requestOf_cases (cmd : Unicode) :
    requestOf cmd = [] ∨ ∃ f : Frame, requestOf cmd = f.bytes ∧ Names cmd f.payload := by
  cases hext : external cmd with
  | none => exact .inl (by rw [requestOf, hext])
  | some r =>
      obtain ⟨key, value⟩ := r
      obtain ⟨row, hrow, hname, hid, -, -, rfl⟩ := external_eq_some hext
      have hrequest : requestOf cmd = requestBytes row.2.byteId value := by rw [requestOf, hext]
      by_cases hvalue : value = -1 ∨ 0 ≤ value ∧ value ≤ 255
      · obtain ⟨f, hf, hcmd, -⟩ := exists_frame_requestBytes hrow hid hvalue
        obtain ⟨handler, hhandler, hhname, -⟩ := handleData_of_mem_valid_cmds hrow hcmd f.param
        exact .inr ⟨f, hrequest.trans hf, handler, hhandler, by rw [hhname, hname]⟩
      · exact .inl (hrequest.trans (requestBytes_of_not_mem hvalue _))

/-- The frames among the requests. -/
theorem SerialLink.exists_frames_requestOf (cmds : List Unicode) : ∃ (fs : List Frame) (sent : List Unicode),
    cmds.flatMap requestOf = fs.flatMap Frame.bytes ∧ sent.Sublist cmds ∧
      List.Forall₂ Names sent (fs.map Frame.payload) := by
  induction cmds with
  | nil => exact ⟨[], [], rfl, .slnil, .nil⟩
  | cons cmd cmds ih =>
      obtain ⟨fs, sent, hfs, hsent, hnames⟩ := ih
      rcases requestOf_cases cmd with hnil | ⟨f, hf, hname⟩
      · exact ⟨fs, sent, by rw [List.flatMap_cons, hnil, hfs]; rfl, hsent.cons cmd, hnames⟩
      · exact ⟨f :: fs, cmd :: sent, by rw [List.flatMap_cons, List.flatMap_cons, hf, hfs],
          hsent.cons_cons cmd, .cons hname hnames⟩

/-- **Whatever the sketch handles was issued**, in order. -/
theorem SerialLink.Exchange.Consistent.exists_issued {x : Exchange} (hc : x.Consistent elm) :
    ∃ cmds, cmds.Sublist x.issued ∧ List.Forall₂ Names cmds x.handled := by
  obtain ⟨fs, sent, hfs, hsent, hnames⟩ := exists_frames_requestOf x.issued
  obtain ⟨rest, hrest⟩ : x.handled <+: fs.map Frame.payload := by
    rw [← outputs_start_frames, ← hfs, ← hc.output, ← List.take_append_drop x.consumed x.device.output,
      Transducer.outputs_append, hc.handled]
    exact List.prefix_append _ _
  rw [← hrest] at hnames
  exact ⟨_, (List.take_sublist _ _).trans hsent, List.forall₂_take_append _ _ _ hnames⟩

/-- **Only clients that are logged in reach the car**: in every run of the system, whatever is lost and
whoever else connects, sends or closes. -/
theorem guarded_run (config : Credentials) (order : KeyOrder) (elm : ℕ → ELM) (w : World Client)
    {ts : List (Turn Client)} {s : System Client}
    (h : run (System.step config order elm) (.start (.init w)) ts = some s) :
    Guarded config w ts s := by
  have hs : s.Serving w elm ts := run_history (System.Serving w elm)
    (fun _ _ _ _ hs hstep => hs.step hstep) (System.serving_start w elm) h
  have ha : s.Admits config ts := run_history (System.Admits config)
    (fun _ _ _ _ ha hstep => ha.step hstep) (System.admits_start config w) h
  exact ⟨hs.consistent.output, hs.tty, hs.issued, ha.requests, hs.consistent.exists_issued⟩

/-- The one handler that ran was asked for by the client that had logged in. -/
theorem guarded_reset : ∃ s, runReset (login :: resetTurns) = some s ∧ s.link.handled = [⟨1, 255⟩] ∧
    Guarded ⟨str "u", str "p"⟩ freshWorld (login :: resetTurns) s := by
  obtain ⟨s, hs, heq⟩ := Option.map_eq_some_iff.mp runReset_eq
  exact ⟨s, hs, congrArg Prod.fst heq, guarded_run _ _ _ _ hs⟩

end LibreXC
