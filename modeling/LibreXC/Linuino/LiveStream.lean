import LibreXC.Linuino.Daemon

/-! # The log and the live stream

A line reaches the log by a direct write and the clients by a broadcast that the reactor runs later.
The write takes any bytes; the broadcast encodes the line, which raises on a byte outside ASCII, and
the reactor goes on with the next call. So a client that stays subscribed is sent exactly the ASCII
lines of the log, in order. -/

namespace LibreXC.Linuino

open Ascii Python2 TransitionSystem

variable {Client : Type} [DecidableEq Client] {config : Credentials} {order : KeyOrder}
  {s s' : Daemon Client} {client : Client}

omit [DecidableEq Client] in
/-- What the broadcast of a line sends. -/
theorem sent_broadcast (line : Str) (w : World Client) :
    (Py.exec (broadcast (some line)) w).sent
      = w.sent ++ if IsAscii line then w.subscribers.map (·, line) else [] := by
  rw [(broadcast_broadcasts (some line) w).sent]
  by_cases hline : IsAscii line
  · rw [show encodeJson (some line) = .ok line from encode_of_isAscii hline, if_pos hline,
      Except.toOption, Option.toList_some, List.flatMap_singleton]
  · obtain ⟨e, he⟩ : ∃ e, encodeJson (some line) = .error e := encode_of_not_isAscii hline
    rw [he, if_neg hline]
    rfl

/-- **How far the log and the stream of a subscribed client have come**: the log holds what the
logger was told, and the client was sent the ASCII lines among those whose broadcast has run. -/
structure Streams (client : Client) (s : Daemon Client) : Prop where
  mem : client ∈ s.server.world.subscribers
  nodup : s.server.world.subscribers.Nodup
  log : s.log = some (received .logger s.data.updates)
  live : ∃ ran, received .socket s.data.updates = ran ++ s.calls ∧
    received client s.live = ran.filter (IsAscii ·)

/-- A step of the Data thread: at most one update. -/
theorem Streams.data (h : Streams client s) (hstep : s.step config order .data = some s') :
    Streams client s' := by
  obtain ⟨data, hdata, rfl⟩ := Option.map_eq_some_iff.mp hstep
  obtain ⟨ran, hran, hlive⟩ := h.live
  have hupdates := Data.updates_step hdata
  cases hcall : s.data.calling with
  | none =>
      rw [hcall, Option.toList_none, List.append_nil] at hupdates
      refine ⟨h.mem, h.nodup, ?_, ran, ?_, hlive⟩
      · rw [hupdates]
        exact h.log
      · rw [hupdates]
        exact hran
  | some call =>
      obtain ⟨observer, line⟩ := call
      rw [hcall, Option.toList_some] at hupdates
      have hlogger : received .logger data.updates
          = received .logger s.data.updates ++ received .logger [(observer, line)] := by
        rw [hupdates, received_append]
      have hsocket : received .socket data.updates
          = received .socket s.data.updates ++ received .socket [(observer, line)] := by
        rw [hupdates, received_append]
      -- the logger's update extends the log, the socket's the scheduled calls
      cases observer with
      | logger =>
          refine ⟨h.mem, h.nodup, ?_, ran, ?_, hlive⟩
          · dsimp only [Daemon.update]
            rw [h.log, hlogger]
            rfl
          · dsimp only [Daemon.update]
            rw [hsocket, hran]
            exact List.append_nil _
      | socket =>
          refine ⟨h.mem, h.nodup, ?_, ran, ?_, hlive⟩
          · dsimp only [Daemon.update]
            rw [h.log, hlogger]
            exact congrArg some (List.append_nil _).symm
          · dsimp only [Daemon.update]
            rw [hsocket, hran, List.append_assoc]
            rfl

/-- A scheduled call: its line goes to the client if it is ASCII. -/
theorem Streams.call (h : Streams client s) (hstep : s.step config order .call = some s') :
    Streams client s' := by
  rw [Daemon.step] at hstep
  split at hstep
  · cases hstep
  · next line calls hcalls =>
      obtain ⟨server, hserver, rfl⟩ := Option.map_eq_some_iff.mp hstep
      obtain ⟨ran, hran, hlive⟩ := h.live
      have hne : ∀ reason, Event.update line ≠ .close client reason := by
        intro reason heq
        cases heq
      refine ⟨Server.mem_step hserver h.mem hne, Server.nodup_step hserver h.nodup, h.log,
        ran ++ [line], ?_, ?_⟩
      · rw [hran, hcalls, List.append_assoc, List.singleton_append]
      · have hsent : server.world.sent.drop s.server.world.sent.length
            = if IsAscii line then s.server.world.subscribers.map (·, line) else [] := by
          obtain rfl := Option.some.inj hserver
          dsimp only
          rw [sent_broadcast, List.drop_left]
        rw [received_append, hlive, hsent, List.filter_append]
        congr 1
        by_cases hline : IsAscii line
        · rw [if_pos hline, received_round h.nodup, if_pos h.mem]
          simp [hline]
        · rw [if_neg hline]
          simp [hline, received]

/-- Another event of the reactor, which does not close the client. -/
theorem Streams.reactor (h : Streams client s) {e : Event Client}
    (hstep : s.step config order (.reactor e) = some s') (hne : ∀ reason, e ≠ .close client reason) :
    Streams client s' := by
  rw [Daemon.step] at hstep
  split at hstep
  · cases hstep
  · obtain ⟨server, hserver, rfl⟩ := Option.map_eq_some_iff.mp hstep
    exact ⟨Server.mem_step hserver h.mem hne, Server.nodup_step hserver h.nodup, h.log, h.live⟩

/-- **The log and the live stream of a client that stays**: when every line has been read and every
scheduled broadcast has run, they are the same iff every line is ASCII. -/
theorem log_eq_live_iff {w : World Client} {es : List (Event Client)} {server : Server Client}
    (hserver : run (Server.step config order) (.init w) es = some server)
    (hclient : client ∈ server.world.subscribers) {lines : List Str} {ts : List (Task Client)}
    (hrun : run (Daemon.step config order) (.start lines server) ts = some s)
    (hstays : ∀ reason, .reactor (.close client reason) ∉ ts)
    (hpc : s.data.pc = .readline) (hunread : s.data.unread = []) (hcalls : s.calls = []) :
    s.log = some (received client s.live) ↔ ∀ line ∈ heard lines, IsAscii line := by
  have hnodup : server.world.subscribers.Nodup :=
    run_invariant (fun s : Server Client => s.world.subscribers.Nodup)
      (fun _ _ _ h hstep => Server.nodup_step hstep h) List.nodup_nil hserver
  have hstart : Streams client (.start lines server) := ⟨hclient, hnodup, rfl, [], rfl, rfl⟩
  have hstreams : Streams client s := by
    have hnever : Along (Daemon.step config order)
        (fun _ t => ∀ reason, t ≠ .reactor (.close client reason)) (.start lines server) ts := by
      refine along_of_forall_mem fun t ht _ reason heq => hstays reason ?_
      rwa [← heq]
    refine run_invariant_along (Streams client) (fun s t s' h hne hstep => ?_) hstart hnever hrun
    cases t with
    | data => exact h.data hstep
    | call => exact h.call hstep
    | reactor e => exact h.reactor hstep fun reason heq => hne reason (heq ▸ rfl)
  -- every line was announced to both observers, and no broadcast is outstanding
  obtain ⟨ran, hran, hlive⟩ := hstreams.live
  have hw := (Daemon.working_run hrun).2
  have hall : ∀ observer, received observer s.data.updates = heard lines := fun observer =>
    hw.received_eq nodup_registered (mem_registered observer) hpc hunread
  rw [hall, hcalls, List.append_nil] at hran
  rw [hstreams.log, hall, hlive, ← hran, Option.some.injEq, eq_comm, List.filter_eq_self]
  exact forall₂_congr fun line _ => decide_eq_true_iff

/-- The tasks that bring one line to the log and to the clients. -/
def oneLine : List (Task Client) := [.data, .data, .data, .data, .data, .call]

/-- One line, from the serial port to the log and to the clients. -/
theorem run_oneLine (config : Credentials) (order : KeyOrder) {line : Str} (hline : line ≠ [])
    (server : Server Client) :
    ∃ s, run (Daemon.step config order) (.start [line] server) oneLine = some s ∧
      s.data.pc = .readline ∧ s.data.unread = [] ∧ s.calls = [] ∧ s.log = some [line] ∧
      s.live = if IsAscii line then server.world.subscribers.map (·, line) else [] := by
  simp [oneLine, run_cons, Daemon.start, Data.start, Daemon.step, Data.step, Data.calling,
    Daemon.update, Daemon.raises, Data.maxsize, Server.step, hline, sent_broadcast]

omit [DecidableEq Client] in
/-- No client closes while one line passes. -/
theorem not_mem_oneLine (client : Client) (reason : CloseReason) :
    Task.reactor (.close client reason) ∉ oneLine := by
  simp [oneLine]

/-- A subscribed client gets the line `{}` as the log does. -/
theorem log_eq_live_braces : ∃ (config : Credentials) (order : KeyOrder) (server : Server Unit)
    (s : Daemon Unit), () ∈ server.world.subscribers ∧
      run (Daemon.step config order) (.start [str "{}\n"] server) oneLine = some s ∧
      s.log = some [str "{}\n"] ∧
      (s.log = some (received () s.live) ↔ ∀ line ∈ heard [str "{}\n"], IsAscii line) := by
  obtain ⟨config, order, w, es, server, hserver, hmem, -⟩ := exists_subscribed
  have hline : str "{}\n" ≠ [] := by decide
  obtain ⟨s, hrun, hpc, hunread, hcalls, hlog, -⟩ := run_oneLine config order hline server
  exact ⟨config, order, server, s, hmem, hrun, hlog,
    log_eq_live_iff hserver hmem hrun (not_mem_oneLine ()) hpc hunread hcalls⟩

/-- The line `é`, in Latin-1, reaches the log and no client. -/
theorem log_ne_live_e_acute :
    ¬ ∀ (config : Credentials) (order : KeyOrder) (w : World Unit) (es : List (Event Unit))
      (server : Server Unit) (lines : List Str) (ts : List (Task Unit)) (s : Daemon Unit),
      run (Server.step config order) (.init w) es = some server → () ∈ server.world.subscribers →
      run (Daemon.step config order) (.start lines server) ts = some s →
      (∀ reason, .reactor (.close () reason) ∉ ts) →
      s.data.pc = .readline → s.data.unread = [] → s.calls = [] →
      s.log = some (received () s.live) := by
  intro h
  obtain ⟨config, order, w, es, server, hserver, hmem, -⟩ := exists_subscribed
  have hline : ([0xE9, 0x0A] : Str) ≠ [] := List.cons_ne_nil _ _
  obtain ⟨s, hrun, hpc, hunread, hcalls, hlog, hlive⟩ := run_oneLine config order hline server
  have heq := h config order w es server _ _ s hserver hmem hrun (not_mem_oneLine ()) hpc hunread hcalls
  rw [if_neg (by decide)] at hlive
  rw [hlog, hlive] at heq
  exact absurd (Option.some.inj heq) (List.cons_ne_nil _ _)

end LibreXC.Linuino
