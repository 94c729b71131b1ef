import LibreXC.System.Guard

/-! # Answers in the log and at the clients

What a client asks for comes back to everyone: the answer of the sketch is a line, the line is logged,
and it is broadcast. The runs begin where `main` is through: the logger and the socket are registered,
the log file is open, and no line has been read yet.

* **`logged_of_careful`** — the text number `n` that `Logger.write_line` is called with is the answer to
  the command number `n`. What becomes of the file is another matter (`LogFile`).
* **`live_of_careful`** — what `Websocket.update` has broadcast to a subscribed client are the answers
  to consecutive commands, as long as the client stays. The results and errors that `onMessage`
  broadcasts come in between. -/

namespace LibreXC

open Arduino Ascii Linuino Python2 SerialLink TransitionSystem

variable {Client : Type} [DecidableEq Client] {config : Credentials} {order : KeyOrder}
  {elm : ℕ → ELM} {s s' : System Client} {t : Turn Client}

/-! ## What the log and the clients were told -/

/-- **The log holds what the logger was told**, and the scheduled calls are among what the socket
thread was told. -/
structure Linuino.Daemon.Told (d : Daemon Client) : Prop where
  log : d.log = some (received .logger d.data.updates)
  calls : ∃ past, received .socket d.data.updates = past ++ d.calls

/-- **Every step keeps it.** -/
theorem Linuino.Daemon.Told.step {d d' : Daemon Client} {task : Linuino.Task Client} (ht : d.Told)
    (h : d.step config order task = some d') : d'.Told := by
  obtain ⟨hlog, past, hpast⟩ := ht
  cases task with
  | data =>
      obtain ⟨logged, scheduled, hlogger, hlog', hsocket, hcalls, -, -⟩ := data_told h
      refine ⟨?_, past, ?_⟩
      · rw [hlog', hlog, hlogger]
        rfl
      · rw [hsocket, hpast, hcalls, List.append_assoc]
  | call =>
      rw [Daemon.step] at h
      split at h
      · cases h
      · next line calls hline =>
          obtain ⟨server, -, rfl⟩ := Option.map_eq_some_iff.mp h
          refine ⟨hlog, past ++ [line], ?_⟩
          rw [hpast, hline, List.append_assoc, List.singleton_append]
  | reactor e =>
      rw [Daemon.step] at h
      split at h
      · cases h
      · obtain ⟨server, -, rfl⟩ := Option.map_eq_some_iff.mp h
        exact ⟨hlog, past, hpast⟩

theorem Linuino.Daemon.told_run {lines : List Str} {server : Server Client}
    {tasks : List (Linuino.Task Client)} {d : Daemon Client}
    (h : run (Daemon.step config order) (.start lines server) tasks = some d) : d.Told :=
  run_invariant Daemon.Told (fun _ _ _ ht => ht.step) ⟨rfl, [], rfl⟩ h

/-- **What was broadcast to a client** since `old` was all that had been broadcast and `past` all that
had been told: the ASCII lines among those whose broadcast has run. -/
structure Linuino.Daemon.Hears (client : Client) (old : List (Client × Str)) (past : List Str)
    (d : Daemon Client) : Prop where
  mem : client ∈ d.server.world.subscribers
  nodup : d.server.world.subscribers.Nodup
  live : ∃ new ran, d.live = old ++ new ∧
    received .socket d.data.updates = past ++ ran ++ d.calls ∧
    received client new = ran.filter (IsAscii ·)

/-- **Every step keeps it**, except the client's own close. -/
theorem Linuino.Daemon.Hears.step {d d' : Daemon Client} {task : Linuino.Task Client} {client : Client}
    {old : List (Client × Str)} {past : List Str} (hh : d.Hears client old past)
    (hne : ∀ reason, task ≠ .reactor (.close client reason)) (h : d.step config order task = some d') :
    d'.Hears client old past := by
  obtain ⟨hmem, hnodup, new, ran, hnew, hran, hheard⟩ := hh
  cases task with
  | data =>
      obtain ⟨-, scheduled, -, -, hsocket, hcalls, hlive, hserver⟩ := data_told h
      refine ⟨hserver ▸ hmem, hserver ▸ hnodup, new, ran, hlive.trans hnew, ?_, hheard⟩
      rw [hsocket, hran, hcalls, List.append_assoc]
  | call =>
      rw [Daemon.step] at h
      split at h
      · cases h
      · next line calls hline =>
          obtain ⟨server, hserver, rfl⟩ := Option.map_eq_some_iff.mp h
          have hupdate : ∀ reason, Event.update line ≠ .close client reason := by
            intro reason heq
            cases heq
          have hsent : server.world.sent.drop d.server.world.sent.length
              = if IsAscii line then d.server.world.subscribers.map (·, line) else [] := by
            obtain rfl := Option.some.inj hserver
            dsimp only
            rw [sent_broadcast, List.drop_left]
          refine ⟨Server.mem_step hserver hmem hupdate, Server.nodup_step hserver hnodup,
            new ++ server.world.sent.drop d.server.world.sent.length, ran ++ [line], ?_, ?_, ?_⟩
          · rw [hnew, List.append_assoc]
          · rw [hran, hline]
            simp only [List.append_assoc, List.singleton_append]
          · rw [received_append, hheard, hsent, List.filter_append]
            congr 1
            by_cases hascii : IsAscii line
            · rw [if_pos hascii, received_round hnodup, if_pos hmem]
              simp [hascii]
            · rw [if_neg hascii]
              simp [hascii, received]
  | reactor e =>
      have hclose : ∀ reason, e ≠ .close client reason := fun reason heq => hne reason (heq ▸ rfl)
      rw [Daemon.step] at h
      split at h
      · cases h
      · obtain ⟨server, hserver, rfl⟩ := Option.map_eq_some_iff.mp h
        exact ⟨Server.mem_step hserver hmem hclose, Server.nodup_step hserver hnodup,
          new, ran, hnew, hran, hheard⟩

/-! ## Answers in the log and at the clients -/

/-- Nothing goes on but the reactor. -/
def System.AtRest (config : Credentials) (order : KeyOrder) (elm : ℕ → ELM) (s : System Client) : Prop :=
  s.busy = none ∧ ∀ t, (∀ client payload, t ≠ .request client payload) →
    (∀ task, t ≠ .reactor task) → s.step config order elm t = none

/-- **The answers are written to the log**, in the order of the commands. -/
structure Logged (config : Credentials) (order : KeyOrder) (elm : ℕ → ELM) (s : System Client) : Prop where
  /-- The text number `n` that was written answers the command number `n`. -/
  in_order : ∃ lines, s.daemon.log = some lines ∧ ∀ n line, lines[n]? = some line →
    ∃ cmd, s.link.issued[n]? = some cmd ∧ Answers (elm n) cmd line
  /-- At rest every answer has been written, as far as the queue has places. -/
  complete : s.AtRest config order elm →
    ∃ lines, s.daemon.log = some lines ∧ lines.length = min s.link.issued.length Data.maxsize

/-- Lines are not empty, so `run` hands on all of them. -/
theorem heard_delivered {d : Device} (h : d.Framed) : heard d.delivered = d.delivered := by
  refine List.filter_eq_self.mpr fun line hline => ?_
  obtain ⟨body, rfl, -⟩ := h.lines line hline
  simp

/-- The daemon of a run from the start has been told a beginning of the lines. -/
theorem System.told_run {server : Server Client} {ts : List (Turn Client)}
    (h : run (System.step config order elm) (.start server) ts = some s) :
    s.daemon.Told ∧ s.daemon.Working s.link.device.delivered := by
  obtain ⟨tasks, hrun⟩ := exists_daemon_run h []
  rw [List.append_nil, Daemon.hand_nil] at hrun
  exact ⟨Daemon.told_run hrun, Daemon.working_run hrun⟩

/-- Careful turns lose nothing. -/
theorem System.intact_run {server : Server Client} {ts : List (Turn Client)}
    (hcareful : Along (System.step config order elm) CarefulTurn (.start server) ts)
    (h : run (System.step config order elm) (.start server) ts = some s) : s.feed.Intact elm :=
  run_invariant_along (fun s : System Client => s.feed.Intact elm)
    (fun _ _ _ hi hc hs => intact_step hi hc hs)
    (show (start server).feed.Intact elm from Feed.intact_start elm registered) hcareful h

/-- Where the system is at rest, its link and its Data thread are. -/
theorem System.Serving.feed_atRest {w : World Client} {ts : List (Turn Client)}
    (hs : s.Serving w elm ts) (hrest : s.AtRest config order elm) : s.feed.AtRest elm := by
  obtain ⟨hbusy, hrest⟩ := hrest
  have hopened : s.link.opened = none := by rw [hs.opened, hbusy, Option.bind_none]
  rintro m ⟨hrequest, hregister⟩
  cases m with
  | link a =>
      rw [Feed.step]
      split
      · next hwaiting =>
          refine Option.map_eq_none_iff.mpr ?_
          cases a with
          | request cmd => exact absurd rfl (hrequest cmd)
          | write =>
              show s.link.step elm .write = none
              rw [Exchange.step, hopened]
          | receive => exact Option.map_eq_none_iff.mp (hrest .receive (by simp) (by simp))
          | transmit => exact Option.map_eq_none_iff.mp (hrest .transmit (by simp) (by simp))
          | select =>
              have hselect := hrest .select (by simp) (by simp)
              have hwaiting : s.daemon.data.Waiting := hwaiting rfl
              rw [System.step, if_pos hwaiting] at hselect
              exact Option.map_eq_none_iff.mp hselect
          | read =>
              have hread := hrest .read (by simp) (by simp)
              have hwaiting : s.daemon.data.Waiting := hwaiting rfl
              rw [System.step, if_pos hwaiting] at hread
              exact Option.map_eq_none_iff.mp hread
      · rfl
  | data raises =>
      -- where the thread blocks does not depend on the observers
      have hdata := Daemon.step_data_eq_none.mp
        (Option.map_eq_none_iff.mp (hrest .data (by simp) (by simp)))
      exact Option.map_eq_none_iff.mpr (Data.step_eq_none.mpr (Data.step_eq_none.mp hdata))
  | register observer => exact absurd rfl (hregister observer)

/-- **The answers are logged in order**, in every careful run of the system. -/
theorem logged_of_careful (config : Credentials) (order : KeyOrder) (elm : ℕ → ELM)
    (helm : ∀ n, SingleLine (elm n)) (w : World Client) {ts : List (Turn Client)}
    (hcareful : Along (System.step config order elm) CarefulTurn (.start (.init w)) ts)
    {s : System Client} (h : run (System.step config order elm) (.start (.init w)) ts = some s) :
    Logged config order elm s := by
  have hi := System.intact_run hcareful h
  obtain ⟨htold, hworking⟩ := System.told_run h
  have hlink : s.link.Intact elm := hi.link
  have hheard := heard_delivered hlink.framed
  constructor
  · have hprefix := hworking.2.isPrefix_received nodup_registered (mem_registered .logger)
    rw [hheard] at hprefix
    exact ⟨_, htold.log, fun n line hline => hlink.answers helm (getElem?_of_isPrefix hprefix hline)⟩
  · intro hrest
    have hs : s.Serving w elm ts := run_history (System.Serving w elm)
      (fun _ _ _ _ hs hstep => hs.step hstep) (System.serving_start w elm) h
    obtain ⟨-, hlength, hqueue⟩ : s.link.opened = none ∧
        s.link.device.delivered.length = min s.link.issued.length (Data.maxsize + 1) ∧
        s.daemon.data.queue = s.link.device.delivered.take Data.maxsize :=
      hi.resting helm (hs.feed_atRest hrest)
    -- between two rounds the logger has been called with every line in the queue
    have hdata := Daemon.step_data_eq_none.mp
      (Option.map_eq_none_iff.mp (hrest.2 .data (by simp) (by simp)))
    have hall := hworking.2.stage.received_eq nodup_registered (mem_registered .logger)
      (Data.pc_of_step_eq_none hdata)
    refine ⟨_, htold.log, ?_⟩
    rw [hall, hqueue, List.length_take, hlength]
    omega

/-- Its answer is in the log. -/
theorem logged_reset : ∃ s, runReset (login :: resetTurns) = some s ∧
    s.daemon.log = some [resetAnswer] ∧
    Logged ⟨str "u", str "p"⟩ ⟨valid_cmds, .refl _⟩ (fun _ => idleCar) s := by
  obtain ⟨s, hs, heq⟩ := Option.map_eq_some_iff.mp runReset_eq
  refine ⟨s, hs, congrArg (fun r => r.2.1) heq, ?_⟩
  exact logged_of_careful _ _ _ (fun _ => singleLine_of_lawful lawful_idleCar) _ along_resetTurns hs

/-- **Subscribed clients hear the answers in order.** From the moment a client is subscribed until it
closes, `Websocket.update` has broadcast to it the answers to consecutive commands: none is missing, none
comes twice. -/
theorem live_of_careful (config : Credentials) (order : KeyOrder) (elm : ℕ → ELM)
    (helm : ∀ n, SingleLine (elm n)) (hascii : ∀ n q, IsAscii ((elm n).answer q)) (w : World Client)
    {ts ts' : List (Turn Client)}
    (hcareful : Along (System.step config order elm) CarefulTurn (.start (.init w)) (ts ++ ts'))
    {s s' : System Client}
    (h : run (System.step config order elm) (.start (.init w)) ts = some s)
    (h' : run (System.step config order elm) s ts' = some s')
    {client : Client} (hclient : client ∈ s.daemon.server.world.subscribers)
    (hstays : ∀ reason, .reactor (.reactor (.close client reason)) ∉ ts') :
    ∃ new k, s'.daemon.live = s.daemon.live ++ new ∧
      ∀ n line, (received client new)[n]? = some line →
        ∃ cmd, s'.link.issued[k + n]? = some cmd ∧ Answers (elm (k + n)) cmd line := by
  have hrun := run_trans h h'
  have hi : s'.link.Intact elm := (System.intact_run hcareful hrun).link
  obtain ⟨⟨-, past, hpast⟩, -⟩ := System.told_run h
  obtain ⟨-, hworking⟩ := System.told_run hrun
  have hnodup : s.daemon.server.world.subscribers.Nodup := by
    refine run_invariant (fun s : System Client => s.daemon.server.world.subscribers.Nodup)
      (fun s t s' hs hstep => ?_) List.nodup_nil h
    rcases System.daemon_step hstep with ⟨lines, hdaemon⟩ | ⟨task, htask, -⟩
    · rw [hdaemon]
      exact hs
    · rcases Daemon.server_step htask with ⟨-, hserver⟩ | ⟨e, hserver, -⟩
      · rw [hserver]
        exact hs
      · exact Server.nodup_step hserver hs
  have hhears : s'.daemon.Hears client s.daemon.live past := by
    have hnever : Along (System.step config order elm)
        (fun _ t => ∀ reason, t ≠ .reactor (.reactor (.close client reason))) s ts' := by
      refine along_of_forall_mem fun t ht _ reason heq => hstays reason ?_
      rwa [← heq]
    refine run_invariant_along (fun s' : System Client => s'.daemon.Hears client s.daemon.live past)
      (fun s₁ t s₂ hs hne hstep => ?_) ⟨hclient, hnodup, [], [], ?_, ?_, rfl⟩ hnever h'
    · rcases System.daemon_step hstep with ⟨lines, hdaemon⟩ | ⟨task, htask, hclose⟩
      · rw [hdaemon]
        exact ⟨hs.mem, hs.nodup, hs.live⟩
      · refine hs.step (fun reason heq => hne reason ?_) htask
        rw [hclose client reason heq, heq]
    · rw [List.append_nil]
    · rw [List.append_nil]
      exact hpast
  obtain ⟨-, -, new, ran, hnew, hran, hheard⟩ := hhears
  -- what has been broadcast is what was read, from the place `past` ends at
  have hprefix : past ++ ran <+: s'.link.device.delivered := by
    have hreceived := hworking.2.isPrefix_received nodup_registered (mem_registered .socket)
    rw [heard_delivered hi.framed, hran] at hreceived
    exact (List.prefix_append _ _).trans hreceived
  have hanswer : ∀ n line, ran[n]? = some line →
      ∃ cmd, s'.link.issued[past.length + n]? = some cmd ∧ Answers (elm (past.length + n)) cmd line := by
    intro n line hline
    refine hi.answers helm (getElem?_of_isPrefix hprefix ?_)
    rw [List.getElem?_append_right (Nat.le_add_right _ _), Nat.add_sub_cancel_left, hline]
  have hfilter : ran.filter (IsAscii ·) = ran := by
    refine List.filter_eq_self.mpr fun line hline => decide_eq_true ?_
    obtain ⟨n, hn⟩ := List.getElem?_of_mem hline
    obtain ⟨cmd, -, handler, -, rfl⟩ := hanswer n line hn
    exact isAscii_dispatch (hascii _) handler
  refine ⟨new, past.length, hnew, fun n line hline => hanswer n line ?_⟩
  rwa [hheard, hfilter] at hline

/-- And it was sent to the client. -/
theorem live_reset : ∃ (s s' : System Unit) (new : List (Unit × Str)) (k : ℕ),
    runReset [login] = some s ∧ runReset (login :: resetTurns) = some s' ∧
    s'.daemon.live = s.daemon.live ++ new ∧ received () new = [resetAnswer] ∧
    ∀ n line, (received () new)[n]? = some line →
      ∃ cmd, s'.link.issued[k + n]? = some cmd ∧ Answers idleCar cmd line := by
  obtain ⟨s', hs', heq⟩ := Option.map_eq_some_iff.mp runReset_eq
  obtain ⟨s, hstep, hrest⟩ := run_cons_eq_some.mp hs'
  have hs : runReset [login] = some s := run_cons_eq_some.mpr ⟨s, hstep, rfl⟩
  have hlogin : (runReset [login]).map (fun s => (s.daemon.server.world.subscribers, s.daemon.live))
      = some ([()], []) := by decide +kernel
  rw [hs, Option.map_some, Option.some.injEq, Prod.mk.injEq] at hlogin
  have hascii : ∀ q, IsAscii (idleCar.answer q) := by
    intro q
    cases q with
    | get_pid_data pid => exact (by decide : IsAscii (str "800"))
    | _ => decide
  have hmem : () ∈ s.daemon.server.world.subscribers := by
    rw [hlogin.1]
    exact List.mem_singleton_self ()
  obtain ⟨new, k, hnew, hlive⟩ := live_of_careful _ _ _ (fun _ => singleLine_of_lawful lawful_idleCar)
    (fun _ => hascii) _ along_resetTurns hs hrest hmem (by simp [resetTurns])
  refine ⟨s, s', new, k, hs, hs', hnew, ?_, hlive⟩
  have hall := congrArg (fun r => r.2.2) heq
  dsimp only at hall
  rw [hlogin.2, List.nil_append] at hnew
  rw [← hnew, hall]
  rfl

end LibreXC
