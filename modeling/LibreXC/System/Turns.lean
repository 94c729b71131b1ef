import LibreXC.Linuino.LiveStream
import LibreXC.SerialLink.Feed

/-! # The whole system

The sketch, the serial link, the Data thread and the reactor with all its clients, in any order of
steps. The reactor executes one message at a time: between opening the device and writing to it, it
does nothing else, while the Data thread and the sketch go on. The Data thread reads the device only
while it waits in `readline`.

Two projections carry over what is known of the parts: the link and the Data thread run as a `Feed`
(`System.feed_step`), and the daemon runs as a `Daemon` that was given the lines it is going to read
in advance (`System.exists_daemon_run`). -/

namespace LibreXC

open Arduino Ascii Linuino Python2 SerialLink TransitionSystem

/-- **The state of the whole system.** -/
structure System (Client : Type) where
  link : Exchange
  daemon : Daemon Client
  /-- The message for which the reactor has opened the device. -/
  busy : Option (Client × Str)

/-- **Who takes the next step.** -/
inductive Turn (Client : Type)
  /-- The sketch reads a byte. -/
  | receive
  /-- A printed byte arrives. -/
  | transmit
  /-- The Data thread in `readline`: `select` returns. -/
  | select
  /-- The Data thread in `readline`: `os.read`. -/
  | read
  /-- The Data thread elsewhere. -/
  | data
  /-- The reactor: `onMessage` of an external command, up to the open device. -/
  | request (client : Client) (payload : Str)
  /-- The reactor: the rest of that `onMessage`. -/
  | write
  /-- The reactor: anything else. -/
  | reactor (t : Linuino.Task Client)

/-- The command that a text message hands to `request_cmd`. -/
def asksFor (payload : Str) : Option Unicode :=
  match decodeUtf8 payload with
  | .ok cmd => if (external cmd).isSome then some cmd else none
  | .error _ => none

variable {Client : Type}

/-- The task is a message that goes to `request_cmd`. -/
def Linuino.Task.asks : Linuino.Task Client → Bool
  | .reactor (.message _ payload false) => (asksFor payload).isSome
  | _ => false

/-- `readline` has returned these lines. -/
def Linuino.Daemon.hand (s : Daemon Client) (lines : List Str) : Daemon Client :=
  { s with data := { s.data with unread := s.data.unread ++ lines } }

namespace System

/-- Nothing has happened on the link, and the observers are registered. -/
def start (server : Server Client) : System Client := ⟨.start, .start [] server, none⟩

variable [DecidableEq Client]

/-- **One step of the system**, where `elm n` is what the library answers to the handler number `n`. -/
def step (config : Credentials) (order : KeyOrder) (elm : ℕ → ELM) (s : System Client) :
    Turn Client → Option (System Client)
  | .receive => (s.link.step elm .receive).map fun link => { s with link := link }
  | .transmit => (s.link.step elm .transmit).map fun link => { s with link := link }
  | .select =>
      if s.daemon.data.Waiting then
        (s.link.step elm .select).map fun link => { s with link := link }
      else none
  | .read =>
      if s.daemon.data.Waiting then
        (s.link.step elm .read).map fun link =>
          { s with
            link := link
            daemon := s.daemon.hand (link.device.delivered.drop s.link.device.delivered.length) }
      else none
  | .data => (s.daemon.step config order .data).map fun daemon => { s with daemon := daemon }
  | .request client payload =>
      if s.busy = none ∧ s.daemon.server.phase client = .opened ∧
          s.daemon.server.world.ttyOpens = true then
        (asksFor payload).bind fun cmd =>
          (s.link.step elm (.request cmd)).map fun link =>
            { s with link := link, busy := some (client, payload) }
      else none
  | .write =>
      s.busy.bind fun (client, payload) =>
        (s.link.step elm .write).bind fun link =>
          (s.daemon.step config order (.reactor (.message client payload false))).map fun daemon =>
            ⟨link, daemon, none⟩
  | .reactor t =>
      if s.busy = none ∧ t.isData = false ∧
          ¬ (t.asks = true ∧ s.daemon.server.world.ttyOpens = true) then
        (s.daemon.step config order t).map fun daemon => { s with daemon := daemon }
      else none

end System

/-! ## One step -/

variable [DecidableEq Client] {config : Credentials} {order : KeyOrder} {elm : ℕ → ELM}
  {s s' : System Client} {t : Turn Client}

/-- **What a step of the system does** to its parts. -/
theorem System.step_cases (h : s.step config order elm t = some s') :
    (∃ a, (t = .receive ∧ a = .receive ∨ t = .transmit ∧ a = .transmit ∨ t = .select ∧ a = .select) ∧
        (a.polls = true → s.daemon.data.Waiting) ∧ s.link.step elm a = some s'.link ∧
        s'.daemon = s.daemon ∧ s'.busy = s.busy) ∨
      (t = .read ∧ s.daemon.data.Waiting ∧ s.link.step elm .read = some s'.link ∧ s'.busy = s.busy ∧
        ∃ new, s'.link.device.delivered = s.link.device.delivered ++ new ∧
          s'.daemon = s.daemon.hand new) ∨
      (∃ task, (t = .data ∧ task = .data ∨ t = .reactor task ∧ s.busy = none ∧ task.isData = false ∧
          ¬ (task.asks = true ∧ s.daemon.server.world.ttyOpens = true)) ∧
        s.daemon.step config order task = some s'.daemon ∧ s'.link = s.link ∧ s'.busy = s.busy) ∨
      (∃ client payload cmd, t = .request client payload ∧ s.busy = none ∧
        s.daemon.server.phase client = .opened ∧ s.daemon.server.world.ttyOpens = true ∧
        asksFor payload = some cmd ∧ s.link.step elm (.request cmd) = some s'.link ∧
        s'.daemon = s.daemon ∧ s'.busy = some (client, payload)) ∨
      ∃ client payload, t = .write ∧ s.busy = some (client, payload) ∧
        s.link.step elm .write = some s'.link ∧
        s.daemon.step config order (.reactor (.message client payload false)) = some s'.daemon ∧
        s'.busy = none := by
  cases t with
  | receive =>
      obtain ⟨link, hlink, rfl⟩ := Option.map_eq_some_iff.mp h
      exact .inl ⟨.receive, .inl ⟨rfl, rfl⟩, fun h => absurd h (by decide), hlink, rfl, rfl⟩
  | transmit =>
      obtain ⟨link, hlink, rfl⟩ := Option.map_eq_some_iff.mp h
      exact .inl ⟨.transmit, .inr (.inl ⟨rfl, rfl⟩), fun h => absurd h (by decide), hlink, rfl, rfl⟩
  | select =>
      rw [step] at h
      split at h
      · next hwaiting =>
          obtain ⟨link, hlink, rfl⟩ := Option.map_eq_some_iff.mp h
          exact .inl ⟨.select, .inr (.inr ⟨rfl, rfl⟩), fun _ => hwaiting, hlink, rfl, rfl⟩
      · cases h
  | read =>
      rw [step] at h
      split at h
      · next hwaiting =>
          obtain ⟨link, hlink, rfl⟩ := Option.map_eq_some_iff.mp h
          obtain ⟨new, hnew, -⟩ := Exchange.delivered_step hlink
          refine .inr (.inl ⟨rfl, hwaiting, hlink, rfl, new, hnew, ?_⟩)
          dsimp only
          rw [hnew, List.drop_left]
      · cases h
  | data =>
      obtain ⟨daemon, hdaemon, rfl⟩ := Option.map_eq_some_iff.mp h
      exact .inr (.inr (.inl ⟨.data, .inl ⟨rfl, rfl⟩, hdaemon, rfl, rfl⟩))
  | request client payload =>
      rw [step] at h
      split at h
      · next hcond =>
          obtain ⟨cmd, hcmd, h⟩ := Option.bind_eq_some_iff.mp h
          obtain ⟨link, hlink, rfl⟩ := Option.map_eq_some_iff.mp h
          exact .inr (.inr (.inr (.inl
            ⟨client, payload, cmd, rfl, hcond.1, hcond.2.1, hcond.2.2, hcmd, hlink, rfl, rfl⟩)))
      · cases h
  | write =>
      obtain ⟨⟨client, payload⟩, hbusy, h⟩ := Option.bind_eq_some_iff.mp h
      obtain ⟨link, hlink, h⟩ := Option.bind_eq_some_iff.mp h
      obtain ⟨daemon, hdaemon, rfl⟩ := Option.map_eq_some_iff.mp h
      exact .inr (.inr (.inr (.inr ⟨client, payload, rfl, hbusy, hlink, hdaemon, rfl⟩)))
  | reactor task =>
      rw [step] at h
      split at h
      · next hcond =>
          obtain ⟨daemon, hdaemon, rfl⟩ := Option.map_eq_some_iff.mp h
          exact .inr (.inr (.inl ⟨task, .inr ⟨rfl, hcond.1, hcond.2.1, hcond.2.2⟩, hdaemon, rfl, rfl⟩))
      · cases h

/-! ## The link and the Data thread -/

/-- The serial link and the thread that reads it. -/
def System.feed (s : System Client) : Feed Observer := ⟨s.link, s.daemon.data⟩

/-- **The link and the Data thread run as a `Feed`**: a step of the system is at most one move there,
and a request only for a message that asks for it. -/
theorem System.feed_step (h : s.step config order elm t = some s') :
    s'.feed = s.feed ∨ ∃ m, s.feed.step elm m = some s'.feed ∧ ∀ cmd, m = .link (.request cmd) →
      ∃ client payload, t = .request client payload ∧ asksFor payload = some cmd := by
  -- an action other than reading hands on nothing
  have hquiet : ∀ a, a ≠ .read → (a.polls = true → s.daemon.data.Waiting) →
      s.link.step elm a = some s'.link → s'.daemon.data = s.daemon.data →
        s.feed.step elm (.link a) = some s'.feed := by
    intro a ha hwaiting hlink hdata
    have hnew := (Exchange.delivered_eq hlink ha).trans (List.append_nil _).symm
    rw [Feed.step_link (s := s.feed) hwaiting hlink hnew, Data.hand_nil]
    exact congrArg (fun data => some (Feed.mk s'.link data)) hdata.symm
  rcases step_cases h with ⟨a, ha, hwaiting, hlink, hdaemon, -⟩ | ⟨-, hwaiting, hlink, -, new, hnew, hdaemon⟩
    | ⟨task, -, htask, hlink, -⟩ | ⟨client, payload, cmd, ht, -, -, -, hcmd, hlink, hdaemon, -⟩
    | ⟨client, payload, -, -, hlink, htask, -⟩
  · refine .inr ⟨.link a, hquiet a ?_ hwaiting hlink (by rw [hdaemon]), fun cmd heq => ?_⟩ <;>
      rcases ha with ⟨-, rfl⟩ | ⟨-, rfl⟩ | ⟨-, rfl⟩
    · simp
    · simp
    · simp
    all_goals cases heq
  · refine .inr ⟨.link .read, ?_, by simp⟩
    rw [Feed.step_link (s := s.feed) (fun _ => hwaiting) hlink hnew]
    exact congrArg (fun daemon => some (Feed.mk s'.link daemon.data)) hdaemon.symm
  · rcases Daemon.data_step htask with ⟨-, hdata, -⟩ | ⟨-, hdata, -⟩
    · refine .inr ⟨.data s.daemon.raises, ?_, by simp⟩
      rw [Feed.step, feed, hdata, Option.map_some, feed, hlink]
    · refine .inl ?_
      rw [feed, feed, hlink, hdata]
  · refine .inr ⟨.link (.request cmd), hquiet _ (by simp) (by simp [Action.polls]) hlink (by rw [hdaemon]),
      fun cmd' heq => ?_⟩
    obtain rfl := Action.request.inj (Move.link.inj heq)
    exact ⟨client, payload, ht, hcmd⟩
  · rcases Daemon.data_step htask with ⟨heq, -⟩ | ⟨-, hdata, -⟩
    · cases heq
    · exact .inr ⟨.link .write, hquiet _ (by simp) (by simp [Action.polls]) hlink hdata,
        by simp⟩

/-- **The condition on a step**: a message that goes to `request_cmd` finds the input queue empty, and
its integer is a byte. -/
def CarefulTurn (s : System Client) (t : Turn Client) : Prop :=
  ∀ client payload cmd, t = .request client payload → asksFor payload = some cmd →
    Careful s.link (.request cmd)

/-- Nothing is lost under careful turns. -/
theorem System.intact_step (hi : s.feed.Intact elm) (hcareful : CarefulTurn s t)
    (h : s.step config order elm t = some s') : s'.feed.Intact elm := by
  rcases feed_step h with heq | ⟨m, hm, hrequest⟩
  · rw [heq]
    exact hi
  · refine hi.step ?_ hm
    rintro a rfl cmd rfl
    obtain ⟨client, payload, rfl, hcmd⟩ := hrequest cmd rfl
    exact hcareful client payload cmd rfl hcmd cmd rfl

/-! ## The daemon -/

/-- Lines that are still to come do not change what the Data thread does. -/
theorem Linuino.Data.step_unread {ω : Type} {raises : ω → Str → Bool} {d d' : Data ω}
    (h : d.step raises = some d') (lines : List Str) :
    Data.step raises { d with unread := d.unread ++ lines }
      = some { d' with unread := d'.unread ++ lines } := by
  rcases Data.step_cases h with ⟨line, unread, hpc, hunread, rfl⟩ | ⟨line, hpc, hfree, rfl⟩
    | ⟨line, i, hpc, hobs, rfl⟩ | ⟨line, i, observer, hpc, hobs, rfl⟩
  · simp only [step, hpc, hunread, List.cons_append]
  · simp only [step, hpc, if_pos hfree]
  · simp only [step, hpc, hobs]
  · simp only [step, hpc, hobs]

omit [DecidableEq Client] in
theorem Linuino.Daemon.hand_nil (d : Daemon Client) : d.hand [] = d := by
  rw [hand, List.append_nil]

omit [DecidableEq Client] in
theorem Linuino.Daemon.hand_append (d : Daemon Client) (lines lines' : List Str) :
    (d.hand lines).hand lines' = d.hand (lines ++ lines') := by
  rw [hand, hand, hand, List.append_assoc]

omit [DecidableEq Client] in
theorem Linuino.Daemon.update_hand (d : Daemon Client) (call : Observer × Str) (lines : List Str) :
    (d.hand lines).update call = (d.update call).hand lines := by
  obtain ⟨observer, line⟩ := call
  cases observer <;> rfl

/-- **The daemon does the same with more lines to come.** -/
theorem Linuino.Daemon.step_hand {d d' : Daemon Client} {task : Linuino.Task Client}
    (h : d.step config order task = some d') (lines : List Str) :
    (d.hand lines).step config order task = some (d'.hand lines) := by
  cases task with
  | data =>
      obtain ⟨data, hdata, rfl⟩ := Option.map_eq_some_iff.mp h
      have hstep : (d.hand lines).data.step (d.hand lines).raises
          = some { data with unread := data.unread ++ lines } := Data.step_unread hdata lines
      have hcalling : (d.hand lines).data.calling = d.data.calling := rfl
      rw [Daemon.step, hstep, Option.map_some, hcalling]
      cases d.data.calling with
      | none => rfl
      | some call => exact congrArg some (update_hand { d with data := data } call lines)
  | call =>
      rw [Daemon.step] at h
      split at h
      · cases h
      · next line calls hcalls =>
          obtain ⟨server, hserver, rfl⟩ := Option.map_eq_some_iff.mp h
          simp only [Daemon.step, hand, hcalls, hserver, Option.map_some]
  | reactor e =>
      rw [Daemon.step] at h
      split at h
      · cases h
      · next hupdate =>
          obtain ⟨server, hserver, rfl⟩ := Option.map_eq_some_iff.mp h
          simp only [Daemon.step, hand, if_neg hupdate, hserver, Option.map_some]

/-- **The daemon of the system is a `Daemon`** that knows the lines it is going to read, and perhaps
more. -/
theorem System.exists_daemon_run {server : Server Client} {ts : List (Turn Client)}
    (h : run (System.step config order elm) (.start server) ts = some s) (future : List Str) :
    ∃ tasks, run (Daemon.step config order) (.start (s.link.device.delivered ++ future) server) tasks
      = some (s.daemon.hand future) := by
  refine run_invariant (fun s : System Client => ∀ future, ∃ tasks,
    run (Daemon.step config order) (.start (s.link.device.delivered ++ future) server) tasks
      = some (s.daemon.hand future)) (fun s t s' hs hstep future => ?_)
    (fun future => ⟨[], rfl⟩) h future
  -- a step of the daemon extends the run, and lines that are read were known
  have hextend : ∀ task, s.daemon.step config order task = some s'.daemon →
      s'.link.device.delivered = s.link.device.delivered → ∃ tasks,
        run (Daemon.step config order) (.start (s'.link.device.delivered ++ future) server) tasks
          = some (s'.daemon.hand future) := by
    intro task htask hdelivered
    obtain ⟨tasks, hrun⟩ := hs future
    refine ⟨tasks ++ [task], ?_⟩
    rw [hdelivered]
    exact run_concat_eq_some.mpr ⟨_, hrun, Daemon.step_hand htask future⟩
  rcases step_cases hstep with ⟨a, ha, -, hlink, hdaemon, -⟩ | ⟨-, -, -, -, new, hnew, hdaemon⟩
    | ⟨task, -, htask, hlink, -⟩ | ⟨client, payload, cmd, -, -, -, -, -, hlink, hdaemon, -⟩
    | ⟨client, payload, -, -, hlink, htask, -⟩
  · have hne : a ≠ .read := by rcases ha with ⟨-, rfl⟩ | ⟨-, rfl⟩ | ⟨-, rfl⟩ <;> simp
    rw [Exchange.delivered_eq hlink hne, hdaemon]
    exact hs future
  · rw [hnew, hdaemon, List.append_assoc, Daemon.hand_append]
    exact hs (new ++ future)
  · exact hextend task htask (by rw [hlink])
  · rw [Exchange.delivered_eq hlink (by simp), hdaemon]
    exact hs future
  · exact hextend _ htask (Exchange.delivered_eq hlink (by simp))

/-- **The daemon takes at most one task**, or gets the lines that were read. -/
theorem System.daemon_step (h : s.step config order elm t = some s') :
    (∃ lines, s'.daemon = s.daemon.hand lines) ∨ ∃ task, s.daemon.step config order task = some s'.daemon ∧
      ∀ client reason, task = .reactor (.close client reason) → t = .reactor task := by
  rcases step_cases h with ⟨a, -, -, -, hdaemon, -⟩ | ⟨-, -, -, -, new, -, hdaemon⟩
    | ⟨task, ht, htask, -, -⟩
    | ⟨client, payload, cmd, -, -, -, -, -, -, hdaemon, -⟩ | ⟨client, payload, -, -, -, htask, -⟩
  · exact .inl ⟨[], hdaemon.trans s.daemon.hand_nil.symm⟩
  · exact .inl ⟨new, hdaemon⟩
  · refine .inr ⟨task, htask, fun client reason heq => ?_⟩
    rcases ht with ⟨-, rfl⟩ | ⟨ht, -⟩
    · cases heq
    · exact ht
  · exact .inl ⟨[], hdaemon.trans s.daemon.hand_nil.symm⟩
  · exact .inr ⟨_, htask, fun c reason heq => (nomatch heq)⟩

/-- **What a step of the Data thread tells**: the logger's lines go into the log, the socket's lines
are scheduled. -/
theorem Linuino.Daemon.data_told {d d' : Daemon Client} (h : d.step config order .data = some d') :
    ∃ logged scheduled,
      received .logger d'.data.updates = received .logger d.data.updates ++ logged ∧
        d'.log = d.log.map (· ++ logged) ∧
        received .socket d'.data.updates = received .socket d.data.updates ++ scheduled ∧
        d'.calls = d.calls ++ scheduled ∧ d'.live = d.live ∧ d'.server = d.server := by
  obtain ⟨data, hdata, rfl⟩ := Option.map_eq_some_iff.mp h
  have hupdates := Data.updates_step hdata
  cases hcall : d.data.calling with
  | none =>
      rw [hcall, Option.toList_none, List.append_nil] at hupdates
      refine ⟨[], [], ?_, ?_, ?_, ?_, rfl, rfl⟩
      · rw [List.append_nil, hupdates]
      · simp
      · rw [List.append_nil, hupdates]
      · rw [List.append_nil]
  | some call =>
      obtain ⟨observer, line⟩ := call
      rw [hcall, Option.toList_some] at hupdates
      cases observer with
      | logger =>
          refine ⟨[line], [], ?_, rfl, ?_, ?_, rfl, rfl⟩
          · dsimp only [Daemon.update]
            rw [hupdates, received_append]
            rfl
          · dsimp only [Daemon.update]
            rw [hupdates, received_append]
            rfl
          · rw [List.append_nil]
            rfl
      | socket =>
          refine ⟨[], [line], ?_, ?_, ?_, rfl, rfl, rfl⟩
          · dsimp only [Daemon.update]
            rw [hupdates, received_append]
            rfl
          · simp [Daemon.update]
          · dsimp only [Daemon.update]
            rw [hupdates, received_append]
            rfl

/-! ## One command from end to end -/

/-- A client logs in. -/
def login : Turn Unit := .reactor (.reactor (.connect () (headersOf (unicode "u") (unicode "p"))))

/-- The request of a `reset`, and what follows until its answer has reached the log and the client. -/
def resetTurns : List (Turn Unit) :=
  .request () (str "reset") :: ([.write] ++ List.replicate 9 .receive ++ List.replicate 30 .transmit
    ++ (List.replicate 30 [.select, .read]).flatten ++ List.replicate 5 .data ++ [.reactor .call])

/-- An empty world with a serial device. -/
def freshWorld : World Unit := ⟨[], ⟨[], List.nodup_nil⟩, true, [], []⟩

/-- The daemon with the credentials `u` and `p`, on an idle car. -/
def runReset (ts : List (Turn Unit)) : Option (System Unit) :=
  run (System.step ⟨str "u", str "p"⟩ ⟨valid_cmds, .refl _⟩ fun _ => idleCar)
    (.start (.init freshWorld)) ts

/-- The answer of the idle car. -/
def resetAnswer : Str := str "\x7b\"cmd\":\"reset\",\"status\":\"ok\"\x7d\n"

theorem runReset_eq : (runReset (login :: resetTurns)).map
      (fun s => (s.link.handled, s.daemon.log, s.daemon.live))
    = some ([⟨1, 255⟩], some [resetAnswer], [((), resetAnswer)]) := by
  decide +kernel

/-- The run is careful: its one request is the first, and has no integer. -/
theorem along_resetTurns : Along (System.step ⟨str "u", str "p"⟩ ⟨valid_cmds, .refl _⟩ fun _ => idleCar)
    CarefulTurn (.start (.init freshWorld)) (login :: resetTurns) := by
  refine ⟨fun _ _ _ heq => (nomatch heq), fun s hs => ⟨?_, fun _ _ => ?_⟩⟩
  · rintro client payload cmd heq hcmd cmd' hcmd'
    obtain ⟨rfl, rfl⟩ := Turn.request.inj heq
    obtain rfl := Action.request.inj hcmd'
    have hreset : asksFor (str "reset") = some (unicode "reset") := by decide +kernel
    obtain rfl := Option.some.inj (hreset.symm.trans hcmd)
    -- the login leaves the link as it is
    have hlink : s.link = Exchange.start := by
      rcases System.step_cases hs with ⟨a, ⟨ht, -⟩ | ⟨ht, -⟩ | ⟨ht, -⟩, -⟩ | ⟨ht, -⟩
        | ⟨task, -, -, hlink, -⟩ | ⟨_, _, _, ht, -⟩ | ⟨_, _, ht, -⟩
      any_goals cases ht
      exact hlink
    have hnone : typedInteger (unicode "reset") = none := by decide +kernel
    refine ⟨fun _ => by rw [hlink]; rfl, ?_⟩
    rw [hnone]
    exact fun n hn => (nomatch hn)
  · refine along_of_forall_mem fun t ht _ client payload cmd heq => ?_
    subst heq
    simp at ht

end LibreXC
