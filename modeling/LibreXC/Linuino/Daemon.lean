import LibreXC.Linuino.Data
import LibreXC.Linuino.Server

/-! # The daemon: two threads and their shared data

`main` registers the logger and the WebSocket thread as observers of the Data thread and then sleeps.
From there on the Data thread and the reactor alternate in any order. `Logger.update` writes in the
Data thread; `Websocket.update` only schedules `broadcast` for the reactor, which runs the scheduled
calls in order between the events of the connections.

Every line goes into `Data.queue`, and nothing takes it out again: the consumer `get_new_data` that
`Logger.update` announces is commented out. So the queue is full after a hundred lines, and with
the next one the Data thread blocks for good (`flows_iff`). -/

namespace LibreXC.Linuino

open Ascii Python2 TransitionSystem

/-- The observers `main` registers. -/
inductive Observer
  | logger | socket
  deriving DecidableEq

/-- **The running daemon.** -/
structure Daemon (Client : Type) where
  data : Data Observer
  /-- What `Logger.write_line` has written, line by line; none without an open `log_file`. -/
  log : Option (List Str)
  /-- The lines whose `broadcast` was scheduled by `callFromThread` and has not run yet. -/
  calls : List Str
  server : Server Client
  /-- The messages sent by the scheduled broadcasts. -/
  live : List (Client × Str)

/-- **Who acts next**: the Data thread, or the reactor with a scheduled call or another event. -/
inductive Task (Client : Type)
  | data
  | call
  | reactor (e : Event Client)

/-- The broadcast of a line. -/
def Event.isUpdate {Client : Type} : Event Client → Bool
  | .update _ => true
  | _ => false

/-- The tasks of the Data thread. -/
def Task.isData {Client : Type} : Task Client → Bool
  | .data => true
  | _ => false

namespace Daemon

variable {Client : Type}

/-- After start-up, with an open log file: the lines are still to come. -/
def start (lines : List Str) (server : Server Client) : Daemon Client :=
  ⟨.start [.logger, .socket] lines, some [], [], server, []⟩

/-- Which updates raise: the logger's, when it has no `log_file`. -/
def raises (s : Daemon Client) (observer : Observer) (_line : Str) : Bool :=
  match observer with
  | .logger => s.log.isNone
  | .socket => false

/-- `Logger.update(json)`, which writes `"{0}".format(json)`, and `Websocket.update(_json)`. -/
def update (s : Daemon Client) : Observer × Str → Daemon Client
  | (.logger, line) => { s with log := s.log.map (· ++ [line]) }
  | (.socket, line) => { s with calls := s.calls ++ [line] }

variable [DecidableEq Client]

/-- **One step of the daemon.** -/
def step (config : Credentials) (order : KeyOrder) (s : Daemon Client) :
    Task Client → Option (Daemon Client)
  | .data =>
      (s.data.step s.raises).map fun data =>
        match s.data.calling with
        | none => { s with data := data }
        | some call => { s with data := data }.update call
  | .call =>
      match s.calls with
      | [] => none
      | line :: calls =>
          (s.server.step config order (.update line)).map fun server =>
            { s with
              calls := calls
              server := server
              live := s.live ++ server.world.sent.drop s.server.world.sent.length }
  | .reactor e =>
      -- a line is broadcast by a scheduled call only
      if e.isUpdate then none
      else (s.server.step config order e).map fun server => { s with server := server }

end Daemon

/-! ## One step -/

variable {Client : Type} [DecidableEq Client] {config : Credentials} {order : KeyOrder}
  {s s' : Daemon Client}

omit [DecidableEq Client] in
@[simp] theorem Daemon.data_update (call : Observer × Str) : (s.update call).data = s.data := by
  obtain ⟨observer, line⟩ := call
  cases observer <;> rfl

omit [DecidableEq Client] in
@[simp] theorem Daemon.isSome_log_update (call : Observer × Str) :
    (s.update call).log.isSome = s.log.isSome := by
  obtain ⟨observer, line⟩ := call
  cases observer with
  | logger => exact Option.isSome_map
  | socket => rfl

/-- **The Data thread steps by itself**, and only it moves its state and the log. -/
theorem Daemon.data_step {t : Task Client} (h : s.step config order t = some s') :
    (t = .data ∧ s.data.step s.raises = some s'.data ∧ s'.log.isSome = s.log.isSome) ∨
      (t ≠ .data ∧ s'.data = s.data ∧ s'.log = s.log) := by
  cases t with
  | data =>
      obtain ⟨data, hdata, rfl⟩ := Option.map_eq_some_iff.mp h
      refine .inl ⟨rfl, ?_, ?_⟩
      · cases s.data.calling <;> simpa using hdata
      · cases s.data.calling <;> simp
  | call =>
      rw [step] at h
      split at h
      · cases h
      · obtain ⟨server, -, rfl⟩ := Option.map_eq_some_iff.mp h
        exact .inr ⟨fun h => (nomatch h), rfl, rfl⟩
  | reactor e =>
      rw [step] at h
      split at h
      · cases h
      · obtain ⟨server, -, rfl⟩ := Option.map_eq_some_iff.mp h
        exact .inr ⟨fun h => (nomatch h), rfl, rfl⟩

/-- The Data thread blocks in the daemon where it blocks on its own. -/
theorem Daemon.step_data_eq_none :
    s.step config order .data = none ↔ s.data.step s.raises = none := Option.map_eq_none_iff

/-! ## Progress of the Data thread -/

/-- The observers in the order `main` registers them. -/
def registered : List Observer := [.logger, .socket]

theorem nodup_registered : registered.Nodup := by decide

theorem mem_registered (observer : Observer) : observer ∈ registered := by cases observer <;> decide

/-- With an open log file the Data thread of the daemon makes progress. -/
def Daemon.Working (lines : List Str) (s : Daemon Client) : Prop :=
  s.log.isSome ∧ s.data.Progress registered lines

omit [DecidableEq Client] in
/-- An open log file does not raise. -/
theorem Daemon.raises_eq_false (hlog : s.log.isSome) (observer : Observer) (line : Str) :
    s.raises observer line = false := by
  cases observer with
  | logger =>
      rw [raises, Option.isNone_eq_false_iff]
      exact hlog
  | socket => rfl

/-- **Every step of the daemon keeps it working.** -/
theorem Daemon.Working.step {lines : List Str} {t : Task Client} (hw : s.Working lines)
    (h : s.step config order t = some s') : s'.Working lines := by
  rcases data_step h with ⟨rfl, hdata, hlog⟩ | ⟨-, hdata, hlog⟩
  · exact ⟨hlog ▸ hw.1, hw.2.step (raises_eq_false hw.1) hdata⟩
  · rw [Working, hdata, hlog]
    exact hw

theorem Daemon.working_run {lines : List Str} {server : Server Client} {ts : List (Task Client)}
    (h : run (Daemon.step config order) (.start lines server) ts = some s) : s.Working lines :=
  run_invariant (Working lines) (fun _ _ _ hw => hw.step) ⟨rfl, Data.progress_start⟩ h

/-! ## Lines are never held back -/

/-- **No line is held back**, in any run of the daemon from start-up. -/
structure Flows (config : Credentials) (order : KeyOrder) (lines : List Str)
    (server : Server Client) : Prop where
  /-- Before each `put` the queue has a free place. -/
  free : ∀ ts s line, run (Daemon.step config order) (.start lines server) ts = some s →
    s.data.pc = .put line → s.data.queue.length < Data.maxsize
  /-- The updates of each observer bring the lines once each and in order. -/
  in_order : ∀ ts s observer, run (Daemon.step config order) (.start lines server) ts = some s →
    received observer s.data.updates <+: heard lines
  /-- The Data thread blocks only in `readline`, when every observer has received every line. -/
  complete : ∀ ts s, run (Daemon.step config order) (.start lines server) ts = some s →
    s.step config order .data = none →
      s.data.pc = .readline ∧ s.data.unread = [] ∧
        ∀ observer, received observer s.data.updates = heard lines
  /-- It gets there within five steps a line. -/
  ends : ∀ ts s, run (Daemon.step config order) (.start lines server) ts = some s →
    (ts.filter Task.isData).length ≤ 5 * lines.length

/-- What the Data thread has still to do decreases with its steps and with no other. -/
theorem Daemon.remaining_step {t : Task Client} (h : s.step config order t = some s') :
    (t.isData = true → s'.data.remaining < s.data.remaining) ∧
      (t.isData = false → s'.data.remaining ≤ s.data.remaining) := by
  rcases data_step h with ⟨rfl, hdata, -⟩ | ⟨hne, hdata, -⟩
  · exact ⟨fun _ => Data.remaining_step_lt hdata, fun h => (nomatch h)⟩
  · rw [hdata]
    refine ⟨fun ht => ?_, fun _ => le_rfl⟩
    cases t with
    | data => exact absurd rfl hne
    | call => cases ht
    | reactor e => cases ht

/-- **With more lines than places the Data thread gets stuck in `put`.** -/
theorem not_flows_of_lt {lines : List Str} {server : Server Client}
    (hlines : Data.maxsize < (heard lines).length) : ¬ Flows config order lines server := by
  intro hflows
  -- left alone, the Data thread runs until it blocks, and `readline` is not where
  obtain ⟨k, s, hrun, hstuck⟩ := exists_run_replicate (Daemon.step config order) Task.data
    (fun s => s.data.remaining) (fun s s' h => (Daemon.remaining_step h).1 rfl) (.start lines server)
  obtain ⟨hpc, hunread, -⟩ := hflows.complete _ s hrun hstuck
  have hle := (Daemon.working_run hrun).2.length_heard_le hpc hunread
  omega

/-- **When the lines flow**: exactly when there are at most as many as the queue has places. -/
theorem flows_iff (config : Credentials) (order : KeyOrder) (lines : List Str)
    (server : Server Client) :
    Flows config order lines server ↔ (heard lines).length ≤ Data.maxsize := by
  constructor
  · intro hflows
    by_contra hlines
    exact not_flows_of_lt (not_le.mp hlines) hflows
  · intro hlines
    refine ⟨fun ts s line hrun hpc => ?_, fun ts s observer hrun => ?_, fun ts s hrun hstuck => ?_,
      fun ts s hrun => ?_⟩
    · exact (Daemon.working_run hrun).2.length_queue_lt hlines hpc
    · exact (Daemon.working_run hrun).2.isPrefix_received nodup_registered (mem_registered observer)
    · have hw := (Daemon.working_run hrun).2
      rcases Data.step_eq_none.mp (Daemon.step_data_eq_none.mp hstuck) with ⟨hpc, hunread⟩
        | ⟨line, hpc, hfull⟩
      · exact ⟨hpc, hunread, fun observer =>
          hw.received_eq nodup_registered (mem_registered observer) hpc hunread⟩
      · exact absurd (hw.length_queue_lt hlines hpc) hfull
    · have hbound := length_filter_le_of_run Task.isData (fun s : Daemon Client => s.data.remaining)
        (fun s t s' h => (Daemon.remaining_step h).1) (fun s t s' h => (Daemon.remaining_step h).2)
        hrun
      have hstart : (Daemon.start lines server).data.remaining = 5 * lines.length := rfl
      omega

/-- With 101 lines the Data thread is stuck. -/
theorem not_flows_101 :
    ¬ ∀ (config : Credentials) (order : KeyOrder) (lines : List Str) (server : Server Unit),
      Flows config order lines server := by
  intro h
  have hlines : Data.maxsize < (heard (List.replicate 101 (str "{}\n"))).length := by decide +kernel
  exact not_flows_of_lt hlines (h ⟨str "u", str "p"⟩ ⟨valid_cmds, .refl _⟩ _
    (.init ⟨[], ⟨[], List.nodup_nil⟩, true, [], []⟩))

end LibreXC.Linuino
