import LibreXC.Linuino.Daemon

/-! # Start-up: `main` and the Data thread

`main` starts its threads first and registers the observers afterwards. Meanwhile the Data thread
reads, and a line whose `notify` loop ends before an observer is registered does not reach it. Both
observers receive every line exactly as long as no loop ends before both have been called
(`noLineLost_iff`), and when `main` is through before the first line is read, none does
(`noLineLost_of_main_first`). -/

namespace LibreXC.Linuino

open Ascii Python2 TransitionSystem

/-- The statement of `main` that comes next. -/
inductive Main
  /-- `thread.start()` for the Data thread. -/
  | startData
  /-- `thread.start()` for the WebSocket thread. -/
  | startSocket
  /-- `logger = Logger("default")`. -/
  | createLogger
  /-- `data_thread.add_observer(logger)`. -/
  | addLogger
  /-- `data_thread.add_observer(socket_thread)`. -/
  | addSocket
  /-- `time.sleep(1)`, for ever. -/
  | sleep
  deriving DecidableEq

/-- **The daemon during start-up.** -/
structure StartUp where
  main : Main
  data : Data Observer

/-- Who acts next. -/
inductive Turn
  | main | data
  deriving DecidableEq

namespace StartUp

/-- Before `main` starts the threads. -/
def init (lines : List Str) : StartUp := ⟨.startData, .start [] lines⟩

/-- Which updates raise: the logger's, when its constructor could not open the file. -/
def raises (logOpens : Bool) (observer : Observer) (_line : Str) : Bool :=
  match observer with
  | .logger => !logOpens
  | .socket => false

/-- **One step.** The Data thread steps once it is started. `logOpens` tells whether `open` succeeds in
the constructor of the logger, which goes on in either case. -/
def step (logOpens : Bool) (s : StartUp) : Turn → Option StartUp
  | .main =>
      match s.main with
      | .startData => some { s with main := .startSocket }
      | .startSocket => some { s with main := .createLogger }
      | .createLogger => some { s with main := .addLogger }
      | .addLogger => some ⟨.addSocket, s.data.add_observer .logger⟩
      | .addSocket => some ⟨.sleep, s.data.add_observer .socket⟩
      | .sleep => none
  | .data =>
      if s.main = .startData then none
      else (s.data.step (raises logOpens)).map fun data => { s with data := data }

end StartUp

/-- The observers registered when `main` stands there. -/
def Main.observers : Main → List Observer
  | .startData | .startSocket | .createLogger | .addLogger => []
  | .addSocket => [.logger]
  | .sleep => registered

theorem Main.observers_isPrefix (main : Main) : main.observers <+: registered := by
  cases main <;> decide

/-- Only a `main` that is through has registered both. -/
theorem Main.eq_sleep {main : Main} (h : registered.length ≤ main.observers.length) : main = .sleep := by
  cases main with
  | sleep => rfl
  | _ => exact absurd h (by decide)

/-! ## The property and its condition -/

/-- **No line is lost**, in a state reached by the turns `ts`. -/
structure NoLineLost (logOpens : Bool) (lines : List Str) (ts : List Turn) (s : StartUp) : Prop where
  /-- The queue takes the lines in reading order. -/
  queue : s.data.queue <+: heard lines
  /-- Each observer receives them in that order and none twice. -/
  in_order : ∀ observer, received observer s.data.updates <+: s.data.queue
  /-- When no line is on its way, both have received all. -/
  delivered : (∀ line i, s.data.pc ≠ .notify line i) →
    ∀ observer, received observer s.data.updates = s.data.queue
  /-- Once started, the Data thread blocks only when both have received all lines that find a place. -/
  complete : s.main ≠ .startData → s.step logOpens .data = none →
    ∀ observer, received observer s.data.updates = (heard lines).take Data.maxsize
  /-- It gets there within five steps a line. -/
  ends : (ts.filter (· = .data)).length ≤ 5 * lines.length

/-- **The condition on a step**: a `notify` loop does not end before both observers are registered, and
the update of the logger does not raise. -/
def StartUp.KeepsRound (logOpens : Bool) (s : StartUp) (t : Turn) : Prop :=
  t = .data → s.main ≠ .startData → ∀ line i, s.data.pc = .notify line i →
    (s.data.observers[i]? = none → s.main = .sleep) ∧
      (s.data.observers[i]? = some .logger → logOpens = true)

/-! ## One step -/

variable {logOpens : Bool} {lines : List Str} {s s' : StartUp} {t : Turn}

/-- **What a step does**: `main` goes on and touches the list of observers at most, or the Data thread
steps by itself. -/
theorem StartUp.step_cases (h : s.step logOpens t = some s') :
    (t = .main ∧ ∃ observers, s'.data = { s.data with observers := observers } ∧
      (s.data.observers = s.main.observers → observers = s'.main.observers) ∧
      s.data.observers <+: observers) ∨
    (t = .data ∧ s.main ≠ .startData ∧ s'.main = s.main ∧
      s.data.step (raises logOpens) = some s'.data) := by
  cases t with
  | main =>
      refine .inl ⟨rfl, ?_⟩
      obtain ⟨main, data⟩ := s
      cases main with
      | startData | startSocket | createLogger =>
          obtain rfl := Option.some.inj h
          exact ⟨data.observers, rfl, id, List.prefix_rfl⟩
      | addLogger | addSocket =>
          obtain rfl := Option.some.inj h
          refine ⟨_, rfl, fun heq => ?_, List.prefix_append _ _⟩
          rw [show data.observers = _ from heq]
          rfl
      | sleep => cases h
  | data =>
      rw [step] at h
      split at h
      · cases h
      · next hstarted =>
          obtain ⟨data, hdata, rfl⟩ := Option.map_eq_some_iff.mp h
          exact .inr ⟨rfl, hstarted, rfl, hdata⟩

/-- The observers that are registered, in any run. -/
theorem StartUp.observers_step (hs : s.data.observers = s.main.observers)
    (hstep : s.step logOpens t = some s') : s'.data.observers = s'.main.observers := by
  rcases step_cases hstep with ⟨-, observers, hdata, hobservers, -⟩ | ⟨-, -, hmain, hdata⟩
  · rw [hdata]
    exact hobservers hs
  · rw [Data.observers_step hdata, hmain, hs]

/-- **The progress of a start-up** in which every line so far has reached both observers, but for the
round under way. -/
structure StartUp.Sound (lines : List Str) (s : StartUp) : Prop where
  observers_eq : s.data.observers = s.main.observers
  length_queue : s.data.queue.length ≤ Data.maxsize
  stage : Data.Stage registered lines s.data s.data.pc
  /-- The observers called in the round under way are registered. -/
  called : ∀ line i, s.data.pc = .notify line i → i ≤ s.data.observers.length

theorem StartUp.sound_init (lines : List Str) : (init lines).Sound lines :=
  ⟨rfl, Nat.zero_le _, ⟨rfl, rfl⟩, fun _ _ h => (nomatch h)⟩

/-- A step that keeps the round follows the observers in the order of their registration. -/
theorem StartUp.Sound.follows (hs : s.Sound lines) (hkeeps : s.KeepsRound logOpens .data)
    (hstarted : s.main ≠ .startData) : Data.Follows registered (raises logOpens) s.data := by
  intro line i hpc
  obtain ⟨hended, hlogger⟩ := hkeeps rfl hstarted line i hpc
  cases hobs : s.data.observers[i]? with
  | none =>
      have hall : s.data.observers = registered := by rw [hs.observers_eq, hended hobs]; rfl
      exact ⟨by rw [← hall, hobs], fun o h => (nomatch h)⟩
  | some o =>
      obtain ⟨rest, hrest⟩ : s.data.observers <+: registered :=
        hs.observers_eq ▸ s.main.observers_isPrefix
      refine ⟨?_, ?_⟩
      · obtain ⟨hlt, -⟩ := List.getElem?_eq_some_iff.mp hobs
        rw [← hrest, List.getElem?_append_left hlt, hobs]
      · rintro o' ⟨⟩ hraises
        cases o with
        | logger =>
            rw [raises, hlogger hobs] at hraises
            cases hraises
        | socket => cases hraises

/-- **Every step that keeps the round keeps the progress.** -/
theorem StartUp.Sound.step (hs : s.Sound lines) (hkeeps : s.KeepsRound logOpens t)
    (hstep : s.step logOpens t = some s') : s'.Sound lines := by
  have hobs : s'.data.observers = s'.main.observers := observers_step hs.observers_eq hstep
  rcases step_cases hstep with ⟨-, observers, hdata, -, hgrow⟩ | ⟨rfl, hstarted, -, hdata⟩
  · refine ⟨hobs, ?_, ?_, ?_⟩
    · rw [hdata]
      exact hs.length_queue
    · rw [hdata]
      exact hs.stage
    · intro line i hpc
      rw [hdata] at hpc ⊢
      exact (hs.called line i hpc).trans hgrow.length_le
  · refine ⟨hobs, Data.length_queue_step hdata hs.length_queue, ?_, ?_⟩
    · exact Data.stage_iff.mpr ((Data.stage_iff.mp hs.stage).step (hs.follows hkeeps hstarted) hdata)
    · intro line i hpc
      rw [Data.observers_step hdata]
      rcases Data.notify_step hdata hpc with rfl | ⟨j, o, rfl, -, hobs, -⟩
      · exact Nat.zero_le _
      · exact (List.getElem?_eq_some_iff.mp hobs).1

/-- The WebSocket thread is the last one in a round. -/
theorem count_socket_take {i : ℕ} (hi : i < registered.length) :
    (registered.take i).count .socket = 0 := by
  match i, hi with
  | 0, _ => rfl
  | 1, _ => rfl

/-- **A round that is cut short loses its line**: after a step that does not keep the round the
WebSocket thread has not received the last line. -/
theorem StartUp.Sound.keepsRound (hs : s.Sound lines) (hstep : s.step logOpens t = some s')
    (hsocket : s'.data.pc = .readline → received .socket s'.data.updates = s'.data.queue) :
    s.KeepsRound logOpens t := by
  rintro rfl - line i hpc
  obtain ⟨heq, -⟩ | ⟨-, -, -, hdata⟩ := step_cases hstep
  · cases heq
  have hstage := hs.stage
  rw [hpc] at hstage
  obtain ⟨-, -, before, hqueue, hupdates⟩ := hstage
  -- the socket has not received the line before it is called
  have hlost : i < registered.length → received .socket s.data.updates ≠ s.data.queue := by
    intro hi heq
    rw [hupdates, received_append, received_rounds nodup_registered (mem_registered _), received_map,
      count_socket_take hi, hqueue] at heq
    exact absurd (List.append_cancel_left heq) (List.cons_ne_nil _ _).symm
  rcases Data.step_cases hdata with ⟨_, _, hpc', -, -⟩ | ⟨_, hpc', -, -⟩ | ⟨line', i', hpc', hobs, hd⟩
    | ⟨line', i', o, hpc', hobs, hd⟩
  · rw [hpc] at hpc'
    cases hpc'
  · rw [hpc] at hpc'
    cases hpc'
  · obtain ⟨rfl, rfl⟩ := Pc.notify.inj (hpc.symm.trans hpc')
    refine ⟨fun _ => Main.eq_sleep ?_, fun hlogger => ?_⟩
    · have hall := hsocket (by rw [hd])
      rw [hd] at hall
      rw [← hs.observers_eq]
      exact (not_lt.mp fun hi => hlost hi hall).trans (hs.called line i hpc)
    · rw [hobs] at hlogger
      cases hlogger
  · obtain ⟨rfl, rfl⟩ := Pc.notify.inj (hpc.symm.trans hpc')
    refine ⟨fun hnone => ?_, fun hlogger => ?_⟩
    · rw [hobs] at hnone
      cases hnone
    · obtain rfl := Option.some.inj (hobs.symm.trans hlogger)
      cases logOpens with
      | true => rfl
      | false =>
          -- the logger has raised, and the socket is not called any more
          have hall := hsocket (by rw [hd]; rfl)
          rw [hd] at hall
          dsimp only at hall
          rw [received_append, show received .socket [(Observer.logger, line)] = [] from rfl,
            List.append_nil] at hall
          have hlt : i < s.data.observers.length := (List.getElem?_eq_some_iff.mp hobs).1
          rw [hs.observers_eq] at hlt
          exact absurd hall (hlost (hlt.trans_le s.main.observers_isPrefix.length_le))

/-! ## The result -/

/-- What the Data thread has still to do decreases with its steps and with none of `main`. -/
theorem StartUp.remaining_step (hs : s.data.observers = s.main.observers)
    (hstep : s.step logOpens t = some s') :
    (decide (t = .data) = true →
        s'.data.remainingOf registered.length < s.data.remainingOf registered.length) ∧
      (decide (t = .data) = false →
        s'.data.remainingOf registered.length ≤ s.data.remainingOf registered.length) := by
  rcases step_cases hstep with ⟨rfl, observers, hdata, -⟩ | ⟨rfl, -, -, hdata⟩
  · refine ⟨fun h => (nomatch h), fun _ => ?_⟩
    rw [hdata]
    exact le_rfl
  · have hlen : s.data.observers.length ≤ registered.length := by
      rw [hs]
      exact s.main.observers_isPrefix.length_le
    exact ⟨fun _ => Data.remainingOf_step_lt hlen hdata, fun h => (nomatch h)⟩

/-- The Data thread takes at most five steps a line. -/
theorem StartUp.length_data_le {ts : List Turn} (hrun : run (step logOpens) (init lines) ts = some s) :
    (ts.filter (· = .data)).length ≤ 5 * lines.length := by
  have hbound := length_filter_le_of_run_invariant
    (fun s : StartUp => s.data.observers = s.main.observers) (fun _ _ _ => observers_step)
    (fun t => decide (t = .data)) (fun s => s.data.remainingOf registered.length)
    (fun _ _ _ hs hstep => (remaining_step hs hstep).1)
    (fun _ _ _ hs hstep => (remaining_step hs hstep).2) rfl hrun
  have hstart : (init lines).data.remainingOf registered.length = 5 * lines.length := rfl
  omega

/-- A start-up that is sound has lost no line. -/
theorem StartUp.Sound.noLineLost (hs : s.Sound lines) {ts : List Turn}
    (hrun : run (StartUp.step logOpens) (init lines) ts = some s) : NoLineLost logOpens lines ts s := by
  refine ⟨(Data.stage_iff.mp hs.stage).isPrefix_queue, fun observer => ?_, fun hpc observer => ?_,
    fun hstarted hstuck observer => ?_, length_data_le hrun⟩
  · exact hs.stage.isPrefix_received nodup_registered (mem_registered observer)
  · exact hs.stage.received_eq nodup_registered (mem_registered observer) hpc
  · rw [StartUp.step, if_neg hstarted, Option.map_eq_none_iff] at hstuck
    rw [← (Data.stage_iff.mp hs.stage).queue_eq_take hs.length_queue hstuck]
    exact hs.stage.received_eq nodup_registered (mem_registered observer)
      (Data.pc_of_step_eq_none hstuck)

/-- **When no line is lost**: in every run of the start-up, exactly as long as no `notify` loop ends
before both observers have been called. -/
theorem noLineLost_iff (logOpens : Bool) (lines : List Str) (ts : List Turn) :
    (∀ pre s, pre <+: ts → run (StartUp.step logOpens) (.init lines) pre = some s →
        NoLineLost logOpens lines pre s) ↔
      Along (StartUp.step logOpens) (StartUp.KeepsRound logOpens) (.init lines) ts := by
  constructor
  · intro hnoLoss
    refine along_of_invariant (StartUp.Sound lines)
      (fun _ _ _ hs hkeeps hstep => hs.step hkeeps hstep) (StartUp.sound_init lines)
      fun pre t s hpre hrun hs => ?_
    cases hstep : s.step logOpens t with
    | none =>
        rintro rfl hstarted line i hpc
        rw [StartUp.step, if_neg hstarted, Option.map_eq_none_iff] at hstep
        exact absurd hpc (Data.pc_of_step_eq_none hstep line i)
    | some s' =>
        -- the next state has lost no line
        refine hs.keepsRound hstep fun hpc => ?_
        have hnext := hnoLoss _ s' hpre (run_concat_eq_some.mpr ⟨s, hrun, hstep⟩)
        exact hnext.delivered (fun line i heq => by rw [hpc] at heq; cases heq) .socket
  · intro halong pre s hpre hrun
    have hs : s.Sound lines := run_invariant_along (StartUp.Sound lines)
      (fun _ _ _ hs hkeeps hstep => hs.step hkeeps hstep) (StartUp.sound_init lines)
      (along_of_isPrefix hpre halong) hrun
    exact hs.noLineLost hrun

/-- A line that is read before any observer is registered is lost. -/
theorem not_noLineLost_first_line :
    ¬ ∀ (logOpens : Bool) (lines : List Str) (ts : List Turn) (s : StartUp),
      run (StartUp.step logOpens) (.init lines) ts = some s → NoLineLost logOpens lines ts s := by
  intro h
  let line : Str := str "\x7b\x7d"
  have hrun : run (StartUp.step true) (.init [line]) [.main, .data, .data, .data]
      = some ⟨.startSocket, ⟨[], [line], [], .readline, []⟩⟩ := by
    have hline : line ≠ [] := by decide
    simp [run_cons, StartUp.step, StartUp.init, Data.start, Data.step, Data.maxsize, hline]
  have hlost := (h _ _ _ _ hrun).delivered (fun _ _ heq => nomatch heq) .socket
  exact absurd hlost (List.cons_ne_nil _ _).symm

/-! ## After start-up -/

/-- The daemon as `main` leaves it, when no line has come before. -/
theorem run_main (logOpens : Bool) (lines : List Str) :
    run (StartUp.step logOpens) (.init lines) (List.replicate 5 .main)
      = some ⟨.sleep, .start registered lines⟩ := rfl

/-- **The running daemon goes on from there**: its Data thread steps as it does beside a sleeping
`main`. -/
theorem StartUp.step_of_daemon {Client : Type} [DecidableEq Client] {config : Credentials}
    {order : KeyOrder} {d d' : Daemon Client} (h : d.step config order .data = some d') :
    StartUp.step d.log.isSome ⟨.sleep, d.data⟩ .data = some ⟨.sleep, d'.data⟩ := by
  have hraises : StartUp.raises d.log.isSome = d.raises := by
    funext observer line
    cases observer with
    | logger => rw [raises, Daemon.raises, Option.not_isSome]
    | socket => rfl
  have hstarted : Main.sleep ≠ .startData := by decide
  rcases Daemon.data_step h with ⟨-, hdata, -⟩ | ⟨hne, -⟩
  · rw [step, if_neg hstarted, hraises, hdata]
    rfl
  · exact absurd rfl hne

/-- A `main` that is through stays so. -/
theorem StartUp.main_step (hs : s.main = .sleep) (hstep : s.step logOpens t = some s') :
    s'.main = .sleep := by
  rcases step_cases hstep with ⟨rfl, -⟩ | ⟨-, -, hmain, -⟩
  · rw [step, hs] at hstep
    cases hstep
  · rw [hmain, hs]

/-- **When `main` is through before the first line is read, no line is lost**, if the log file opens. -/
theorem noLineLost_of_main_first {ts : List Turn}
    (hrun : run (StartUp.step true) (.init lines) (List.replicate 5 .main ++ ts) = some s) :
    NoLineLost true lines (List.replicate 5 .main ++ ts) s := by
  have hrest : run (StartUp.step true) ⟨.sleep, .start registered lines⟩ ts = some s := by
    rw [run_append, run_main] at hrun
    exact hrun
  have hstart : StartUp.Sound lines ⟨.sleep, .start registered lines⟩ :=
    ⟨rfl, Nat.zero_le _, ⟨rfl, rfl⟩, fun _ _ h => (nomatch h)⟩
  have hsound : s.main = .sleep ∧ s.Sound lines := by
    refine run_invariant (fun s : StartUp => s.main = .sleep ∧ s.Sound lines)
      (fun s t s' hs hstep => ⟨StartUp.main_step hs.1 hstep, hs.2.step ?_ hstep⟩)
      ⟨rfl, hstart⟩ hrest
    exact fun _ _ _ _ _ => ⟨fun _ => hs.1, fun _ => rfl⟩
  exact hsound.2.noLineLost hrun

end LibreXC.Linuino
