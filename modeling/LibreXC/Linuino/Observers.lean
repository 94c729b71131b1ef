import LibreXC.Linuino.Daemon

/-! # A failing observer

`notify` calls the observers in list order and catches nothing: an exception leaves its loop and
`add_data`, and `run` prints it and reads the next line. So a round gets as far as the first observer
that raises, and the ones behind it do not hear of the line. The others are safe exactly when on every
line the observers that raise stand behind those that do not (`isolates_iff`).

`main` puts the logger first. When its file cannot be opened, the constructor goes on without a
`log_file`, every `update` raises, and the WebSocket thread hears nothing
(`received_socket_of_no_log`). -/

namespace LibreXC.Linuino

open Ascii Python2 TransitionSystem

/-! ## How far a round gets -/

section reached

variable {ω : Type} {fails : ω → Bool} {observers : List ω}

/-- The observers `notify` gets to: all up to the first one that raises. -/
def reached (fails : ω → Bool) : List ω → List ω
  | [] => []
  | observer :: observers =>
      if fails observer then [observer] else observer :: reached fails observers

/-- Observers that do not raise are passed. -/
theorem reached_append {before : List ω} (hbefore : ∀ o ∈ before, fails o = false) (after : List ω) :
    reached fails (before ++ after) = before ++ reached fails after := by
  induction before with
  | nil => rfl
  | cons o before ih =>
      obtain ⟨ho, hbefore⟩ := List.forall_mem_cons.mp hbefore
      rw [List.cons_append, reached, ho, if_neg Bool.false_ne_true, ih hbefore]
      rfl

/-- The first observer of a round is reached in any case. -/
theorem getElem?_zero_reached : (reached fails observers)[0]? = observers[0]? := by
  cases observers with
  | nil => rfl
  | cons o observers =>
      rw [reached]
      split <;> rfl

/-- **Who comes next in a round** none of whose calls has raised yet. -/
theorem getElem?_reached {i : ℕ} (hi : i ≤ observers.length)
    (hpassed : ∀ o ∈ observers.take i, fails o = false) :
    (reached fails observers)[i]? = observers[i]? := by
  have hsplit := reached_append hpassed (observers.drop i)
  have hlen : (observers.take i).length = i := List.length_take_of_le hi
  rw [List.take_append_drop] at hsplit
  rw [hsplit, List.getElem?_append_right hlen.le, hlen, Nat.sub_self, getElem?_zero_reached,
    List.getElem?_drop, Nat.add_zero]

/-- The round ends with an observer that raises. -/
theorem length_reached {i : ℕ} {observer : ω} (hobs : observers[i]? = some observer)
    (hpassed : ∀ o ∈ observers.take i, fails o = false) (hfails : fails observer = true) :
    (reached fails observers).length = i + 1 := by
  obtain ⟨hlt, rfl⟩ := List.getElem?_eq_some_iff.mp hobs
  have hsplit := reached_append hpassed (observers.drop i)
  rw [List.take_append_drop, List.drop_eq_getElem_cons hlt, reached, if_pos hfails] at hsplit
  rw [hsplit, List.length_append, List.length_take_of_le hlt.le, List.length_singleton]

/-- **When a round reaches all observers that do not raise**: exactly when these come first. -/
theorem count_reached_iff [DecidableEq ω] :
    (∀ o, fails o = false → (reached fails observers).count o = observers.count o) ↔
      observers.Pairwise fun a b => fails a = true → fails b = true := by
  induction observers with
  | nil => exact ⟨fun _ => .nil, fun _ _ _ => rfl⟩
  | cons a observers ih =>
      rw [List.pairwise_cons, reached]
      cases ha : fails a with
      | true =>
          -- the round ends here, so nobody behind may be one that does not raise
          rw [if_pos rfl]
          have hcount : ∀ o, fails o = false →
              [a].count o = 0 ∧ (a :: observers).count o = observers.count o := by
            intro o ho
            have hne : a ≠ o := by
              rintro rfl
              rw [ha] at ho
              cases ho
            rw [List.count_cons_of_ne hne, List.count_cons_of_ne hne]
            exact ⟨rfl, rfl⟩
          constructor
          · intro h
            have hall : ∀ b ∈ observers, fails b = true := by
              intro b hb
              by_contra hne
              have hfalse : fails b = false := Bool.eq_false_iff.mpr hne
              have hzero := h b hfalse
              rw [(hcount b hfalse).1, (hcount b hfalse).2] at hzero
              exact List.count_eq_zero.mp hzero.symm hb
            refine ⟨fun b hb _ => hall b hb, ?_⟩
            exact List.pairwise_of_forall_mem_list fun _ _ b hb _ => hall b hb
          · rintro ⟨hall, -⟩ o ho
            rw [(hcount o ho).1, (hcount o ho).2, eq_comm, List.count_eq_zero]
            intro hmem
            rw [hall o hmem rfl] at ho
            cases ho
      | false =>
          rw [if_neg Bool.false_ne_true, ← ih, and_iff_right fun _ _ h => (nomatch h)]
          refine forall₂_congr fun o _ => ?_
          rw [List.count_cons, List.count_cons, Nat.add_right_cancel_iff]

end reached

namespace Data

variable {ω : Type} {fails : ℕ → ω → Bool} {observers : List ω} {lines : List Str} {d d' : Data ω}

/-! ## The rounds of a thread with failing observers -/

/-- One step, where on the line number `n`, counted from one, the calls of the observers in `fails n`
raise. -/
def failingStep (fails : ℕ → ω → Bool) (d : Data ω) (_ : Unit) : Option (Data ω) :=
  d.step fun observer _ => fails d.queue.length observer

/-- **The progress of a thread some of whose observers raise.** -/
structure Surviving (fails : ℕ → ω → Bool) (observers : List ω) (lines : List Str) (d : Data ω) :
    Prop where
  observers_eq : d.observers = observers
  length_queue : d.queue.length ≤ maxsize
  stage : StageOf (fun n => reached (fails n) observers) lines d d.pc
  /-- No call of the round under way has raised. -/
  passed : ∀ line i, d.pc = .notify line i →
    i ≤ observers.length ∧ ∀ o ∈ observers.take i, fails d.queue.length o = false

theorem surviving_start : Surviving fails observers lines (start observers lines) :=
  ⟨rfl, Nat.zero_le _, ⟨rfl, rfl⟩, fun _ _ h => (nomatch h)⟩

/-- A round under way follows the observers it can reach. -/
theorem Surviving.follows (hs : Surviving fails observers lines d) :
    Follows (reached (fails d.queue.length) observers) (fun o _ => fails d.queue.length o) d := by
  intro line i hpc
  obtain ⟨hi, hpassed⟩ := hs.passed line i hpc
  rw [hs.observers_eq]
  refine ⟨(getElem?_reached hi hpassed).symm, fun o hobs hfails => ?_⟩
  exact (length_reached hobs hpassed hfails).le

/-- **Every step keeps the progress.** -/
theorem Surviving.step (hs : Surviving fails observers lines d) {u : Unit}
    (hstep : failingStep fails d u = some d') : Surviving fails observers lines d' := by
  refine ⟨(observers_step hstep).trans hs.observers_eq, length_queue_step hstep hs.length_queue,
    hs.stage.step hs.follows hstep, fun line i hpc => ?_⟩
  rcases notify_step hstep hpc with rfl | ⟨j, o, rfl, hpc', hobs, hpasses, hqueue⟩
  · exact ⟨Nat.zero_le _, fun o ho => absurd ho List.not_mem_nil⟩
  · rw [hs.observers_eq] at hobs
    obtain ⟨hlt, -⟩ := List.getElem?_eq_some_iff.mp hobs
    refine ⟨hlt, fun o' ho' => ?_⟩
    rw [List.take_add_one, hobs, Option.toList_some, List.mem_append, List.mem_singleton] at ho'
    rw [hqueue]
    rcases ho' with ho' | rfl
    · exact (hs.passed line j hpc').2 o' ho'
    · exact hpasses

theorem surviving_run {es : List Unit}
    (hrun : run (failingStep fails) (start observers lines) es = some d) :
    Surviving fails observers lines d :=
  run_invariant (Surviving fails observers lines) (fun _ _ _ hs => hs.step) surviving_start hrun

/-! ## The thread always gets on -/

/-- A round ends. -/
theorem exists_run_notify (fails : ℕ → ω → Bool) {line : Str} {i : ℕ} (hpc : d.pc = .notify line i) :
    ∃ es d', run (failingStep fails) d es = some d' ∧ d'.pc = .readline ∧ d'.queue = d.queue := by
  induction hm : d.observers.length - i generalizing d i with
  | zero =>
      have hobs : d.observers[i]? = none := List.getElem?_eq_none_iff.mpr (by omega)
      refine ⟨[()], { d with pc := .readline }, ?_, rfl, rfl⟩
      simp [run_cons, failingStep, step, hpc, hobs]
  | succ m ih =>
      obtain ⟨o, hobs⟩ : ∃ o, d.observers[i]? = some o :=
        ⟨_, List.getElem?_eq_getElem (show i < d.observers.length by omega)⟩
      cases hfails : fails d.queue.length o with
      | true =>
          have hstep : failingStep fails d ()
              = some { d with updates := d.updates ++ [(o, line)], pc := .readline } := by
            simp [failingStep, step, hpc, hobs, hfails]
          exact ⟨[()], _, run_cons_eq_some.mpr ⟨_, hstep, rfl⟩, rfl, rfl⟩
      | false =>
          have hstep : failingStep fails d ()
              = some { d with updates := d.updates ++ [(o, line)], pc := .notify line (i + 1) } := by
            simp [failingStep, step, hpc, hobs, hfails]
          obtain ⟨es, d', hrun, hend⟩ := ih
            (d := { d with updates := d.updates ++ [(o, line)], pc := .notify line (i + 1) }) rfl
            (by dsimp only; omega)
          exact ⟨() :: es, d', run_cons_eq_some.mpr ⟨_, hstep, hrun⟩, hend⟩

/-- A line that is there gets read, and empty ones before it are passed over. -/
theorem exists_run_readline (fails : ℕ → ω → Bool) {line : Str} {rest : List Str}
    (hpc : d.pc = .readline) (hheard : heard d.unread = line :: rest) :
    ∃ es d', run (failingStep fails) d es = some d' ∧ d'.pc = .put line ∧ d'.queue = d.queue := by
  induction hunread : d.unread generalizing d with
  | nil =>
      rw [hunread] at hheard
      cases hheard
  | cons first unread ih =>
      rw [hunread] at hheard
      have hstep : failingStep fails d ()
          = some { d with unread := unread, pc := if first = [] then .readline else .put first } := by
        simp [failingStep, step, hpc, hunread]
      by_cases hfirst : first = []
      · rw [if_pos hfirst] at hstep
        rw [heard, List.filter_cons_of_neg (by simpa using hfirst)] at hheard
        obtain ⟨es, d', hrun, hend⟩ :=
          ih (d := { d with unread := unread, pc := .readline }) rfl hheard rfl
        exact ⟨() :: es, d', run_cons_eq_some.mpr ⟨_, hstep, hrun⟩, hend⟩
      · rw [if_neg hfirst] at hstep
        rw [heard, List.filter_cons_of_pos (by simpa using hfirst)] at hheard
        obtain ⟨rfl, -⟩ := List.cons.inj hheard
        exact ⟨[()], _, run_cons_eq_some.mpr ⟨_, hstep, rfl⟩, rfl, rfl⟩

/-- **The next line is handled** if there is one and the queue has a place for it. -/
theorem Surviving.exists_round (hs : Surviving fails observers lines d) (hpc : d.pc = .readline)
    (hlines : d.queue.length < (heard lines).length) (hfree : d.queue.length < maxsize) :
    ∃ es before line fs after, run (failingStep fails) d es = some before ∧ before.pc = .put line ∧
      run (failingStep fails) before fs = some after ∧ after.pc = .readline ∧
      after.queue = before.queue ++ [line] ∧ before.queue = d.queue := by
  obtain ⟨line, rest, hheard⟩ : ∃ line rest, heard d.unread = line :: rest := by
    have hstage := hs.stage
    rw [hpc] at hstage
    refine List.exists_cons_of_ne_nil fun hnil => ?_
    rw [hstage.1, hnil, List.append_nil] at hlines
    exact lt_irrefl _ hlines
  obtain ⟨es, before, hread, hput, hqueue⟩ := exists_run_readline fails hpc hheard
  have hstep : failingStep fails before ()
      = some { before with queue := before.queue ++ [line], pc := .notify line 0 } := by
    have hroom : before.queue.length < maxsize := hqueue ▸ hfree
    simp [failingStep, Data.step, hput, hroom]
  obtain ⟨fs, after, hround, hend, hqueue'⟩ := exists_run_notify fails
    (d := { before with queue := before.queue ++ [line], pc := .notify line 0 }) rfl
  exact ⟨es, before, line, () :: fs, after, hread, hput, run_cons_eq_some.mpr ⟨_, hstep, hround⟩, hend,
    hqueue', hqueue⟩

/-- After some steps `n` lines have been handled, if there are as many and the queue can hold them. -/
theorem exists_run_between (fails : ℕ → ω → Bool) (observers : List ω) {n : ℕ}
    (hlines : n ≤ (heard lines).length) (hfree : n ≤ maxsize) :
    ∃ es d, run (failingStep fails) (start observers lines) es = some d ∧ d.pc = .readline ∧
      d.queue.length = n := by
  induction n with
  | zero => exact ⟨[], _, rfl, rfl, rfl⟩
  | succ n ih =>
      obtain ⟨es, d, hrun, hpc, hlen⟩ := ih (by omega) (by omega)
      obtain ⟨es', before, line, fs, after, hread, -, hround, hend, hqueue, hbefore⟩ :=
        (surviving_run hrun).exists_round hpc (by omega) (by omega)
      refine ⟨es ++ (es' ++ fs), after, ?_, hend, ?_⟩
      · exact run_trans hrun (run_trans hread hround)
      · rw [hqueue, hbefore, List.length_append, List.length_singleton, hlen]

end Data

/-! ## Failing observers and the others -/

variable {ω : Type} [DecidableEq ω] {fails : ℕ → ω → Bool} {observers : List ω} {lines : List Str}

/-- **A failing observer does not starve the others**, in any run of the Data thread in which the
calls of the observers in `fails n` raise on the line number `n`. An observer counts as often as it is
registered. -/
structure Isolates (fails : ℕ → ω → Bool) (observers : List ω) (lines : List Str) : Prop where
  /-- From the `put` of a line to the next `readline`, every observer that does not fail on it
  receives it once. -/
  round : ∀ es d line fs d', run (Data.failingStep fails) (.start observers lines) es = some d →
    d.pc = .put line → run (Data.failingStep fails) d fs = some d' → d'.pc = .readline →
    d'.queue = d.queue ++ [line] → ∀ o, fails d'.queue.length o = false →
      received o (d'.updates.drop d.updates.length) = List.replicate (observers.count o) line
  /-- Between the rounds, an observer that has not failed has received all lines so far, in order. -/
  stream : ∀ es d, run (Data.failingStep fails) (.start observers lines) es = some d →
    d.pc = .readline → ∀ o, (∀ n, 0 < n → n ≤ d.queue.length → fails n o = false) →
      received o d.updates = d.queue.flatMap (List.replicate (observers.count o))
  /-- The lines are handled in order. -/
  in_order : ∀ es d, run (Data.failingStep fails) (.start observers lines) es = some d →
    d.queue <+: heard lines
  /-- The thread does not block before it has handled all of them or the queue is full. -/
  complete : ∀ es d, run (Data.failingStep fails) (.start observers lines) es = some d →
    Data.failingStep fails d () = none → d.queue = (heard lines).take Data.maxsize

/-- The observers that raise on a line stand behind those that do not. -/
def FailLast (fails : ω → Bool) (observers : List ω) : Prop :=
  observers.Pairwise fun a b => fails a = true → fails b = true

/-- A round brings its line to the observers it reaches. -/
theorem received_round_of_run {es fs : List Unit} {d d' : Data ω} {line : Str}
    (hrun : run (Data.failingStep fails) (.start observers lines) es = some d) (hput : d.pc = .put line)
    (hround : run (Data.failingStep fails) d fs = some d') (hend : d'.pc = .readline)
    (hqueue : d'.queue = d.queue ++ [line]) (o : ω) :
    received o (d'.updates.drop d.updates.length)
      = List.replicate ((reached (fails d'.queue.length) observers).count o) line := by
  have hbefore := (Data.surviving_run hrun).stage
  have hafter := (Data.surviving_run (run_trans hrun hround)).stage
  rw [hput] at hbefore
  rw [hend] at hafter
  rw [hafter.2, hqueue, roundsOf_concat, hbefore.2, List.drop_left, received_map, List.length_append]
  rfl

/-- Rounds that reach an observer wherever it does not fail bring it every line in order. -/
theorem received_roundsOf {calls : ℕ → List ω} {o : ω} {k : ℕ} (lines : List Str)
    (hcount : ∀ n, 0 < n → n ≤ lines.length → (calls n).count o = k) :
    received o (roundsOf calls lines) = lines.flatMap (List.replicate k) := by
  induction lines using List.reverseRecOn with
  | nil => rfl
  | append_singleton lines line ih =>
      rw [List.length_append, List.length_singleton] at hcount
      rw [roundsOf_concat, received_append, ih fun n hn hle => hcount n hn (by omega), received_map,
        hcount _ (Nat.succ_pos _) le_rfl, List.flatMap_append, List.flatMap_singleton]

/-- Where the others are safe, the observers that raise on a line stand last. -/
theorem Isolates.failLast (h : Isolates fails observers lines) {n : ℕ} (hpos : 0 < n)
    (hlines : n ≤ (heard lines).length) (hfree : n ≤ Data.maxsize) : FailLast (fails n) observers := by
  obtain ⟨m, rfl⟩ : ∃ m, n = m + 1 := ⟨n - 1, by omega⟩
  -- the round of this line takes place, and shows how far it got
  obtain ⟨es, d, hrun, hpc, hlen⟩ := Data.exists_run_between fails observers
    (show m ≤ (heard lines).length by omega) (show m ≤ Data.maxsize by omega)
  obtain ⟨es', before, line, fs, after, hread, hput, hround, hend, hqueue, hbefore⟩ :=
    (Data.surviving_run hrun).exists_round hpc (by omega) (by omega)
  have hfull : after.queue.length = m + 1 := by
    rw [hqueue, hbefore, List.length_append, List.length_singleton, hlen]
  refine count_reached_iff.mp fun o ho => ?_
  have hall := h.round _ _ _ _ _ (run_trans hrun hread) hput hround hend hqueue o (hfull ▸ ho)
  rw [received_round_of_run (run_trans hrun hread) hput hround hend hqueue, hfull] at hall
  simpa using congrArg List.length hall

/-- **When a failing observer does not starve the others**: exactly when on every line that is handled
the observers that raise stand behind all those that do not. What they raise is taken to be printable:
`run` formats it in its `except` clause, outside of the `try`. -/
theorem isolates_iff (fails : ℕ → ω → Bool) (observers : List ω) (lines : List Str) :
    Isolates fails observers lines ↔
      ∀ n, 0 < n → n ≤ (heard lines).length → n ≤ Data.maxsize → FailLast (fails n) observers := by
  constructor
  · intro h n hpos hlines hfree
    exact h.failLast hpos hlines hfree
  · intro hlast
    have hcount : ∀ es d, run (Data.failingStep fails) (.start observers lines) es = some d →
        ∀ n, 0 < n → n ≤ d.queue.length → ∀ o, fails n o = false →
          (reached (fails n) observers).count o = observers.count o := by
      intro es d hrun n hpos hn
      have hs := Data.surviving_run hrun
      exact count_reached_iff.mpr (hlast n hpos (hn.trans hs.stage.isPrefix_queue.length_le)
        (hn.trans hs.length_queue))
    refine ⟨fun es d line fs d' hrun hput hround hend hqueue o ho => ?_, fun es d hrun hpc o ho => ?_,
      fun es d hrun => (Data.surviving_run hrun).stage.isPrefix_queue, fun es d hrun hstuck => ?_⟩
    · have hpos : 0 < d'.queue.length := by
        rw [hqueue, List.length_append, List.length_singleton]
        omega
      rw [received_round_of_run hrun hput hround hend hqueue,
        hcount _ _ (run_trans hrun hround) _ hpos le_rfl o ho]
    · have hstage := (Data.surviving_run hrun).stage
      rw [hpc] at hstage
      rw [hstage.2]
      exact received_roundsOf _ fun n hpos hn => hcount _ _ hrun n hpos hn o (ho n hpos hn)
    · have hs := Data.surviving_run hrun
      exact hs.stage.queue_eq_take hs.length_queue hstuck

/-- A logger without a file starves the WebSocket thread. -/
theorem not_isolates_logger :
    ¬ ∀ (fails : ℕ → Observer → Bool) (observers : List Observer) (lines : List Str),
      Isolates fails observers lines := by
  intro h
  have hfirst := (h (fun _ o => o = .logger) registered [str "\x7b\x7d"]).failLast Nat.one_pos
    (by decide) (by decide)
  rw [FailLast, registered, List.pairwise_cons] at hfirst
  exact absurd (hfirst.1 .socket (List.mem_singleton_self _) rfl) (by decide)

/-! ## A logger without a file -/

section daemon

variable {Client : Type} [DecidableEq Client] {config : Credentials} {order : KeyOrder}
  {s s' : Daemon Client}

/-- Every round ends at the logger. -/
structure Daemon.Starving (s : Daemon Client) : Prop where
  log : s.log = none
  observers : s.data.observers = registered
  first : ∀ line i, s.data.pc = .notify line i → i = 0
  socket : received .socket s.data.updates = []

/-- **Every step of the daemon keeps it so.** -/
theorem Daemon.Starving.step {t : Task Client} (hs : s.Starving)
    (hstep : s.step config order t = some s') : s'.Starving := by
  rcases data_step hstep with ⟨rfl, hdata, hlog⟩ | ⟨-, hdata, hlog⟩
  · obtain ⟨hnone, hobservers, hfirst, hsocket⟩ := hs
    have hnone' : s'.log = none := by
      rw [hnone] at hlog
      exact Option.not_isSome_iff_eq_none.mp (hlog ▸ Bool.false_ne_true)
    refine ⟨hnone', (Data.observers_step hdata).trans hobservers, fun line i hpc => ?_, ?_⟩
    · rcases Data.notify_step hdata hpc with rfl | ⟨j, o, -, hpc', hobs, hpasses, -⟩
      · rfl
      · -- the logger has been called, which raises
        obtain rfl := hfirst line j hpc'
        rw [hobservers] at hobs
        obtain rfl := Option.some.inj hobs
        rw [raises, hnone] at hpasses
        cases hpasses
    · rw [Data.updates_step hdata, received_append, hsocket, List.nil_append]
      cases hpc : s.data.pc with
      | readline => rw [Data.calling, hpc]; rfl
      | put line => rw [Data.calling, hpc]; rfl
      | notify line i =>
          obtain rfl := hfirst line i hpc
          rw [Data.calling, hpc, hobservers]
          rfl
  · obtain ⟨hnone, hobservers, hfirst, hsocket⟩ := hs
    exact ⟨hlog.trans hnone, hdata ▸ hobservers, hdata ▸ hfirst, hdata ▸ hsocket⟩

/-- **Without a log file the WebSocket thread hears of no line**, in any run of the daemon. -/
theorem received_socket_of_no_log {lines : List Str} {server : Server Client} {ts : List (Task Client)}
    (hrun : run (Daemon.step config order) { Daemon.start lines server with log := none } ts = some s) :
    received .socket s.data.updates = [] := by
  have hstart : { Daemon.start lines server with log := none }.Starving := by
    refine ⟨rfl, rfl, ?_, rfl⟩
    rintro line i ⟨⟩
  exact (run_invariant Daemon.Starving (fun _ _ _ hs => hs.step) hstart hrun).socket

end daemon

end LibreXC.Linuino
