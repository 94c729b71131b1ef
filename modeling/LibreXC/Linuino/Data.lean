import LibreXC.Lib.Python2

/-! # The Data thread: `data.py`

`Data.run` reads a line, `add_data` puts it into a queue of 100 places and then notifies the
observers one by one. The thread is modelled statement by statement, so that other threads can act
in between; where it waits is its program counter. The observers are of any type `ω`, and `raises`
says which update calls raise: the exception leaves `notify` and `add_data` and is caught in `run`.

No code of the daemon takes from the queue, so `Data` has no step that does. -/

namespace LibreXC.Linuino

open Ascii Python2

/-- Where the thread stands. -/
inductive Pc
  /-- In `connection.readline()`. -/
  | readline
  /-- In `self.queue.put(json)`. -/
  | put (line : Str)
  /-- In the `for` loop of `notify`, about to fetch the observer number `i`. -/
  | notify (line : Str) (i : ℕ)
  deriving DecidableEq

/-- **The Data thread**, with the update calls it has made so far. -/
structure Data (ω : Type) where
  /-- The lines `readline` has still to return. -/
  unread : List Str
  /-- `Data.queue`. -/
  queue : List Str
  /-- `Data.observers`. -/
  observers : List ω
  pc : Pc
  /-- The calls `observer.update(line)`, in order. -/
  updates : List (ω × Str)

/-- The line that waits for a place in the queue. -/
def Pc.pending : Pc → List Str
  | .put line => [line]
  | _ => []

namespace Data

variable {ω : Type}

/-- `Queue.Queue(maxsize=100)`. -/
def maxsize : ℕ := 100

/-- `Data.add_observer(observer)`. -/
def add_observer (d : Data ω) (observer : ω) : Data ω :=
  { d with observers := d.observers ++ [observer] }

/-- The update call the thread makes next. -/
def calling (d : Data ω) : Option (ω × Str) :=
  match d.pc with
  | .notify line i => d.observers[i]?.map (·, line)
  | _ => none

/-- **One step of the thread**, none where it blocks: in `readline` without a line, in `put` on a
full queue. -/
def step (raises : ω → Str → Bool) (d : Data ω) : Option (Data ω) :=
  match d.pc with
  | .readline =>
      match d.unread with
      | [] => none
      | line :: unread =>
          some { d with unread := unread, pc := if line = [] then .readline else .put line }
  | .put line =>
      if d.queue.length < maxsize then
        some { d with queue := d.queue ++ [line], pc := .notify line 0 }
      else none
  | .notify line i =>
      match d.observers[i]? with
      | none => some { d with pc := .readline }
      | some observer =>
          some { d with
            updates := d.updates ++ [(observer, line)]
            pc := if raises observer line then .readline else .notify line (i + 1) }

/-- The thread before its first line. -/
def start (observers : List ω) (lines : List Str) : Data ω := ⟨lines, [], observers, .readline, []⟩

/-- The thread waits for bytes. -/
def Waiting (d : Data ω) : Prop := d.pc = .readline ∧ d.unread = []

instance (d : Data ω) : Decidable d.Waiting := inferInstanceAs (Decidable (_ ∧ _))

/-- `readline` is going to return these lines, too. -/
def hand (d : Data ω) (lines : List Str) : Data ω := { d with unread := d.unread ++ lines }

/-- The lines that have been read and are not in the queue yet. -/
def pending (d : Data ω) : List Str := d.pc.pending ++ d.unread

end Data

/-- `if line:`, the lines that are handed to `add_data`. -/
def heard (lines : List Str) : List Str := lines.filter (· ≠ [])

/-- The lines of the update calls on one observer. -/
def received {ω : Type} [DecidableEq ω] (observer : ω) (updates : List (ω × Str)) : List Str :=
  (updates.filter (·.1 = observer)).map Prod.snd

/-- One round of `notify` for every line. -/
def rounds {ω : Type} (observers : List ω) (lines : List Str) : List (ω × Str) :=
  lines.flatMap fun line => observers.map (·, line)

/-- Rounds of different extent: the line number `n`, counted from one, is brought to `calls n`. -/
def roundsOf {ω : Type} (calls : ℕ → List ω) (lines : List Str) : List (ω × Str) :=
  (lines.zipIdx 1).flatMap fun (line, n) => (calls n).map (·, line)

theorem roundsOf_concat {ω : Type} (calls : ℕ → List ω) (lines : List Str) (line : Str) :
    roundsOf calls (lines ++ [line])
      = roundsOf calls lines ++ (calls (lines.length + 1)).map (·, line) := by
  rw [roundsOf, List.zipIdx_append, List.flatMap_append, List.zipIdx_singleton,
    List.flatMap_singleton, Nat.add_comm 1]
  rfl

/-- Rounds that all reach the same observers. -/
theorem roundsOf_const {ω : Type} (observers : List ω) (lines : List Str) :
    roundsOf (fun _ => observers) lines = rounds observers lines := by
  induction lines using List.reverseRecOn with
  | nil => rfl
  | append_singleton lines line ih =>
      rw [roundsOf_concat, ih, rounds, rounds, List.flatMap_append, List.flatMap_singleton]

section received

variable {ω : Type} [DecidableEq ω] {observers : List ω} {observer : ω}

theorem received_append (updates updates' : List (ω × Str)) :
    received observer (updates ++ updates') = received observer updates ++ received observer updates' := by
  rw [received, List.filter_append, List.map_append]
  rfl

/-- In one round an observer is called as often as it is in the list. -/
theorem received_map (observers : List ω) (line : Str) :
    received observer (observers.map (·, line)) = List.replicate (observers.count observer) line := by
  induction observers with
  | nil => rfl
  | cons o observers ih =>
      rw [List.map_cons, ← List.singleton_append, received_append, ih]
      by_cases heq : o = observer
      · subst heq
        rw [List.count_cons_self, List.replicate_succ]
        simp [received]
      · rw [List.count_cons_of_ne heq]
        simp [received, heq]

/-- In one round an observer that is in the list once is called once. -/
theorem received_round (hnodup : observers.Nodup) (line : Str) :
    received observer (observers.map (·, line)) = if observer ∈ observers then [line] else [] := by
  rw [received_map, hnodup.count]
  split <;> rfl

/-- **Whole rounds bring every line once, in order.** -/
theorem received_rounds (hnodup : observers.Nodup) (hmem : observer ∈ observers) (lines : List Str) :
    received observer (rounds observers lines) = lines := by
  induction lines with
  | nil => rfl
  | cons line lines ih =>
      rw [rounds, List.flatMap_cons, received_append, received_round hnodup, if_pos hmem]
      exact congrArg (line :: ·) ih

end received

namespace Data

variable {ω : Type} {observers : List ω} {lines : List Str} {raises : ω → Str → Bool} {d d' : Data ω}

/-! ## One step -/

/-- **What a step of the thread does.** -/
theorem step_cases (h : d.step raises = some d') :
    (∃ line unread, d.pc = .readline ∧ d.unread = line :: unread ∧
        d' = { d with unread := unread, pc := if line = [] then .readline else .put line }) ∨
      (∃ line, d.pc = .put line ∧ d.queue.length < maxsize ∧
        d' = { d with queue := d.queue ++ [line], pc := .notify line 0 }) ∨
      (∃ line i, d.pc = .notify line i ∧ d.observers[i]? = none ∧ d' = { d with pc := .readline }) ∨
      ∃ line i observer, d.pc = .notify line i ∧ d.observers[i]? = some observer ∧
        d' = { d with
          updates := d.updates ++ [(observer, line)]
          pc := if raises observer line then .readline else .notify line (i + 1) } := by
  unfold step at h
  cases hpc : d.pc with
  | readline =>
      simp only [hpc] at h
      cases hunread : d.unread with
      | nil =>
          simp only [hunread] at h
          cases h
      | cons line unread =>
          simp only [hunread] at h
          exact .inl ⟨line, unread, rfl, rfl, (Option.some.inj h).symm⟩
  | put line =>
      simp only [hpc] at h
      split at h
      · next hfree => exact .inr (.inl ⟨line, rfl, hfree, (Option.some.inj h).symm⟩)
      · cases h
  | notify line i =>
      simp only [hpc] at h
      cases hobs : d.observers[i]? with
      | none =>
          simp only [hobs] at h
          exact .inr (.inr (.inl ⟨line, i, rfl, hobs, (Option.some.inj h).symm⟩))
      | some observer =>
          simp only [hobs] at h
          exact .inr (.inr (.inr ⟨line, i, observer, rfl, hobs, (Option.some.inj h).symm⟩))

/-- **Where the thread blocks**: in `readline` without a line, or in `put` on a full queue. -/
theorem step_eq_none :
    d.step raises = none ↔ d.pc = .readline ∧ d.unread = [] ∨
      ∃ line, d.pc = .put line ∧ ¬ d.queue.length < maxsize := by
  unfold step
  cases hpc : d.pc with
  | readline => cases hunread : d.unread <;> simp
  | put line => simp
  | notify line i => cases hobs : d.observers[i]? <;> simp [hobs]

/-- The thread does not block in a round. -/
theorem pc_of_step_eq_none (h : d.step raises = none) (line : Str) (i : ℕ) : d.pc ≠ .notify line i := by
  intro hpc
  rcases step_eq_none.mp h with ⟨hpc', -⟩ | ⟨line', hpc', -⟩
  · rw [hpc] at hpc'
    cases hpc'
  · rw [hpc] at hpc'
    cases hpc'

/-- The update call of a step is the one `calling` announces. -/
theorem updates_step (h : d.step raises = some d') : d'.updates = d.updates ++ d.calling.toList := by
  rcases step_cases h with ⟨line, unread, hpc, -, rfl⟩ | ⟨line, hpc, -, rfl⟩ | ⟨line, i, hpc, hobs, rfl⟩
    | ⟨line, i, observer, hpc, hobs, rfl⟩
  · simp [calling, hpc]
  · simp [calling, hpc]
  · simp [calling, hpc, hobs]
  · simp [calling, hpc, hobs]

/-- The thread does not touch the list of observers. -/
theorem observers_step (h : d.step raises = some d') : d'.observers = d.observers := by
  rcases step_cases h with ⟨line, unread, -, -, rfl⟩ | ⟨line, -, -, rfl⟩ | ⟨line, i, -, -, rfl⟩
    | ⟨line, i, observer, -, -, rfl⟩ <;> rfl

/-- Nothing leaves the queue. -/
theorem isPrefix_queue_step (h : d.step raises = some d') : d.queue <+: d'.queue := by
  rcases step_cases h with ⟨line, unread, -, -, rfl⟩ | ⟨line, -, -, rfl⟩ | ⟨line, i, -, -, rfl⟩
    | ⟨line, i, observer, -, -, rfl⟩
  · exact List.prefix_rfl
  · exact List.prefix_append _ _
  · exact List.prefix_rfl
  · exact List.prefix_rfl

/-- A thread that waits has put all lines into the queue. -/
theorem pending_eq_nil (hw : d.Waiting) : d.pending = [] := by
  rw [pending, hw.1, hw.2]
  rfl

@[simp] theorem hand_nil (d : Data ω) : d.hand [] = d := by
  rw [hand, List.append_nil]

@[simp] theorem pending_hand (d : Data ω) (lines : List Str) :
    (d.hand lines).pending = d.pending ++ lines := (List.append_assoc _ _ _).symm

/-- **Lines leave `readline` for the queue**, in order. -/
theorem pending_step (h : d.step raises = some d') (hline : [] ∉ d.unread) :
    d'.queue ++ d'.pending = d.queue ++ d.pending := by
  rcases step_cases h with ⟨line, unread, hpc, hunread, rfl⟩ | ⟨line, hpc, -, rfl⟩ | ⟨line, i, hpc, -, rfl⟩
    | ⟨line, i, observer, hpc, -, rfl⟩
  · have hne : line ≠ [] := by
      rintro rfl
      exact hline (hunread ▸ List.mem_cons_self)
    unfold pending
    rw [hpc, hunread, if_neg hne]
    rfl
  · unfold pending
    rw [hpc, List.append_assoc]
    rfl
  · unfold pending
    rw [hpc]
    rfl
  · unfold pending
    rw [hpc]
    dsimp only
    split <;> rfl

/-- **How the thread comes to stand in a round**: it has begun it, or the call before has returned. -/
theorem notify_step {line : Str} {i : ℕ} (h : d.step raises = some d') (hpc : d'.pc = .notify line i) :
    i = 0 ∨ ∃ j observer, i = j + 1 ∧ d.pc = .notify line j ∧ d.observers[j]? = some observer ∧
      raises observer line = false ∧ d'.queue = d.queue := by
  rcases step_cases h with ⟨line', unread, -, -, rfl⟩ | ⟨line', -, -, rfl⟩ | ⟨line', j, -, -, rfl⟩
    | ⟨line', j, observer, hpc', hobs, rfl⟩
  · dsimp only at hpc
    split at hpc <;> cases hpc
  · exact .inl (Pc.notify.inj hpc).2.symm
  · cases hpc
  · dsimp only at hpc
    split at hpc
    · cases hpc
    · next hraises =>
        obtain ⟨rfl, rfl⟩ := Pc.notify.inj hpc
        exact .inr ⟨j, observer, rfl, hpc', hobs, Bool.eq_false_iff.mpr hraises, rfl⟩

/-! ## What the thread has done so far -/

/-- The lines of a thread that stands at `pc`: those in `queue` have been handed to all observers, or
all but the last one, whose round is under way. -/
def Stage (observers : List ω) (lines : List Str) (d : Data ω) : Pc → Prop
  | .readline => heard lines = d.queue ++ heard d.unread ∧ d.updates = rounds observers d.queue
  | .put line =>
      heard lines = d.queue ++ line :: heard d.unread ∧ d.updates = rounds observers d.queue
  | .notify line i =>
      heard lines = d.queue ++ heard d.unread ∧ i ≤ observers.length ∧
        ∃ before, d.queue = before ++ [line] ∧
          d.updates = rounds observers before ++ (observers.take i).map (·, line)

/-- **The progress of a thread none of whose observers raises.** -/
structure Progress (observers : List ω) (lines : List Str) (d : Data ω) : Prop where
  observers_eq : d.observers = observers
  length_queue : d.queue.length ≤ maxsize
  stage : Stage observers lines d d.pc

theorem progress_start : Progress observers lines (start observers lines) :=
  ⟨rfl, Nat.zero_le _, rfl, rfl⟩

/-- The same for rounds that need not reach all observers. -/
def StageOf (calls : ℕ → List ω) (lines : List Str) (d : Data ω) : Pc → Prop
  | .readline => heard lines = d.queue ++ heard d.unread ∧ d.updates = roundsOf calls d.queue
  | .put line =>
      heard lines = d.queue ++ line :: heard d.unread ∧ d.updates = roundsOf calls d.queue
  | .notify line i =>
      heard lines = d.queue ++ heard d.unread ∧ i ≤ (calls d.queue.length).length ∧
        ∃ before, d.queue = before ++ [line] ∧
          d.updates = roundsOf calls before ++ ((calls d.queue.length).take i).map (·, line)

theorem stage_iff {pc : Pc} : Stage observers lines d pc ↔ StageOf (fun _ => observers) lines d pc := by
  cases pc <;> simp only [Stage, StageOf, roundsOf_const]

/-- **The round under way follows `calls`**: the observer it fetches is the next one there, and the
last one if its call raises. -/
def Follows (calls : List ω) (raises : ω → Str → Bool) (d : Data ω) : Prop :=
  ∀ line i, d.pc = .notify line i → d.observers[i]? = calls[i]? ∧
    ∀ observer, d.observers[i]? = some observer → raises observer line = true → calls.length ≤ i + 1

/-- The queue has at most `maxsize` lines after every step. -/
theorem length_queue_step (hstep : d.step raises = some d') (hlen : d.queue.length ≤ maxsize) :
    d'.queue.length ≤ maxsize := by
  rcases step_cases hstep with ⟨line, unread, -, -, rfl⟩ | ⟨line, -, hfree, rfl⟩
    | ⟨line, i, -, -, rfl⟩ | ⟨line, i, observer, -, -, rfl⟩
  · exact hlen
  · rw [List.length_append, List.length_singleton]
    exact hfree
  · exact hlen
  · exact hlen

/-- **A step that follows the rounds keeps the stage.** -/
theorem StageOf.step {calls : ℕ → List ω} (hstage : StageOf calls lines d d.pc)
    (hfollows : Follows (calls d.queue.length) raises d) (hstep : d.step raises = some d') :
    StageOf calls lines d' d'.pc := by
  rcases step_cases hstep with ⟨line, unread, hpc, hunread, rfl⟩ | ⟨line, hpc, hfree, rfl⟩
    | ⟨line, i, hpc, hobs, rfl⟩ | ⟨line, i, observer, hpc, hobs, rfl⟩
  · -- `readline` has returned; an empty line is not handed on
    rw [hpc] at hstage
    obtain ⟨hlines, hupdates⟩ := hstage
    by_cases hline : line = []
    · have hheard : heard d.unread = heard unread := by
        rw [hunread, heard, List.filter_cons_of_neg (by simpa using hline)]
        rfl
      rw [hheard] at hlines
      dsimp only
      rw [if_pos hline]
      exact ⟨hlines, hupdates⟩
    · have hheard : heard d.unread = line :: heard unread := by
        rw [hunread, heard, List.filter_cons_of_pos (by simpa using hline)]
        rfl
      rw [hheard] at hlines
      dsimp only
      rw [if_neg hline]
      exact ⟨hlines, hupdates⟩
  · -- the line has entered the queue and its round begins
    rw [hpc] at hstage
    obtain ⟨hlines, hupdates⟩ := hstage
    refine ⟨?_, Nat.zero_le _, d.queue, rfl, ?_⟩
    · rw [hlines, List.append_assoc, List.singleton_append]
    · rw [List.take_zero, List.map_nil, List.append_nil]
      exact hupdates
  · -- the round is complete
    obtain ⟨hnext, -⟩ := hfollows line i hpc
    rw [hpc] at hstage
    obtain ⟨hlines, -, before, hqueue, hupdates⟩ := hstage
    rw [hobs, eq_comm, List.getElem?_eq_none_iff] at hnext
    refine ⟨hlines, ?_⟩
    dsimp only
    rw [hupdates, List.take_of_length_le hnext, hqueue, roundsOf_concat, List.length_append]
    rfl
  · -- one more observer has been called, and the round goes on unless it has raised
    obtain ⟨hnext, hlast⟩ := hfollows line i hpc
    rw [hpc] at hstage
    obtain ⟨hlines, -, before, hqueue, hupdates⟩ := hstage
    rw [hobs, eq_comm] at hnext
    obtain ⟨hlt, -⟩ := List.getElem?_eq_some_iff.mp hnext
    have htake : d.updates ++ [(observer, line)]
        = roundsOf calls before ++ ((calls d.queue.length).take (i + 1)).map (·, line) := by
      rw [hupdates, List.append_assoc, List.take_add_one, hnext, List.map_append]
      rfl
    cases hraises : raises observer line with
    | true =>
        dsimp only
        rw [if_pos rfl]
        refine ⟨hlines, ?_⟩
        dsimp only
        rw [htake, List.take_of_length_le (hlast observer hobs hraises), hqueue, roundsOf_concat,
          List.length_append]
        rfl
    | false =>
        dsimp only
        rw [if_neg Bool.false_ne_true]
        exact ⟨hlines, hlt, before, hqueue, htake⟩

/-- The queue holds the first of the lines. -/
theorem StageOf.isPrefix_queue {calls : ℕ → List ω} (hstage : StageOf calls lines d d.pc) :
    d.queue <+: heard lines := by
  cases hpc : d.pc with
  | readline =>
      rw [hpc] at hstage
      exact ⟨_, hstage.1.symm⟩
  | put line =>
      rw [hpc] at hstage
      exact ⟨_, hstage.1.symm⟩
  | notify line i =>
      rw [hpc] at hstage
      exact ⟨_, hstage.1.symm⟩

/-- **Where the thread blocks, the queue holds all lines that find a place.** -/
theorem StageOf.queue_eq_take {calls : ℕ → List ω} (hstage : StageOf calls lines d d.pc)
    (hlen : d.queue.length ≤ maxsize) (hstuck : d.step raises = none) :
    d.queue = (heard lines).take maxsize := by
  rcases step_eq_none.mp hstuck with ⟨hpc, hunread⟩ | ⟨line, hpc, hfull⟩
  · rw [hpc] at hstage
    have hheard : heard lines = d.queue := by
      rw [hstage.1, hunread]
      exact List.append_nil _
    rw [hheard, List.take_of_length_le hlen]
  · have hmax : d.queue.length = maxsize := le_antisymm hlen (not_lt.mp hfull)
    rw [← hmax]
    exact List.prefix_iff_eq_take.mp hstage.isPrefix_queue

/-- **Every step of the thread keeps its progress.** -/
theorem Progress.step (hp : Progress observers lines d) (hraises : ∀ o line, raises o line = false)
    (hstep : d.step raises = some d') : Progress observers lines d' := by
  obtain ⟨hobservers, hlen, hstage⟩ := hp
  have hfollows : Follows observers raises d := by
    intro line i _
    refine ⟨congrArg (·[i]?) hobservers, fun observer _ hraised => ?_⟩
    rw [hraises] at hraised
    cases hraised
  refine ⟨(observers_step hstep).trans hobservers, length_queue_step hstep hlen, ?_⟩
  exact stage_iff.mpr ((stage_iff.mp hstage).step hfollows hstep)

section received

variable [DecidableEq ω] {observer : ω}

/-- Between two rounds every observer has received the lines in the queue. -/
theorem Stage.received_eq (hstage : Stage observers lines d d.pc) (hnodup : observers.Nodup)
    (hmem : observer ∈ observers) (hpc : ∀ line i, d.pc ≠ .notify line i) :
    received observer d.updates = d.queue := by
  cases hd : d.pc with
  | readline =>
      rw [hd] at hstage
      rw [hstage.2, received_rounds hnodup hmem]
  | put line =>
      rw [hd] at hstage
      rw [hstage.2, received_rounds hnodup hmem]
  | notify line i => exact absurd hd (hpc line i)

/-- In a round the last line may be missing. -/
theorem Stage.isPrefix_received (hstage : Stage observers lines d d.pc) (hnodup : observers.Nodup)
    (hmem : observer ∈ observers) : received observer d.updates <+: d.queue := by
  by_cases hpc : ∃ line i, d.pc = .notify line i
  · obtain ⟨line, i, hpc⟩ := hpc
    rw [hpc] at hstage
    obtain ⟨-, -, before, hqueue, hupdates⟩ := hstage
    have htake : (observers.take i).Nodup := hnodup.sublist (List.take_sublist _ _)
    rw [hupdates, received_append, received_rounds hnodup hmem, received_round htake, hqueue]
    refine (List.prefix_append_right_inj before).mpr ?_
    split
    · exact List.prefix_rfl
    · exact List.nil_prefix
  · rw [hstage.received_eq hnodup hmem fun line i heq => hpc ⟨line, i, heq⟩]

/-- **Every observer has received a prefix of the lines**, each once and in order. -/
theorem Progress.isPrefix_received (hp : Progress observers lines d) (hnodup : observers.Nodup)
    (hmem : observer ∈ observers) : received observer d.updates <+: heard lines :=
  (hp.stage.isPrefix_received hnodup hmem).trans (stage_iff.mp hp.stage).isPrefix_queue

/-- In `readline` with nothing left to read, every observer has received every line. -/
theorem Progress.received_eq (hp : Progress observers lines d) (hnodup : observers.Nodup)
    (hmem : observer ∈ observers) (hpc : d.pc = .readline) (hunread : d.unread = []) :
    received observer d.updates = heard lines := by
  have hstage := hp.stage
  rw [hpc] at hstage
  rw [hstage.2, received_rounds hnodup hmem, hstage.1, hunread]
  exact (List.append_nil _).symm

end received

/-- **The queue has a free place before each `put`** of a thread with few enough lines. -/
theorem Progress.length_queue_lt (hp : Progress observers lines d)
    (hlines : (heard lines).length ≤ maxsize) {line : Str} (hpc : d.pc = .put line) :
    d.queue.length < maxsize := by
  have hstage := hp.stage
  rw [hpc] at hstage
  have hlen := congrArg List.length hstage.1
  rw [List.length_append, List.length_cons] at hlen
  omega

/-- In `readline` with nothing left to read, all lines are in the queue. -/
theorem Progress.length_heard_le (hp : Progress observers lines d) (hpc : d.pc = .readline)
    (hunread : d.unread = []) : (heard lines).length ≤ maxsize := by
  have hstage := hp.stage
  rw [hpc] at hstage
  rw [hstage.1, hunread, heard, List.filter_nil, List.append_nil]
  exact hp.length_queue

/-! ## Termination -/

/-- The steps the thread has still to make at `pc` for the current line, in `n` observers. -/
def Pc.remaining (n : ℕ) : Pc → ℕ
  | .readline => 0
  | .put _ => n + 2
  | .notify _ i => n - i + 1

/-- The steps the thread can still make. -/
def remaining (d : Data ω) : ℕ :=
  (d.observers.length + 3) * d.unread.length + Pc.remaining d.observers.length d.pc

/-- The same, when there may come to be `n` observers. -/
def remainingOf (n : ℕ) (d : Data ω) : ℕ := (n + 3) * d.unread.length + Pc.remaining n d.pc

/-- **Every step is one of finitely many**, also while the list of observers grows. -/
theorem remainingOf_step_lt {n : ℕ} (hn : d.observers.length ≤ n) (h : d.step raises = some d') :
    d'.remainingOf n < d.remainingOf n := by
  unfold remainingOf
  rcases step_cases h with ⟨line, unread, hpc, hunread, rfl⟩ | ⟨line, hpc, -, rfl⟩
    | ⟨line, i, hpc, -, rfl⟩ | ⟨line, i, observer, hpc, hobs, rfl⟩
  · rw [hpc, hunread, List.length_cons, Nat.mul_succ]
    dsimp only
    split <;> simp only [Pc.remaining] <;> omega
  · rw [hpc]
    simp only [Pc.remaining]
    omega
  · rw [hpc]
    simp only [Pc.remaining]
    omega
  · obtain ⟨hlt, -⟩ := List.getElem?_eq_some_iff.mp hobs
    rw [hpc]
    dsimp only
    split <;> simp only [Pc.remaining] <;> omega

/-- **Every step is one of finitely many.** -/
theorem remaining_step_lt (h : d.step raises = some d') : d'.remaining < d.remaining := by
  have hlt := remainingOf_step_lt le_rfl h
  rw [remaining, observers_step h]
  exact hlt

end Data

end LibreXC.Linuino
