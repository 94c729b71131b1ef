import LibreXC.Linuino.Data
import LibreXC.SerialLink.Exchange

/-! # The Data thread behind the serial link

`Data.run` is in `readline`, where it polls and reads the device, or it puts the line it got into its
queue and calls the observers; then it leaves the device alone. The queue takes a hundred lines and
nothing takes them out again, so the thread blocks for good with the line number hundred and one in its
hands. Observers may be registered at any time, and any of their calls may raise.

* **`answered_of_careful`** — if every request finds the input queue empty and carries a byte, the
  lines that are read answer the commands in order. At rest all answers have been read, or a hundred
  and one of them.
* **`drains_of_careful`** — left alone, the link and the thread come to rest. -/

namespace LibreXC.SerialLink

open Arduino Ascii Linuino Python2 TransitionSystem

/-- **The serial link and the thread that reads it.** -/
structure Feed (ω : Type) where
  link : Exchange
  data : Data ω

/-- **Who moves next.** -/
inductive Move (ω : Type)
  /-- `request_cmd`, the sketch, the line, or the Data thread in `readline`. -/
  | link (a : Action)
  /-- The Data thread elsewhere, where `raises` tells which calls of observers raise. -/
  | data (raises : ω → Str → Bool)
  /-- `Data.add_observer(observer)`. -/
  | register (observer : ω)

/-- The actions of `readline`. -/
def Action.polls : Action → Bool
  | .select | .read => true
  | _ => false

namespace Feed

variable {ω : Type}

/-- The sketch and the thread have started. -/
def start (observers : List ω) : Feed ω := ⟨.start, .start observers []⟩

/-- **One move.** Only a thread that is in `readline` polls and reads. -/
def step (elm : ℕ → ELM) (s : Feed ω) : Move ω → Option (Feed ω)
  | .link a =>
      if a.polls = true → s.data.Waiting then
        (s.link.step elm a).map fun link =>
          ⟨link, s.data.hand (link.device.delivered.drop s.link.device.delivered.length)⟩
      else none
  | .data raises => (s.data.step raises).map fun data => { s with data := data }
  | .register observer => some { s with data := s.data.add_observer observer }

end Feed

variable {ω : Type}

/-- No command is sent and no observer registered. -/
def Unprompted (m : Move ω) : Prop :=
  (∀ cmd, m ≠ .link (.request cmd)) ∧ ∀ observer, m ≠ .register observer

/-- Nothing moves unprompted. -/
def Feed.AtRest (elm : ℕ → ELM) (s : Feed ω) : Prop := ∀ m, Unprompted m → s.step elm m = none

/-- **Commands are answered**, in the order they were issued. -/
structure Answered (elm : ℕ → ELM) (s : Feed ω) : Prop where
  /-- The line number `n` answers the command number `n`. -/
  in_order : ∀ n line, s.link.device.delivered[n]? = some line →
    ∃ cmd, s.link.issued[n]? = some cmd ∧ Answers (elm n) cmd line
  /-- The lines enter the queue in this order. -/
  queued : s.data.queue <+: s.link.device.delivered
  /-- At rest every answer has been read, up to the one for which the queue has no place. -/
  complete : s.AtRest elm →
    s.link.device.delivered.length = min s.link.issued.length (Data.maxsize + 1)

/-- **Left alone, the link and the thread come to rest.** -/
structure Drains (elm : ℕ → ELM) (s : Feed ω) : Prop where
  /-- A run in which nobody prompts is bounded in length. -/
  ends : ∃ bound, ∀ ms t, (∀ m ∈ ms, Unprompted m) → run (Feed.step elm) s ms = some t →
    ms.length ≤ bound
  /-- Where it cannot go on, the commands issued before are answered, the one whose device was still
  open included. -/
  answered : ∀ ms t, (∀ m ∈ ms, Unprompted m) → run (Feed.step elm) s ms = some t → t.AtRest elm →
    Answered elm t ∧ t.link.device.delivered.length
      = min (s.link.issued ++ s.link.opened.toList).length (Data.maxsize + 1)

/-- **The condition on a move**: a request finds the input queue empty, and its integer is a byte. -/
def CarefulMove (s : Feed ω) (m : Move ω) : Prop := ∀ a, m = .link a → Careful s.link a

/-! ## One move -/

variable {elm : ℕ → ELM} {s s' : Feed ω} {m : Move ω}

/-- Only `os.read` delivers, one line at most. -/
theorem Device.delivered_step {d d' : Device} {e : Access} (h : d.step e = some d') :
    ∃ new, d'.delivered = d.delivered ++ new ∧ new.length ≤ 1 ∧ (e ≠ .read → new = []) := by
  have hsame : ∃ new, d.delivered = d.delivered ++ new ∧ new.length ≤ 1 ∧ (e ≠ .read → new = []) :=
    ⟨[], (List.append_nil _).symm, Nat.zero_le _, fun _ => rfl⟩
  rcases step_cases h with ⟨b, -, rfl⟩ | ⟨-, -, rfl⟩ | ⟨-, -, -, rfl⟩ | ⟨queue, rfl, -, rfl⟩
    | ⟨b, queue, -, -, -, rfl⟩ | ⟨byteId, value, -, -, rfl⟩ | ⟨byteId, value, -, -, rfl⟩
  any_goals exact hsame
  exact ⟨_, rfl, le_rfl, fun hne => absurd rfl hne⟩

theorem Exchange.delivered_step {x x' : Exchange} {a : Action} (h : x.step elm a = some x') :
    ∃ new, x'.device.delivered = x.device.delivered ++ new ∧ new.length ≤ 1 ∧
      (a ≠ .read → new = []) := by
  have hsame : ∃ new, x.device.delivered = x.device.delivered ++ new ∧ new.length ≤ 1 ∧
      (a ≠ .read → new = []) := ⟨[], (List.append_nil _).symm, Nat.zero_le _, fun _ => rfl⟩
  rcases step_cases h with ⟨cmd, byteId, value, -, -, -, rfl⟩ | ⟨cmd, byteId, value, -, -, -, rfl⟩
    | ⟨b, -, -, rfl⟩ | ⟨b, transmit, -, -, rfl⟩ | ⟨e, device, ha, hdevice, rfl⟩
  any_goals exact hsame
  obtain ⟨new, hnew, hlength, hread⟩ := Device.delivered_step hdevice
  refine ⟨new, hnew, hlength, fun hne => hread fun he => ?_⟩
  rcases ha with ⟨-, rfl⟩ | ⟨rfl, -⟩
  · cases he
  · exact hne rfl

/-- An action other than reading leaves the delivered lines as they are. -/
theorem Exchange.delivered_eq {x x' : Exchange} {a : Action} (h : x.step elm a = some x')
    (ha : a ≠ .read) : x'.device.delivered = x.device.delivered := by
  obtain ⟨new, hnew, -, hnil⟩ := delivered_step h
  rw [hnew, hnil ha, List.append_nil]

/-- The thread is handed what `readline` has delivered. -/
theorem Feed.step_link {a : Action} {link : Exchange} {new : List Str}
    (hwaiting : a.polls = true → s.data.Waiting) (hlink : s.link.step elm a = some link)
    (hnew : link.device.delivered = s.link.device.delivered ++ new) :
    s.step elm (.link a) = some ⟨link, s.data.hand new⟩ := by
  rw [step, if_pos hwaiting, hlink, Option.map_some, hnew, List.drop_left]

/-- **What a move does**: the link moves and may hand on a line, the thread moves by itself, or it gets
one more observer. -/
theorem Feed.step_cases (h : s.step elm m = some s') :
    (∃ a new, m = .link a ∧ (a.polls = true → s.data.Waiting) ∧
        s.link.step elm a = some s'.link ∧
        s'.link.device.delivered = s.link.device.delivered ++ new ∧ new.length ≤ 1 ∧
        (a ≠ .read → new = []) ∧ s'.data = s.data.hand new) ∨
      (∃ raises, m = .data raises ∧ s.data.step raises = some s'.data ∧ s'.link = s.link) ∨
      ∃ observer, m = .register observer ∧ s'.link = s.link ∧
        s'.data = s.data.add_observer observer := by
  cases m with
  | link a =>
      rw [step] at h
      split at h
      · next hwaiting =>
          obtain ⟨link, hlink, rfl⟩ := Option.map_eq_some_iff.mp h
          obtain ⟨new, hnew, hlength, hread⟩ := Exchange.delivered_step hlink
          refine .inl ⟨a, new, rfl, hwaiting, hlink, hnew, hlength, hread, ?_⟩
          dsimp only
          rw [hnew, List.drop_left]
      · cases h
  | data raises =>
      obtain ⟨data, hdata, rfl⟩ := Option.map_eq_some_iff.mp h
      exact .inr (.inl ⟨raises, rfl, hdata, rfl⟩)
  | register observer =>
      obtain rfl := Option.some.inj h
      exact .inr (.inr ⟨observer, rfl, rfl, rfl⟩)

/-! ## From `readline` to the queue -/

/-- **What holds on a careful run**: nothing is lost on the link, nor between `readline` and the queue. -/
structure Feed.Intact (elm : ℕ → ELM) (s : Feed ω) : Prop where
  link : s.link.Intact elm
  delivered : s.link.device.delivered = s.data.queue ++ s.data.pending
  length_queue : s.data.queue.length ≤ Data.maxsize
  length_pending : s.data.pending.length ≤ 1

theorem Feed.intact_start (elm : ℕ → ELM) (observers : List ω) : (start observers).Intact elm :=
  ⟨Exchange.intact_start, rfl, Nat.zero_le _, Nat.zero_le _⟩

/-- **Every careful move keeps it.** -/
theorem Feed.Intact.step (hi : s.Intact elm) (hcareful : CarefulMove s m)
    (h : s.step elm m = some s') : s'.Intact elm := by
  obtain ⟨hlink, hdelivered, hqueue, hpending⟩ := hi
  rcases step_cases h with ⟨a, new, hm, hwaiting, hstep, hnew, hlength, hread, hdata⟩
    | ⟨raises, -, hstep, hsame⟩ | ⟨observer, -, hsame, hdata⟩
  · refine ⟨hlink.step (hcareful a hm) hstep, ?_, ?_, ?_⟩
    · rw [hnew, hdelivered, hdata, Data.pending_hand, List.append_assoc]
      rfl
    · rw [hdata]
      exact hqueue
    · rw [hdata, Data.pending_hand, List.length_append]
      -- a thread that reads has no line in its hands
      by_cases ha : a = .read
      · rw [Data.pending_eq_nil (hwaiting (ha ▸ rfl)), List.length_nil, Nat.zero_add]
        exact hlength
      · rw [hread ha]
        exact hpending
  · -- `add_data` leaves out what is empty, but a line ends in a line end
    have hline : [] ∉ s.data.unread := by
      intro hmem
      have hmem : [] ∈ s.link.device.delivered := by
        rw [hdelivered]
        exact List.mem_append_right _ (List.mem_append_right _ hmem)
      obtain ⟨body, hbody, -⟩ := hlink.framed.lines _ hmem
      simp at hbody
    have hsum := Data.pending_step hstep hline
    have hmono := (Data.isPrefix_queue_step hstep).length_le
    refine ⟨hsame ▸ hlink, ?_, Data.length_queue_step hstep hqueue, ?_⟩
    · rw [hsame, hdelivered, hsum]
    · have hlength := congrArg List.length hsum
      simp only [List.length_append] at hlength
      omega
  · rw [← hsame] at hlink hdelivered
    exact ⟨hlink, by rw [hdelivered, hdata]; rfl, hdata ▸ hqueue, hdata ▸ hpending⟩

theorem Feed.intact_run {observers : List ω} {ms : List (Move ω)}
    (hcareful : Along (step elm) CarefulMove (start observers) ms)
    (h : run (step elm) (start observers) ms = some s) : s.Intact elm :=
  run_invariant_along (Intact elm) (fun _ _ _ hi hc hs => hi.step hc hs) (intact_start elm observers)
    hcareful h

/-! ## At rest -/

/-- **A link and a thread at rest**: no device is open, all answers have been read up to the one the
queue has no place for, and the queue holds all the others. -/
theorem Feed.Intact.resting (hi : s.Intact elm) (helm : ∀ n, SingleLine (elm n))
    (hrest : s.AtRest elm) : s.link.opened = none ∧
      s.link.device.delivered.length = min s.link.issued.length (Data.maxsize + 1) ∧
      s.data.queue = s.link.device.delivered.take Data.maxsize := by
  obtain ⟨hlink, hdelivered, hqueue, hpending⟩ := hi
  have hstuck : ∀ a, (∀ cmd, a ≠ .request cmd) → (a.polls = true → s.data.Waiting) →
      s.link.step elm a = none := by
    intro a hno hwaiting
    have hmove := hrest (.link a) ⟨fun cmd heq => hno cmd (Move.link.inj heq), by simp⟩
    rw [Feed.step, if_pos hwaiting] at hmove
    exact Option.map_eq_none_iff.mp hmove
  refine ⟨hlink.opened_eq_none (hstuck .write (by simp) (by simp [Action.polls])), ?_⟩
  have hdata := Option.map_eq_none_iff.mp (hrest (.data fun _ _ => false) (by simp [Unprompted]))
  rcases Data.step_eq_none.mp hdata with hwaiting | ⟨line, hpc, hfull⟩
  · -- the thread waits for a link that has nothing to send
    have hall := hlink.length_delivered_eq helm fun a hno => hstuck a hno fun _ => hwaiting
    rw [Data.pending_eq_nil hwaiting, List.append_nil] at hdelivered
    rw [← hdelivered] at hqueue
    refine ⟨?_, ?_⟩
    · omega
    · rw [List.take_of_length_le hqueue, hdelivered]
  · -- the thread holds a line the queue has no place for
    have hle := hlink.length_delivered_le helm
    have hlength : s.data.queue.length = Data.maxsize := le_antisymm hqueue (not_lt.mp hfull)
    have hone : s.data.pending.length = 1 := by
      refine le_antisymm hpending ?_
      rw [Data.pending, hpc, Pc.pending, List.length_append, List.length_singleton]
      exact Nat.le_add_right _ _
    have hsum := congrArg List.length hdelivered
    rw [List.length_append, hlength, hone] at hsum
    refine ⟨?_, ?_⟩
    · omega
    · rw [hdelivered, ← hlength, List.take_left]

/-- Intact links answer in order. -/
theorem Feed.Intact.answered (hi : s.Intact elm) (helm : ∀ n, SingleLine (elm n)) :
    Answered elm s where
  in_order _ _ hline := hi.link.answers helm hline
  queued := hi.delivered ▸ List.prefix_append _ _
  complete hrest := (hi.resting helm hrest).2.1

/-- **Commands are answered in order** along every careful run, whatever the library answers and
whatever the observers do. -/
theorem answered_of_careful (elm : ℕ → ELM) (helm : ∀ n, SingleLine (elm n)) (observers : List ω)
    {ms : List (Move ω)} (hcareful : Along (Feed.step elm) CarefulMove (.start observers) ms)
    {s : Feed ω} (h : run (Feed.step elm) (.start observers) ms = some s) : Answered elm s :=
  (Feed.intact_run hcareful h).answered helm

/-- What follows a request for `reset`, up to the place of its answer in the queue. -/
def resetMoves : List (Move Unit) :=
  [.link .write] ++ List.replicate 9 (.link .receive) ++ List.replicate 30 (.link .transmit)
    ++ (List.replicate 30 [.link .select, .link .read]).flatten
    ++ List.replicate 3 (.data fun _ _ => true)

theorem unprompted_of_mem_resetMoves : ∀ m ∈ resetMoves, Unprompted m := by
  intro m hm
  constructor
  · rintro cmd rfl
    simp [resetMoves] at hm
  · rintro observer rfl
    simp [resetMoves] at hm

/-- An unprompted move is careful. -/
theorem Unprompted.careful (hm : Unprompted m) : CarefulMove s m := by
  rintro a rfl cmd rfl
  exact absurd rfl (hm.1 cmd)

/-- A first request of a command without a parameter is careful. -/
theorem along_request {cmd : Unicode} (hcmd : typedInteger cmd = none) {observers : List ω}
    {ms : List (Move ω)} (hms : ∀ m ∈ ms, Unprompted m) :
    Along (Feed.step elm) CarefulMove (.start observers) (.link (.request cmd) :: ms) := by
  refine ⟨?_, fun s _ => along_of_forall_mem fun m hm _ => (hms m hm).careful⟩
  intro a ha cmd' hcmd'
  obtain rfl := Move.link.inj ha
  obtain rfl := Action.request.inj hcmd'
  refine ⟨fun _ => rfl, ?_⟩
  rw [hcmd]
  exact fun n hn => absurd hn (Option.not_mem_none n)

/-- The idle car answers a `reset`, and the answer is queued although the observer raises. -/
theorem answered_idleCar_reset : ∃ s,
    run (Feed.step fun _ => idleCar) (.start [()]) (.link (.request (unicode "reset")) :: resetMoves)
      = some s ∧
    s.data.queue = [str "\x7b\"cmd\":\"reset\",\"status\":\"ok\"\x7d\n"] ∧
    Answered (fun _ => idleCar) s := by
  have hrun : (run (Feed.step fun _ => idleCar) (.start [()])
      (.link (.request (unicode "reset")) :: resetMoves)).map (fun s => s.data.queue)
      = some [str "\x7b\"cmd\":\"reset\",\"status\":\"ok\"\x7d\n"] := by
    decide +kernel
  obtain ⟨s, hs, hqueue⟩ := Option.map_eq_some_iff.mp hrun
  refine ⟨s, hs, hqueue, ?_⟩
  refine answered_of_careful _ (fun _ => singleLine_of_lawful lawful_idleCar) [()] ?_ hs
  exact along_request (by decide +kernel) unprompted_of_mem_resetMoves

/-! ## Coming to rest -/

/-- **How much is left to do**: each action of the link may hand on a line, which the thread puts into
the queue and takes to every observer. -/
def Feed.remaining (elm : ℕ → ELM) (s : Feed ω) : ℕ :=
  (s.data.observers.length + 4) * s.link.remaining elm + s.data.remaining

/-- **Every unprompted move leaves less to do.** -/
theorem Feed.Intact.remaining_lt (hi : s.Intact elm) (hm : Unprompted m)
    (h : s.step elm m = some s') : s'.remaining elm < s.remaining elm := by
  rcases step_cases h with ⟨a, new, rfl, -, hstep, -, hlength, -, hdata⟩ | ⟨raises, -, hstep, hsame⟩
    | ⟨observer, rfl, -⟩
  · have hlt := hi.link.remaining_lt (fun cmd heq => hm.1 cmd (congrArg _ heq)) hstep
    have hobservers : s'.data.observers.length = s.data.observers.length := by rw [hdata]; rfl
    -- what the link hands on is paid for by the action
    have hhand : s'.data.remaining
        = s.data.remaining + (s.data.observers.length + 3) * new.length := by
      rw [hdata]
      unfold Data.remaining Data.hand
      dsimp only
      rw [List.length_append, Nat.mul_add]
      omega
    have hless := Nat.mul_le_mul_left (s.data.observers.length + 4) hlt
    have hnew := Nat.mul_le_mul_left (s.data.observers.length + 3) hlength
    rw [Nat.mul_succ] at hless
    unfold remaining
    rw [hobservers, hhand]
    omega
  · have hlt := Data.remaining_step_lt hstep
    unfold remaining
    rw [hsame, Data.observers_step hstep]
    omega
  · exact absurd rfl (hm.2 observer)

/-- Unprompted moves add no commands. -/
theorem Feed.issued_step (hm : Unprompted m) (h : s.step elm m = some s') :
    s'.link.issued ++ s'.link.opened.toList = s.link.issued ++ s.link.opened.toList := by
  rcases step_cases h with ⟨a, new, rfl, -, hstep, -⟩ | ⟨raises, -, -, hsame⟩ | ⟨observer, rfl, -⟩
  · exact Exchange.issued_step (fun cmd heq => hm.1 cmd (congrArg _ heq)) hstep
  · rw [hsame]
  · exact absurd rfl (hm.2 observer)

/-- **The link and the thread come to rest**, from every state a careful run leads to. -/
theorem drains_of_careful (elm : ℕ → ELM) (helm : ∀ n, SingleLine (elm n)) (observers : List ω)
    {ms : List (Move ω)} (hcareful : Along (Feed.step elm) CarefulMove (.start observers) ms)
    {s : Feed ω} (h : run (Feed.step elm) (.start observers) ms = some s) : Drains elm s := by
  have hi := Feed.intact_run hcareful h
  have hkeep : ∀ (s : Feed ω) m s', Feed.Intact elm s → Unprompted m → s.step elm m = some s' →
      s'.Intact elm := fun _ _ _ hi hm hs => hi.step hm.careful hs
  constructor
  · refine ⟨s.remaining elm, fun ms' t hms hrun => ?_⟩
    have halong : Along (Feed.step elm) (fun _ m => Unprompted m) s ms' :=
      along_of_forall_mem fun m hm _ => hms m hm
    have hle := length_le_of_run_along (Feed.Intact elm) hkeep (Feed.remaining elm)
      (fun _ _ _ hi hm hs => hi.remaining_lt hm hs) hi halong hrun
    omega
  · intro ms' t hms hrun hrest
    have halong : Along (Feed.step elm) (fun _ m => Unprompted m) s ms' :=
      along_of_forall_mem fun m hm _ => hms m hm
    have ht : t.Intact elm := run_invariant_along (Feed.Intact elm) hkeep hi halong hrun
    have hissued : t.link.issued ++ t.link.opened.toList = s.link.issued ++ s.link.opened.toList :=
      run_invariant_along
        (fun t : Feed ω => t.link.issued ++ t.link.opened.toList = s.link.issued ++ s.link.opened.toList)
        (fun _ _ _ heq hm hs => (Feed.issued_step hm hs).trans heq) rfl halong hrun
    obtain ⟨hopened, hlength, -⟩ := ht.resting helm hrest
    refine ⟨ht.answered helm, ?_⟩
    rw [← hissued, hopened, Option.toList_none, List.append_nil, hlength]

/-- While a `reset` is being requested, its answer is sure to come. -/
theorem drains_idleCar_reset : ∃ s,
    run (Feed.step fun _ => idleCar) (.start [()]) [.link (.request (unicode "reset"))] = some s ∧
    s.link.opened = some (unicode "reset") ∧ Drains (fun _ => idleCar) s := by
  have hrun : (run (Feed.step fun _ => idleCar) (.start [()])
      [.link (.request (unicode "reset"))]).map (fun s => s.link.opened)
      = some (some (unicode "reset")) := by
    decide +kernel
  obtain ⟨s, hs, hopened⟩ := Option.map_eq_some_iff.mp hrun
  refine ⟨s, hs, hopened, ?_⟩
  refine drains_of_careful _ (fun _ => singleLine_of_lawful lawful_idleCar) [()] ?_ hs
  exact along_request (by decide +kernel) fun m hm => absurd hm List.not_mem_nil

end LibreXC.SerialLink
