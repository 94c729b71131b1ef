import LibreXC.Lib.TransitionSystem
import LibreXC.Linuino.Commands
import Mathlib.Data.List.DropRight

/-! # One serial device, two handles

The Data thread keeps a handle on the serial device and reads it byte by byte: `readline` asks for
one byte at a time, and each `read(1)` waits in `select` before it calls `os.read`. A request opens a
second handle on the same device, and `open()` ends with `reset_input_buffer()`. Both handles share
the input queue of the kernel, so a request throws away what the Arduino has sent and the Data thread
has not read; when the flush comes between `select` and `os.read`, `read` raises and the line read so
far is lost as well.

`lossless_iff` shows that this is the only way bytes get lost. -/

namespace LibreXC.SerialLink

open Ascii Linuino Python2 TransitionSystem

/-- The line end. -/
def newline : UInt8 := 0x0A

/-- **The serial device and its users.** -/
structure Device where
  /-- The bytes the Arduino has emitted so far. -/
  emitted : Str
  /-- The input queue of the kernel. -/
  queue : Str
  /-- The `select` of the Data thread has returned, its `os.read` is due. -/
  selected : Bool
  /-- The bytes `readline` has collected. -/
  line : Str
  /-- The lines handed to `Data.add_data`. -/
  delivered : List Str
  /-- The request whose handle is open: byte id and value. -/
  request : Option (ℤ × ℤ)
  /-- The bytes written to the Arduino. -/
  output : Str

/-- **What may happen next** at the device. -/
inductive Access
  /-- The Arduino emits a byte. -/
  | emit (b : UInt8)
  /-- The Data thread: `select` returns. -/
  | select
  /-- The Data thread: `os.read`. -/
  | read
  /-- `request_cmd`: `serial.Serial(...)`, which opens and flushes. -/
  | request (byteId value : ℤ)
  /-- `request_cmd`: `tty.write(message)`. -/
  | write

namespace Device

/-- The Data thread has opened its handle. -/
def start : Device := ⟨[], [], false, [], [], none, []⟩

/-- **One access.** -/
def step (d : Device) : Access → Option Device
  | .emit b => some { d with emitted := d.emitted ++ [b], queue := d.queue ++ [b] }
  | .select => if d.selected = false ∧ d.queue ≠ [] then some { d with selected := true } else none
  | .read =>
      if d.selected then
        match d.queue with
        -- 'device reports readiness to read but returned no data': `run` starts a new `readline`
        | [] => some { d with selected := false, line := [] }
        | b :: queue =>
            if b = newline then
              some { d with
                queue := queue
                selected := false
                line := []
                delivered := d.delivered ++ [d.line ++ [b]] }
            else some { d with queue := queue, selected := false, line := d.line ++ [b] }
      else none
  | .request byteId value =>
      match d.request with
      | none => some { d with request := some (byteId, value), queue := [] }
      | some _ => none
  | .write =>
      match d.request with
      | none => none
      | some (byteId, value) =>
          some { d with request := none, output := d.output ++ requestBytes byteId value }

end Device

/-- A text up to and including its last newline. -/
def upToLastNewline (s : Str) : Str := s.rdropWhile (· ≠ newline)

/-- A complete line: no newline but at its end. -/
def IsLine (line : Str) : Prop := ∃ body, line = body ++ [newline] ∧ newline ∉ body

/-- **Nothing is lost.** -/
structure Lossless (d : Device) : Prop where
  /-- Every emitted byte is in a delivered line, in the line being read, or in the queue. -/
  intact : d.delivered.flatten ++ d.line ++ d.queue = d.emitted
  /-- Every delivered line is a line of the Arduino. -/
  lines : ∀ line ∈ d.delivered, IsLine line
  /-- With the queue read empty, the delivered lines are the stream up to its last newline. -/
  drained : d.queue = [] → d.delivered.flatten = upToLastNewline d.emitted

/-- **The condition on a step**: a request that opens the device finds the input queue empty. -/
def OpensOnEmpty (d : Device) (e : Access) : Prop :=
  ∀ byteId value, e = .request byteId value → d.request = none → d.queue = []

/-- Complete lines and an incomplete rest: the last newline ends the last line. -/
theorem upToLastNewline_append {lines : List Str} {rest : Str} (hlines : ∀ line ∈ lines, IsLine line)
    (hrest : newline ∉ rest) : upToLastNewline (lines.flatten ++ rest) = lines.flatten := by
  have hdrop : upToLastNewline (lines.flatten ++ rest) = upToLastNewline lines.flatten := by
    unfold upToLastNewline List.rdropWhile
    rw [List.reverse_append, List.dropWhile_append_of_pos]
    intro b hb
    rw [List.mem_reverse] at hb
    exact decide_eq_true fun heq => hrest (heq ▸ hb)
  rw [hdrop]
  cases lines using List.reverseRecOn with
  | nil => rfl
  | append_singleton lines line =>
      obtain ⟨body, rfl, -⟩ := hlines line (by simp)
      rw [upToLastNewline, List.flatten_append, List.flatten_singleton, ← List.append_assoc]
      exact List.rdropWhile_concat_neg _ _ _ (by simp)

/-! ## One step -/

variable {d d' : Device} {e : Access}

/-- **What an access does.** -/
theorem Device.step_cases (h : d.step e = some d') :
    (∃ b, e = .emit b ∧ d' = { d with emitted := d.emitted ++ [b], queue := d.queue ++ [b] }) ∨
      (e = .select ∧ d.queue ≠ [] ∧ d' = { d with selected := true }) ∨
      (e = .read ∧ d.selected = true ∧ d.queue = [] ∧
        d' = { d with selected := false, line := [] }) ∨
      (∃ queue, e = .read ∧ d.queue = newline :: queue ∧
        d' = { d with
          queue := queue
          selected := false
          line := []
          delivered := d.delivered ++ [d.line ++ [newline]] }) ∨
      (∃ b queue, e = .read ∧ d.queue = b :: queue ∧ b ≠ newline ∧
        d' = { d with queue := queue, selected := false, line := d.line ++ [b] }) ∨
      (∃ byteId value, e = .request byteId value ∧ d.request = none ∧
        d' = { d with request := some (byteId, value), queue := [] }) ∨
      ∃ byteId value, e = .write ∧ d.request = some (byteId, value) ∧
        d' = { d with request := none, output := d.output ++ requestBytes byteId value } := by
  cases e with
  | emit b => exact .inl ⟨b, rfl, (Option.some.inj h).symm⟩
  | select =>
      rw [step] at h
      split at h
      · next hcond => exact .inr (.inl ⟨rfl, hcond.2, (Option.some.inj h).symm⟩)
      · cases h
  | read =>
      rw [step] at h
      split at h
      · next hselected =>
          split at h
          · next hqueue =>
              exact .inr (.inr (.inl ⟨rfl, hselected, hqueue, (Option.some.inj h).symm⟩))
          · next b queue hqueue =>
              split at h
              · next hb =>
                  subst hb
                  exact .inr (.inr (.inr (.inl ⟨queue, rfl, hqueue, (Option.some.inj h).symm⟩)))
              · next hb =>
                  exact .inr (.inr (.inr (.inr (.inl
                    ⟨b, queue, rfl, hqueue, hb, (Option.some.inj h).symm⟩))))
      · cases h
  | request byteId value =>
      rw [step] at h
      split at h
      · next hrequest =>
          exact .inr (.inr (.inr (.inr (.inr (.inl
            ⟨byteId, value, rfl, hrequest, (Option.some.inj h).symm⟩)))))
      · cases h
  | write =>
      rw [step] at h
      split at h
      · cases h
      · next byteId value hrequest =>
          exact .inr (.inr (.inr (.inr (.inr (.inr
            ⟨byteId, value, rfl, hrequest, (Option.some.inj h).symm⟩)))))

/-- The delivered lines are complete and the line being read is not, whatever gets lost. -/
structure Device.Framed (d : Device) : Prop where
  lines : ∀ line ∈ d.delivered, IsLine line
  line : newline ∉ d.line

/-- **Every access keeps lines apart.** -/
theorem Device.Framed.step (hf : d.Framed) (h : d.step e = some d') : d'.Framed := by
  rcases step_cases h with ⟨b, -, rfl⟩ | ⟨-, -, rfl⟩ | ⟨-, -, -, rfl⟩ | ⟨queue, -, -, rfl⟩
    | ⟨b, queue, -, -, hb, rfl⟩ | ⟨byteId, value, -, -, rfl⟩ | ⟨byteId, value, -, -, rfl⟩
  · exact ⟨hf.lines, hf.line⟩
  · exact ⟨hf.lines, hf.line⟩
  · -- the line read so far is dropped, and a new one starts
    exact ⟨hf.lines, List.not_mem_nil⟩
  · refine ⟨fun line hline => ?_, List.not_mem_nil⟩
    rcases List.mem_append.mp hline with hline | hline
    · exact hf.lines line hline
    · exact ⟨d.line, List.mem_singleton.mp hline, hf.line⟩
  · refine ⟨hf.lines, fun hmem => ?_⟩
    rcases List.mem_append.mp hmem with hmem | hmem
    · exact hf.line hmem
    · exact hb (List.mem_singleton.mp hmem).symm
  · exact ⟨hf.lines, hf.line⟩
  · exact ⟨hf.lines, hf.line⟩

/-- All bytes are there, and a `select` that has returned has a byte to read. -/
structure Device.Whole (d : Device) : Prop where
  intact : d.delivered.flatten ++ d.line ++ d.queue = d.emitted
  ready : d.selected = true → d.queue ≠ []

/-- **An access that does not flush bytes keeps them all.** -/
theorem Device.Whole.step (hw : d.Whole) (hp : OpensOnEmpty d e) (h : d.step e = some d') :
    d'.Whole := by
  have hintact := hw.intact
  rcases step_cases h with ⟨b, -, rfl⟩ | ⟨-, hqueue, rfl⟩ | ⟨-, hselected, hqueue, rfl⟩
    | ⟨queue, -, hqueue, rfl⟩ | ⟨b, queue, -, hqueue, -, rfl⟩ | ⟨byteId, value, rfl, hrequest, rfl⟩
    | ⟨byteId, value, -, -, rfl⟩
  · refine ⟨?_, fun _ => List.append_ne_nil_of_right_ne_nil _ (List.cons_ne_nil _ _)⟩
    rw [← hintact, List.append_assoc _ d.queue]
  · exact ⟨hintact, fun _ => hqueue⟩
  · -- `os.read` finds nothing only after a flush
    exact absurd hqueue (hw.ready hselected)
  · rw [hqueue] at hintact
    refine ⟨?_, fun hsel => (nomatch hsel)⟩
    rw [← hintact, List.flatten_append, List.flatten_singleton]
    simp only [List.append_assoc, List.singleton_append]
  · rw [hqueue] at hintact
    refine ⟨?_, fun hsel => (nomatch hsel)⟩
    rw [← hintact]
    simp only [List.append_assoc, List.singleton_append]
  · -- the flush has nothing to throw away
    have hqueue := hp byteId value rfl hrequest
    exact ⟨hqueue ▸ hintact, fun hsel => absurd hqueue (hw.ready hsel)⟩
  · exact ⟨hintact, hw.ready⟩

/-- Whole and framed is lossless. -/
theorem Device.Whole.lossless (hw : d.Whole) (hf : d.Framed) : Lossless d where
  intact := hw.intact
  lines := hf.lines
  drained hqueue := by
    rw [← hw.intact, hqueue, List.append_nil, upToLastNewline_append hf.lines hf.line]

/-- **When nothing is lost**: along every run, exactly as long as every request opens the device on
an empty input queue. -/
theorem lossless_iff (es : List Access) :
    (∀ pre d, pre <+: es → run Device.step .start pre = some d → Lossless d) ↔
      Along Device.step OpensOnEmpty .start es := by
  constructor
  · intro hlossless
    rw [along_iff]
    rintro pre _ d hpre hrun byteId value rfl hrequest
    have hopen : d.step (.request byteId value)
        = some { d with request := some (byteId, value), queue := [] } := by
      rw [Device.step, hrequest]
    -- the bytes are accounted for before and after the flush, so there were none
    have hbefore := (hlossless pre d ((List.prefix_append _ _).trans hpre) hrun).intact
    have hafter := (hlossless _ _ hpre (run_concat_eq_some.mpr ⟨d, hrun, hopen⟩)).intact
    dsimp only at hafter
    rw [← hbefore, List.append_cancel_left_eq] at hafter
    exact hafter.symm
  · intro halong pre d hpre hrun
    have hprefix : Along Device.step OpensOnEmpty .start pre := along_of_isPrefix hpre halong
    have hframed : d.Framed := run_invariant Device.Framed (fun _ _ _ hf h => hf.step h)
      ⟨fun _ h => absurd h List.not_mem_nil, List.not_mem_nil⟩ hrun
    have hwhole : d.Whole := run_invariant_along Device.Whole (fun _ _ _ hw hp h => hw.step hp h)
      ⟨rfl, fun h => absurd h Bool.false_ne_true⟩ hprefix hrun
    exact hwhole.lossless hframed

/-- A request that follows the first byte of a response throws it away. -/
theorem not_lossless_request :
    ¬ ∀ es d, run Device.step .start es = some d → Lossless d := by
  intro h
  have hintact := (h [.emit 0x7B, .request 1 (-1)] _ rfl).intact
  exact absurd hintact (by decide)

end LibreXC.SerialLink
