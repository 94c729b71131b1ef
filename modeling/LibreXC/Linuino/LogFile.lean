import LibreXC.Lib.TransitionSystem
import LibreXC.Linuino.Logger
import Mathlib.Data.List.Infix

/-! # The file of the logger

`Logger.__init__` opens one file and every `update` writes to that handle. The handle buffers: what
was written reaches the disk when the buffer runs full, and nothing flushes it. `get_log` and
`remove_log` go by the name instead. So `get_log` sees the written lines only as far as they have left
the buffer, and once the file is removed under its name the handle writes to a file without one.

`along_readsBack_iff` says when what was logged can be read back. -/

namespace LibreXC.Linuino

open Ascii Python2 TransitionSystem

/-! ## Appending to a file -/

/-- The entry with more data at the end of its file. -/
def Entry.extend (entry : Entry) (data : Str) : Entry :=
  match entry.node with
  | .file content => { entry with node := .file (content ++ data) }
  | .directory => entry

@[simp] theorem Entry.name_extend (entry : Entry) (data : Str) :
    (entry.extend data).name = entry.name := by
  unfold extend
  cases entry.node <;> rfl

/-- The directory after `data` has reached the disk for the file `name`. -/
def Directory.append (logs : Directory) (name data : Str) : Directory where
  entries := logs.entries.map fun entry => if entry.name = name then entry.extend data else entry
  nodup := by
    have hnames : (logs.entries.map fun entry =>
        if entry.name = name then entry.extend data else entry).map Entry.name
          = logs.entries.map Entry.name := by
      rw [List.map_map]
      refine List.map_congr_left fun entry _ => ?_
      rw [Function.comp_apply]
      split <;> simp
    rw [hnames]
    exact logs.nodup

/-- The file `name` has grown. -/
theorem Directory.mem_append {logs : Directory} {name content : Str} (data : Str)
    (h : ⟨name, .file content⟩ ∈ logs.entries) :
    ⟨name, .file (content ++ data)⟩ ∈ (logs.append name data).entries :=
  List.mem_map.mpr ⟨_, h, if_pos rfl⟩

/-! ## The logger at work -/

/-- A log directory with a freshly opened, empty log file: `Logger.__init__` has succeeded. -/
structure OpenedLog where
  logs : Directory
  /-- `Logger.log_file_name`. -/
  log_file_name : Str
  opened : ⟨log_file_name, .file []⟩ ∈ logs.entries

/-- **The logger and its directory.** -/
structure Logging where
  logs : Directory
  /-- `Logger.log_file_name`. -/
  log_file_name : Str
  /-- What `log_file.write` has taken and not passed on to the disk. -/
  buffer : Str
  /-- The name still refers to the file of the handle. -/
  linked : Bool
  /-- The lines passed to `update` since the start, or since the file was last deleted. -/
  lines : List Str

/-- **What happens to the logger and its directory.** -/
inductive LogEvent
  /-- `Logger.update(line)`; the first `flushed` bytes of the buffer go to the disk. -/
  | update (line : Str) (flushed : ℕ)
  | read_log (id : ℤ)
  | delete_log (id : ℤ)

namespace Logging

/-- The logger has just opened its file. -/
def start (log : OpenedLog) : Logging := ⟨log.logs, log.log_file_name, [], true, []⟩

/-- **One event.** -/
def step (s : Logging) : LogEvent → Option Logging
  | .update line flushed =>
      let buffer := s.buffer ++ line
      -- without its name the file of the handle is in no directory any more
      some { s with
        buffer := buffer.drop flushed
        logs := if s.linked then s.logs.append s.log_file_name (buffer.take flushed) else s.logs
        lines := s.lines ++ [line] }
  | .read_log _ => some s
  | .delete_log id =>
      let logs := (remove_log s.logs id).1
      if s.linked ∧ s.log_file_name ∉ logs.listdir then
        some { s with logs := logs, linked := false, lines := [] }
      else some { s with logs := logs }

/-- The file is there under its name, and with the buffer it holds the lines; or the name is gone. -/
structure Consistent (s : Logging) : Prop where
  linked : s.linked = true → ∃ content, ⟨s.log_file_name, .file content⟩ ∈ s.logs.entries ∧
    content ++ s.buffer = s.lines.flatten
  unlinked : s.linked = false → s.log_file_name ∉ s.logs.listdir

theorem consistent_start (log : OpenedLog) : (start log).Consistent :=
  ⟨fun _ => ⟨[], log.opened, rfl⟩, fun h => (nomatch h)⟩

end Logging

/-- **The property of a step**: reading the current log returns all its lines, and a new line is
stored in a log of the listing. -/
def ReadsBack (s : Logging) : LogEvent → Prop
  | .read_log id => ∀ entry, selected s.logs id = some entry → entry.name = s.log_file_name →
      get_log s.logs id = s.lines.flatten
  | .update line flushed => ∀ s', s.step (.update line flushed) = some s' →
      ∃ content, ⟨s'.log_file_name, .file content⟩ ∈ s'.logs.entries ∧ line <:+ content ++ s'.buffer
  | .delete_log _ => True

/-- **The condition on a step**: the current log is read when nothing is buffered, and lines come
while its file is there. -/
def Flushed (s : Logging) : LogEvent → Prop
  | .read_log id => ∀ entry, selected s.logs id = some entry → entry.name = s.log_file_name →
      s.buffer = []
  | .update _ _ => s.linked = true
  | .delete_log _ => True

/-- A removal keeps the entries of the other files, and the file `name` unless it is the one. -/
theorem mem_remove_log {logs : Directory} {id : ℤ} {entry : Entry} (h : entry ∈ logs.entries)
    (hname : entry.name ∈ (remove_log logs id).1.listdir) : entry ∈ (remove_log logs id).1.entries := by
  rw [remove_log_eq] at hname ⊢
  split at hname
  · obtain ⟨found, hfound, hfname⟩ := List.mem_map.mp hname
    have hmem := (List.mem_filter.mp hfound).1
    rwa [List.inj_on_of_nodup_map logs.nodup hmem h hfname] at hfound
  · exact h

/-- A removal adds no name. -/
theorem listdir_remove_log_subset (logs : Directory) (id : ℤ) :
    (remove_log logs id).1.listdir ⊆ logs.listdir := by
  rw [remove_log_eq]
  split
  · exact (List.filter_sublist.map _).subset
  · exact List.Subset.refl _

/-- **Every event keeps the logger consistent.** -/
theorem Logging.Consistent.step {s s' : Logging} {e : LogEvent} (hc : s.Consistent)
    (h : s.step e = some s') : s'.Consistent := by
  cases e with
  | update line flushed =>
      obtain rfl := Option.some.inj h
      constructor
      · intro hlinked
        -- what leaves the buffer goes to the end of the file, so the two together only gain the line
        obtain ⟨content, hmem, hcontent⟩ := hc.linked hlinked
        refine ⟨content ++ (s.buffer ++ line).take flushed, ?_, ?_⟩
        · dsimp only
          rw [if_pos hlinked]
          exact Directory.mem_append _ hmem
        · dsimp only
          rw [List.append_assoc, List.take_append_drop, ← List.append_assoc, hcontent,
            List.flatten_append, List.flatten_singleton]
      · intro hlinked
        dsimp only at hlinked ⊢
        rw [if_neg (by rw [hlinked]; exact Bool.false_ne_true)]
        exact hc.unlinked hlinked
  | read_log id =>
      obtain rfl := Option.some.inj h
      exact hc
  | delete_log id =>
      rw [Logging.step] at h
      split at h
      · next hgone =>
          obtain rfl := Option.some.inj h
          exact ⟨fun hlinked => (nomatch hlinked), fun _ => hgone.2⟩
      · next hgone =>
          obtain rfl := Option.some.inj h
          constructor
          · intro hlinked
            -- another file was removed, or none
            obtain ⟨content, hmem, hcontent⟩ := hc.linked hlinked
            have hname : s.log_file_name ∈ (remove_log s.logs id).1.listdir := by
              by_contra hname
              exact hgone ⟨hlinked, hname⟩
            exact ⟨content, mem_remove_log hmem hname, hcontent⟩
          · intro hlinked hname
            exact hc.unlinked hlinked (listdir_remove_log_subset _ _ hname)

/-- **One step of a consistent logger**: it reads back iff it is flushed. -/
theorem readsBack_iff {s : Logging} (hc : s.Consistent) (e : LogEvent) :
    ReadsBack s e ↔ Flushed s e := by
  cases e with
  | delete_log id => exact Iff.rfl
  | read_log id =>
      refine forall₃_congr fun entry hentry hname => ?_
      have hmem : entry ∈ s.logs.entries := mem_of_selected hentry
      have hlinked : s.linked = true := by
        by_contra hnot
        exact hc.unlinked (Bool.eq_false_iff.mpr hnot) (hname ▸ List.mem_map_of_mem hmem)
      obtain ⟨content, hfile, hcontent⟩ := hc.linked hlinked
      -- names identify entries: the entry read is the logger's own file
      obtain rfl : entry = ⟨s.log_file_name, .file content⟩ :=
        List.inj_on_of_nodup_map s.logs.nodup hmem hfile hname
      have hget : get_log s.logs id = content := by
        rw [get_log_eq, hentry]
        rfl
      rw [hget, ← hcontent]
      exact List.self_eq_append_right
  | update line flushed =>
      constructor
      · intro hreads
        -- a line written to an unlinked file is in no log of the listing
        by_contra hnot
        have hunlinked : ¬ s.linked = true := hnot
        obtain ⟨content, hmem, -⟩ := hreads _ rfl
        dsimp only at hmem
        rw [if_neg hunlinked] at hmem
        exact hc.unlinked (Bool.eq_false_iff.mpr hunlinked) (List.mem_map_of_mem hmem)
      · intro hlinked s' h
        have hline : s'.linked = true ∧ line <:+ s'.lines.flatten := by
          obtain rfl := Option.some.inj h
          refine ⟨hlinked, ?_⟩
          dsimp only
          rw [List.flatten_append, List.flatten_singleton]
          exact List.suffix_append _ _
        obtain ⟨content, hmem, hcontent⟩ := (hc.step h).linked hline.1
        exact ⟨content, hmem, hcontent ▸ hline.2⟩

/-- **When the log can be read back**: along every run of the logger, exactly as long as the current
log is read with an empty buffer and no line comes after its file was deleted. -/
theorem along_readsBack_iff (log : OpenedLog) (es : List LogEvent) :
    Along Logging.step ReadsBack (.start log) es ↔ Along Logging.step Flushed (.start log) es :=
  along_congr Logging.Consistent (fun _ _ _ hc h => hc.step h) (fun _ e hc => readsBack_iff hc e)
    (Logging.consistent_start log) es

/-- One line, still in the buffer when the log is read: `read_log` returns nothing of it. -/
theorem not_readsBack_buffered :
    ¬ ∀ (log : OpenedLog) (es : List LogEvent), Along Logging.step ReadsBack (.start log) es := by
  intro h
  let log : OpenedLog := ⟨⟨[⟨str "a", .file []⟩], by decide⟩, str "a", by decide⟩
  have hreads := ((h log [.update (str "x") 0, .read_log 1]).2 _ rfl).1
  have hread := hreads ⟨str "a", .file []⟩ (by decide +kernel) (by decide +kernel)
  exact absurd hread (by decide +kernel)

end LibreXC.Linuino
