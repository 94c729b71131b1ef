import LibreXC.Lib.Python2

/-! # The log directory and the readers of `logger.py`

`Logger.get_log_list`, `Logger.get_log` and `Logger.remove_log` all start from `os.listdir` of the
configured path and number its entries on their own. A **`Directory`** is the content of that path
in the order `os.listdir` reports it; its names are distinct by construction. A log is addressed by
name, as `open(path + name)` and `os.remove(path + name)` do. -/

namespace LibreXC.Linuino

open Ascii Python2

/-- What a name in the log directory stands for: a readable file, or something `open` and
`os.remove` both refuse (a subdirectory). -/
inductive Node
  | file (content : Str)
  | directory
  deriving DecidableEq

/-- A name in the log directory. -/
structure Entry where
  name : Str
  node : Node
  deriving DecidableEq

/-- **The log directory**, in `os.listdir` order. No name occurs twice. -/
structure Directory where
  entries : List Entry
  nodup : (entries.map Entry.name).Nodup

namespace Directory

/-- `os.listdir(path)`. -/
def listdir (logs : Directory) : List Str := logs.entries.map Entry.name

/-- The entry of a name. -/
def lookup (logs : Directory) (name : Str) : Option Entry :=
  logs.entries.find? fun entry => entry.name = name

/-- `open(path + name, "r").read()`. -/
def read (logs : Directory) (name : Str) : Except Exc Str :=
  match (logs.lookup name).map Entry.node with
  | some (.file content) => .ok content
  | some .directory => .error (.ioError (str "Is a directory"))
  | none => .error (.ioError (str "No such file or directory"))

/-- The directory without a name; the other entries keep their order. -/
def erase (logs : Directory) (name : Str) : Directory where
  entries := logs.entries.filter fun entry => entry.name ≠ name
  nodup := logs.nodup.sublist (List.filter_sublist.map _)

/-- `os.remove(path + name)`. -/
def remove (logs : Directory) (name : Str) : Except Exc Directory :=
  match (logs.lookup name).map Entry.node with
  | some (.file _) => .ok (logs.erase name)
  | some .directory => .error (.ioError (str "Is a directory"))
  | none => .error (.ioError (str "No such file or directory"))

@[ext] theorem ext {logs logs' : Directory} (h : logs.entries = logs'.entries) : logs = logs' := by
  cases logs
  cases logs'
  cases h
  rfl

@[simp] theorem length_listdir (logs : Directory) : logs.listdir.length = logs.entries.length :=
  List.length_map _

/-- Names identify entries: the entry of a listed name is the listed entry. -/
theorem lookup_name {logs : Directory} {entry : Entry} (h : entry ∈ logs.entries) :
    logs.lookup entry.name = some entry := by
  cases hf : logs.lookup entry.name with
  | none =>
      have := List.find?_eq_none.mp hf entry h
      simp at this
  | some found =>
      have hname : found.name = entry.name := by simpa using List.find?_some hf
      have hfound : found ∈ logs.entries := List.mem_of_find?_eq_some hf
      rw [List.inj_on_of_nodup_map logs.nodup hfound h hname]

theorem read_file {logs : Directory} {name content : Str}
    (h : ⟨name, .file content⟩ ∈ logs.entries) : logs.read name = .ok content := by
  rw [read, show logs.lookup name = some ⟨name, .file content⟩ from lookup_name h]
  rfl

theorem read_directory {logs : Directory} {name : Str} (h : ⟨name, .directory⟩ ∈ logs.entries) :
    ∃ e, logs.read name = .error e := by
  rw [read, show logs.lookup name = some ⟨name, .directory⟩ from lookup_name h]
  exact ⟨_, rfl⟩

theorem remove_file {logs : Directory} {name content : Str}
    (h : ⟨name, .file content⟩ ∈ logs.entries) : logs.remove name = .ok (logs.erase name) := by
  rw [remove, show logs.lookup name = some ⟨name, .file content⟩ from lookup_name h]
  rfl

theorem remove_directory {logs : Directory} {name : Str} (h : ⟨name, .directory⟩ ∈ logs.entries) :
    ∃ e, logs.remove name = .error e := by
  rw [remove, show logs.lookup name = some ⟨name, .directory⟩ from lookup_name h]
  exact ⟨_, rfl⟩

end Directory

/-- The text `get_log` returns, and `remove_log` prints, for an id without a log. -/
def doesNotExist (id : ℤ) : Str := str "Log with id " ++ decimal id ++ str " does not exist!"

/-- `"[{0}] - {1}\n".format(id, file)`. -/
def listEntry (id : ℕ) (file : Str) : Str :=
  str "[" ++ decimalNat id ++ str "] - " ++ file ++ str "\n"

/-- `Logger.get_log_list()`: one line a name, numbered from one. -/
def get_log_list (logs : Directory) : Str :=
  (logs.listdir.foldl (fun (id, result) file => (id + 1, result ++ listEntry id file)) (1, [])).2

/-- `Logger.get_log(id)`. -/
def get_log (logs : Directory) (id : ℤ) : Str :=
  let content := do
    let requested_file ← index logs.listdir (id - 1)
    logs.read requested_file
  match content with
  | .ok file_content => file_content
  | .error _ => doesNotExist id

/-- `Logger.remove_log(id)`: the directory it leaves and the line it prints, if any. -/
def remove_log (logs : Directory) (id : ℤ) : Directory × Option Str :=
  let removed := do
    let remove_file ← index logs.listdir (id - 1)
    logs.remove remove_file
  match removed with
  | .ok logs' => (logs', none)
  | .error _ => (logs, some (doesNotExist id))

/-- The entry an id selects: `files[id - 1]`, in Python indexing. -/
def selected (logs : Directory) (id : ℤ) : Option Entry := (index logs.entries (id - 1)).toOption

/-- An id selects an entry of the directory. -/
theorem mem_of_selected {logs : Directory} {id : ℤ} {entry : Entry}
    (h : selected logs id = some entry) : entry ∈ logs.entries := by
  unfold selected at h
  cases hi : index logs.entries (id - 1) with
  | error e =>
      rw [hi] at h
      exact nomatch h
  | ok found =>
      rw [hi] at h
      exact Option.some.inj h ▸ mem_of_index hi

/-- Indexing the names is indexing the entries. -/
theorem index_listdir (logs : Directory) (i : ℤ) :
    index logs.listdir i = (index logs.entries i).map Entry.name := by
  unfold index
  simp only [Directory.length_listdir]
  generalize (if i < 0 then i + (logs.entries.length : ℤ) else i) = j
  by_cases hj : j < 0
  · simp only [if_pos hj, Except.map]
  · simp only [if_neg hj, Directory.listdir, List.getElem?_map]
    cases logs.entries[j.toNat]? <;> rfl

/-- **What `get_log` returns**: the content of the file the id selects, or the does-not-exist text. -/
theorem get_log_eq (logs : Directory) (id : ℤ) :
    get_log logs id = match (selected logs id).map Entry.node with
      | some (.file content) => content
      | _ => doesNotExist id := by
  unfold get_log selected
  rw [index_listdir]
  cases h : index logs.entries (id - 1) with
  | error e => rfl
  | ok entry =>
      obtain ⟨name, node⟩ := entry
      have hmem := mem_of_index h
      simp only [Except.map, bind, Except.bind]
      cases node with
      | file content =>
          rw [Directory.read_file hmem]
          rfl
      | directory =>
          obtain ⟨e, he⟩ := Directory.read_directory hmem
          rw [he]
          rfl

/-- **What `remove_log` does**: it removes the file the id selects, or changes nothing and says so. -/
theorem remove_log_eq (logs : Directory) (id : ℤ) :
    remove_log logs id = match selected logs id with
      | some ⟨name, .file _⟩ => (logs.erase name, none)
      | _ => (logs, some (doesNotExist id)) := by
  unfold remove_log selected
  rw [index_listdir]
  cases h : index logs.entries (id - 1) with
  | error e => rfl
  | ok entry =>
      obtain ⟨name, node⟩ := entry
      have hmem := mem_of_index h
      simp only [Except.map, bind, Except.bind]
      cases node with
      | file content =>
          rw [Directory.remove_file hmem]
          rfl
      | directory =>
          obtain ⟨e, he⟩ := Directory.remove_directory hmem
          rw [he]
          rfl

/-- An ASCII listing comes from ASCII names, and only from them. -/
theorem isAscii_get_log_list (logs : Directory) :
    IsAscii (get_log_list logs) ↔ ∀ entry ∈ logs.entries, IsAscii entry.name := by
  have hlit : IsAscii (str "[") ∧ IsAscii (str "] - ") ∧ IsAscii (str "\n") := by decide
  -- the accumulated text is ASCII when what was there is and every further name is
  have hfold : ∀ (files : List Str) (id : ℕ) (result : Str),
      IsAscii (files.foldl (fun (id, result) file => (id + 1, result ++ listEntry id file))
        (id, result)).2 ↔ IsAscii result ∧ ∀ file ∈ files, IsAscii file := by
    intro files
    induction files with
    | nil => simp
    | cons file files ih =>
        intro id result
        rw [List.foldl_cons, ih]
        simp [listEntry, hlit, and_assoc]
  unfold get_log_list
  rw [hfold]
  simp [Directory.listdir]

end LibreXC.Linuino
