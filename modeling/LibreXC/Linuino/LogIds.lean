import LibreXC.Lib.TransitionSystem
import LibreXC.Linuino.Commands

/-! # What a log id refers to

`get_log_list` numbers the names of the log directory, and clients use the numbers later: `read_log 2`,
`delete_log 2`. An id is a position, not a name. After a listing, every deletion moves the files
behind it up by one place, and their ids in the listing then belong to their successors.

`along_usesMeaning_iff` says when the ids of a listing still mean what the listing showed. -/

namespace LibreXC.Linuino

open Ascii Python2 TransitionSystem

/-! ## The listing -/

/-- The name a listing shows under an id, none when it has no such line. -/
def shown (listing : Directory) (id : ℤ) : Option Str :=
  if 1 ≤ id then listing.listdir[(id - 1).toNat]? else none

/-- **The listing**: one line for every name, with the number of its place. -/
theorem get_log_list_eq (logs : Directory) :
    get_log_list logs = (logs.listdir.zipIdx 1).flatMap fun (file, id) => listEntry id file := by
  have hfold : ∀ (files : List Str) (id : ℕ) (result : Str),
      (files.foldl (fun (id, result) file => (id + 1, result ++ listEntry id file)) (id, result)).2
        = result ++ (files.zipIdx id).flatMap fun (file, id) => listEntry id file := by
    intro files
    induction files with
    | nil => simp
    | cons file files ih =>
        intro id result
        rw [List.foldl_cons, ih, List.zipIdx_cons, List.flatMap_cons, List.append_assoc]
  exact hfold logs.listdir 1 []

/-- The lines of the listing are what it shows. -/
theorem mem_listing_iff {listing : Directory} {name : Str} {id : ℕ} :
    (name, id) ∈ listing.listdir.zipIdx 1 ↔ shown listing id = some name := by
  rw [List.mk_mem_zipIdx_iff_le_and_getElem?_sub, shown]
  by_cases hid : 1 ≤ id
  · rw [if_pos (by omega), show ((id : ℤ) - 1).toNat = id - 1 by omega]
    exact and_iff_right hid
  · rw [if_neg (by omega)]
    exact ⟨fun h => absurd h.1 hid, fun h => (nomatch h)⟩

/-- A positive id selects by place. -/
theorem selected_of_pos (logs : Directory) {id : ℤ} (h : 1 ≤ id) :
    selected logs id = logs.entries[(id - 1).toNat]? := by
  obtain ⟨k, rfl⟩ : ∃ k : ℕ, id = k + 1 := ⟨(id - 1).toNat, by omega⟩
  rw [selected, show ((k : ℤ) + 1 - 1) = (k : ℤ) by omega, Int.toNat_natCast]
  cases hk : logs.entries[k]? with
  | none =>
      obtain ⟨e, he⟩ := index_eq_error_of_le (List.getElem?_eq_none_iff.mp hk)
      rw [he]
      rfl
  | some entry =>
      rw [(index_ofNat _ _ _).mpr hk]
      rfl

/-- **An id that is not positive selects from the back**, as far as there are entries. -/
theorem selected_of_not_pos (logs : Directory) {id : ℤ} (h : ¬ 1 ≤ id) :
    selected logs id = if id + logs.listdir.length ≤ 0 then none
      else logs.entries[(id - 1 + logs.listdir.length).toNat]? := by
  have hneg : id - 1 < 0 := by omega
  rw [selected, index, if_pos hneg, Directory.length_listdir]
  by_cases hfront : id + logs.entries.length ≤ 0
  · rw [if_pos (by omega), if_pos hfront]
    rfl
  · rw [if_neg (by omega), if_neg hfront]
    cases logs.entries[(id - 1 + logs.entries.length).toNat]? <;> rfl

/-- Every name in the directory is a readable file. -/
def Directory.Readable (logs : Directory) : Prop :=
  ∀ entry ∈ logs.entries, ∃ content, entry.node = .file content

/-- **The id means what the listing says**: `get_log` and `remove_log` act on the file it shows under
the id, and on none when it shows no such id. -/
structure IdMeansListing (logs : Directory) (id : ℤ) : Prop where
  listed : ∀ name, shown logs id = some name → ∃ content, ⟨name, .file content⟩ ∈ logs.entries ∧
    get_log logs id = content ∧ (remove_log logs id).1 = logs.erase name
  unlisted : shown logs id = none →
    selected logs id = none ∧ get_log logs id = doesNotExist id ∧ (remove_log logs id).1 = logs

/-- An id that selects a file. -/
theorem log_of_selected {logs : Directory} (hreadable : logs.Readable) {id : ℤ} {entry : Entry}
    (h : selected logs id = some entry) :
    ∃ content, ⟨entry.name, .file content⟩ ∈ logs.entries ∧ get_log logs id = content ∧
      (remove_log logs id).1 = logs.erase entry.name := by
  obtain ⟨name, node⟩ := entry
  have hmem := mem_of_selected h
  obtain ⟨content, rfl⟩ : ∃ content, node = .file content := hreadable _ hmem
  refine ⟨content, hmem, ?_, ?_⟩
  · rw [get_log_eq, h]
    rfl
  · rw [remove_log_eq, h]

/-- An id that selects nothing. -/
theorem log_of_not_selected {logs : Directory} {id : ℤ} (h : selected logs id = none) :
    get_log logs id = doesNotExist id ∧ (remove_log logs id).1 = logs := by
  constructor
  · rw [get_log_eq, h]
    rfl
  · rw [remove_log_eq, h]

/-- **When an id means what the listing says**: when it is positive, or so far below zero that
counting from the back finds no file either. The ids from `1 - n` to zero, of `n` files, are listed
nowhere and select one of the files. -/
theorem idMeansListing_iff {logs : Directory} (hreadable : logs.Readable) (id : ℤ) :
    IdMeansListing logs id ↔ 1 ≤ id ∨ id + logs.listdir.length ≤ 0 := by
  by_cases hid : 1 ≤ id
  · -- the listing and the selection go by the same place
    have hshown : shown logs id = (selected logs id).map Entry.name := by
      rw [shown, if_pos hid, selected_of_pos logs hid, Directory.listdir, List.getElem?_map]
    refine iff_of_true ⟨fun name hname => ?_, fun hnone => ?_⟩ (.inl hid)
    · obtain ⟨entry, hentry, rfl⟩ := Option.map_eq_some_iff.mp (hshown ▸ hname)
      exact log_of_selected hreadable hentry
    · have hselected : selected logs id = none := Option.map_eq_none_iff.mp (hshown ▸ hnone)
      exact ⟨hselected, log_of_not_selected hselected⟩
  · have hshown : shown logs id = none := if_neg hid
    have hselected := selected_of_not_pos logs hid
    rw [or_iff_right hid]
    constructor
    · intro hmeans
      by_contra hfront
      -- something is selected although nothing is shown
      rw [(hmeans.unlisted hshown).1, if_neg hfront, eq_comm, List.getElem?_eq_none_iff,
        ← Directory.length_listdir] at hselected
      omega
    · intro hfront
      rw [if_pos hfront] at hselected
      refine ⟨fun name hname => ?_, fun _ => ⟨hselected, log_of_not_selected hselected⟩⟩
      rw [hshown] at hname
      cases hname

/-- With one log, id 1 reads and deletes it. -/
theorem idMeansListing_one :
    let logs : Directory := ⟨[⟨str "a", .file (str "1")⟩], by decide⟩
    logs.Readable ∧ IdMeansListing logs 1 := by
  intro logs
  have hreadable : logs.Readable := by
    intro entry hentry
    rw [List.mem_singleton.mp hentry]
    exact ⟨_, rfl⟩
  exact ⟨hreadable, (idMeansListing_iff hreadable 1).mpr (.inl (by decide))⟩

/-- With one log, id 0 is listed nowhere and deletes it. -/
theorem not_idMeansListing_zero :
    ¬ ∀ (logs : Directory) (id : ℤ), logs.Readable → IdMeansListing logs id := by
  intro h
  let logs : Directory := ⟨[⟨str "a", .file (str "1")⟩], by decide⟩
  have hreadable : logs.Readable := by
    intro entry hentry
    rw [List.mem_singleton.mp hentry]
    exact ⟨_, rfl⟩
  have hkept := ((h logs 0 hreadable).unlisted rfl).2.2
  have hempty : (remove_log logs 0).1.listdir = [] := by decide +kernel
  rw [hkept] at hempty
  exact absurd hempty (by decide)

/-! ## Commands on the log directory -/

/-- **What happens to the log directory** after a listing: commands of any client, and new content in
the files. -/
inductive LogCommand
  | available_logs
  | read_log (id : ℤ)
  | delete_log (id : ℤ)
  | written (logs : Directory)

/-- **One command.** Only the content of files changes from outside, not their names. -/
def LogCommand.step (logs : Directory) : LogCommand → Option Directory
  | .available_logs => some logs
  | .read_log _ => some logs
  | .delete_log id => some (remove_log logs id).1
  | .written logs' => if logs'.listdir = logs.listdir then some logs' else none

/-- The commands act on the directory as `execute_cmd` does. -/
theorem logs_execute_cmd {Client : Type} (order : KeyOrder) (id : ℤ) (w : World Client) :
    LogCommand.step w.logs .available_logs
        = some (Py.exec (execute_cmd order (.name (unicode "available_logs")) (-1)) w).logs ∧
      LogCommand.step w.logs (.read_log id)
        = some (Py.exec (execute_cmd order (.name (unicode "read_log")) id) w).logs ∧
      LogCommand.step w.logs (.delete_log id)
        = some (Py.exec (execute_cmd order (.name (unicode "delete_log")) id) w).logs := by
  have hread : unicode "read_log" ≠ unicode "available_logs" := by decide +kernel
  have hdelete : unicode "delete_log" ≠ unicode "available_logs" ∧
      unicode "delete_log" ≠ unicode "read_log" := by decide +kernel
  refine ⟨rfl, ?_, ?_⟩
  · unfold execute_cmd
    simp only [CmdKey.name.injEq, hread, if_false, if_true]
    rfl
  · unfold execute_cmd
    simp only [CmdKey.name.injEq, hdelete, if_false, if_true]
    rfl

/-! ## Meaning -/

/-- What `get_log` returns for the entry it reads. -/
def Entry.log (entry : Entry) (id : ℤ) : Str :=
  match entry.node with
  | .file content => content
  | .directory => doesNotExist id

/-- What `remove_log` leaves after removing an entry. -/
def Directory.without (logs : Directory) (entry : Entry) : Directory :=
  match entry.node with
  | .file _ => logs.erase entry.name
  | .directory => logs

/-- **The id means the name**: `get_log` and `remove_log` act on the entry of that name, or find
nothing when there is none any more. -/
structure Means (logs : Directory) (id : ℤ) (name : Str) : Prop where
  present : ∀ entry ∈ logs.entries, entry.name = name →
    selected logs id = some entry ∧ get_log logs id = entry.log id ∧
      (remove_log logs id).1 = logs.without entry
  deleted : name ∉ logs.listdir →
    selected logs id = none ∧ get_log logs id = doesNotExist id ∧
      remove_log logs id = (logs, some (doesNotExist id))

/-- The ids a command uses. -/
def LogCommand.uses : LogCommand → Option ℤ
  | .read_log id => some id
  | .delete_log id => some id
  | _ => none

/-- **The property of a step**: an id of the listing means the name shown under it. -/
def UsesMeaning (listing logs : Directory) (command : LogCommand) : Prop :=
  ∀ id name, command.uses = some id → shown listing id = some name → Means logs id name

/-- **The condition on a step**: no file listed before the one used is gone, or that one is gone
itself and fewer files than its id are left. -/
def Unshifted (listing logs : Directory) (command : LogCommand) : Prop :=
  ∀ id name, command.uses = some id → shown listing id = some name →
    (name ∈ logs.listdir → ∀ earlier ∈ listing.listdir.take (id - 1).toNat, earlier ∈ logs.listdir) ∧
      (name ∉ logs.listdir → (logs.listdir.length : ℤ) < id)

/-- The names left from a listing: some are gone, the others keep their order. -/
def LeftFrom (listing logs : Directory) : Prop :=
  ∃ kept : Str → Bool, logs.listdir = listing.listdir.filter kept

/-! ## Positions -/

/-- **A member keeps its place in a filtered list** iff everything before it is kept. -/
theorem getElem?_filter_iff {α : Type} {xs : List α} (hxs : xs.Nodup) (p : α → Bool) {k : ℕ} {x : α}
    (hx : xs[k]? = some x) (hp : p x = true) :
    (xs.filter p)[k]? = some x ↔ ∀ y ∈ xs.take k, p y = true := by
  obtain ⟨hk, hget⟩ := List.getElem?_eq_some_iff.mp hx
  have hlen : (xs.take k).length = k := List.length_take_of_le hk.le
  -- `x` stands right behind what is left of the part before it
  have hsplit : xs.filter p = (xs.take k).filter p ++ x :: (xs.drop (k + 1)).filter p := by
    conv_lhs => rw [← List.take_append_drop k xs, List.drop_eq_getElem_cons hk, hget]
    rw [List.filter_append, List.filter_cons_of_pos hp]
  have hplace : (xs.filter p)[((xs.take k).filter p).length]? = some x := by
    rw [hsplit, List.getElem?_append_right le_rfl, Nat.sub_self, List.getElem?_cons_zero]
  have hfilter : ((xs.take k).filter p).length = k ↔ ∀ y ∈ xs.take k, p y = true := by
    rw [← List.length_filter_eq_length_iff, hlen]
  rw [← hfilter]
  constructor
  · intro hkx
    obtain ⟨hlt, -⟩ := List.getElem?_eq_some_iff.mp hplace
    exact (List.getElem?_inj hlt (hxs.filter p)).mp (hplace.trans hkx.symm)
  · intro heq
    rwa [heq] at hplace

/-- **What an id means, in places**: the name stands at the place of the id, or is gone and the
directory is too short for the id. -/
theorem means_iff {logs : Directory} {id : ℤ} {name : Str} (hid : 1 ≤ id) :
    Means logs id name ↔
      (name ∈ logs.listdir → logs.listdir[(id - 1).toNat]? = some name) ∧
        (name ∉ logs.listdir → (logs.listdir.length : ℤ) < id) := by
  have hsel := selected_of_pos logs hid
  have hlistdir : logs.listdir[(id - 1).toNat]? = (selected logs id).map Entry.name := by
    rw [hsel, Directory.listdir, List.getElem?_map]
  constructor
  · intro hmeans
    refine ⟨fun hname => ?_, fun hname => ?_⟩
    · obtain ⟨entry, hentry, rfl⟩ := List.mem_map.mp hname
      rw [hlistdir, (hmeans.present entry hentry rfl).1]
      rfl
    · have hnone := (hmeans.deleted hname).1
      rw [hsel, List.getElem?_eq_none_iff] at hnone
      rw [Directory.length_listdir]
      omega
  · rintro ⟨hpresent, hdeleted⟩
    refine ⟨fun entry hentry hname => ?_, fun hname => ?_⟩
    · have hplace := hpresent (hname ▸ List.mem_map_of_mem hentry)
      rw [hlistdir] at hplace
      obtain ⟨found, hfound, hfname⟩ := Option.map_eq_some_iff.mp hplace
      -- names identify entries
      obtain rfl : found = entry := by
        rw [hsel] at hfound
        exact List.inj_on_of_nodup_map logs.nodup (List.mem_of_getElem? hfound) hentry
          (hfname.trans hname.symm)
      refine ⟨hfound, ?_, ?_⟩
      · rw [get_log_eq, hfound, Entry.log]
        cases found with
        | mk name node => cases node <;> rfl
      · rw [remove_log_eq, hfound, Directory.without]
        cases found with
        | mk name node => cases node <;> rfl
    · have hnone : selected logs id = none := by
        have hlen := hdeleted hname
        rw [Directory.length_listdir] at hlen
        rw [hsel, List.getElem?_eq_none_iff]
        omega
      exact ⟨hnone, by rw [get_log_eq, hnone]; rfl, by rw [remove_log_eq, hnone]⟩

/-- **One step**: the ids of the listing mean what it showed iff nothing has shifted. -/
theorem usesMeaning_iff {listing logs : Directory} (hleft : LeftFrom listing logs)
    (command : LogCommand) : UsesMeaning listing logs command ↔ Unshifted listing logs command := by
  obtain ⟨kept, hkept⟩ := hleft
  refine forall₂_congr fun id name => forall₂_congr fun _ hshown => ?_
  have hid : 1 ≤ id := by
    by_contra hid
    rw [shown, if_neg hid] at hshown
    cases hshown
  rw [shown, if_pos hid] at hshown
  rw [means_iff hid]
  refine and_congr_left' (forall_congr' fun hname => ?_)
  have hnodup : listing.listdir.Nodup := listing.nodup
  have hpos := getElem?_filter_iff hnodup kept hshown (List.mem_filter.mp (hkept ▸ hname)).2
  rw [hkept, hpos]
  refine forall₂_congr fun earlier hearlier => ?_
  rw [List.mem_filter, and_iff_right (List.mem_of_mem_take hearlier)]

/-- **Every command leaves some of the listed names, in their order.** -/
theorem LeftFrom.step {listing logs logs' : Directory} {command : LogCommand}
    (hleft : LeftFrom listing logs) (h : LogCommand.step logs command = some logs') :
    LeftFrom listing logs' := by
  cases command with
  | available_logs =>
      obtain rfl := Option.some.inj h
      exact hleft
  | read_log id =>
      obtain rfl := Option.some.inj h
      exact hleft
  | written logs'' =>
      rw [LogCommand.step] at h
      split at h
      · next hnames =>
          obtain rfl := Option.some.inj h
          rw [LeftFrom, hnames]
          exact hleft
      · cases h
  | delete_log id =>
      obtain rfl := Option.some.inj h
      rw [remove_log_eq]
      split
      · next name content _ =>
          obtain ⟨kept, hkept⟩ := hleft
          refine ⟨fun file => kept file && decide (file ≠ name), ?_⟩
          have herase : (logs.erase name).listdir = logs.listdir.filter fun file => file ≠ name := by
            simp only [Directory.listdir, Directory.erase, List.filter_map]
            rfl
          rw [herase, hkept, List.filter_filter]
          exact List.filter_congr fun file _ => Bool.and_comm _ _
      · exact hleft

/-- **When log ids keep their meaning**: along every sequence of commands after a listing, exactly as
long as no command uses an id of the listing after a file before it is gone. -/
theorem along_usesMeaning_iff (listing : Directory) (commands : List LogCommand) :
    Along LogCommand.step (UsesMeaning listing) listing commands ↔
      Along LogCommand.step (Unshifted listing) listing commands :=
  along_congr (LeftFrom listing) (fun _ _ _ hleft h => hleft.step h)
    (fun _ command hleft => usesMeaning_iff hleft command)
    ⟨fun _ => true, (List.filter_true _).symm⟩ commands

/-- Two logs, the first deleted: `read_log 1` then reads the second. -/
theorem not_usesMeaning_after_delete :
    ¬ ∀ (listing : Directory) (commands : List LogCommand),
      Along LogCommand.step (UsesMeaning listing) listing commands := by
  intro h
  let listing : Directory :=
    ⟨[⟨str "a", .file (str "1")⟩, ⟨str "b", .file (str "2")⟩], by decide⟩
  have huses := ((h listing [.delete_log 1, .read_log 1]).2 _ rfl).1
  have hmeans := huses 1 (str "a") rfl (by decide +kernel)
  have hread := (hmeans.deleted (by decide +kernel)).2.1
  exact absurd hread (by decide +kernel)

end LibreXC.Linuino
