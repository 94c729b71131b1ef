import LibreXC.Arduino.Handlers

/-! # The response lines of `librexc.ino`

A response is meant to be one line holding one JSON object, with the members `cmd` and `status` and,
where the command succeeded, `data`. The sketch concatenates it by hand. `make_json` closes what it
opens (`make_json_eq`); `read_all()` writes its successful response without it and never closes the
object.

`wellFormed_iff` says for which commands and answers of the library the response is well-formed. -/

namespace LibreXC.Arduino

open Ascii Json

/-! ## What a response is -/

/-- **What the sketch relies on** from the library: texts that need no escape in a JSON string, a
list of numbers for the available PIDs, and errors that do not read `ok`. -/
structure ELM.Lawful (elm : ELM) : Prop where
  plain : ∀ q, IsPlain (elm.answer q)
  pids : elm.Fails .get_available_pids ∨
    ∃ pids : List ℕ, elm.answer .get_available_pids = commaSeparated (pids.map decimalNat)
  error : ¬ elm.ERROR <+: str "ok"

/-- **The members of a response** to `cmd`, where `failed` says that a call of the library failed. -/
structure IsResponse (cmd : Str) (failed : Prop) (members : List (Str × Value)) : Prop where
  nodup : (members.map Prod.fst).Nodup
  cmd : (str "cmd", .string cmd) ∈ members
  status : ∃ status, (str "status", .string status) ∈ members ∧ (status = str "ok" ↔ ¬ failed)
  data : ∀ v, (str "data", v) ∈ members → ¬ failed

/-- **One line with one response**: a JSON object, and the line end of `print(… + '\n')` or
`println`. -/
def IsLine (cmd : Str) (failed : Prop) (printed : Str) : Prop :=
  ∃ text lineEnd members, printed = text ++ lineEnd ∧ (lineEnd = str "\n" ∨ lineEnd = str "\r\n") ∧
    0x0A ∉ text ∧ parse text = some (.object members) ∧ IsResponse cmd failed members

/-- The handler left a well-formed response. -/
def WellFormed (elm : ELM) (handler : Handler) (t : Trace) : Prop :=
  IsLine (str handler.name) (∃ c ∈ t.calls, c.Failed elm) t.printed

/-! ## The responses as JSON -/

/-- The object of a response. -/
def responseObject (cmd status : Str) (data : Option Value) : Value :=
  .object ((str "cmd", .string cmd) :: (str "status", .string status)
    :: (data.map fun v => (str "data", v)).toList)

/-- The text of optional data. -/
def dataText : Option Value → Str
  | none => []
  | some v => render v

theorem commaSeparated_singleton (t : Str) : commaSeparated [t] = t := List.intercalate_singleton

/-- **`make_json` renders the object of a response.** -/
theorem make_json_eq (cmd status : Str) {data : Option Value} (h : ∀ v ∈ data, v.Plain) :
    make_json cmd status (dataText data) = render (responseObject cmd status data) := by
  cases data with
  | none =>
      simp only [make_json, dataText, responseObject, render_object, ne_eq, not_true_eq_false, if_false,
        Option.map_none, Option.toList_none, List.map_cons, List.map_nil, commaSeparated_cons_cons,
        commaSeparated_singleton, renderMember, render, quoted, List.append_assoc, List.cons_append,
        List.nil_append]
      rfl
  | some v =>
      obtain ⟨b, t, hhead, -⟩ := head_render (h v rfl)
      have hne : render v ≠ [] := by
        rw [hhead]
        exact List.cons_ne_nil _ _
      simp only [make_json, dataText, responseObject, render_object, if_pos hne,
        Option.map_some, Option.toList_some, List.map_cons, List.map_nil, commaSeparated_cons_cons,
        commaSeparated_singleton, renderMember, render, quoted, List.append_assoc, List.cons_append,
        List.nil_append]
      rfl

theorem plain_responseObject {cmd status : Str} {data : Option Value} (hcmd : IsPlain cmd)
    (hstatus : IsPlain status) (hdata : ∀ v ∈ data, v.Plain) :
    (responseObject cmd status data).Plain := by
  have hmember : ∀ m ∈ (data.map fun v => (str "data", v)).toList, m.1 = str "data" ∧ m.2.Plain := by
    intro m hm
    obtain ⟨v, hv, rfl⟩ := Option.map_eq_some_iff.mp (Option.mem_toList.mp hm)
    exact ⟨rfl, hdata v hv⟩
  refine .object ?_ ?_
  · have hnames : IsPlain (str "cmd") ∧ IsPlain (str "status") ∧ IsPlain (str "data") := by decide
    refine List.forall_mem_cons.mpr ⟨hnames.1, List.forall_mem_cons.mpr ⟨hnames.2.1, fun m hm => ?_⟩⟩
    rw [(hmember m hm).1]
    exact hnames.2.2
  · exact List.forall_mem_cons.mpr ⟨.string hcmd, List.forall_mem_cons.mpr
      ⟨.string hstatus, fun m hm => (hmember m hm).2⟩⟩

/-- **A response made by `make_json` is well-formed**, when its status tells whether a call failed and
data comes with the status `ok` only. -/
theorem isLine_make_json {cmd status : Str} (data : Option Value) {failed : Prop}
    (hcmd : IsPlain cmd) (hplain : IsPlain status) (hdata : ∀ v ∈ data, v.Plain)
    (hstatus : status = str "ok" ↔ ¬ failed) (hok : data ≠ none → ¬ failed) :
    IsLine cmd failed (make_json cmd status (dataText data) ++ str "\n") := by
  have hobject := plain_responseObject hcmd hplain hdata
  rw [make_json_eq cmd status hdata]
  refine ⟨_, _, _, rfl, .inl rfl, ?_, parse_render hobject, ?_⟩
  · -- a line end is a control character
    exact fun hmem => absurd (printable_render hobject _ hmem) (by decide)
  · constructor
    · cases data with
      | none => exact (by decide : [str "cmd", str "status"].Nodup)
      | some v => exact (by decide : [str "cmd", str "status", str "data"].Nodup)
    · exact List.mem_cons_self
    · exact ⟨status, List.mem_cons_of_mem _ List.mem_cons_self, hstatus⟩
    · intro v hv
      refine hok ?_
      rintro rfl
      -- without data no member has that name
      have hnames : str "data" ∉ [str "cmd", str "status"] := by decide
      have hname := List.mem_map_of_mem (f := Prod.fst) hv
      exact hnames hname

/-- A successful response, with or without data. -/
theorem isLine_ok {cmd : Str} {failed : Prop} (hcmd : IsPlain cmd) (data : Option Value)
    (hdata : ∀ v ∈ data, v.Plain) (h : ¬ failed) :
    IsLine cmd failed (make_json cmd (str "ok") (dataText data) ++ str "\n") :=
  isLine_make_json data hcmd (by decide) hdata ⟨fun _ => h, fun _ => rfl⟩ fun _ => h

/-- The response of a failure. -/
theorem isLine_error {cmd status : Str} {failed : Prop} (hcmd : IsPlain cmd) (hplain : IsPlain status)
    (hne : status ≠ str "ok") (h : failed) :
    IsLine cmd failed (make_json cmd status [] ++ str "\n") :=
  isLine_make_json none hcmd hplain (fun _ hv => (nomatch hv))
    ⟨fun hok => absurd hok hne, fun hnot => absurd h hnot⟩ fun hsome => absurd rfl hsome

/-! ## The texts of the data -/

/-- The object of one PID. -/
def pidObject (pid : BYTE) (value : Str) : Value :=
  .object [(str "pid", .number (decimalNat pid.toNat)), (str "value", .string value)]

/-- `make_jsondata_pid` renders the object of a PID. -/
theorem make_jsondata_pid_eq (pid : BYTE) (value : Str) :
    make_jsondata_pid pid value = render (pidObject pid value) := by
  simp only [make_jsondata_pid, pidObject, render_object, List.map_cons, List.map_nil,
    commaSeparated_cons_cons, commaSeparated_singleton, renderMember, render, quoted,
    List.append_assoc, List.cons_append, List.nil_append]
  rfl

theorem plain_pidObject (pid : BYTE) {value : Str} (h : IsPlain value) : (pidObject pid value).Plain := by
  refine .object ?_ ?_
  · simp only [List.forall_mem_cons]
    decide
  · simp only [List.forall_mem_cons]
    exact ⟨.number _, .string h, fun _ hm => (nomatch hm)⟩

/-- The object of a car. -/
def carObject (elm : ELM) : Value :=
  .object [(str "vin", .string (elm.answer .get_vin)), (str "ecu", .string (elm.answer .get_ecu)),
    (str "voltage", .string (elm.answer .get_voltage)),
    (str "protocol", .string (elm.answer .get_protocol))]

/-- The loop of `read_car()` collects the members of the object of a car. -/
theorem carText_eq (elm : ELM) :
    str "\x7b" ++ carText elm ++ str "\x7d" = render (carObject elm) := by
  simp only [carText, carObject, render_object, List.map_cons, List.map_nil,
    commaSeparated_cons_cons, commaSeparated_singleton, renderMember, render, quoted,
    List.append_assoc, List.cons_append, List.nil_append]
  rfl

theorem plain_carObject {elm : ELM} (h : elm.Lawful) : (carObject elm).Plain := by
  refine .object ?_ ?_
  · simp only [List.forall_mem_cons]
    decide
  · simp only [List.forall_mem_cons]
    exact ⟨.string (h.plain _), .string (h.plain _), .string (h.plain _), .string (h.plain _),
      fun _ hm => (nomatch hm)⟩

/-! ## The handlers -/

theorem isPlain_name (handler : Handler) : IsPlain (str handler.name) := by
  cases handler with
  | read_pid pid => exact (by decide : IsPlain (str "read_pid"))
  | _ => decide

/-- **A handler around one command** of the library answers well-formed. -/
theorem wellFormed_call {elm : ELM} {handler : Handler} {c : Call} {b : Bool}
    (hfailed : c.Failed elm ↔ b = false)
    (hrun : dispatch elm handler = do
      if ← call c b then respond (make_json (str handler.name) (str "ok") [])
      else respond (make_json (str handler.name) (str "error") [])) :
    WellFormed elm handler (dispatch elm handler ⟨[], []⟩).2 := by
  have hiff : (∃ c' ∈ [c], c'.Failed elm) ↔ b = false := by simpa using hfailed
  rw [hrun, run_call, WellFormed, hiff]
  cases b with
  | true => exact isLine_ok (isPlain_name _) none (fun _ hv => (nomatch hv)) (by decide)
  | false => exact isLine_error (isPlain_name _) (by decide) (by decide) rfl

/-- **A handler around one query** of the library answers well-formed, when its data is JSON and the
status of a failure is not `ok`. -/
theorem wellFormed_query {elm : ELM} {handler : Handler} (q : Query) (ok error : Str → Str)
    (hrun : dispatch elm handler = do
      let value ← query elm q
      if ¬ elm.ERROR <+: value then respond (make_json (str handler.name) (str "ok") (ok value))
      else respond (make_json (str handler.name) (error value) []))
    (hok : ¬ elm.Fails q → ∃ v : Value, v.Plain ∧ ok (elm.answer q) = render v)
    (herror : elm.Fails q → IsPlain (error (elm.answer q)) ∧ error (elm.answer q) ≠ str "ok") :
    WellFormed elm handler (dispatch elm handler ⟨[], []⟩).2 := by
  have hiff : (∃ c ∈ [Call.query q], c.Failed elm) ↔ elm.Fails q := by simp [Call.Failed]
  rw [hrun, run_query]
  by_cases h : elm.Fails q
  · rw [if_pos h]
    obtain ⟨hplain, hne⟩ := herror h
    exact isLine_error (isPlain_name _) hplain hne (hiff.mpr h)
  · rw [if_neg h]
    obtain ⟨v, hv, htext⟩ := hok h
    rw [htext]
    exact isLine_ok (isPlain_name _) (some v) (fun _ hw => Option.some.inj hw ▸ hv)
      fun hfailed => h (hiff.mp hfailed)

theorem wellFormed_available_pids {elm : ELM} (helm : elm.Lawful) :
    WellFormed elm .available_pids (dispatch elm .available_pids ⟨[], []⟩).2 := by
  refine wellFormed_query .get_available_pids (fun data => str "[" ++ data ++ str "]")
    (fun _ => str "error") rfl (fun hok => ?_) fun _ => by decide
  obtain ⟨pids, hpids⟩ := helm.pids.resolve_left hok
  refine ⟨.array (pids.map fun n => .number (decimalNat n)), .array ?_, ?_⟩
  · exact List.forall_mem_map.mpr fun n _ => .number n
  · have htexts : (pids.map fun n => Value.number (decimalNat n)).map render = pids.map decimalNat := by
      rw [List.map_map]
      exact List.map_congr_left fun n _ => by rw [Function.comp_apply, render]
    rw [hpids, render_array, htexts]
    rfl

theorem wellFormed_read_pid {elm : ELM} (helm : elm.Lawful) (pid : BYTE) :
    WellFormed elm (.read_pid pid) (dispatch elm (.read_pid pid) ⟨[], []⟩).2 := by
  -- the status of a failure is the error text itself
  refine wellFormed_query (.get_pid_data pid)
    (fun value => str "[" ++ make_jsondata_pid pid value ++ str "]") id rfl
    (fun _ => ?_) fun herror => ⟨helm.plain _, fun hok => helm.error (hok ▸ herror)⟩
  refine ⟨.array [pidObject pid (elm.answer (.get_pid_data pid))], .array ?_, ?_⟩
  · exact List.forall_mem_singleton.mpr (plain_pidObject pid (helm.plain _))
  · rw [make_jsondata_pid_eq, render_array, List.map_singleton, commaSeparated_singleton]
    rfl

theorem wellFormed_read_dtc {elm : ELM} (helm : elm.Lawful) :
    WellFormed elm .read_dtc (dispatch elm .read_dtc ⟨[], []⟩).2 := by
  refine wellFormed_query .get_dtc (fun data => str "\"" ++ data ++ str "\"") (fun _ => str "error")
    rfl (fun _ => ?_) fun _ => by decide
  refine ⟨.string (elm.answer .get_dtc), .string (helm.plain _), ?_⟩
  rw [render, quoted]
  rfl

theorem wellFormed_read_car {elm : ELM} (helm : elm.Lawful) :
    WellFormed elm .read_car (dispatch elm .read_car ⟨[], []⟩).2 := by
  obtain ⟨error, data, calls, hloop, herror, hdata⟩ := run_read_car_loop elm
  rw [dispatch, read_car, bind_of_eq hloop]
  cases error with
  | true => exact isLine_error (isPlain_name _) (by decide) (by decide) (herror.mp rfl)
  | false =>
      have hline : IsLine (str "read_car") (∃ c ∈ calls, c.Failed elm)
          (make_json (str "read_car") (str "ok") (dataText (some (carObject elm))) ++ str "\n") :=
        isLine_ok (isPlain_name .read_car) _ (fun _ hv => Option.some.inj hv ▸ plain_carObject helm)
          fun hfailed => Bool.false_ne_true (herror.mpr hfailed)
      rw [dataText, ← carText_eq, ← hdata rfl] at hline
      exact hline

/-! ### `read_all()` -/

/-- **The successful response of `read_all()` is no JSON object**: nothing closes its brace. -/
theorem not_isLine_read_all (texts : List Str) (cmd : Str) (failed : Prop) :
    ¬ IsLine cmd failed (read_all_head ++ commaSeparated texts ++ str "]" ++ str "\r\n") := by
  rintro ⟨text, lineEnd, members, hprinted, hlineEnd, -, hparse, -⟩
  obtain ⟨rest, hsuffix, hrest⟩ := parse_object_closed hparse
  -- both a brace and a bracket would be the last byte that is not white space
  have hbrace : 0x7D :: (rest ++ lineEnd) <:+ text ++ lineEnd := by
    obtain ⟨pre, rfl⟩ := hsuffix
    exact ⟨pre, by simp⟩
  have hbracket : 0x5D :: str "\r\n" <:+ text ++ lineEnd := by
    rw [← hprinted]
    exact ⟨read_all_head ++ commaSeparated texts, by simp [str, ascii]⟩
  have hspaces : ∀ b ∈ rest ++ lineEnd, isSpace b = true := by
    refine List.forall_mem_append.mpr ⟨hrest, ?_⟩
    rcases hlineEnd with rfl | rfl <;> exact List.all_eq_true.mp (by decide)
  rcases List.suffix_or_suffix_of_suffix hbrace hbracket with h | h
  · rcases List.suffix_cons_iff.mp h with heq | h
    · exact absurd (List.cons.inj heq).1 (by decide)
    · exact absurd (h.subset List.mem_cons_self) (by decide)
  · rcases List.suffix_cons_iff.mp h with heq | h
    · exact absurd (List.cons.inj heq).1 (by decide)
    · exact absurd (hspaces _ (h.subset List.mem_cons_self)) (by decide)

/-- **`read_all()` answers well-formed exactly when an available PID fails.** -/
theorem wellFormed_read_all_iff (elm : ELM) :
    WellFormed elm .read_all (dispatch elm .read_all ⟨[], []⟩).2 ↔ ∃ pid, elm.Stops pid := by
  constructor
  · intro hline
    by_contra hnone
    rw [dispatch, run_read_all_ok (not_exists.mp hnone)] at hline
    exact not_isLine_read_all _ _ _ hline
  · rintro ⟨pid, hpid⟩
    -- the loop stops at the first such PID
    have hfound : allPids.find? (fun pid => elm.Stops pid) ≠ none := by
      intro hnone
      exact absurd (List.find?_eq_none.mp hnone pid (mem_allPids pid)) (by simpa using hpid)
    obtain ⟨pid', hpid'⟩ := Option.ne_none_iff_exists'.mp hfound
    obtain ⟨hstops, before, after, hpids, hbefore⟩ := List.find?_eq_some_iff_append.mp hpid'
    rw [dispatch, run_read_all_error hpids (fun pid hmem => by simpa using hbefore pid hmem)
      (by simpa using hstops)]
    refine isLine_error (isPlain_name .read_all) (by decide) (by decide) ?_
    have hstops : elm.Stops pid' := by simpa using hstops
    refine ⟨.query (.get_pid_data pid'), List.mem_append_right _ ?_, hstops.2⟩
    rw [pidCalls, if_pos hstops.1]
    exact List.mem_cons_of_mem _ List.mem_cons_self

/-- **When a response is well-formed**: for every payload with a command and all answers of the
library, exactly when the command is not `read_all`, or an available PID fails. -/
theorem wellFormed_iff {elm : ELM} (helm : elm.Lawful) {data : Payload}
    (hcmd : 1 ≤ data.cmd ∧ data.cmd ≤ 7) :
    ∃ handler, handleData data = some handler ∧
      (WellFormed elm handler (respondTo elm data) ↔ data.cmd ≠ 3 ∨ ∃ pid, elm.Stops pid) := by
  obtain ⟨cmd, param⟩ := data
  have hcases : cmd = 1 ∨ cmd = 2 ∨ cmd = 3 ∨ cmd = 4 ∨ cmd = 5 ∨ cmd = 6 ∨ cmd = 7 := by
    obtain ⟨hlo, hhi⟩ := hcmd
    dsimp only at hlo hhi
    grind
  have hother : ∀ {handler} {t : Trace}, WellFormed elm handler t → cmd ≠ 3 →
      (WellFormed elm handler t ↔ cmd ≠ 3 ∨ ∃ pid, elm.Stops pid) := fun hwell hne =>
    ⟨fun _ => .inl hne, fun _ => hwell⟩
  have hreset : WellFormed elm .reset (dispatch elm .reset ⟨[], []⟩).2 :=
    wellFormed_call (c := .reset) Iff.rfl rfl
  have hdelete_dtc : WellFormed elm .delete_dtc (dispatch elm .delete_dtc ⟨[], []⟩).2 :=
    wellFormed_call (c := .clear_dtc) Iff.rfl rfl
  rcases hcases with rfl | rfl | rfl | rfl | rfl | rfl | rfl
  · exact ⟨.reset, rfl, hother hreset (by decide)⟩
  · exact ⟨.available_pids, rfl, hother (wellFormed_available_pids helm) (by decide)⟩
  · refine ⟨.read_all, rfl, (wellFormed_read_all_iff elm).trans ?_⟩
    exact ⟨.inr, fun h => h.resolve_left fun hne => hne rfl⟩
  · exact ⟨.read_pid param, rfl, hother (wellFormed_read_pid helm param) (by decide)⟩
  · exact ⟨.read_car, rfl, hother (wellFormed_read_car helm) (by decide)⟩
  · exact ⟨.read_dtc, rfl, hother (wellFormed_read_dtc helm) (by decide)⟩
  · exact ⟨.delete_dtc, rfl, hother hdelete_dtc (by decide)⟩

/-- A car at idle that answers everything, with the engine speed as its one PID. -/
def idleCar : ELM where
  ERROR := str "ERROR"
  reset := true
  clear_dtc := true
  pid_available := fun pid => pid = 12
  answer := fun q =>
    match q with
    | .get_available_pids => str "12"
    | .get_pid_data _ => str "800"
    | .get_vin => str "WDB1240501A"
    | .get_ecu => str "ENGINE"
    | .get_voltage => str "12.4V"
    | .get_protocol => str "ISO 9141-2"
    | .get_dtc => str "P0130,P0133"

theorem lawful_idleCar : idleCar.Lawful where
  plain := by
    intro q
    cases q with
    | get_pid_data pid => exact (by decide : IsPlain (str "800"))
    | _ => decide
  pids := .inr ⟨[12], by decide⟩
  error := by decide

/-- The engine speed of the idle car, read alone, comes in a well-formed response. -/
theorem wellFormed_idleCar_read_pid :
    WellFormed idleCar (.read_pid 12) (respondTo idleCar ⟨4, 12⟩) := by
  obtain ⟨handler, hhandler, hiff⟩ : ∃ handler, handleData ⟨4, 12⟩ = some handler ∧ _ :=
    wellFormed_iff lawful_idleCar (by decide)
  obtain rfl := Option.some.inj hhandler
  exact hiff.mpr (.inl (by decide))

/-- Read with all others, it does not. -/
theorem not_wellFormed_idleCar_read_all :
    ¬ ∀ (elm : ELM) (data : Payload), elm.Lawful → 1 ≤ data.cmd ∧ data.cmd ≤ 7 →
      ∃ handler, handleData data = some handler ∧ WellFormed elm handler (respondTo elm data) := by
  intro h
  obtain ⟨handler, hhandler, hline⟩ := h idleCar ⟨3, 0⟩ lawful_idleCar (by decide)
  obtain rfl := Option.some.inj hhandler
  obtain ⟨pid, -, hfails⟩ := (wellFormed_read_all_iff idleCar).mp hline
  exact absurd hfails (by decide : ¬ str "ERROR" <+: str "800")

end LibreXC.Arduino
