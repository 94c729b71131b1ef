import LibreXC.Arduino.Receiver
import LibreXC.Lib.Json

/-! # The handlers of `librexc.ino`

Each handler asks the ELM library and prints one response. The library is outside the sketch: an
**`ELM`** holds what its calls answer during one `handleData()`, in which no call is made twice with
the same argument. A handler is a **`Sketch`** computation, which records the printed text and the
calls made.

`String::startsWith(elm.ERROR)` is how the sketch recognises a failed query. -/

namespace LibreXC.Arduino

open Ascii Json

/-! ## The ELM library -/

/-- The calls of the library that answer with a text. -/
inductive Query
  | get_available_pids
  | get_pid_data (pid : BYTE)
  | get_vin | get_ecu | get_voltage | get_protocol | get_dtc
  deriving DecidableEq

/-- A call of the library. -/
inductive Call
  | reset | clear_dtc
  | pid_available (pid : BYTE)
  | query (q : Query)
  deriving DecidableEq

/-- **What the ELM library answers.** -/
structure ELM where
  /-- `elm.ERROR`, which starts the text of a failed query. -/
  ERROR : Str
  reset : Bool
  clear_dtc : Bool
  pid_available : BYTE → Bool
  answer : Query → Str

namespace ELM

/-- The query fails: `value.startsWith(elm.ERROR)`. -/
def Fails (elm : ELM) (q : Query) : Prop := elm.ERROR <+: elm.answer q

instance (elm : ELM) (q : Query) : Decidable (elm.Fails q) :=
  inferInstanceAs (Decidable (elm.ERROR <+: elm.answer q))

/-- `read_all()` stops at this PID: it is available and its query fails. -/
def Stops (elm : ELM) (pid : BYTE) : Prop :=
  elm.pid_available pid = true ∧ elm.Fails (.get_pid_data pid)

instance (elm : ELM) (pid : BYTE) : Decidable (elm.Stops pid) :=
  inferInstanceAs (Decidable (_ ∧ _))

end ELM

/-- **The call failed**: it answered `false`, or an error text. -/
def Call.Failed (elm : ELM) : Call → Prop
  | .reset => elm.reset = false
  | .clear_dtc => elm.clear_dtc = false
  | .pid_available _ => False
  | .query q => elm.Fails q

/-! ## Computations of the sketch -/

/-- What a handler has done: the text it printed and the calls it made. -/
structure Trace where
  printed : Str
  calls : List Call
  deriving DecidableEq

/-- A computation of the sketch. -/
abbrev Sketch := StateM Trace

/-- `usb_serial.print(data)`. -/
def print (data : Str) : Sketch Unit := fun t => ((), { t with printed := t.printed ++ data })

/-- `usb_serial.println(data)`. -/
def println (data : Str) : Sketch Unit := print (data ++ str "\r\n")

/-- A call of the library and its answer. -/
def call {α : Type} (c : Call) (answer : α) : Sketch α :=
  fun t => (answer, { t with calls := t.calls ++ [c] })

/-- A query of the library. -/
def query (elm : ELM) (q : Query) : Sketch Str := call (.query q) (elm.answer q)

/-! ## The functions of the sketch -/

/-- `make_json(_cmd, _status, _data)`. -/
def make_json (_cmd _status _data : Str) : Str :=
  let json := str "\x7b"
  let json := json ++ (str "\"cmd\":\"" ++ _cmd ++ str "\",")
  let json := json ++ (str "\"status\":\"" ++ _status ++ str "\"")
  let json := if _data ≠ [] then json ++ (str ",\"data\":" ++ _data) else json
  json ++ str "\x7d"

/-- `make_jsondata_pid(pid, value)`. -/
def make_jsondata_pid (pid : BYTE) (value : Str) : Str :=
  let data := str "\x7b\"pid\":" ++ decimalNat pid.toNat ++ str ","
  let data := data ++ (str "\"value\":\"" ++ value ++ str "\"")
  data ++ str "\x7d"

/-- `respond(data)`. -/
def respond (data : Str) : Sketch Unit := print (data ++ str "\n")

/-- `reset()`. -/
def reset (elm : ELM) : Sketch Unit := do
  if ← call .reset elm.reset then respond (make_json (str "reset") (str "ok") [])
  else respond (make_json (str "reset") (str "error") [])

/-- `available_pids()`. -/
def available_pids (elm : ELM) : Sketch Unit := do
  let data ← query elm .get_available_pids
  if ¬ elm.ERROR <+: data then
    respond (make_json (str "available_pids") (str "ok") (str "[" ++ data ++ str "]"))
  else respond (make_json (str "available_pids") (str "error") [])

/-- The `for` loop of `read_all()` over the PIDs still to come: `error` and `data` at its end. -/
def read_all_loop (elm : ELM) : List BYTE → Bool → Str → Sketch (Bool × Str)
  | [], _, data => pure (false, data)
  | i :: pids, first, data => do
      if ← call (.pid_available i) (elm.pid_available i) then
        let data := if first then data else data ++ str ","
        let value ← query elm (.get_pid_data i)
        if ¬ elm.ERROR <+: value then read_all_loop elm pids false (data ++ make_jsondata_pid i value)
        else pure (true, data)
      else read_all_loop elm pids first data

/-- The values of `i` in `read_all()`: `0` to `255`. -/
def allPids : List BYTE := (List.range 256).map UInt8.ofNat

/-- How the text of `read_all()` starts. -/
def read_all_head : Str := str "\x7b\"cmd\":\"read_all\",\"status\":\"ok\",\"data\":["

/-- `read_all()`. -/
def read_all (elm : ELM) : Sketch Unit := do
  let (error, data) ← read_all_loop elm allPids true read_all_head
  let data := data ++ str "]"
  if ¬ error then println data else respond (make_json (str "read_all") (str "error") [])

/-- `read_pid(pid)`. -/
def read_pid (elm : ELM) (pid : BYTE) : Sketch Unit := do
  let value ← query elm (.get_pid_data pid)
  if ¬ elm.ERROR <+: value then
    respond (make_json (str "read_pid") (str "ok") (str "[" ++ make_jsondata_pid pid value ++ str "]"))
  else respond (make_json (str "read_pid") value [])

/-- The `while` loop of `read_car()`, which always breaks: `error` and `data` at its end. -/
def read_car_loop (elm : ELM) : Sketch (Bool × Str) := do
  let data := []
  let value_vin ← query elm .get_vin
  if ¬ elm.ERROR <+: value_vin then
    let data := data ++ (str "\"vin\":\"" ++ value_vin ++ str "\",")
    let value_ecu ← query elm .get_ecu
    if ¬ elm.ERROR <+: value_ecu then
      let data := data ++ (str "\"ecu\":\"" ++ value_ecu ++ str "\",")
      let value_voltage ← query elm .get_voltage
      if ¬ elm.ERROR <+: value_voltage then
        let data := data ++ (str "\"voltage\":\"" ++ value_voltage ++ str "\",")
        let value_protocol ← query elm .get_protocol
        if ¬ elm.ERROR <+: value_protocol then
          let data := data ++ (str "\"protocol\":\"" ++ value_protocol ++ str "\"")
          pure (false, data)
        else pure (true, data)
      else pure (true, data)
    else pure (true, data)
  else pure (true, data)

/-- `read_car()`. -/
def read_car (elm : ELM) : Sketch Unit := do
  let (error, data) ← read_car_loop elm
  if ¬ error then
    respond (make_json (str "read_car") (str "ok") (str "\x7b" ++ data ++ str "\x7d"))
  else respond (make_json (str "read_car") (str "error") [])

/-- `read_dtc()`. -/
def read_dtc (elm : ELM) : Sketch Unit := do
  let data ← query elm .get_dtc
  if ¬ elm.ERROR <+: data then
    respond (make_json (str "read_dtc") (str "ok") (str "\"" ++ data ++ str "\""))
  else respond (make_json (str "read_dtc") (str "error") [])

/-- `delete_dtc()`. -/
def delete_dtc (elm : ELM) : Sketch Unit := do
  if ← call .clear_dtc elm.clear_dtc then respond (make_json (str "delete_dtc") (str "ok") [])
  else respond (make_json (str "delete_dtc") (str "error") [])

/-- The function a handler stands for. -/
def dispatch (elm : ELM) : Handler → Sketch Unit
  | .reset => reset elm
  | .available_pids => available_pids elm
  | .read_all => read_all elm
  | .read_pid pid => read_pid elm pid
  | .read_car => read_car elm
  | .read_dtc => read_dtc elm
  | .delete_dtc => delete_dtc elm

/-- **What `handleData()` does** with a payload: nothing, unless the command byte has a case. -/
def respondTo (elm : ELM) (data : Payload) : Trace :=
  match handleData data with
  | some handler => (dispatch elm handler ⟨[], []⟩).2
  | none => ⟨[], []⟩

/-! ## Runs of the handlers -/

/-- A computation hands its result and its trace on. -/
theorem bind_of_eq {α β : Type} {m : Sketch α} {f : α → Sketch β} {a : α} {t t' : Trace}
    (h : m t = (a, t')) : (m >>= f) t = f a t' := by
  simp only [bind, StateT.bind, h]

/-- A call hands its answer on and is recorded. -/
theorem bind_call {α β : Type} (c : Call) (answer : α) (f : α → Sketch β) (t : Trace) :
    (call c answer >>= f) t = f answer { t with calls := t.calls ++ [c] } := rfl

/-- A command of the library and one of two responses. -/
theorem run_call (c : Call) (b : Bool) (yes no : Str) :
    ((do if ← call c b then respond yes else respond no) : Sketch Unit) ⟨[], []⟩
      = ((), ⟨(if b then yes else no) ++ str "\n", [c]⟩) := by
  cases b <;> rfl

/-- A query goes on with its answer, or in the other branch when it failed. -/
theorem run_query {α : Type} (elm : ELM) (q : Query) (ok error : Str → Sketch α) (t : Trace) :
    ((do
      let value ← query elm q
      if ¬ elm.ERROR <+: value then ok value else error value) : Sketch α) t
      = (if elm.Fails q then error (elm.answer q) else ok (elm.answer q))
          { t with calls := t.calls ++ [.query q] } := by
  rw [query, bind_call]
  by_cases h : elm.ERROR <+: elm.answer q
  · rw [if_neg (not_not.mpr h), if_pos (show elm.Fails q from h)]
  · rw [if_pos h, if_neg (show ¬ elm.Fails q from h)]

/-! ### The loop of `read_all()` -/

/-- The text of one available PID. -/
def pidText (elm : ELM) (pid : BYTE) : Str := make_jsondata_pid pid (elm.answer (.get_pid_data pid))

/-- The calls `read_all()` makes for one PID. -/
def pidCalls (elm : ELM) (pid : BYTE) : List Call :=
  if elm.pid_available pid then [.pid_available pid, .query (.get_pid_data pid)]
  else [.pid_available pid]

/-- The texts of the available PIDs among `pids`. -/
def pidTexts (elm : ELM) (pids : List BYTE) : List Str :=
  (pids.filter elm.pid_available).map (pidText elm)

/-- The loop after it has collected `texts`. -/
def read_all_from (elm : ELM) (pids : List BYTE) (texts : List Str) : Sketch (Bool × Str) :=
  read_all_loop elm pids texts.isEmpty (read_all_head ++ commaSeparated texts)

/-- The loop starts with nothing collected. -/
theorem read_all_from_nil (elm : ELM) :
    read_all_from elm allPids [] = read_all_loop elm allPids true read_all_head := by
  rw [read_all_from, commaSeparated, List.intercalate_nil, List.append_nil]
  rfl

/-- **One turn of the loop** at a PID that does not stop it. -/
theorem read_all_from_cons {elm : ELM} {pid : BYTE} (h : ¬ elm.Stops pid) (pids : List BYTE)
    (texts : List Str) (t : Trace) :
    read_all_from elm (pid :: pids) texts t
      = read_all_from elm pids (texts ++ pidTexts elm [pid])
          ⟨t.printed, t.calls ++ pidCalls elm pid⟩ := by
  unfold read_all_from
  by_cases havail : elm.pid_available pid = true
  · have hok : ¬ elm.ERROR <+: elm.answer (.get_pid_data pid) := fun hfail => h ⟨havail, hfail⟩
    have htexts : pidTexts elm [pid] = [pidText elm pid] := by
      rw [pidTexts, List.filter_cons_of_pos havail]
      rfl
    -- `first` holds exactly as long as nothing is collected, so the comma goes where one is due
    have hdata : read_all_head ++ commaSeparated (texts ++ [pidText elm pid])
        = (if texts.isEmpty then read_all_head ++ commaSeparated texts
            else read_all_head ++ commaSeparated texts ++ str ",") ++ pidText elm pid := by
      rw [commaSeparated_concat]
      split <;> simp [str, ascii]
    have hsome : (texts ++ [pidText elm pid]).isEmpty = false := by simp
    have hcalls : t.calls ++ [.pid_available pid, .query (.get_pid_data pid)]
        = t.calls ++ [.pid_available pid] ++ [.query (.get_pid_data pid)] := by
      rw [List.append_assoc, List.singleton_append]
    rw [htexts, hdata, hsome, pidCalls, if_pos havail, hcalls, read_all_loop, bind_call,
      if_pos havail, run_query, if_neg (show ¬ elm.Fails _ from hok)]
    rfl
  · -- not available: asked, and passed over
    have htexts : pidTexts elm [pid] = [] := by
      rw [pidTexts, List.filter_cons_of_neg havail]
      rfl
    rw [htexts, List.append_nil, pidCalls, if_neg havail, read_all_loop, bind_call, if_neg havail]

/-- **The loop passes over the PIDs that do not stop it**: their texts are collected. -/
theorem read_all_from_append {elm : ELM} {before : List BYTE} (h : ∀ pid ∈ before, ¬ elm.Stops pid)
    (pids : List BYTE) (texts : List Str) (t : Trace) :
    read_all_from elm (before ++ pids) texts t
      = read_all_from elm pids (texts ++ pidTexts elm before)
          ⟨t.printed, t.calls ++ before.flatMap (pidCalls elm)⟩ := by
  induction before generalizing texts t with
  | nil => simp [pidTexts]
  | cons pid before ih =>
      obtain ⟨hpid, hbefore⟩ := List.forall_mem_cons.mp h
      have htexts : pidTexts elm (pid :: before) = pidTexts elm [pid] ++ pidTexts elm before := by
        rw [pidTexts, pidTexts, pidTexts, ← List.map_append, ← List.filter_append]
        rfl
      rw [List.cons_append, read_all_from_cons hpid, ih hbefore, htexts, List.flatMap_cons,
        List.append_assoc, List.append_assoc]

/-- Every PID is tried. -/
theorem mem_allPids (pid : BYTE) : pid ∈ allPids :=
  List.mem_map.mpr ⟨pid.toNat, List.mem_range.mpr pid.toNat_lt, UInt8.ofNat_toNat⟩

/-- **`read_all()` without a failing PID** prints the texts of the available ones. -/
theorem run_read_all_ok {elm : ELM} (h : ∀ pid, ¬ elm.Stops pid) :
    read_all elm ⟨[], []⟩
      = ((), ⟨read_all_head ++ commaSeparated (pidTexts elm allPids) ++ str "]" ++ str "\r\n",
          allPids.flatMap (pidCalls elm)⟩) := by
  have hloop := read_all_from_append (fun pid _ => h pid : ∀ pid ∈ allPids, ¬ elm.Stops pid) [] []
    ⟨[], []⟩
  rw [List.append_nil, List.nil_append, read_all_from_nil] at hloop
  rw [read_all, bind_of_eq hloop]
  rfl

/-- **`read_all()` up to a failing PID** prints the error only. -/
theorem run_read_all_error {elm : ELM} {before after : List BYTE} {pid : BYTE}
    (hpids : allPids = before ++ pid :: after) (hbefore : ∀ pid ∈ before, ¬ elm.Stops pid)
    (hpid : elm.Stops pid) :
    read_all elm ⟨[], []⟩
      = ((), ⟨make_json (str "read_all") (str "error") [] ++ str "\n",
          before.flatMap (pidCalls elm) ++ pidCalls elm pid⟩) := by
  obtain ⟨havail, hfails⟩ := hpid
  have hloop := read_all_from_append hbefore (pid :: after) [] ⟨[], []⟩
  rw [← hpids, read_all_from_nil, read_all_from, read_all_loop, bind_call, if_pos havail, run_query,
    if_pos hfails] at hloop
  rw [read_all, bind_of_eq hloop, pidCalls, if_pos havail]
  simp [respond, print]

/-- The PIDs are tried in increasing order. -/
theorem pairwise_allPids : allPids.Pairwise (· < ·) := by
  rw [allPids, List.pairwise_map]
  refine List.pairwise_lt_range.imp_of_mem fun {m n} _ hn hlt => ?_
  have hn256 : n < 256 := List.mem_range.mp hn
  rw [UInt8.lt_iff_toNat_lt, UInt8.toNat_ofNat', UInt8.toNat_ofNat', Nat.mod_eq_of_lt hn256,
    Nat.mod_eq_of_lt (hlt.trans hn256)]
  exact hlt

/-- **What `read_all()` may report**: the available PIDs, all of them, or the error alone. -/
structure AllOrNothing (elm : ELM) (t : Trace) : Prop where
  /-- Without a failing PID, what stands between the first `[` and the last `]` is the list of the
  available PIDs with their values, in increasing order. -/
  all : (∀ pid, ¬ elm.Stops pid) → ∃ (opening : Str) (pids : List BYTE) (lineEnd : Str),
    t.printed = opening ++ str "["
          ++ commaSeparated (pids.map fun pid => make_jsondata_pid pid (elm.answer (.get_pid_data pid)))
          ++ str "]" ++ lineEnd ∧
      str "\"data\":" <:+ opening ∧ 0x5B ∉ opening ∧ 0x5D ∉ lineEnd ∧
      pids.Pairwise (· < ·) ∧ ∀ pid, pid ∈ pids ↔ elm.pid_available pid = true
  /-- At the first failing PID it stops asking, and prints nothing of what it has collected. -/
  nothing : ∀ first, elm.Stops first → (∀ pid < first, ¬ elm.Stops pid) →
    t.printed = make_json (str "read_all") (str "error") [] ++ str "\n" ∧
      ∀ pid, .query (.get_pid_data pid) ∈ t.calls → pid ≤ first

/-- A PID is queried in its own turn. -/
theorem eq_of_mem_pidCalls {elm : ELM} {pid pid' : BYTE}
    (h : .query (.get_pid_data pid') ∈ pidCalls elm pid) : pid' = pid := by
  unfold pidCalls at h
  split at h
  · simpa using h
  · simp at h

/-- **`read_all()` reports the available PIDs, all or nothing.** -/
theorem allOrNothing_read_all (elm : ELM) : AllOrNothing elm (read_all elm ⟨[], []⟩).2 := by
  constructor
  · intro h
    refine ⟨str "\x7b\"cmd\":\"read_all\",\"status\":\"ok\",\"data\":", allPids.filter elm.pid_available,
      str "\r\n", ?_, by decide +kernel, by decide +kernel, by decide,
      pairwise_allPids.filter elm.pid_available, fun pid => ?_⟩
    · rw [run_read_all_ok h]
      rfl
    · rw [List.mem_filter, and_iff_right (mem_allPids pid)]
  · intro first hfirst hbefore
    obtain ⟨before, after, hpids⟩ := List.append_of_mem (mem_allPids first)
    have hlt : ∀ pid ∈ before, pid < first := by
      have hsorted := hpids ▸ pairwise_allPids
      exact fun pid hpid => (List.pairwise_append.mp hsorted).2.2 pid hpid first List.mem_cons_self
    rw [run_read_all_error hpids (fun pid hpid => hbefore pid (hlt pid hpid)) hfirst]
    refine ⟨rfl, fun pid hpid => ?_⟩
    rcases List.mem_append.mp hpid with hpid | hpid
    · obtain ⟨pid', hpid', hcall⟩ := List.mem_flatMap.mp hpid
      rw [eq_of_mem_pidCalls hcall]
      exact UInt8.le_of_lt (hlt pid' hpid')
    · exact UInt8.le_of_eq (eq_of_mem_pidCalls hpid)

/-! ### The loop of `read_car()` -/

/-- The text of a car all of whose queries succeed. -/
def carText (elm : ELM) : Str :=
  str "\"vin\":\"" ++ elm.answer .get_vin ++ str "\"," ++ (str "\"ecu\":\"" ++ elm.answer .get_ecu ++ str "\",")
    ++ (str "\"voltage\":\"" ++ elm.answer .get_voltage ++ str "\",")
    ++ (str "\"protocol\":\"" ++ elm.answer .get_protocol ++ str "\"")

/-- **The loop of `read_car()`** ends with an error exactly when one of its calls failed, and
otherwise with the text of the car. -/
theorem run_read_car_loop (elm : ELM) : ∃ error data calls,
    read_car_loop elm ⟨[], []⟩ = ((error, data), ⟨[], calls⟩) ∧
      (error = true ↔ ∃ c ∈ calls, c.Failed elm) ∧ (error = false → data = carText elm) := by
  have hfailed : ∀ {q : Query} {calls : List Call}, elm.Fails q → .query q ∈ calls →
      (true = true ↔ ∃ c ∈ calls, c.Failed elm) := fun hq hmem =>
    ⟨fun _ => ⟨_, hmem, hq⟩, fun _ => rfl⟩
  unfold read_car_loop
  -- the first query that fails ends the loop
  rw [run_query]
  by_cases hvin : elm.Fails .get_vin
  · rw [if_pos hvin]
    exact ⟨_, _, _, rfl, hfailed hvin (by simp), fun h => (nomatch h)⟩
  · rw [if_neg hvin, run_query]
    by_cases hecu : elm.Fails .get_ecu
    · rw [if_pos hecu]
      exact ⟨_, _, _, rfl, hfailed hecu (by simp), fun h => (nomatch h)⟩
    · rw [if_neg hecu, run_query]
      by_cases hvoltage : elm.Fails .get_voltage
      · rw [if_pos hvoltage]
        exact ⟨_, _, _, rfl, hfailed hvoltage (by simp), fun h => (nomatch h)⟩
      · rw [if_neg hvoltage, run_query]
        by_cases hprotocol : elm.Fails .get_protocol
        · rw [if_pos hprotocol]
          exact ⟨_, _, _, rfl, hfailed hprotocol (by simp), fun h => (nomatch h)⟩
        · rw [if_neg hprotocol]
          refine ⟨_, _, _, rfl, ?_, fun _ => rfl⟩
          simp [Call.Failed, hvin, hecu, hvoltage, hprotocol]

end LibreXC.Arduino
