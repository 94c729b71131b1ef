import LibreXC.Arduino.Responses
import LibreXC.SerialLink.Device

/-! # Every handler prints one line

What a handler prints is made of answers of the library and of printable ASCII text, and ends in a
line end. So a response is read as one line as long as the library answers with texts of one line, and
it is ASCII as long as the library answers in ASCII. -/

namespace LibreXC.SerialLink

open Arduino Ascii Json

section dispatch

variable {P : BYTE → Prop}

/-- The predicate holds of the printable ASCII bytes. -/
def HoldsPrintable (P : BYTE → Prop) : Prop := ∀ b, 0x20 ≤ b → b < 0x80 → P b

/-- The text is printable ASCII. -/
abbrev IsPrintable (s : Str) : Prop := ∀ b ∈ s, 0x20 ≤ b ∧ b < 0x80

theorem HoldsPrintable.forall_mem (h : HoldsPrintable P) {s : Str} (hs : IsPrintable s) : ∀ b ∈ s, P b :=
  fun b hb => h b (hs b hb).1 (hs b hb).2

theorem HoldsPrintable.decimalNat (h : HoldsPrintable P) (n : ℕ) : ∀ b ∈ decimalNat n, P b := by
  intro b hb
  have hdigit := isDigit_of_mem_decimalNat hb
  rw [isDigit, Bool.and_eq_true, decide_eq_true_iff, decide_eq_true_iff] at hdigit
  exact h b (UInt8.le_trans (by decide) hdigit.1) (UInt8.lt_of_le_of_lt hdigit.2 (by decide))

/-- `make_json` adds printable text. -/
theorem HoldsPrintable.make_json (h : HoldsPrintable P) {cmd status data : Str} (hcmd : ∀ b ∈ cmd, P b)
    (hstatus : ∀ b ∈ status, P b) (hdata : ∀ b ∈ data, P b) :
    ∀ b ∈ make_json cmd status data, P b := by
  have hlit : ∀ s ∈ ["\x7b", "\"cmd\":\"", "\",", "\"status\":\"", "\"", ",\"data\":", "\x7d"],
      IsPrintable (str s) := by decide +kernel
  replace hlit := fun s hs => h.forall_mem (hlit s hs)
  simp only [List.forall_mem_cons] at hlit
  obtain ⟨hopen, hcmd', hcomma, hstatus', hquote, hdata', hclose, -⟩ := hlit
  unfold Arduino.make_json
  dsimp only
  split <;> simp only [List.forall_mem_append] <;> tauto

/-- `make_jsondata_pid` adds printable text. -/
theorem HoldsPrintable.make_jsondata_pid (h : HoldsPrintable P) (pid : BYTE) {value : Str}
    (hvalue : ∀ b ∈ value, P b) : ∀ b ∈ make_jsondata_pid pid value, P b := by
  have hlit : ∀ s ∈ ["\x7b\"pid\":", ",", "\"value\":\"", "\"", "\x7d"], IsPrintable (str s) := by
    decide +kernel
  replace hlit := fun s hs => h.forall_mem (hlit s hs)
  simp only [List.forall_mem_cons] at hlit
  obtain ⟨hopen, hcomma, hvalue', hquote, hclose, -⟩ := hlit
  have hpid := h.decimalNat pid.toNat
  unfold Arduino.make_jsondata_pid
  simp only [List.forall_mem_append]
  tauto

theorem HoldsPrintable.commaSeparated (h : HoldsPrintable P) {texts : List Str}
    (htexts : ∀ text ∈ texts, ∀ b ∈ text, P b) : ∀ b ∈ commaSeparated texts, P b := by
  induction texts with
  | nil => exact fun b hb => absurd hb List.not_mem_nil
  | cons text texts ih =>
      obtain ⟨htext, htexts⟩ := List.forall_mem_cons.mp htexts
      cases texts with
      | nil => rwa [Json.commaSeparated, List.intercalate_singleton]
      | cons text' texts =>
          have hcomma : P 0x2C := h 0x2C (by decide) (by decide)
          rw [commaSeparated_cons_cons, List.forall_mem_append, List.forall_mem_cons]
          exact ⟨htext, hcomma, ih htexts⟩

/-- **One line whose text consists of such bytes.** -/
def LineOf (P : BYTE → Prop) (printed : Str) : Prop :=
  ∃ body, printed = body ++ [newline] ∧ ∀ b ∈ body, P b

/-- What `respond` prints. -/
theorem lineOf_respond {text : Str} (h : ∀ b ∈ text, P b) : LineOf P (text ++ str "\n") :=
  ⟨text, rfl, h⟩

/-- A command of the library and one of two texts. -/
theorem lineOf_call (c : Call) (b : Bool) {yes no : Str} (hyes : ∀ b ∈ yes, P b)
    (hno : ∀ b ∈ no, P b) :
    LineOf P ((do if ← call c b then respond yes else respond no : Sketch Unit) ⟨[], []⟩).2.printed := by
  rw [run_call]
  refine lineOf_respond ?_
  split
  · exact hyes
  · exact hno

/-- A query of the library and one of two texts made from its answer. -/
theorem lineOf_query (elm : ELM) (q : Query) {ok error : Str → Str} (hok : ∀ b ∈ ok (elm.answer q), P b)
    (herror : ∀ b ∈ error (elm.answer q), P b) :
    LineOf P ((do
      let value ← query elm q
      if ¬ elm.ERROR <+: value then respond (ok value) else respond (error value) : Sketch Unit)
        ⟨[], []⟩).2.printed := by
  rw [run_query]
  split
  · exact lineOf_respond herror
  · exact lineOf_respond hok

/-- `read_all()` meets no PID that stops it, or a first one. -/
theorem not_stops_or_first (elm : ELM) :
    (∀ pid, ¬ elm.Stops pid) ∨ ∃ before pid after, allPids = before ++ pid :: after ∧
      (∀ pid ∈ before, ¬ elm.Stops pid) ∧ elm.Stops pid := by
  cases hfind : allPids.find? fun pid => elm.Stops pid with
  | none =>
      refine .inl fun pid => ?_
      simpa using List.find?_eq_none.mp hfind pid (mem_allPids pid)
  | some pid =>
      obtain ⟨hstops, before, after, hpids, hbefore⟩ := List.find?_eq_some_iff_append.mp hfind
      exact .inr ⟨before, pid, after, hpids, fun pid hpid => by simpa using hbefore pid hpid,
        by simpa using hstops⟩

/-- **Every handler prints one line**, of bytes the answers of the library consist of, printable ASCII
and carriage returns. -/
theorem lineOf_dispatch {elm : ELM} (hP : HoldsPrintable P) (hreturn : P 0x0D)
    (h : ∀ q, ∀ b ∈ elm.answer q, P b) (handler : Handler) :
    LineOf P (dispatch elm handler ⟨[], []⟩).2.printed := by
  have hlit : ∀ s ∈ ["reset", "ok", "error", "available_pids", "[", "]", "read_all", "read_pid",
      "read_car", "read_dtc", "delete_dtc", "\"", "\x7b", "\x7d"], IsPrintable (str s) := by decide +kernel
  replace hlit := fun s hs => hP.forall_mem (hlit s hs)
  simp only [List.forall_mem_cons] at hlit
  obtain ⟨hreset, hok, herror, hpids, hopen, hclose, hall, hpid, hcar, hdtc, hdelete, hquote, hbrace,
    hbrace', -⟩ := hlit
  have hnil : ∀ b ∈ ([] : Str), P b := fun b hb => absurd hb List.not_mem_nil
  cases handler with
  | reset => exact lineOf_call _ _ (hP.make_json hreset hok hnil) (hP.make_json hreset herror hnil)
  | available_pids =>
      refine lineOf_query elm .get_available_pids (hP.make_json hpids hok ?_)
        (hP.make_json hpids herror hnil)
      rw [List.forall_mem_append, List.forall_mem_append]
      exact ⟨⟨hopen, h _⟩, hclose⟩
  | read_all =>
      rcases not_stops_or_first elm with hnone | ⟨before, pid, after, hsplit, hbefore, hstops⟩
      · rw [dispatch, run_read_all_ok hnone]
        refine ⟨read_all_head ++ commaSeparated (pidTexts elm allPids) ++ str "]" ++ [0x0D], ?_, ?_⟩
        · simp [str, ascii, newline]
        · have hhead : IsPrintable read_all_head := by decide +kernel
          have htexts : ∀ b ∈ commaSeparated (pidTexts elm allPids), P b := by
            refine hP.commaSeparated fun text htext => ?_
            obtain ⟨pid, -, rfl⟩ := List.mem_map.mp htext
            exact hP.make_jsondata_pid pid (h _)
          simp only [List.forall_mem_append, List.forall_mem_singleton]
          exact ⟨⟨⟨hP.forall_mem hhead, htexts⟩, hclose⟩, hreturn⟩
      · rw [dispatch, run_read_all_error hsplit hbefore hstops]
        exact lineOf_respond (hP.make_json hall herror hnil)
  | read_pid pid =>
      refine lineOf_query elm (.get_pid_data pid) (hP.make_json hpid hok ?_)
        (hP.make_json hpid (h _) hnil)
      rw [List.forall_mem_append, List.forall_mem_append]
      exact ⟨⟨hopen, hP.make_jsondata_pid pid (h _)⟩, hclose⟩
  | read_car =>
      obtain ⟨error, data, calls, hloop, -, hdata⟩ := run_read_car_loop elm
      rw [dispatch, read_car, bind_of_eq hloop]
      cases error with
      | true => exact lineOf_respond (hP.make_json hcar herror hnil)
      | false =>
          have htext : ∀ b ∈ carText elm, P b := by
            have hparts : ∀ s ∈ ["\"vin\":\"", "\",", "\"ecu\":\"", "\"voltage\":\"", "\"protocol\":\""],
                IsPrintable (str s) := by decide +kernel
            replace hparts := fun s hs => hP.forall_mem (hparts s hs)
            simp only [List.forall_mem_cons] at hparts
            obtain ⟨hvin, hsep, hecu, hvoltage, hprotocol, -⟩ := hparts
            unfold carText
            simp only [List.forall_mem_append]
            exact ⟨⟨⟨⟨⟨hvin, h _⟩, hsep⟩, ⟨hecu, h _⟩, hsep⟩, ⟨hvoltage, h _⟩, hsep⟩,
              ⟨hprotocol, h _⟩, hquote⟩
          refine lineOf_respond (hP.make_json hcar hok ?_)
          rw [hdata rfl, List.forall_mem_append, List.forall_mem_append]
          exact ⟨⟨hbrace, htext⟩, hbrace'⟩
  | read_dtc =>
      refine lineOf_query elm .get_dtc (hP.make_json hdtc hok ?_) (hP.make_json hdtc herror hnil)
      rw [List.forall_mem_append, List.forall_mem_append]
      exact ⟨⟨hquote, h _⟩, hquote⟩
  | delete_dtc => exact lineOf_call _ _ (hP.make_json hdelete hok hnil) (hP.make_json hdelete herror hnil)

end dispatch

/-- The library answers with texts of one line. -/
def SingleLine (elm : ELM) : Prop := ∀ q, newline ∉ elm.answer q

/-- A lawful library does. -/
theorem singleLine_of_lawful {elm : ELM} (h : elm.Lawful) : SingleLine elm :=
  fun q hmem => absurd (h.plain q newline hmem) (by decide)

/-- **Every handler prints one line**, when the library answers with texts of one line. -/
theorem isLine_dispatch {elm : ELM} (h : SingleLine elm) (handler : Handler) :
    IsLine (dispatch elm handler ⟨[], []⟩).2.printed := by
  have hprintable : HoldsPrintable (· ≠ newline) := by
    rintro b hb - rfl
    exact absurd hb (by decide)
  obtain ⟨body, hprinted, hbody⟩ := lineOf_dispatch hprintable (by decide)
    (fun q b hb heq => h q (heq ▸ hb)) handler
  exact ⟨body, hprinted, fun hmem => hbody newline hmem rfl⟩

/-- **Every handler prints ASCII**, when the library answers in ASCII. -/
theorem isAscii_dispatch {elm : ELM} (h : ∀ q, IsAscii (elm.answer q)) (handler : Handler) :
    IsAscii (dispatch elm handler ⟨[], []⟩).2.printed := by
  have hprintable : HoldsPrintable (· < 0x80) := fun _ _ hb => hb
  obtain ⟨body, hprinted, hbody⟩ := lineOf_dispatch hprintable (by decide) h handler
  rw [hprinted, isAscii_append]
  exact ⟨hbody, by decide⟩

end LibreXC.SerialLink
