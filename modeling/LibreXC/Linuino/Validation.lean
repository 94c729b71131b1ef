import LibreXC.Linuino.Commands

/-! # The grammar of commands

A command is the name of a row of `valid_cmds`, up to the first space of the message; a row with a
parameter needs a second word that the parameter's conversion accepts. `validate_cmd` accepts exactly
this grammar. What it rejects it is to report with an error of its own, but building the error can
fail in turn: the handler of a bad parameter reads the second word again, which may be missing, and
both error texts are byte strings, into which only an ASCII word can be formatted.

`validates_iff` says for which messages none of this happens. -/

namespace LibreXC.Linuino

open Ascii Python2

/-! ## Words -/

/-- What stands before the first space. -/
def beforeSpace (cmd : Unicode) : Unicode := cmd.takeWhile (·.val ≠ 0x20)

/-- The first word is what stands before the first space. -/
theorem firstWord_eq_beforeSpace (cmd : Unicode) : firstWord cmd = beforeSpace cmd := by
  have hprepend : ∀ (cs acc : Unicode), (cs.splitOnPPrepend (· == 0x20) acc).headD []
      = acc.reverse ++ beforeSpace cs := by
    intro cs
    induction cs with
    | nil => simp [beforeSpace]
    | cons c cs ih =>
        intro acc
        by_cases hc : c = 0x20
        · simp [List.splitOnPPrepend_cons_eq_if, beforeSpace, hc]
        · have hval : c.val ≠ 0x20 := fun hval => hc (Fin.ext hval)
          have htake : beforeSpace (c :: cs) = c :: beforeSpace cs :=
            List.takeWhile_cons_of_pos (by simpa using hval)
          rw [List.splitOnPPrepend_cons_neg (by simpa using hc), ih, htake, List.reverse_cons,
            List.append_assoc, List.singleton_append]
  exact hprepend cmd []

/-- The second word, none in a message without a space. -/
def secondWord (cmd : Unicode) : Option Unicode := (splitSpace cmd)[1]?

theorem index_one_splitSpace (cmd : Unicode) :
    index (splitSpace cmd) 1 = match secondWord cmd with
      | some word => .ok word
      | none => .error (.indexError (str "list index out of range")) := by
  unfold secondWord
  cases h : (splitSpace cmd)[1]? with
  | some word => exact (index_ofNat _ 1 word).mpr h
  | none =>
      obtain ⟨e, he⟩ := index_eq_error_of_le (List.getElem?_eq_none_iff.mp h)
      have := index_eq_error he
      exact he.trans (by rw [this])

/-! ## The table -/

/-- The names of the table are distinct. -/
theorem nodup_names : (valid_cmds.map fun row => unicode row.1).Nodup := by decide +kernel

/-- A name selects its row. -/
theorem cmdParams_of_mem {row : String × CmdParams} (hrow : row ∈ valid_cmds) :
    cmdParams (unicode row.1) = some row.2 := by
  rw [cmdParams]
  cases hfind : valid_cmds.find? fun cmd => unicode cmd.1 = unicode row.1 with
  | none =>
      have hnot := List.find?_eq_none.mp hfind row hrow
      simp at hnot
  | some found =>
      have hname : unicode found.1 = unicode row.1 := by simpa using List.find?_some hfind
      rw [List.inj_on_of_nodup_map nodup_names (List.mem_of_find?_eq_some hfind) hrow hname]
      rfl

/-- The names of the table are ASCII. -/
theorem encodeAscii_name {row : String × CmdParams} (hrow : row ∈ valid_cmds) :
    encodeAscii (unicode row.1) = .ok (str row.1) := by
  have htable : ∀ row ∈ valid_cmds, row.1.toList.all (·.toNat < 0x80) = true := by decide +kernel
  refine encodeAscii_unicode fun c hc => ?_
  exact of_decide_eq_true (List.all_eq_true.mp (htable row hrow) c hc)

/-- A word without settings is no name of the table. -/
theorem cmdParams_eq_none {word : Unicode} :
    cmdParams word = none ↔ ∀ row ∈ valid_cmds, unicode row.1 ≠ word := by
  rw [cmdParams, Option.map_eq_none_iff, List.find?_eq_none]
  exact forall₂_congr fun row _ => not_congr decide_eq_true_iff

/-! ## The grammar -/

/-- **What `validate_cmd` is to accept, and with which result**: the name of a row, the integer of the
second word where the row takes one, and the byte id of a row that has one. -/
def Accepts (cmd : Unicode) (r : CmdKey × ℤ × Bool) : Prop :=
  ∃ row ∈ valid_cmds, unicode row.1 = beforeSpace cmd ∧
    (row.2.parameter = none → r.2.1 = -1) ∧
    (∀ parameter, row.2.parameter = some parameter →
      ∃ word, secondWord cmd = some word ∧ parameter.convert word = .ok r.2.1) ∧
    r.1 = (if row.2.byteId = -1 then .name (unicode row.1) else .byteId row.2.byteId) ∧
    (r.2.2 = true ↔ row.2.byteId ≠ -1)

/-- The text shows the word: as it is, where it is ASCII. -/
def ShowsWord (word : Unicode) (shown : Str) : Prop := ∀ s, encodeAscii word = .ok s → shown = s

/-- The error text for an unknown command. -/
def commandError (shown : Str) : Str :=
  str "Error: '" ++ shown ++ str "' is not a valid command, enter 'help' for all available commands."

/-- The error text for a missing or bad parameter. -/
def parameterError (shown name : Str) : Str :=
  str "Error: '" ++ shown ++ str "' is not a valid parameter for command '" ++ name ++ str "'."

/-- **The message is validated**: accepted if the grammar accepts it, and rejected with the error of
its case if not. -/
structure Validates (cmd : Unicode) : Prop where
  accepts : ∀ r, validate_cmd cmd = .ok r ↔ Accepts cmd r
  /-- An unknown first word. -/
  unknown : (∀ row ∈ valid_cmds, unicode row.1 ≠ beforeSpace cmd) →
    ∃ shown, ShowsWord (beforeSpace cmd) shown ∧
      validate_cmd cmd = .error (.exception (commandError shown))
  /-- A second word that is missing or that the parameter does not accept. -/
  bad_parameter : ∀ row ∈ valid_cmds, unicode row.1 = beforeSpace cmd →
    ∀ parameter, row.2.parameter = some parameter →
    (∀ word value, secondWord cmd = some word → parameter.convert word ≠ .ok value) →
    ∃ shown, (∀ word, secondWord cmd = some word → ShowsWord word shown) ∧
      validate_cmd cmd = .error (.exception (parameterError shown (str row.1)))

/-- The word consists of ASCII characters. -/
def IsAsciiWord (word : Unicode) : Prop := ∀ c ∈ word, c.val < 0x80

/-- **The condition**: an unknown first word is ASCII; and where the row takes a parameter there is a
second word, which is ASCII if the parameter does not accept it. -/
structure Reportable (cmd : Unicode) : Prop where
  unknown : (∀ row ∈ valid_cmds, unicode row.1 ≠ beforeSpace cmd) →
    IsAsciiWord (beforeSpace cmd)
  bad_parameter : ∀ row ∈ valid_cmds, unicode row.1 = beforeSpace cmd →
    ∀ parameter, row.2.parameter = some parameter →
    ∃ word, secondWord cmd = some word ∧
      ((∀ value, parameter.convert word ≠ .ok value) → IsAsciiWord word)

/-- The integer the message carries, read from its second word. -/
theorem typedValue_eq_ok {params : CmdParams} {cmd : Unicode} {value : ℤ} :
    typedValue params cmd = .ok value ↔
      (params.parameter = none → value = -1) ∧
        ∀ parameter, params.parameter = some parameter →
          ∃ word, secondWord cmd = some word ∧ parameter.convert word = .ok value := by
  unfold typedValue
  rw [index_one_splitSpace]
  cases params.parameter with
  | none => simp [eq_comm]
  | some parameter =>
      have hone : ∀ P : Parameter → Prop, (∀ p, some parameter = some p → P p) ↔ P parameter :=
        fun P => ⟨fun h => h parameter rfl, fun h p hp => Option.some.inj hp ▸ h⟩
      rw [hone, and_iff_right fun h => (nomatch h)]
      cases secondWord cmd with
      | none => exact iff_of_false (fun h => (nomatch h)) fun ⟨_, h, _⟩ => (nomatch h)
      | some word => exact ⟨fun h => ⟨word, rfl, h⟩, fun ⟨_, hword, h⟩ => Option.some.inj hword ▸ h⟩

/-- **The grammar is what `validate_cmd` accepts**, for every message. -/
theorem validate_cmd_eq_ok_iff_accepts {cmd : Unicode} {r : CmdKey × ℤ × Bool} :
    validate_cmd cmd = .ok r ↔ Accepts cmd r := by
  rw [validate_cmd_eq_ok, Accepts, ← firstWord_eq_beforeSpace]
  constructor
  · rintro ⟨params, value, hparams, hvalue, rfl⟩
    obtain ⟨name, hrow, hname⟩ := cmdParams_eq_some hparams
    obtain ⟨hnone, hsome⟩ := typedValue_eq_ok.mp hvalue
    refine ⟨(name, params), hrow, hname, ?_⟩
    rw [validated, ← hname]
    by_cases hid : params.byteId = -1
    · simp only [if_pos hid]
      exact ⟨hnone, hsome, trivial, by simp [hid]⟩
    · simp only [if_neg hid]
      exact ⟨hnone, hsome, trivial, by simp [hid]⟩
  · rintro ⟨row, hrow, hname, hnone, hsome, hkey, hexternal⟩
    refine ⟨row.2, r.2.1, hname ▸ cmdParams_of_mem hrow, typedValue_eq_ok.mpr ⟨hnone, hsome⟩, ?_⟩
    rw [validated, ← hname]
    by_cases hid : row.2.byteId = -1
    · rw [if_pos hid] at hkey ⊢
      have hfalse : r.2.2 = false := Bool.eq_false_iff.mpr fun h => hexternal.mp h hid
      exact Prod.ext hkey.symm (Prod.ext rfl hfalse.symm)
    · rw [if_neg hid] at hkey ⊢
      exact Prod.ext hkey.symm (Prod.ext rfl (hexternal.mpr hid).symm)

/-! ## What is rejected -/

/-- An ASCII word can be formatted. -/
theorem exists_encodeAscii {word : Unicode} : (∃ s, encodeAscii word = .ok s) ↔ IsAsciiWord word := by
  unfold encodeAscii
  by_cases h : ∀ c ∈ word, c.val < 0x80
  · rw [if_pos h]
    exact iff_of_true ⟨_, rfl⟩ h
  · rw [if_neg h]
    exact iff_of_false (fun ⟨_, hs⟩ => (nomatch hs)) h

/-- The error text is built from the encoded words. -/
theorem invalidParameter_of_ok {parameter word : Unicode} {shown name : Str}
    (hparameter : encodeAscii parameter = .ok shown) (hword : encodeAscii word = .ok name) :
    invalidParameter parameter word = .ok (parameterError shown name) := by
  rw [invalidParameter, hparameter, hword]
  rfl

/-- A parameter that cannot be encoded makes it fail. -/
theorem invalidParameter_of_error {parameter : Unicode} {e : Exc}
    (hparameter : encodeAscii parameter = .error e) (word : Unicode) :
    invalidParameter parameter word = .error e := by
  rw [invalidParameter, hparameter]
  rfl

/-- **An unknown first word** is reported iff it is ASCII. -/
theorem reports_unknown_iff {cmd : Unicode} (h : cmdParams (firstWord cmd) = none) :
    (∃ shown, ShowsWord (firstWord cmd) shown ∧ validate_cmd cmd = .error (.exception (commandError shown))) ↔
      IsAsciiWord (firstWord cmd) := by
  rw [validate_cmd_eq, h, ← exists_encodeAscii]
  dsimp only [invalidCommand]
  cases hencode : encodeAscii (firstWord cmd) with
  | ok s =>
      refine iff_of_true ⟨s, fun s' hs' => ?_, rfl⟩ ⟨s, rfl⟩
      exact Except.ok.inj (hencode.symm.trans hs')
  | error e =>
      -- formatting the word raises an error of its own
      obtain ⟨start, stop, rfl⟩ := encodeAscii_eq_error hencode
      exact iff_of_false (fun ⟨_, _, herror⟩ => (nomatch herror)) fun ⟨_, hs⟩ => (nomatch hs)

/-- What `cmdValue` raises is what `validate_cmd` raises. -/
theorem validate_cmd_of_cmdValue {cmd : Unicode} {params : CmdParams} {e : Exc}
    (hparams : cmdParams (firstWord cmd) = some params)
    (hvalue : cmdValue params (splitSpace cmd) (firstWord cmd) = .error e) :
    validate_cmd cmd = .error e := by
  rw [validate_cmd_eq, hparams]
  dsimp only
  rw [hvalue]
  rfl

/-- **A missing second word** makes the handler itself raise: it reads the word again. -/
theorem cmdValue_of_missing {params : CmdParams} {cmd cmd0 : Unicode} {parameter : Parameter}
    (hparameter : params.parameter = some parameter) (hsecond : secondWord cmd = none) :
    cmdValue params (splitSpace cmd) cmd0 = .error (.indexError (str "list index out of range")) := by
  have hindex := index_one_splitSpace cmd
  rw [hsecond] at hindex
  rw [cmdValue, hparameter]
  dsimp only
  rw [hindex]
  rfl

/-- **A bad second word** is reported, if the error text can be built. -/
theorem cmdValue_of_bad {params : CmdParams} {cmd word : Unicode} {parameter : Parameter}
    (hparameter : params.parameter = some parameter) (hsecond : secondWord cmd = some word)
    (hbad : ∀ value, parameter.convert word ≠ .ok value) (cmd0 : Unicode) :
    cmdValue params (splitSpace cmd) cmd0
      = invalidParameter word cmd0 >>= fun msg => throw (.exception msg) := by
  have hindex := index_one_splitSpace cmd
  rw [hsecond] at hindex
  obtain ⟨e, he⟩ : ∃ e, (index (splitSpace cmd) 1 >>= parameter.convert) = .error e := by
    rw [hindex]
    cases hconvert : parameter.convert word with
    | ok value => exact absurd hconvert (hbad value)
    | error e => exact ⟨e, hconvert⟩
  have hok : ∀ f : Unicode → Except Exc ℤ, (Except.ok word >>= f) = f word := fun _ => rfl
  rw [cmdValue, hparameter]
  dsimp only
  rw [he, hindex]
  dsimp only
  rw [hok]

/-- **A second word that is missing or bad** is reported iff it is there and ASCII. -/
theorem reports_parameter_iff {cmd : Unicode} {row : String × CmdParams} (hrow : row ∈ valid_cmds)
    (hname : unicode row.1 = firstWord cmd) {parameter : Parameter}
    (hparameter : row.2.parameter = some parameter)
    (hbad : ∀ word value, secondWord cmd = some word → parameter.convert word ≠ .ok value) :
    (∃ shown, (∀ word, secondWord cmd = some word → ShowsWord word shown) ∧
        validate_cmd cmd = .error (.exception (parameterError shown (str row.1)))) ↔
      ∃ word, secondWord cmd = some word ∧ IsAsciiWord word := by
  have hparams : cmdParams (firstWord cmd) = some row.2 := hname ▸ cmdParams_of_mem hrow
  cases hsecond : secondWord cmd with
  | none =>
      rw [validate_cmd_of_cmdValue hparams (cmdValue_of_missing hparameter hsecond)]
      refine iff_of_false (fun ⟨_, _, herror⟩ => ?_) fun ⟨_, h, _⟩ => (nomatch h)
      cases herror
  | some word =>
      have hvalue := cmdValue_of_bad hparameter hsecond (fun value => hbad word value hsecond)
        (firstWord cmd)
      cases hencode : encodeAscii word with
      | ok s =>
          have hencodeName : encodeAscii (firstWord cmd) = .ok (str row.1) :=
            hname ▸ encodeAscii_name hrow
          rw [invalidParameter_of_ok hencode hencodeName] at hvalue
          refine iff_of_true ⟨s, fun word' heq s' hs' => ?_, validate_cmd_of_cmdValue hparams hvalue⟩
            ⟨word, rfl, exists_encodeAscii.mp ⟨s, hencode⟩⟩
          rw [← Option.some.inj heq, hencode] at hs'
          exact Except.ok.inj hs'
      | error e =>
          -- formatting the word raises an error of its own
          obtain ⟨start, stop, rfl⟩ := encodeAscii_eq_error hencode
          rw [invalidParameter_of_error hencode] at hvalue
          rw [validate_cmd_of_cmdValue hparams hvalue]
          refine iff_of_false (fun ⟨_, _, herror⟩ => ?_) fun ⟨word', heq, hascii⟩ => ?_
          · cases herror
          · obtain ⟨s, hs⟩ := exists_encodeAscii.mpr hascii
            rw [← Option.some.inj heq, hencode] at hs
            cases hs

/-! ## The result -/

/-- **When a message is validated**: exactly when the report of its case can be built. -/
theorem validates_iff (cmd : Unicode) : Validates cmd ↔ Reportable cmd := by
  have hfirst := firstWord_eq_beforeSpace cmd
  constructor
  · intro hvalid
    constructor
    · intro hunknown
      have hreport := hvalid.unknown hunknown
      rw [← hfirst] at hunknown hreport ⊢
      exact (reports_unknown_iff (cmdParams_eq_none.mpr hunknown)).mp hreport
    · intro row hrow hname parameter hparameter
      by_cases hbad : ∀ word value, secondWord cmd = some word → parameter.convert word ≠ .ok value
      · have hreport := hvalid.bad_parameter row hrow hname parameter hparameter hbad
        obtain ⟨word, hword, hascii⟩ :=
          (reports_parameter_iff hrow (hname.trans hfirst.symm) hparameter hbad).mp hreport
        exact ⟨word, hword, fun _ => hascii⟩
      · simp only [not_forall, not_not] at hbad
        obtain ⟨word, value, hword, hvalue⟩ := hbad
        exact ⟨word, hword, fun hnone => absurd hvalue (hnone value)⟩
  · intro hcond
    refine ⟨fun r => validate_cmd_eq_ok_iff_accepts, fun hunknown => ?_, ?_⟩
    · have hascii := hcond.unknown hunknown
      rw [← hfirst] at hunknown hascii ⊢
      exact (reports_unknown_iff (cmdParams_eq_none.mpr hunknown)).mpr hascii
    · intro row hrow hname parameter hparameter hbad
      obtain ⟨word, hword, hascii⟩ := hcond.bad_parameter row hrow hname parameter hparameter
      exact (reports_parameter_iff hrow (hname.trans hfirst.symm) hparameter hbad).mpr
        ⟨word, hword, hascii fun value => hbad word value hword⟩

/-- `read_pid` without a parameter raises an index error. -/
theorem not_validates_read_pid : ¬ ∀ cmd, Validates cmd := by
  intro h
  have hsecond : secondWord (unicode "read_pid") = none := by decide +kernel
  obtain ⟨shown, -, herror⟩ := (h (unicode "read_pid")).bad_parameter
    ("read_pid", ⟨4, some .int, "Returns the value of a handed OBD-pid (e.g. 'read_pid 100')."⟩)
    (by decide +kernel) (by decide +kernel) .int rfl
    (fun word value hword => by rw [hsecond] at hword; cases hword)
  have hraised : validate_cmd (unicode "read_pid")
      = .error (.indexError (str "list index out of range")) := by decide +kernel
  rw [hraised] at herror
  cases herror

end LibreXC.Linuino
