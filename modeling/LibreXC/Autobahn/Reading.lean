import LibreXC.Autobahn.Protocol

/-! # Reading a connection

What holds of a connection between two steps over its buffered bytes, as long as it has not been
closed (**`Connection.Sound`**), and that every step keeps it: the fields a frame or a message needs
are there, the masker is inside its frame, and the validator stands where the message does. -/

namespace LibreXC.Autobahn

open Ascii Python2 Struct

variable {o : Options}

/-! ## Failing -/

namespace Protocol

/-- The connection is dropped because of a failure. -/
def dropped (p : Protocol) : Protocol :=
  if p.state ≠ .CLOSED then
    { p with
      failedByMe := true
      wasClean := false
      wasNotCleanReason := some (str "I failed the WebSocket connection by dropping the TCP connection")
      droppedByMe := true
      state := .CLOSED
      effects := p.effects ++ [.closeConnection true] }
  else p

/-- **Failing by drop**: code and reason do not matter. -/
theorem failConnection_eq (ho : o.failByDrop = true) (code : ℕ) (reason : Str) (p : Protocol) :
    p.failConnection o code reason = p.dropped := by
  unfold failConnection dropped
  split
  · next hstate =>
      dsimp only
      rw [if_pos ho, dropConnection, if_pos hstate]
  · rfl

theorem protocolViolation_eq (ho : o.failByDrop = true) (reason : Str) (p : Protocol) :
    p.protocolViolation o reason = (true, p.dropped) := by
  rw [protocolViolation, failConnection_eq ho, ho]

theorem invalidPayload_eq (ho : o.failByDrop = true) (reason : Str) (p : Protocol) :
    p.invalidPayload o reason = (true, p.dropped) := by
  rw [invalidPayload, failConnection_eq ho, ho]

/-- Checks in order amount to all of them. -/
theorem violations_eq (ho : o.failByDrop = true) (checks : List (Bool × Str)) (p : Protocol) :
    p.violations o checks = if checks.any Prod.fst then (true, p.dropped) else (false, p) := by
  induction checks with
  | nil => rfl
  | cons check checks ih =>
      obtain ⟨violated, reason⟩ := check
      cases violated with
      | false => exact ih
      | true =>
          rw [violations, protocolViolation_eq ho]
          rfl

@[simp] theorem state_dropped (p : Protocol) : p.dropped.state = .CLOSED := by
  unfold dropped
  split
  · rfl
  · next h => exact not_not.mp h

end Protocol

/-- The instance with another message. -/
def Protocol.receiving (m : Incoming) (p : Protocol) : Protocol := { p with incoming := m }

@[simp] theorem Protocol.incoming_receiving (m : Incoming) (p : Protocol) : (p.receiving m).incoming = m := rfl

@[simp] theorem Protocol.receiving_receiving (m m' : Incoming) (p : Protocol) :
    (p.receiving m).receiving m' = p.receiving m' := rfl

/-! ## Between two steps -/

/-- What has arrived of the current message. -/
def Incoming.received (m : Incoming) : Str := m.message_data.getD [] ++ m.frame_data.getD []

/-- **A message that has not failed.** -/
structure Incoming.Sound (o : Options) (m : Incoming) : Prop where
  message_data : m.inside_message = true → m.message_data.isSome = true
  /-- Text messages are validated. -/
  validating : m.inside_message = true →
    m.utf8validateIncomingCurrentMessage = (o.utf8validateIncoming && !m.message_is_binary)
  /-- The validator stands at the end of what has arrived. -/
  stands : m.inside_message = true → m.utf8validateIncomingCurrentMessage = true →
    m.utf8validator.Stands m.received
  begins : m.inside_message = true → m.utf8validateIncomingCurrentMessage = true → Begins m.received
  utf8validateLast : m.inside_message = true → m.utf8validateIncomingCurrentMessage = true →
    m.utf8validateLast = (true, m.utf8validator.state == UTF8_ACCEPT, m.utf8validator.i)

/-- The message is inside the frame. -/
structure Incoming.Inside (header : FrameHeader) (m : Incoming) : Prop where
  control : 7 < header.opcode → m.control_frame_data.isSome = true
  between : 7 < header.opcode → m.frame_data.getD [] = []
  inside_message : ¬ 7 < header.opcode → m.inside_message = true
  frame_data : ¬ 7 < header.opcode → m.frame_data.isSome = true

/-- **A connection that is not closed.** -/
structure Connection.Sound (o : Options) (c : Connection) : Prop where
  failedByMe : c.protocol.failedByMe = false
  incoming : c.protocol.incoming.Sound o
  inside : ∀ header, c.current_frame = some header → c.protocol.incoming.Inside header
  between : c.current_frame = none → c.protocol.incoming.frame_data.getD [] = []
  /-- Control frames are short. -/
  short : ∀ header, c.current_frame = some header → 7 < header.opcode → header.length ≤ 125 ∧
    (c.protocol.incoming.control_frame_data.getD []).length = c.current_frame_masker.pointer
  pointer : ∀ header, c.current_frame = some header → c.current_frame_masker.pointer ≤ header.length
  masker : ∀ header, c.current_frame = some header → ∃ mask, c.current_frame_masker.Uses mask

/-- Nothing is known of a closed connection. -/
def Connection.Live (o : Options) (c : Connection) : Prop := c.protocol.state ≠ .CLOSED → c.Sound o

/-- What has arrived is a text when the validator says so. -/
theorem Incoming.Sound.isText_iff {m : Incoming} (hm : m.Sound o) (hinside : m.inside_message = true)
    (hcurrent : m.utf8validateIncomingCurrentMessage = true) :
    m.utf8validateLast.2.1 = true ↔ IsText m.received := by
  rw [hm.utf8validateLast hinside hcurrent, beq_iff_eq, ← run_eq_accept_iff,
    (hm.stands hinside hcurrent).state]

/-- Between messages there is nothing to know. -/
theorem Incoming.sound_outside {m : Incoming} (h : m.inside_message = false) : m.Sound o := by
  constructor <;>
    · intro hinside
      rw [h] at hinside
      cases hinside

theorem Connection.live_start (o : Options) (data : Str) : (start data).Live o := fun _ =>
  { failedByMe := rfl
    incoming := Incoming.sound_outside rfl
    inside := fun _ h => nomatch h
    between := fun _ => rfl
    short := fun _ h => nomatch h
    pointer := fun _ h => nomatch h
    masker := fun _ h => nomatch h }

variable {header : FrameHeader}

/-! ### The beginning of a frame -/

/-- A frame of a message begins where no frame was. -/
theorem Incoming.Sound.beginFrame {m : Incoming} (hm : m.Sound o) (hbetween : m.frame_data.getD [] = [])
    (hinside : m.inside_message = true) (h7 : ¬ 7 < header.opcode) (total : ℕ) :
    Incoming.Sound o { m with frame_data := some [], message_data_total_length := total } ∧
      Incoming.Inside header { m with frame_data := some [], message_data_total_length := total } := by
  have hreceived : Incoming.received { m with frame_data := some [], message_data_total_length := total }
      = m.received := by
    rw [received, received, hbetween]
    rfl
  refine ⟨⟨hm.message_data, hm.validating, ?_, ?_, hm.utf8validateLast⟩, ?_⟩
  · rw [hreceived]
    exact hm.stands
  · rw [hreceived]
    exact hm.begins
  · exact ⟨fun h => absurd h h7, fun h => absurd h h7, fun _ => hinside, fun _ => rfl⟩

/-- A new message has nothing yet, and if it is a text the validator is at its start. -/
theorem Incoming.sound_beginMessage {m : Incoming} (hbetween : m.frame_data.getD [] = [])
    (hopcode : header.opcode = 1 ∨ header.opcode = 2) : (Protocol.beginMessage o header m).Sound o := by
  have hreceived : (Protocol.beginMessage o header m).received = [] := by
    unfold Protocol.beginMessage Protocol.onMessageBegin received
    dsimp only
    split_ifs <;> exact hbetween
  constructor
  · exact fun _ => rfl
  · intro _
    unfold Protocol.beginMessage Protocol.onMessageBegin
    rcases hopcode with h | h <;> cases hv : o.utf8validateIncoming <;> simp [h]
  · rw [hreceived]
    unfold Protocol.beginMessage
    split_ifs
    · exact fun _ _ => Utf8Validator.stands_reset
    · exact fun _ h => nomatch h
  · rw [hreceived]
    exact fun _ _ => isText_nil.begins
  · unfold Protocol.beginMessage
    split_ifs
    · exact fun _ _ => rfl
    · exact fun _ h => nomatch h

namespace Protocol

variable {p : Protocol}

/-- The header is one that the checks let pass, as far as its opcode is concerned. -/
def Expected (header : FrameHeader) (inside_message : Bool) : Prop :=
  7 < header.opcode ∨ header.opcode = 0 ∧ inside_message = true ∨
    (header.opcode = 1 ∨ header.opcode = 2) ∧ inside_message = false

/-- A frame of a message begins, unless a limit is exceeded. -/
theorem onMessageFrameBegin_cases (ho : o.failByDrop = true) (hp : p.failedByMe = false) (length : ℕ) :
    p.onMessageFrameBegin o length = { p with incoming := { p.incoming with
        frame_data := some []
        message_data_total_length := p.incoming.message_data_total_length + length } } ∨
      (p.onMessageFrameBegin o length).state = .CLOSED := by
  unfold onMessageFrameBegin
  dsimp only
  rw [if_pos hp]
  split_ifs
  · exact .inr (by rw [failConnection_eq ho, state_dropped])
  · exact .inr (by rw [failConnection_eq ho, state_dropped])
  · exact .inl rfl

/-- **A frame begins.** -/
theorem onFrameBegin_sound (ho : o.failByDrop = true) (hfailed : p.failedByMe = false)
    (hp : p.incoming.Sound o) (hbetween : p.incoming.frame_data.getD [] = [])
    (hexpected : Expected header p.incoming.inside_message) :
    (p.onFrameBegin o header).state = .CLOSED ∨
      (p.onFrameBegin o header).failedByMe = false ∧ (p.onFrameBegin o header).incoming.Sound o ∧
        (p.onFrameBegin o header).incoming.Inside header := by
  unfold onFrameBegin
  rcases hexpected with h7 | ⟨hopcode, hinside⟩ | ⟨hopcode, hinside⟩
  · rw [if_pos h7]
    exact .inr ⟨hfailed, ⟨hp.message_data, hp.validating, hp.stands, hp.begins, hp.utf8validateLast⟩,
      ⟨fun _ => rfl, fun _ => hbetween, fun h => absurd h7 h, fun h => absurd h7 h⟩⟩
  · have h7 : ¬ 7 < header.opcode := by omega
    rw [if_neg h7, if_neg (by rw [hinside]; decide)]
    rcases onMessageFrameBegin_cases ho hfailed header.length with heq | hclosed
    · rw [heq]
      exact .inr ⟨hfailed, hp.beginFrame hbetween hinside h7 _⟩
    · exact .inl hclosed
  · have h7 : ¬ 7 < header.opcode := by omega
    have hbegun : (beginMessage o header p.incoming).frame_data = p.incoming.frame_data := by
      unfold beginMessage
      split_ifs <;> rfl
    have hinside' : (beginMessage o header p.incoming).inside_message = true := by
      unfold beginMessage
      split_ifs <;> rfl
    rw [if_neg h7, if_pos hinside]
    rcases onMessageFrameBegin_cases ho (p := { p with incoming := beginMessage o header p.incoming }) hfailed
      header.length with heq | hclosed
    · rw [heq]
      exact .inr ⟨hfailed, (Incoming.sound_beginMessage hbetween hopcode).beginFrame
        (hbegun ▸ hbetween) hinside' h7 _⟩
    · exact .inl hclosed

end Protocol

/-! ### Payload -/

/-- The validator has nothing against the payload. -/
def Incoming.accepts (header : FrameHeader) (payload : Str) (m : Incoming) : Bool :=
  decide (7 < header.opcode) || !m.utf8validateIncomingCurrentMessage ||
    (m.utf8validator.validate payload).1.valid

/-- The validator moves over the payload. -/
def Incoming.validated (payload : Str) (m : Incoming) : Incoming :=
  let validated := m.utf8validator.validate payload
  { m with
    utf8validator := validated.2
    utf8validateLast := (validated.1.valid, validated.1.endsOnCodePoint, validated.1.totalIndex) }

/-- The payload is added to its frame. -/
def Incoming.push (header : FrameHeader) (payload : Str) (m : Incoming) : Incoming :=
  if 7 < header.opcode then { m with control_frame_data := m.control_frame_data.map (· ++ payload) }
  else
    let m := if m.utf8validateIncomingCurrentMessage = true then m.validated payload else m
    { m with frame_data := m.frame_data.map (· ++ payload) }

/-- **Payload arrives**: it is added to its frame, or the connection fails. -/
theorem Protocol.onFrameData_eq (ho : o.failByDrop = true) {p : Protocol} (hfailed : p.failedByMe = false)
    (hinside : p.incoming.Inside header) (payload : Str) :
    p.onFrameData o header payload =
      if p.incoming.accepts header payload then .returned true (p.receiving (p.incoming.push header payload))
      else .returned false (p.receiving (p.incoming.validated payload)).dropped := by
  unfold onFrameData Incoming.accepts Incoming.push receiving
  by_cases h7 : 7 < header.opcode
  · obtain ⟨data, hdata⟩ := Option.isSome_iff_exists.mp (hinside.control h7)
    rw [if_pos h7, if_pos h7, hdata, decide_eq_true h7]
    rfl
  · obtain ⟨data, hdata⟩ := Option.isSome_iff_exists.mp (hinside.frame_data h7)
    rw [if_neg h7, if_neg h7, decide_eq_false h7, Bool.false_or]
    cases hv : p.incoming.utf8validateIncomingCurrentMessage with
    | false => simp [onMessageFrameData, hfailed, hdata]
    | true =>
        cases hvalid : (p.incoming.utf8validator.validate payload).1.valid with
        | false => simp [hvalid, invalidPayload_eq ho, Incoming.validated]
        | true => simp [hvalid, onMessageFrameData, hfailed, hdata, Incoming.validated]

namespace Incoming

variable {m : Incoming}

/-- Payload keeps a message sound and inside its frame. -/
theorem Sound.push (hm : m.Sound o) (hinside : m.Inside header) {payload : Str}
    (haccepts : m.accepts header payload = true) :
    (m.push header payload).Sound o ∧ (m.push header payload).Inside header := by
  unfold Incoming.push
  by_cases h7 : 7 < header.opcode
  · rw [if_pos h7]
    refine ⟨⟨hm.message_data, hm.validating, hm.stands, hm.begins, hm.utf8validateLast⟩, ⟨fun _ => ?_, hinside.between,
      hinside.inside_message, hinside.frame_data⟩⟩
    rw [Option.isSome_map]
    exact hinside.control h7
  · rw [if_neg h7]
    obtain ⟨data, hdata⟩ := Option.isSome_iff_exists.mp (hinside.frame_data h7)
    have hin := hinside.inside_message h7
    cases hv : m.utf8validateIncomingCurrentMessage with
    | false =>
        rw [if_neg (by decide)]
        refine ⟨⟨hm.message_data, hm.validating, ?_, ?_, ?_⟩, ⟨fun h => absurd h h7, fun h => absurd h h7, fun _ => hin,
          fun _ => ?_⟩⟩
        · exact fun _ h => absurd (h.symm.trans hv) (by decide)
        · exact fun _ h => absurd (h.symm.trans hv) (by decide)
        · exact fun _ h => absurd (h.symm.trans hv) (by decide)
        · simp [hdata]
    | true =>
        have hvalid : (m.utf8validator.validate payload).1.valid = true := by
          simpa [Incoming.accepts, h7, hv] using haccepts
        -- what has arrived so far was a beginning, and so it is with the payload
        obtain ⟨hjudges, hstands⟩ := (hm.stands hin hv).validate (hm.begins hin hv) payload
        have hbegins : Begins (m.received ++ payload) := hjudges.valid.mp hvalid
        have hreceived : m.message_data.getD [] ++ (m.frame_data.map (· ++ payload)).getD []
            = m.received ++ payload := by
          rw [received, hdata, List.append_assoc]
          rfl
        obtain ⟨-, -, -, htotal, hends, -⟩ := validate_eq m.utf8validator payload
        rw [if_pos rfl]
        refine ⟨⟨hm.message_data, hm.validating, fun _ _ => ?_, fun _ _ => ?_, fun _ _ => ?_⟩,
          ⟨fun h => absurd h h7, fun h => absurd h h7, fun _ => hin, fun _ => ?_⟩⟩
        · rw [received]
          exact hreceived ▸ hstands hbegins
        · rw [received]
          exact hreceived ▸ hbegins
        · simp only [validated, hvalid, htotal, hends, Bool.true_and]
        · simp only [validated, hdata]
          rfl

/-- The empty piece is accepted and changes nothing. -/
theorem Sound.push_nil (hm : m.Sound o) (hinside : m.Inside header) :
    m.accepts header [] = true ∧ m.push header [] = m := by
  have hnone : ∀ data : Option Str, data.map (· ++ []) = data := fun data => by simp
  unfold accepts Incoming.push
  by_cases h7 : 7 < header.opcode
  · rw [if_pos h7, hnone, decide_eq_true h7]
    exact ⟨rfl, rfl⟩
  · rw [if_neg h7, decide_eq_false h7]
    cases hv : m.utf8validateIncomingCurrentMessage with
    | false =>
        rw [if_neg (by decide)]
        dsimp only
        rw [hnone]
        exact ⟨rfl, rfl⟩
    | true =>
        have hlast := hm.utf8validateLast (hinside.inside_message h7) hv
        have hvalidate : m.utf8validator.validate []
            = (⟨true, m.utf8validator.state == UTF8_ACCEPT, 0, m.utf8validator.i⟩, m.utf8validator) := rfl
        rw [if_pos rfl, validated, hvalidate]
        dsimp only
        rw [hnone, ← hlast]
        exact ⟨rfl, rfl⟩

/-- **Two pieces of a payload are like one**, unless one is refused. -/
theorem push_append {a : Str} (ha : m.accepts header a = true) (b : Str) :
    m.accepts header (a ++ b) = (m.push header a).accepts header b ∧
      m.push header (a ++ b) = (m.push header a).push header b := by
  unfold accepts push at *
  by_cases h7 : 7 < header.opcode
  · simp [h7, Option.map_map, Function.comp_def, List.append_assoc]
  · cases hv : m.utf8validateIncomingCurrentMessage with
    | false => simp [h7, hv, Option.map_map, Function.comp_def, List.append_assoc]
    | true =>
        rw [decide_eq_false h7, hv, Bool.false_or, Bool.not_true, Bool.false_or] at ha
        obtain ⟨hvalid, hnext⟩ := (validate_append m.utf8validator a b).1 ha
        have hends := (validate_eq m.utf8validator (a ++ b)).2.2.2
        have hends' := (validate_eq (m.utf8validator.validate a).2 b).2.2.2
        have htotal : (m.utf8validator.validate (a ++ b)).1.totalIndex
            = ((m.utf8validator.validate a).2.validate b).1.totalIndex := by
          rw [hends.1, hends'.1, hnext]
        have hpoint : (m.utf8validator.validate (a ++ b)).1.endsOnCodePoint
            = ((m.utf8validator.validate a).2.validate b).1.endsOnCodePoint := by
          rw [hends.2.1, hends'.2.1, hvalid, hnext]
        simp [h7, hv, validated, hvalid, hnext, htotal, hpoint, Option.map_map, Function.comp_def,
          List.append_assoc]

/-- A piece that is refused is refused with all that follows it. -/
theorem not_accepts_append {a : Str} (ha : m.accepts header a = false) (b : Str) :
    m.accepts header (a ++ b) = false := by
  unfold accepts at *
  rw [Bool.or_eq_false_iff] at ha ⊢
  exact ⟨ha.1, (validate_append m.utf8validator a b).2 ha.2⟩

end Incoming

/-! ### The end of a frame -/

namespace Protocol

variable {p : Protocol}

/-- **What a step leaves alone** unless it closes the connection: the failure flag and the message. -/
structure Keeps (p q : Protocol) : Prop where
  failedByMe : q.failedByMe = p.failedByMe
  incoming : q.incoming = p.incoming

theorem Keeps.refl (p : Protocol) : Keeps p p := ⟨rfl, rfl⟩

theorem Keeps.trans {q r : Protocol} (hpq : Keeps p q) (hqr : Keeps q r) : Keeps p r :=
  ⟨hqr.1.trans hpq.1, hqr.2.trans hpq.2⟩

theorem keeps_sendFrame (o : Options) (opcode : ℕ) (payload : Str) (fin : Bool) (rsv : ℕ) (p : Protocol) :
    Keeps p (p.sendFrame o opcode payload fin rsv) := by
  unfold sendFrame sendData
  split <;> exact ⟨rfl, rfl⟩

theorem state_sendFrame (o : Options) (opcode : ℕ) (payload : Str) (fin : Bool) (rsv : ℕ) (p : Protocol) :
    (p.sendFrame o opcode payload fin rsv).state = p.state := by
  unfold sendFrame sendData
  split <;> rfl

/-! ### What a message is sent as -/

/-- Frames one after the other, each with its opcode, its payload and whether it is the last of its message. -/
def sendFrames (o : Options) (fs : List (ℕ × Str × Bool)) (p : Protocol) : Protocol :=
  fs.foldl (fun p f => p.sendFrame o f.1 f.2.1 f.2.2 0) p

theorem keeps_sendFrames (fs : List (ℕ × Str × Bool)) (p : Protocol) : Keeps p (p.sendFrames o fs) := by
  unfold sendFrames
  induction fs generalizing p with
  | nil => exact .refl p
  | cons f fs ih => exact (keeps_sendFrame o f.1 f.2.1 f.2.2 0 p).trans (ih _)

theorem state_sendFrames (fs : List (ℕ × Str × Bool)) (p : Protocol) : (p.sendFrames o fs).state = p.state := by
  unfold sendFrames
  induction fs generalizing p with
  | nil => rfl
  | cons f fs ih => exact (ih _).trans (state_sendFrame o f.1 f.2.1 f.2.2 0 p)

theorem sendFrames_append (fs gs : List (ℕ × Str × Bool)) (p : Protocol) :
    p.sendFrames o (fs ++ gs) = (p.sendFrames o fs).sendFrames o gs := List.foldl_append

/-- The frame that an instance sends is among the frames it sends. -/
theorem exists_sendFrame (o : Options) {opcode : ℕ} (hopcode : opcode ≤ 2) (payload : Str) (fin : Bool)
    {fs : List (ℕ × Str × Bool)} (hfs : ∀ f ∈ fs, f.1 ≤ 2) : ∃ gs : List (ℕ × Str × Bool), (∀ g ∈ gs, g.1 ≤ 2) ∧
      ∀ p : Protocol, (p.sendFrame o opcode payload fin 0).sendFrames o fs = p.sendFrames o gs := by
  refine ⟨(opcode, payload, fin) :: fs, fun g hg => ?_, fun _ => rfl⟩
  rcases List.mem_cons.mp hg with rfl | hg
  · exact hopcode
  · exact hfs g hg

theorem no_frames : ∀ f ∈ ([] : List (ℕ × Str × Bool)), f.1 ≤ 2 := fun _ hf => absurd hf List.not_mem_nil

/-- The fragments of a message. -/
theorem sendFragments_frames (o : Options) (pfs : ℕ) {opcode : ℕ} (hopcode : opcode ≤ 2) (first : Bool) (rest : Str) :
    ∃ fs : List (ℕ × Str × Bool), (∀ f ∈ fs, f.1 ≤ 2) ∧
      ∀ p : Protocol, p.sendFragments o pfs opcode first rest = p.sendFrames o fs := by
  have hfirst : ∀ first : Bool, (if first then opcode else 0) ≤ 2 := by
    intro first
    split <;> omega
  fun_induction sendFragments o pfs opcode first rest .start with
  | case1 first rest _ h =>
      obtain ⟨gs, hgs, hsame⟩ := exists_sendFrame o (hfirst first) rest true no_frames
      refine ⟨gs, hgs, fun p => ?_⟩
      rw [← hsame, sendFragments, dif_pos h]
      rfl
  | case2 first rest _ h ih =>
      obtain ⟨fs, hfs, hsend⟩ := ih
      obtain ⟨gs, hgs, hsame⟩ := exists_sendFrame o (hfirst first) (rest.take pfs) false hfs
      refine ⟨gs, hgs, fun p => ?_⟩
      rw [← hsame, sendFragments, dif_neg h, hsend]

/-- **A message is sent as data frames**, the same ones whatever the instance. -/
theorem sendMessage_frames (o : Options) (payload : Str) (isBinary : Bool) (fragmentSize : Option ℕ) :
    ∃ fs : List (ℕ × Str × Bool), (∀ f ∈ fs, f.1 ≤ 2) ∧ ∀ p : Protocol, p.state = .OPEN →
      (p.sendMessage o payload isBinary fragmentSize).state = p.sendFrames o fs := by
  have hopcode : (if isBinary then 2 else 1) ≤ 2 := by split <;> decide
  obtain ⟨whole, hwhole, hsame⟩ := exists_sendFrame o hopcode payload true no_frames
  cases hsize : fragmentSizeOf o fragmentSize with
  | none =>
      refine ⟨whole, hwhole, fun p hopen => ?_⟩
      rw [sendMessage, if_neg (not_not.mpr hopen), hsize, ← hsame]
      rfl
  | some pfs =>
      by_cases hshort : payload.length ≤ pfs
      · refine ⟨whole, hwhole, fun p hopen => ?_⟩
        rw [sendMessage, if_neg (not_not.mpr hopen), hsize, ← hsame]
        dsimp only
        rw [if_pos hshort]
        rfl
      by_cases hpfs : pfs < 1
      · refine ⟨[], no_frames, fun p hopen => ?_⟩
        rw [sendMessage, if_neg (not_not.mpr hopen), hsize]
        dsimp only
        rw [if_neg hshort, if_pos hpfs]
        rfl
      · obtain ⟨fs, hfs, hsend⟩ := sendFragments_frames o pfs hopcode true payload
        refine ⟨fs, hfs, fun p hopen => ?_⟩
        rw [sendMessage, if_neg (not_not.mpr hopen), hsize, ← hsend]
        dsimp only
        rw [if_neg hshort, if_neg hpfs]
        rfl

theorem sendMessage_not_open (hopen : p.state ≠ .OPEN) (payload : Str) (isBinary : Bool) (fragmentSize : Option ℕ) :
    p.sendMessage o payload isBinary fragmentSize = .returned true p := if_pos hopen

/-- So are the messages of a broadcast. -/
theorem broadcast_frames (o : Options) (texts : List Str) : ∃ fs : List (ℕ × Str × Bool), (∀ f ∈ fs, f.1 ≤ 2) ∧
    ∀ p : Protocol, p.state = .OPEN → p.broadcast o texts = p.sendFrames o fs := by
  induction texts with
  | nil => exact ⟨[], no_frames, fun _ _ => rfl⟩
  | cons text texts ih =>
      obtain ⟨gs, hgs, hrest⟩ := ih
      obtain ⟨fs, hfs, hsend⟩ := sendMessage_frames o text false none
      refine ⟨fs ++ gs, fun f hf => (List.mem_append.mp hf).elim (hfs f) (hgs f), fun p hopen => ?_⟩
      rw [broadcast, List.foldl_cons, hsend p hopen, sendFrames_append]
      exact hrest _ ((state_sendFrames fs p).trans hopen)

theorem broadcast_not_open (hopen : p.state ≠ .OPEN) (texts : List Str) : p.broadcast o texts = p := by
  unfold broadcast
  induction texts with
  | nil => rfl
  | cons text texts ih =>
      rw [List.foldl_cons, sendMessage_not_open hopen]
      exact ih

/-- **A broadcast sends data frames**, or nothing. -/
theorem exists_broadcast (o : Options) (texts : List Str) (p : Protocol) : ∃ fs : List (ℕ × Str × Bool),
    (∀ f ∈ fs, f.1 ≤ 2) ∧ (p.state = .OPEN ∨ fs = []) ∧ p.broadcast o texts = p.sendFrames o fs := by
  by_cases hopen : p.state = .OPEN
  · obtain ⟨fs, hfs, hsend⟩ := broadcast_frames o texts
    exact ⟨fs, hfs, .inl hopen, hsend p hopen⟩
  · exact ⟨[], no_frames, .inr rfl, broadcast_not_open hopen texts⟩

theorem keeps_broadcast (texts : List Str) (p : Protocol) : Keeps p (p.broadcast o texts) := by
  obtain ⟨fs, -, -, heq⟩ := exists_broadcast o texts p
  exact heq ▸ keeps_sendFrames fs p

/-- A message is handed over, and the application returns or raises. -/
theorem onMessageEnd_cases (hfailed : p.failedByMe = false) {payload : Str}
    (hpayload : p.incoming.message_data = some payload) :
    (∃ q, p.onMessageEnd o = .returned true (q.receiving { q.incoming with message_data := none }) ∧ Keeps p q) ∨
      ∃ e q effects, p.onMessageEnd o = .raised e q ∧ (o.broadcasts effects).2 = some e := by
  have hkeeps := keeps_broadcast (o := o) (o.broadcasts (p.effects ++ [.onMessage payload p.incoming.message_is_binary])).1
    { p with effects := p.effects ++ [.onMessage payload p.incoming.message_is_binary] }
  rw [onMessageEnd, if_pos hfailed, hpayload]
  dsimp only
  rw [onMessage]
  dsimp only
  cases hreaction : (o.broadcasts (p.effects ++ [.onMessage payload p.incoming.message_is_binary])).2 with
  | none => exact .inl ⟨_, rfl, hkeeps.failedByMe, hkeeps.incoming⟩
  | some e => exact .inr ⟨e, _, _, rfl, hreaction⟩

theorem keeps_dropConnection (abort : Bool) (p : Protocol) : Keeps p (p.dropConnection abort) := by
  unfold dropConnection
  split <;> exact ⟨rfl, rfl⟩

theorem keeps_sendCloseFrame (o : Options) (code : Option ℕ) (reasonUtf8 : Option Str) (isReply : Bool)
    (p : Protocol) : Keeps p (p.sendCloseFrame o code reasonUtf8 isReply) := by
  unfold sendCloseFrame
  split
  · exact .refl p
  · exact .refl p
  · exact ⟨(keeps_sendFrame o 8 _ true 0 p).1, (keeps_sendFrame o 8 _ true 0 p).2⟩

theorem keeps_closeByState (o : Options) (p : Protocol) : Keeps p (p.closeByState o) := by
  unfold closeByState
  dsimp only
  split
  · split
    · have hdrop := keeps_dropConnection true { p with closeHandshakeTimeoutCall := false, wasClean := true }
      exact ⟨hdrop.1, hdrop.2⟩
    · exact ⟨rfl, rfl⟩
  · have hsend := keeps_sendCloseFrame o (some CLOSE_STATUS_CODE_NORMAL) none true { p with wasClean := true }
    split
    · exact Keeps.trans ⟨hsend.1, hsend.2⟩ (keeps_dropConnection false _)
    · exact ⟨hsend.1, hsend.2⟩
  · exact ⟨rfl, rfl⟩

/-- The close frame ends inside a character of its reason. -/
def Truncated (payload : Str) (e : Exc) : Prop :=
  2 < payload.length ∧ Begins (payload.drop 2) ∧ decodeUtf8 (payload.drop 2) = .error e

/-- A close frame fails the connection, or is taken as its state has it, or its reason does not decode. -/
theorem onCloseFrame_cases (ho : o.failByDrop = true) (code : Option ℕ) (reasonRaw : Option Str) (p : Protocol) :
    (∃ q, p.onCloseFrame o code reasonRaw = .returned true q ∧ (q.state = .CLOSED ∨ Keeps p q)) ∨
      ∃ e q reason, p.onCloseFrame o code reasonRaw = .raised e q ∧ reasonRaw = some reason ∧
        Begins reason ∧ decodeUtf8 reason = .error e := by
  unfold onCloseFrame
  dsimp only
  rw [violations_eq ho]
  split_ifs with hviolated
  · exact .inl ⟨_, rfl, .inl (state_dropped _)⟩
  · dsimp only
    have hkeeps : ∀ q : Protocol, Keeps p q → Keeps p (q.closeByState o) :=
      fun q hq => hq.trans (keeps_closeByState o q)
    cases reasonRaw with
    | none => exact .inl ⟨_, rfl, .inr (hkeeps _ ⟨rfl, rfl⟩)⟩
    | some reason =>
        dsimp only
        have hjudges := (Utf8Validator.stands_reset.validate isText_nil.begins reason).1
        by_cases hvalid : (Utf8Validator.reset.validate reason).1.valid = false
        · rw [if_pos hvalid, invalidPayload_eq ho]
          exact .inl ⟨_, rfl, .inl (state_dropped _)⟩
        · rw [if_neg hvalid]
          dsimp only
          cases hdecode : decodeUtf8 reason with
          | ok text => exact .inl ⟨_, rfl, .inr (hkeeps _ ⟨rfl, rfl⟩)⟩
          | error e =>
              exact .inr ⟨e, _, reason, rfl, rfl, hjudges.valid.mp (Bool.not_eq_false _ ▸ hvalid), hdecode⟩

/-- The exceptions that may leave the end of a frame: a close frame does not decode, or the application
raises. -/
def Raises (o : Options) (e : Exc) : Prop :=
  (∃ payload, Truncated payload e) ∨ ∃ effects, (o.broadcasts effects).2 = some e

/-- **What the end of a frame leads to.** -/
inductive Ended (o : Options) (p : Protocol) : Result Protocol → Prop
  /-- The connection is closed. -/
  | closed (more : Bool) (q : Protocol) : q.state = .CLOSED → Ended o p (.returned more q)
  /-- It goes on between two frames. -/
  | sound (q : Protocol) : q.failedByMe = false → q.incoming.Sound o → q.incoming.frame_data.getD [] = [] →
      Ended o p (.returned true q)
  | raised (e : Exc) (q : Protocol) : Raises o e → Ended o p (.raised e q)

/-- **A control frame ends.** -/
theorem processControlFrame_ended (ho : o.failByDrop = true) (hfailed : p.failedByMe = false)
    (hp : p.incoming.Sound o) (hinside : p.incoming.Inside header) (h7 : 7 < header.opcode)
    (hshort : (p.incoming.control_frame_data.getD []).length ≤ 125) :
    Ended o p (p.processControlFrame o header.opcode) := by
  obtain ⟨payload, hpayload⟩ := Option.isSome_iff_exists.mp (hinside.control h7)
  have hkept : ∀ q : Protocol,
      Keeps { p with incoming := { p.incoming with control_frame_data := none } } q →
        Ended o p (.returned true q) := by
    intro q hq
    refine .sound q (hq.failedByMe.trans hfailed) ?_ ?_
    · rw [hq.incoming]
      exact ⟨hp.message_data, hp.validating, hp.stands, hp.begins, hp.utf8validateLast⟩
    · rw [hq.incoming]
      exact hinside.between h7
  unfold processControlFrame
  rw [hpayload]
  dsimp only at hkept ⊢
  by_cases h8 : header.opcode = 8
  · rw [if_pos h8]
    rcases onCloseFrame_cases ho _ _ _ with ⟨q, heq, hclosed | hq⟩ | ⟨e, q, reason, heq, hreason, hbegins, hdecode⟩
    · rw [heq]
      exact .closed true q hclosed
    · rw [heq]
      exact hkept q hq
    · rw [heq]
      split_ifs at hreason with h2
      obtain rfl := Option.some.inj hreason
      exact .raised e q (.inl ⟨payload, h2, hbegins, hdecode⟩)
  · rw [if_neg h8]
    rw [hpayload] at hshort
    have hlong : ¬ (payload ≠ [] ∧ 125 < payload.length) := fun h => absurd h.2 (Nat.not_lt.mpr hshort)
    by_cases h9 : header.opcode = 9
    · rw [if_pos h9, sendPong]
      by_cases hopen : p.state ≠ .OPEN
      · rw [if_pos hopen]
        exact hkept _ (.refl _)
      · rw [if_neg hopen, if_neg hlong]
        exact hkept _ (keeps_sendFrame o 10 payload true 0 _)
    · rw [if_neg h9]
      exact hkept _ (.refl _)

/-- **A data frame ends**, and with the last one its message. -/
theorem endFrame_ended (ho : o.failByDrop = true) (hfailed : p.failedByMe = false)
    (hp : p.incoming.Sound o) (hinside : p.incoming.Inside header)
    (hshort : 7 < header.opcode → (p.incoming.control_frame_data.getD []).length ≤ 125) :
    Ended o p (p.endFrame o header) := by
  unfold endFrame
  by_cases h7 : 7 < header.opcode
  · rw [if_pos h7]
    exact processControlFrame_ended ho hfailed hp hinside h7 (hshort h7)
  · rw [if_neg h7]
    obtain ⟨frame_data, hframe⟩ := Option.isSome_iff_exists.mp (hinside.frame_data h7)
    have hin := hinside.inside_message h7
    obtain ⟨message_data, hmessage⟩ := Option.isSome_iff_exists.mp (hp.message_data hin)
    have hreceived : p.incoming.received = message_data ++ frame_data := by
      rw [Incoming.received, hmessage, hframe]
      rfl
    rw [onMessageFrameEnd, if_pos hfailed, hmessage, hframe]
    simp only [Result.andThen]
    split_ifs with hfin
    · rw [onLastFrame]
      split_ifs with hinvalid
      · rw [invalidPayload_eq ho]
        exact .closed false _ (state_dropped _)
      · dsimp only
        rcases onMessageEnd_cases (o := o) hfailed (p := { p with
          incoming := { p.incoming with message_data := some (message_data ++ frame_data), frame_data := none } })
          rfl with ⟨q, heq, hkeeps⟩ | ⟨e, q, effects, heq, hraised⟩
        · rw [heq]
          refine .sound _ (hkeeps.failedByMe.trans hfailed) (Incoming.sound_outside rfl) ?_
          exact congrArg (fun m : Incoming => m.frame_data.getD []) hkeeps.incoming
        · rw [heq]
          exact .raised e q (.inr ⟨effects, hraised⟩)
    · refine .sound _ hfailed ⟨fun _ => rfl, hp.validating, ?_, ?_, hp.utf8validateLast⟩ rfl
      · intro _ hv
        have hstands := hp.stands hin hv
        rw [hreceived, ← List.append_nil (message_data ++ frame_data)] at hstands
        exact hstands
      · intro _ hv
        have hbegins := hp.begins hin hv
        rw [hreceived, ← List.append_nil (message_data ++ frame_data)] at hbegins
        exact hbegins

end Protocol

/-! ## Headers -/

namespace Connection

/-- What the buffered bytes say about the next frame. -/
inductive Parsed
  /-- More bytes are needed. -/
  | waiting
  | violation
  /-- The header takes `n` bytes. -/
  | begun (header : FrameHeader) (masker : XorMasker) (n : ℕ)

/-- **The header of a frame**, read off the buffered bytes. -/
def parse (o : Options) (inside_message : Bool) (data : Str) : Parsed :=
  match data with
  | b0 :: b1 :: _ =>
      let fin := b0 &&& 0x80 != 0
      let rsv := ((b0 &&& 0x70) >>> 4).toNat
      let opcode := (b0 &&& 0x0F).toNat
      let masked := b1 &&& 0x80 != 0
      let len1 := (b1 &&& 0x7F).toNat
      if (headerChecks o inside_message fin rsv opcode masked len1).any Prod.fst then .violation
      else if headerLength masked len1 ≤ data.length then
        if (lengthChecks len1 (payloadLength len1 data)).any Prod.fst then .violation
        else
          .begun ⟨opcode, fin, rsv, payloadLength len1 data, frameMask masked len1 data⟩
            (maskerOf o (frameMask masked len1 data) (payloadLength len1 data)) (headerLength masked len1)
      else .waiting
  | _ => .waiting

/-- **`processHeader` acts on what the bytes say.** -/
theorem processHeader_eq (ho : o.failByDrop = true) (c : Connection) :
    c.processHeader o = match parse o c.protocol.incoming.inside_message c.data with
      | .waiting => .returned false c
      | .violation => .returned false { c with protocol := c.protocol.dropped }
      | .begun header masker n => .returned (header.length == 0 || 0 < (c.data.drop n).length)
          ⟨c.data.drop n, some header, masker, c.protocol.onFrameBegin o header⟩ := by
  obtain ⟨data, frame, masker, p⟩ := c
  unfold processHeader parse
  rcases data with _ | ⟨b0, _ | ⟨b1, tail⟩⟩
  · rfl
  · rfl
  · dsimp only
    rw [Protocol.violations_eq ho]
    by_cases hheader : (headerChecks o p.incoming.inside_message (b0 &&& 0x80 != 0)
        ((b0 &&& 0x70) >>> 4).toNat (b0 &&& 0x0F).toNat (b1 &&& 0x80 != 0) (b1 &&& 0x7F).toNat).any Prod.fst
    · rw [if_pos hheader, if_pos hheader]
    · rw [if_neg hheader, if_neg hheader]
      dsimp only
      by_cases hcomplete : headerLength (b1 &&& 0x80 != 0) (b1 &&& 0x7F).toNat ≤ (b0 :: b1 :: tail).length
      · rw [if_pos hcomplete, if_pos hcomplete, beginFrame]
        dsimp only
        rw [Protocol.violations_eq ho]
        by_cases hlength : (lengthChecks (b1 &&& 0x7F).toNat
            (payloadLength (b1 &&& 0x7F).toNat (b0 :: b1 :: tail))).any Prod.fst
        · rw [if_pos hlength, if_pos hlength]
        · rw [if_neg hlength, if_neg hlength]
      · rw [if_neg hcomplete, if_neg hcomplete]

/-- What is known of a frame that begins. -/
structure Begun (o : Options) (inside_message : Bool) (data : Str) (header : FrameHeader) (masker : XorMasker)
    (n : ℕ) : Prop where
  expected : Protocol.Expected header inside_message
  short : 7 < header.opcode → header.length ≤ 125
  two_le : 2 ≤ n
  complete : n ≤ data.length
  pointer : masker.pointer = 0
  uses : ∃ mask, masker.Uses mask

/-- A header that passes the checks opens a frame that is expected. -/
theorem expected_of_headerChecks (header : FrameHeader) {inside_message fin masked : Bool} {rsv len1 : ℕ}
    (h : ¬ (headerChecks o inside_message fin rsv header.opcode masked len1).any Prod.fst = true) :
    Protocol.Expected header inside_message ∧ (7 < header.opcode → len1 ≤ 125) := by
  rw [headerChecks, List.any_append, Bool.or_eq_true, not_or] at h
  have hopcode := h.2
  by_cases h7 : 7 < header.opcode
  · simp only [if_pos h7, List.any_cons, Bool.or_eq_true, decide_eq_true_eq, not_or, not_lt] at hopcode
    exact ⟨.inl h7, fun _ => hopcode.2.1⟩
  · simp only [if_neg h7, List.any_cons, List.any_nil, Bool.or_false, Bool.or_eq_true, Bool.and_eq_true,
      decide_eq_true_eq, not_or, not_not, List.mem_cons, List.not_mem_nil, or_false, bne_iff_ne,
      Bool.not_eq_true', beq_iff_eq, not_and, ne_eq] at hopcode
    obtain ⟨hknown, houtside, hinside⟩ := hopcode
    refine ⟨.inr ?_, fun h => absurd h h7⟩
    cases inside_message with
    | true => exact .inl ⟨hinside rfl, rfl⟩
    | false => exact .inr ⟨by grind, rfl⟩

/-- The masker of a frame is at its start. -/
theorem maskerOf_start (o : Options) (mask : Option Mask) (length : ℕ) :
    (maskerOf o mask length).pointer = 0 ∧ ∃ used, (maskerOf o mask length).Uses used := by
  unfold maskerOf
  cases mask with
  | none => exact ⟨rfl, none, trivial⟩
  | some mask =>
      dsimp only
      split
      · exact ⟨XorMasker.pointer_createXorMasker mask _, some mask, XorMasker.uses_createXorMasker mask _⟩
      · exact ⟨rfl, none, trivial⟩

theorem payloadLength_short {len1 : ℕ} (h : len1 ≤ 125) (data : Str) : payloadLength len1 data = len1 := by
  have h126 : len1 ≠ 126 := by omega
  have h127 : len1 ≠ 127 := by omega
  rw [payloadLength, extendedLength, if_neg h126, if_neg h127, if_pos rfl]

/-- **A frame that begins is one that is expected.** -/
theorem parse_begun {inside_message : Bool} {data : Str} {masker : XorMasker} {n : ℕ}
    (h : parse o inside_message data = .begun header masker n) :
    Begun o inside_message data header masker n := by
  unfold parse at h
  rcases data with _ | ⟨b0, _ | ⟨b1, tail⟩⟩
  · cases h
  · cases h
  · dsimp only at h
    split_ifs at h with hheader hcomplete hlength
    cases h
    obtain ⟨hexpected, hshort⟩ := expected_of_headerChecks ⟨_, _, _, _, _⟩ hheader
    obtain ⟨hpointer, huses⟩ := maskerOf_start o _ _
    exact
      { expected := hexpected
        short := fun h7 => (payloadLength_short (hshort h7) _).trans_le (hshort h7)
        two_le := by rw [headerLength, Nat.add_assoc]; exact Nat.le_add_right 2 _
        complete := hcomplete
        pointer := hpointer
        uses := huses }

/-- Once the header is complete its fields are read from it. -/
theorem fields_append {masked : Bool} {len1 : ℕ} {data : Str} (h : headerLength masked len1 ≤ data.length)
    (more : Str) : payloadLength len1 (data ++ more) = payloadLength len1 data ∧
      frameMask masked len1 (data ++ more) = frameMask masked len1 data := by
  unfold headerLength at h
  have hextended : extendedLength len1 ≤ (data.drop 2).length := by
    rw [List.length_drop]
    omega
  have h2 : 2 ≤ data.length := by omega
  constructor
  · rw [payloadLength, payloadLength, List.drop_append_of_le_length h2, List.take_append_of_le_length hextended]
  · unfold frameMask
    cases masked with
    | false => rfl
    | true =>
        rw [if_pos rfl] at h ⊢
        rw [if_pos rfl, Option.some.injEq, maskAt, maskAt, Mask.mk.injEq]
        refine List.map_congr_left fun k hk => ?_
        have hlt : 2 + extendedLength len1 + k < data.length := by
          have := List.mem_range.mp hk
          omega
        rw [List.getD_append _ _ _ _ hlt]

/-- **Bytes that follow do not change what has been decided.** -/
theorem parse_append {inside_message : Bool} {data : Str} (h : parse o inside_message data ≠ .waiting)
    (more : Str) : parse o inside_message (data ++ more) = parse o inside_message data := by
  rcases data with _ | ⟨b0, _ | ⟨b1, tail⟩⟩
  · exact absurd rfl h
  · exact absurd rfl h
  · rw [List.cons_append, List.cons_append]
    unfold parse at h ⊢
    dsimp only at h ⊢
    by_cases hheader : (headerChecks o inside_message (b0 &&& 0x80 != 0) ((b0 &&& 0x70) >>> 4).toNat
        (b0 &&& 0x0F).toNat (b1 &&& 0x80 != 0) (b1 &&& 0x7F).toNat).any Prod.fst
    · rw [if_pos hheader, if_pos hheader]
    · rw [if_neg hheader] at h ⊢
      rw [if_neg hheader]
      by_cases hcomplete : headerLength (b1 &&& 0x80 != 0) (b1 &&& 0x7F).toNat ≤ (b0 :: b1 :: tail).length
      · have hcomplete' := hcomplete.trans (List.prefix_append _ more).length_le
        obtain ⟨hpayload, hmask⟩ := fields_append hcomplete more
        rw [List.cons_append, List.cons_append] at hcomplete' hpayload hmask
        rw [if_pos hcomplete, if_pos hcomplete', hpayload, hmask]
      · rw [if_neg hcomplete] at h
        exact absurd rfl h

end Connection

end LibreXC.Autobahn
