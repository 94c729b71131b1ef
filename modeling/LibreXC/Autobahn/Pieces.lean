import LibreXC.Autobahn.Reading
import LibreXC.Lib.Incremental

/-! # Bytes in pieces

The transport hands over bytes in whatever pieces they come. The loop over the buffered bytes is an
incremental consumer: a step waits, moves on or halts, because the connection is closed or because of
an exception, and more bytes do not change what a step has done.

* **`processLoop_consumes`** — the loop is a run of the consumer; its rounds suffice.
* **`step_sound`** — every move keeps the connection sound.
* **`receiveAll_flatten`** — the pieces do not matter: neither to what the connection has done nor to
  what it will do. -/

namespace LibreXC.Autobahn

open Ascii Python2 Struct Incremental

variable {o : Options} {header : FrameHeader}

/-- What is left of a protocol instance when the message being received no longer matters. -/
def Protocol.forget (p : Protocol) : Protocol := { p with incoming := .start }

/-- Dropping does not look at the message. -/
@[simp] theorem Protocol.forget_dropped (p : Protocol) (m : Incoming) :
    (p.receiving m).dropped.forget = p.dropped.forget := by
  unfold dropped receiving
  dsimp only
  split <;> rfl

namespace Connection

/-- What the loop ends with when nothing more is looked at: the exception, if there is one, and the
protocol instance. -/
abbrev Halted := Option Exc × Protocol

/-- Whether the bytes do not suffice for a step. -/
def idle (o : Options) (c : Connection) : Bool :=
  match c.current_frame with
  | none => match parse o c.protocol.incoming.inside_message c.data with
    | .waiting => true
    | _ => false
  | some header => c.data.isEmpty && c.current_frame_masker.pointer != header.length

/-- What the loop makes of a method's result. -/
def verdict : Result Connection → Step Connection Halted
  | .raised e c => .halts (some e, c.protocol.forget)
  | .returned _ c => if c.protocol.state = .CLOSED then .halts (none, c.protocol.forget) else .moves c

/-- **A step over the buffered bytes.** -/
def step (o : Options) (c : Connection) : Step Connection Halted :=
  if c.idle o then .waits else verdict (c.processDataHybi o)

/-- More bytes arrive. -/
def extend (c : Connection) (more : Str) : Connection := { c with data := c.data ++ more }

/-! ## The two kinds of steps -/

/-- The connection is open to further bytes. -/
def Reading (o : Options) (c : Connection) : Prop := c.protocol.state ≠ .CLOSED ∧ c.Sound o

/-- What has become of the protocol instance decides. -/
def settle (resume : Protocol → Connection) (p : Protocol) : Step Connection Halted :=
  if p.state = .CLOSED then .halts (none, p.forget) else .moves (resume p)

/-- A header leads into its frame. -/
def entered (o : Options) (c : Connection) : Parsed → Step Connection Halted
  | .waiting => .waits
  | .violation => .halts (none, c.protocol.dropped.forget)
  | .begun header masker n =>
      settle (fun p => ⟨c.data.drop n, some header, masker, p⟩) (c.protocol.onFrameBegin o header)

/-- **Between frames**, the header decides. -/
theorem step_between (ho : o.failByDrop = true) {c : Connection} (hframe : c.current_frame = none) :
    c.step o = c.entered o (parse o c.protocol.incoming.inside_message c.data) := by
  rw [step, idle, processDataHybi, hframe]
  dsimp only
  rw [processHeader_eq ho]
  cases parse o c.protocol.incoming.inside_message c.data with
  | waiting => rfl
  | violation =>
      rw [if_neg (by decide), verdict, if_pos (Protocol.state_dropped _)]
      rfl
  | begun header masker n =>
      rw [if_neg (Bool.false_ne_true)]
      rfl

/-- What arrives of the current frame, unmasked, and the masker after it. -/
def piece (header : FrameHeader) (c : Connection) : Str × XorMasker :=
  c.current_frame_masker.process (c.data.take (header.length - c.current_frame_masker.pointer))

/-- The end of a frame, for the loop. -/
def ended (resume : Protocol → Connection) : Result Protocol → Step Connection Halted
  | .raised e p => .halts (some e, p.forget)
  | .returned _ p => settle resume p

/-- The pointer of the masker after a piece. -/
theorem Sound.pointer_piece {c : Connection} (hc : c.Sound o) (hframe : c.current_frame = some header) :
    (c.piece header).2.pointer = header.length
      ↔ header.length - c.current_frame_masker.pointer ≤ c.data.length := by
  obtain ⟨mask, hmask⟩ := hc.masker header hframe
  have hpointer := hc.pointer header hframe
  rw [piece, (XorMasker.process_eq hmask _).2.2, List.length_take]
  omega

/-- The payload is unmasked, also where there is none. -/
theorem processPayload_eq (header : FrameHeader) (c : Connection) :
    c.processPayload o header =
      (((Protocol.onFrameData o header (c.piece header).1 c.protocol).map fun p =>
          ({ c with
            data := c.data.drop (header.length - c.current_frame_masker.pointer)
            current_frame_masker := (c.piece header).2
            protocol := p } : Connection)).andThen fun c =>
        if c.current_frame_masker.pointer = header.length then onFrameEnd o header c
        else .returned true c).andThen fun c => .returned (0 < c.data.length) c := by
  have hprocessed : (if 0 < (c.data.take (header.length - c.current_frame_masker.pointer)).length then
      c.current_frame_masker.process (c.data.take (header.length - c.current_frame_masker.pointer))
      else ([], c.current_frame_masker)) = c.piece header := by
    split_ifs with hempty
    · rfl
    · rw [piece, List.length_eq_zero_iff.mp (Nat.eq_zero_of_not_pos hempty), XorMasker.process_nil]
  unfold processPayload
  dsimp only
  rw [hprocessed]

/-- Payload that is accepted keeps the connection sound. -/
theorem Sound.push {c : Connection} (hc : c.Sound o) (hframe : c.current_frame = some header)
    (haccepts : c.protocol.incoming.accepts header (c.piece header).1 = true) (data : Str) :
    Sound o ⟨data, some header, (c.piece header).2,
      c.protocol.receiving (c.protocol.incoming.push header (c.piece header).1)⟩ := by
  obtain ⟨mask, hmask⟩ := hc.masker header hframe
  obtain ⟨-, huses, hpointer⟩ := XorMasker.process_eq hmask
    (c.data.take (header.length - c.current_frame_masker.pointer))
  have hbound := hc.pointer header hframe
  obtain ⟨hsound, hinside⟩ := hc.incoming.push (hc.inside header hframe) haccepts
  refine ⟨hc.failedByMe, hsound, ?_, fun h => (nomatch h), ?_, ?_, ?_⟩
  · rintro _ ⟨⟩
    exact hinside
  · rintro _ ⟨⟩ h7
    obtain ⟨hshort, hcontrol⟩ := hc.short header hframe h7
    obtain ⟨data, hdata⟩ := Option.isSome_iff_exists.mp ((hc.inside header hframe).control h7)
    refine ⟨hshort, ?_⟩
    dsimp only [Protocol.incoming_receiving]
    rw [Incoming.push, if_pos h7, hdata, Option.map_some, Option.getD_some, List.length_append]
    rw [hdata, Option.getD_some] at hcontrol
    rw [hcontrol, piece, XorMasker.length_process hmask, hpointer]
  · rintro _ ⟨⟩
    rw [piece, hpointer, List.length_take]
    omega
  · rintro _ ⟨⟩
    exact ⟨mask, huses⟩

/-- What the end of the current frame leads to. -/
theorem Sound.ended (ho : o.failByDrop = true) {c : Connection} (hc : c.Sound o)
    (hframe : c.current_frame = some header) :
    Protocol.Ended o c.protocol (c.protocol.endFrame o header) :=
  Protocol.endFrame_ended ho hc.failedByMe hc.incoming (hc.inside header hframe) fun h7 =>
    (hc.short header hframe h7).2.trans_le ((hc.pointer header hframe).trans (hc.short header hframe h7).1)

/-- The piece that has arrived of the current frame is refused, ends the frame or leaves it open. -/
def proceed (o : Options) (header : FrameHeader) (c : Connection) : Step Connection Halted :=
  if c.protocol.incoming.accepts header (c.piece header).1 then
    let p := c.protocol.receiving (c.protocol.incoming.push header (c.piece header).1)
    let rest := header.length - c.current_frame_masker.pointer
    if rest ≤ c.data.length then
      ended (fun p => ⟨c.data.drop rest, none, (c.piece header).2, p⟩) (p.endFrame o header)
    else .moves ⟨[], some header, (c.piece header).2, p⟩
  else .halts (none, c.protocol.dropped.forget)

/-- With the rest of its frame, a piece is refused or ends the frame. -/
theorem proceed_of_le {c : Connection} (hrest : header.length - c.current_frame_masker.pointer ≤ c.data.length) :
    c.proceed o header =
      if c.protocol.incoming.accepts header (c.piece header).1 then
        ended (fun p => ⟨c.data.drop (header.length - c.current_frame_masker.pointer), none, (c.piece header).2, p⟩)
          ((c.protocol.receiving (c.protocol.incoming.push header (c.piece header).1)).endFrame o header)
      else .halts (none, c.protocol.dropped.forget) := by
  unfold proceed
  dsimp only
  rw [if_pos hrest]

/-- Without it, a piece that is accepted leaves the frame open. -/
theorem proceed_of_lt {c c' : Connection}
    (hrest : ¬ header.length - c.current_frame_masker.pointer ≤ c.data.length)
    (hstep : c.proceed o header = .moves c') :
    c.protocol.incoming.accepts header (c.piece header).1 = true ∧
      c' = ⟨[], some header, (c.piece header).2,
        c.protocol.receiving (c.protocol.incoming.push header (c.piece header).1)⟩ := by
  unfold proceed at hstep
  dsimp only at hstep
  rw [if_neg hrest] at hstep
  split_ifs at hstep with haccepts
  exact ⟨haccepts, (Step.moves.inj hstep).symm⟩

/-- Whether there is nothing to do inside a frame. -/
def starved (header : FrameHeader) (c : Connection) : Prop :=
  c.data = [] ∧ c.current_frame_masker.pointer ≠ header.length

instance (c : Connection) : Decidable (c.starved header) := inferInstanceAs (Decidable (_ ∧ _))

/-- **Inside a frame**, the payload decides, and at its end what the frame says. -/
theorem step_inside (ho : o.failByDrop = true) {c : Connection} (hc : c.Reading o)
    (hframe : c.current_frame = some header) :
    c.step o = if c.starved header then .waits else c.proceed o header := by
  obtain ⟨hopen, hc⟩ := hc
  have hidle : (c.idle o = true) ↔ c.starved header := by
    rw [idle, hframe, starved]
    simp
  rw [step, processDataHybi, hframe]
  dsimp only
  simp only [hidle]
  by_cases hwaits : c.starved header
  · rw [if_pos hwaits, if_pos hwaits]
  rw [if_neg hwaits, if_neg hwaits, proceed, processPayload_eq,
    Protocol.onFrameData_eq ho hc.failedByMe (hc.inside header hframe)]
  by_cases haccepts : c.protocol.incoming.accepts header (c.piece header).1
  · rw [if_pos haccepts, if_pos haccepts]
    simp only [Result.map, Result.andThen, hc.pointer_piece hframe]
    by_cases hrest : header.length - c.current_frame_masker.pointer ≤ c.data.length
    · rw [if_pos hrest, if_pos hrest, onFrameEnd]
      have hended := (hc.push hframe haccepts []).ended ho rfl
      dsimp only at hended ⊢
      generalize Protocol.endFrame o header _ = r at hended ⊢
      cases hended with
      | closed more q hclosed => cases more <;> simp [ended, settle, verdict, Result.map, Result.andThen, hclosed]
      | sound q => rfl
      | raised e q => rfl
    · rw [if_neg hrest, if_neg hrest]
      have hshort : c.data.drop (header.length - c.current_frame_masker.pointer) = [] :=
        List.drop_eq_nil_of_le (by omega)
      rw [hshort, hframe, verdict]
      exact if_neg hopen
  · rw [if_neg haccepts, if_neg haccepts]
    simp only [Result.map, Result.andThen]
    rw [verdict, if_pos (Protocol.state_dropped _)]
    exact congrArg (fun p => Step.halts (none, p)) (Protocol.forget_dropped _ _)

/-! ## Every move keeps the connection sound -/

theorem settle_eq_moves {resume : Protocol → Connection} {p : Protocol} {c : Connection}
    (h : settle resume p = .moves c) : p.state ≠ .CLOSED ∧ resume p = c := by
  unfold settle at h
  split_ifs at h with hclosed
  exact ⟨hclosed, Step.moves.inj h⟩

theorem ended_eq_moves {resume : Protocol → Connection} {r : Result Protocol} {c : Connection}
    (h : ended resume r = .moves c) : ∃ p, c = resume p := by
  cases r with
  | returned _ p => exact ⟨p, (settle_eq_moves h).2.symm⟩
  | raised e p => cases h

/-- A frame that begins leaves the connection sound. -/
theorem Sound.begin (ho : o.failByDrop = true) {c : Connection} (hc : c.Sound o) (hframe : c.current_frame = none)
    {masker : XorMasker} {n : ℕ} (hbegun : Begun o c.protocol.incoming.inside_message c.data header masker n)
    (hopen : (c.protocol.onFrameBegin o header).state ≠ .CLOSED) (data : Str) :
    Sound o ⟨data, some header, masker, c.protocol.onFrameBegin o header⟩ := by
  obtain hclosed | ⟨hfailed, hsound, hinside⟩ :=
    Protocol.onFrameBegin_sound ho hc.failedByMe hc.incoming (hc.between hframe) hbegun.expected
  · exact absurd hclosed hopen
  refine ⟨hfailed, hsound, ?_, fun h => (nomatch h), ?_, ?_, ?_⟩
  · rintro _ ⟨⟩
    exact hinside
  · rintro _ ⟨⟩ h7
    rw [Protocol.onFrameBegin, if_pos h7, hbegun.pointer]
    exact ⟨hbegun.short h7, rfl⟩
  · rintro _ ⟨⟩
    exact hbegun.pointer.trans_le (Nat.zero_le _)
  · rintro _ ⟨⟩
    exact hbegun.uses

/-- **Every move keeps the connection sound.** -/
theorem step_sound (ho : o.failByDrop = true) {c c' : Connection} (hc : c.Reading o)
    (hstep : c.step o = .moves c') : c'.Reading o := by
  have ⟨hopen, hsound⟩ := hc
  cases hframe : c.current_frame with
  | none =>
      rw [step_between ho hframe] at hstep
      cases hparse : parse o c.protocol.incoming.inside_message c.data with
      | waiting =>
          rw [hparse] at hstep
          cases hstep
      | violation =>
          rw [hparse] at hstep
          cases hstep
      | begun header masker n =>
          rw [hparse] at hstep
          obtain ⟨hbegun, rfl⟩ := settle_eq_moves hstep
          exact ⟨hbegun, hsound.begin ho hframe (parse_begun hparse) hbegun _⟩
  | some header =>
      rw [step_inside ho hc hframe, proceed] at hstep
      dsimp only at hstep
      split_ifs at hstep with hwaits haccepts hrest
      · have hended := (hsound.push hframe haccepts []).ended ho rfl
        dsimp only at hended
        generalize Protocol.endFrame o header _ = r at hended hstep
        cases hended with
        | closed more q hclosed => exact absurd hclosed (settle_eq_moves hstep).1
        | sound q hfailed hincoming hbetween =>
            obtain ⟨hq, rfl⟩ := settle_eq_moves hstep
            exact ⟨hq, hfailed, hincoming, fun _ h => (nomatch h), fun _ => hbetween, fun _ h => (nomatch h),
              fun _ h => (nomatch h), fun _ h => (nomatch h)⟩
        | raised e q => cases hstep
      · obtain rfl := Step.moves.inj hstep
        exact ⟨hopen, hsound.push hframe haccepts []⟩

/-! ## More bytes do not change what a step has done -/

theorem settle_extend {resume resume' : Protocol → Connection} {p : Protocol} {c : Connection} {more : Str}
    (hresume : resume' p = (resume p).extend more) (h : settle resume p = .moves c) :
    settle resume' p = .moves (c.extend more) := by
  obtain ⟨hopen, rfl⟩ := settle_eq_moves h
  rw [settle, if_neg hopen, hresume]

theorem settle_halts {resume resume' : Protocol → Connection} {p : Protocol} {r : Halted}
    (h : settle resume p = .halts r) : settle resume' p = .halts r := by
  unfold settle at h ⊢
  split_ifs at h ⊢ with hclosed
  exact h

theorem ended_extend {resume resume' : Protocol → Connection} {r : Result Protocol} {c : Connection} {more : Str}
    (hresume : ∀ p, resume' p = (resume p).extend more) (h : ended resume r = .moves c) :
    ended resume' r = .moves (c.extend more) := by
  cases r with
  | returned _ p => exact settle_extend (hresume p) h
  | raised e p => cases h

theorem ended_halts {resume resume' : Protocol → Connection} {r : Result Protocol} {q : Halted}
    (h : ended resume r = .halts q) : ended resume' r = .halts q := by
  cases r with
  | returned _ p => exact settle_halts h
  | raised e p => exact h

/-- A piece that is not the last takes all there is. -/
theorem piece_of_lt {c : Connection}
    (hrest : ¬ header.length - c.current_frame_masker.pointer ≤ c.data.length) :
    c.piece header = c.current_frame_masker.process c.data := by
  rw [piece, List.take_of_length_le (by omega)]

/-- A piece that is the last takes what the frame needs. -/
theorem piece_extend {c : Connection}
    (hrest : header.length - c.current_frame_masker.pointer ≤ c.data.length) (more : Str) :
    (c.extend more).piece header = c.piece header := by
  rw [piece, piece, extend, List.take_append_of_le_length hrest]

/-- **Bytes inside a frame** that goes on: they and the next ones are one piece. -/
theorem Sound.piece_append {c : Connection} (hc : c.Sound o) (hframe : c.current_frame = some header)
    (hrest : ¬ header.length - c.current_frame_masker.pointer ≤ c.data.length) (more : Str) (p : Protocol) :
    let c' : Connection := ⟨more, some header, (c.piece header).2, p⟩
    (c.extend more).piece header = ((c.piece header).1 ++ (c'.piece header).1, (c'.piece header).2) ∧
      header.length - c'.current_frame_masker.pointer
        = header.length - c.current_frame_masker.pointer - c.data.length := by
  obtain ⟨mask, hmask⟩ := hc.masker header hframe
  have hpointer := (XorMasker.process_eq hmask c.data).2.2
  have hlength : header.length - (c.current_frame_masker.process c.data).2.pointer
      = header.length - c.current_frame_masker.pointer - c.data.length := by
    rw [hpointer]
    omega
  dsimp only
  rw [piece_of_lt hrest]
  refine ⟨?_, hlength⟩
  rw [piece, piece, extend]
  dsimp only
  rw [List.take_append, List.take_of_length_le (by omega), XorMasker.process_append hmask, hlength]

/-- Buffered bytes do not matter to soundness. -/
theorem Sound.extend {c : Connection} (hc : c.Sound o) (more : Str) : (c.extend more).Sound o :=
  ⟨hc.failedByMe, hc.incoming, hc.inside, hc.between, hc.short, hc.pointer, hc.masker⟩

theorem Reading.extend {c : Connection} (hc : c.Reading o) (more : Str) : (c.extend more).Reading o :=
  ⟨hc.1, hc.2.extend more⟩

/-- Between frames, more bytes do not change what the header says. -/
theorem step_between_extend (ho : o.failByDrop = true) {c : Connection} (hframe : c.current_frame = none)
    (hwaits : c.step o ≠ .waits) (more : Str) : (c.extend more).step o = (c.extend more).entered o
      (parse o c.protocol.incoming.inside_message c.data) := by
  have hframe' : (c.extend more).current_frame = none := hframe
  rw [step_between ho hframe] at hwaits
  have hparse : parse o c.protocol.incoming.inside_message c.data ≠ .waiting := by
    intro hparse
    rw [hparse] at hwaits
    exact hwaits rfl
  rw [step_between ho hframe', ← parse_append hparse more]
  rfl

theorem settle_ne_waits (resume : Protocol → Connection) (p : Protocol) : settle resume p ≠ .waits := by
  unfold settle
  split_ifs <;> exact fun h => nomatch h

/-- Payload never waits. -/
theorem proceed_ne_waits (c : Connection) : c.proceed o header ≠ .waits := by
  unfold proceed
  dsimp only
  split_ifs
  · generalize Protocol.endFrame o header _ = r
    cases r with
    | returned _ p => exact settle_ne_waits _ p
    | raised e p => exact fun h => nomatch h
  · exact fun h => nomatch h
  · exact fun h => nomatch h

/-- A frame that ends does so with the same step, whatever follows. -/
theorem proceed_extend_of_le {c c' : Connection}
    (hrest : header.length - c.current_frame_masker.pointer ≤ c.data.length) (more : Str)
    (hstep : c.proceed o header = .moves c') : (c.extend more).proceed o header = .moves (c'.extend more) := by
  have hrest' : header.length - (c.extend more).current_frame_masker.pointer ≤ (c.extend more).data.length :=
    hrest.trans (List.prefix_append _ more).length_le
  rw [proceed_of_le hrest] at hstep
  rw [proceed_of_le hrest', piece_extend hrest]
  split_ifs at hstep with haccepts
  rw [if_pos (show (c.extend more).protocol.incoming.accepts header (c.piece header).1 = true from haccepts)]
  refine ended_extend (fun p => ?_) hstep
  rw [extend, extend, List.drop_append_of_le_length hrest]

/-- Payload that is refused ends the connection. -/
theorem proceed_of_not_accepts {c : Connection}
    (haccepts : ¬ c.protocol.incoming.accepts header (c.piece header).1 = true) :
    c.proceed o header = .halts (none, c.protocol.dropped.forget) := if_neg haccepts

/-- What ends the connection inside a frame does so, whatever follows. -/
theorem proceed_halts_extend {c : Connection} (hc : c.Sound o) (hframe : c.current_frame = some header)
    {r : Halted} (hstep : c.proceed o header = .halts r) (more : Str) :
    (c.extend more).proceed o header = .halts r := by
  by_cases hrest : header.length - c.current_frame_masker.pointer ≤ c.data.length
  · have hrest' : header.length - (c.extend more).current_frame_masker.pointer ≤ (c.extend more).data.length :=
      hrest.trans (List.prefix_append _ more).length_le
    rw [proceed_of_le hrest] at hstep
    rw [proceed_of_le hrest', piece_extend hrest]
    by_cases haccepts : c.protocol.incoming.accepts header (c.piece header).1
    · rw [if_pos haccepts] at hstep
      rw [if_pos (show (c.extend more).protocol.incoming.accepts header (c.piece header).1 = true from haccepts)]
      exact ended_halts hstep
    · rw [if_neg haccepts] at hstep
      rw [if_neg (show ¬ (c.extend more).protocol.incoming.accepts header (c.piece header).1 = true from haccepts)]
      exact hstep
  · by_cases haccepts : c.protocol.incoming.accepts header (c.piece header).1
    · rw [proceed, if_pos haccepts, if_neg hrest] at hstep
      cases hstep
    · rw [proceed_of_not_accepts haccepts] at hstep
      have hrefused := Incoming.not_accepts_append (Bool.eq_false_iff.mpr haccepts)
      rw [proceed_of_not_accepts]
      · exact hstep
      · rw [(hc.piece_append hframe hrest more c.protocol).1]
        exact Bool.eq_false_iff.mp (hrefused _)

/-- Bytes of a frame that goes on are taken together with the next ones. -/
theorem proceed_extend_of_lt {c c' : Connection} (hc : c.Sound o) (hframe : c.current_frame = some header)
    (hrest : ¬ header.length - c.current_frame_masker.pointer ≤ c.data.length) (more : Str)
    (hstep : c.proceed o header = .moves c') :
    (c.extend more).proceed o header = (c'.extend more).proceed o header := by
  obtain ⟨haccepts, rfl⟩ := proceed_of_lt hrest hstep
  obtain ⟨hpiece, hlength⟩ := hc.piece_append hframe hrest more
    (c.protocol.receiving (c.protocol.incoming.push header (c.piece header).1))
  obtain ⟨hboth, hpush⟩ := Incoming.push_append haccepts
    ((⟨more, some header, (c.piece header).2,
      c.protocol.receiving (c.protocol.incoming.push header (c.piece header).1)⟩ : Connection).piece header).1
  have hdrop : (c.data ++ more).drop (header.length - c.current_frame_masker.pointer)
      = more.drop (header.length - c.current_frame_masker.pointer - c.data.length) := by
    rw [List.drop_append, List.drop_eq_nil_of_le (by omega), List.nil_append]
  have hle : header.length - c.current_frame_masker.pointer ≤ (c.data ++ more).length
      ↔ header.length - c.current_frame_masker.pointer - c.data.length ≤ more.length := by
    rw [List.length_append]
    omega
  simp only [proceed, extend, List.nil_append, Protocol.incoming_receiving, Protocol.receiving_receiving,
    Protocol.forget_dropped] at hpiece hlength hboth hpush ⊢
  simp only [hpiece, hboth, hpush, hdrop, hle, hlength]

theorem not_starved_extend {c : Connection} (h : ¬ c.starved header) (more : Str) :
    ¬ (c.extend more).starved header :=
  fun hstarved => h ⟨(List.append_eq_nil_iff.mp hstarved.1).1, hstarved.2⟩

/-- A step that moves on, with more bytes. -/
theorem step_moves_extend (ho : o.failByDrop = true) {c c' : Connection} (hc : c.Reading o)
    (hstep : c.step o = .moves c') (more : Str) :
    (c.extend more).step o = .moves (c'.extend more) ∨
      (c.extend more).step o = (c'.extend more).step o ∧ (c'.extend more).step o ≠ .waits := by
  cases hframe : c.current_frame with
  | none =>
      left
      rw [step_between_extend ho hframe (hstep ▸ fun h => nomatch h)]
      rw [step_between ho hframe] at hstep
      cases hparse : parse o c.protocol.incoming.inside_message c.data with
      | waiting =>
          rw [hparse] at hstep
          cases hstep
      | violation =>
          rw [hparse] at hstep
          cases hstep
      | begun header masker n =>
          rw [hparse] at hstep
          refine settle_extend ?_ hstep
          rw [extend, extend, List.drop_append_of_le_length (parse_begun hparse).complete]
  | some header =>
      have hmoved := hstep
      have hframe' : (c.extend more).current_frame = some header := hframe
      rw [step_inside ho hc hframe] at hstep
      rw [step_inside ho (hc.extend more) hframe']
      split_ifs at hstep with hstarved
      rw [if_neg (not_starved_extend hstarved more)]
      by_cases hrest : header.length - c.current_frame_masker.pointer ≤ c.data.length
      · exact .inl (proceed_extend_of_le hrest more hstep)
      · cases more with
        | nil =>
            left
            rw [extend, extend, List.append_nil, List.append_nil]
            exact hstep
        | cons b more =>
            right
            have hframe'' : (c'.extend (b :: more)).current_frame = some header := by
              rw [(proceed_of_lt hrest hstep).2]
              rfl
            have hstarved' : ¬ (c'.extend (b :: more)).starved header :=
              fun h => absurd (List.append_eq_nil_iff.mp h.1).2 (List.cons_ne_nil b more)
            rw [step_inside ho ((step_sound ho hc hmoved).extend _) hframe'', if_neg hstarved',
              proceed_extend_of_lt hc.2 hframe hrest _ hstep]
            exact ⟨rfl, proceed_ne_waits _⟩

/-- A step that halts, with more bytes. -/
theorem step_halts_extend (ho : o.failByDrop = true) {c : Connection} (hc : c.Reading o) {r : Halted}
    (hstep : c.step o = .halts r) (more : Str) : (c.extend more).step o = .halts r := by
  cases hframe : c.current_frame with
  | none =>
      rw [step_between_extend ho hframe (hstep ▸ fun h => nomatch h)]
      rw [step_between ho hframe] at hstep
      cases hparse : parse o c.protocol.incoming.inside_message c.data with
      | waiting =>
          rw [hparse] at hstep
          cases hstep
      | violation =>
          rw [hparse] at hstep
          exact hstep
      | begun header masker n =>
          rw [hparse] at hstep
          exact settle_halts hstep
  | some header =>
      have hframe' : (c.extend more).current_frame = some header := hframe
      rw [step_inside ho hc hframe] at hstep
      rw [step_inside ho (hc.extend more) hframe']
      split_ifs at hstep with hstarved
      rw [if_neg (not_starved_extend hstarved more)]
      exact proceed_halts_extend hc.2 hframe hstep more

/-- **The loop over the buffered bytes is a stable consumer.** -/
theorem stable (ho : o.failByDrop = true) : Stable (step o) extend (Reading o) where
  extend_append c a b := by rw [extend, extend, extend, List.append_assoc]
  invariant_extend _ more hc := hc.extend more
  invariant_moves _ _ hc hstep := step_sound ho hc hstep
  moves _ _ more hc hstep := step_moves_extend ho hc hstep more
  halts _ _ more hc hstep := step_halts_extend ho hc hstep more

/-! ## The loop -/

/-- What a result of the loop means for the next bytes. Of a connection that is closed, or that an exception
has left, the buffers no longer matter. -/
def outcome : Result Connection → Outcome Connection Halted
  | .raised e c => .halted (some e, c.protocol.forget)
  | .returned _ c => if c.protocol.state = .CLOSED then .halted (none, c.protocol.forget) else .waiting c

/-- Steps that are left at most. -/
def fuel (c : Connection) : ℕ := 2 * c.data.length + if c.current_frame.isSome then 1 else 0

/-- Every move uses up bytes or ends a frame. -/
theorem fuel_lt (ho : o.failByDrop = true) {c c' : Connection} (hc : c.Reading o) (hstep : c.step o = .moves c') :
    c'.fuel < c.fuel := by
  cases hframe : c.current_frame with
  | none =>
      rw [step_between ho hframe] at hstep
      cases hparse : parse o c.protocol.incoming.inside_message c.data with
      | waiting =>
          rw [hparse] at hstep
          cases hstep
      | violation =>
          rw [hparse] at hstep
          cases hstep
      | begun header masker n =>
          rw [hparse] at hstep
          obtain ⟨-, rfl⟩ := settle_eq_moves hstep
          have htwo := (parse_begun hparse).two_le
          have hcomplete := (parse_begun hparse).complete
          simp only [fuel, hframe, List.length_drop, Option.isSome_some, Option.isSome_none, if_true,
            Bool.false_eq_true, if_false]
          omega
  | some header =>
      rw [step_inside ho hc hframe] at hstep
      split_ifs at hstep with hstarved
      by_cases hrest : header.length - c.current_frame_masker.pointer ≤ c.data.length
      · rw [proceed_of_le hrest] at hstep
        split_ifs at hstep
        obtain ⟨p, rfl⟩ := ended_eq_moves hstep
        simp only [fuel, hframe, List.length_drop, Option.isSome_some, Option.isSome_none, if_true, Bool.false_eq_true,
          if_false]
        omega
      · obtain ⟨-, rfl⟩ := proceed_of_lt hrest hstep
        have hdata : c.data ≠ [] := fun hdata => hstarved ⟨hdata, fun heq => hrest (by rw [heq]; omega)⟩
        have hlength := List.length_pos_of_ne_nil hdata
        simp only [fuel, hframe, List.length_nil, Option.isSome_some, if_true]
        omega

/-- The loop stops inside a frame only where it has used up the bytes. -/
theorem processPayload_false (ho : o.failByDrop = true) {c c' : Connection} (hc : c.Sound o)
    (hframe : c.current_frame = some header) (h : c.processPayload o header = .returned false c')
    (hopen : c'.protocol.state ≠ .CLOSED) : c'.data = [] := by
  rw [processPayload_eq, Protocol.onFrameData_eq ho hc.failedByMe (hc.inside header hframe)] at h
  by_cases haccepts : c.protocol.incoming.accepts header (c.piece header).1
  · rw [if_pos haccepts] at h
    simp only [Result.map, Result.andThen, hc.pointer_piece hframe] at h
    by_cases hrest : header.length - c.current_frame_masker.pointer ≤ c.data.length
    · rw [if_pos hrest, onFrameEnd] at h
      have hended := (hc.push hframe haccepts []).ended ho rfl
      dsimp only at hended h
      generalize Protocol.endFrame o header _ = r at hended h
      cases hended with
      | closed more q hclosed =>
          cases more
          all_goals
            injection h with h1 h2
            exact absurd (h2 ▸ hclosed) hopen
      | sound q =>
          injection h with h1 h2
          subst h2
          simpa using h1
      | raised e q => cases h
    · rw [if_neg hrest] at h
      injection h with h1 h2
      subst h2
      simpa using h1
  · rw [if_neg haccepts] at h
    injection h with h1 h2
    subst h2
    exact absurd (Protocol.state_dropped _) hopen

/-- Where the bytes do not suffice, the method does nothing. -/
theorem processDataHybi_idle (ho : o.failByDrop = true) {c : Connection} (hc : c.Sound o) (hidle : c.idle o = true) :
    c.processDataHybi o = .returned false c := by
  unfold idle at hidle
  cases hframe : c.current_frame with
  | none =>
      rw [hframe] at hidle
      rw [processDataHybi, hframe]
      dsimp only at hidle ⊢
      rw [processHeader_eq ho]
      cases hparse : parse o c.protocol.incoming.inside_message c.data with
      | waiting => rfl
      | violation =>
          rw [hparse] at hidle
          cases hidle
      | begun header masker n =>
          rw [hparse] at hidle
          cases hidle
  | some header =>
      rw [hframe] at hidle
      obtain ⟨hdata, hpointer⟩ := Bool.and_eq_true_iff.mp hidle
      rw [List.isEmpty_iff] at hdata
      rw [bne_iff_ne] at hpointer
      obtain ⟨haccepts, hpush⟩ := hc.incoming.push_nil (hc.inside header hframe)
      have hpiece : c.piece header = ([], c.current_frame_masker) := by
        rw [piece, hdata, List.take_nil, XorMasker.process_nil]
      rw [processDataHybi, hframe]
      dsimp only
      rw [processPayload_eq, hpiece, Protocol.onFrameData_eq ho hc.failedByMe (hc.inside header hframe),
        if_pos haccepts, hpush, hdata]
      simp only [Result.map, Result.andThen, if_neg hpointer, List.drop_nil]
      refine congrArg (Result.returned false) ?_
      rw [← hdata]
      rfl

/-- Where the loop stops, the bytes do not suffice. -/
theorem idle_of_returned_false (ho : o.failByDrop = true) {c c' : Connection} (hc : c.Reading o)
    (h : c.processDataHybi o = .returned false c') (hopen : c'.protocol.state ≠ .CLOSED) : c'.idle o = true := by
  by_cases hidle : c.idle o = true
  · rw [processDataHybi_idle ho hc.2 hidle] at h
    injection h with _ h
    exact h ▸ hidle
  -- otherwise the step has used up the bytes
  have hstep : c.step o = .moves c' := by
    rw [step, if_neg hidle, h, verdict, if_neg hopen]
  cases hframe : c.current_frame with
  | none =>
      rw [processDataHybi, hframe] at h
      dsimp only at h
      rw [processHeader_eq ho] at h
      rw [step_between ho hframe] at hstep
      cases hparse : parse o c.protocol.incoming.inside_message c.data with
      | waiting =>
          rw [hparse] at hstep
          cases hstep
      | violation =>
          rw [hparse] at hstep
          cases hstep
      | begun header masker n =>
          rw [hparse] at h
          injection h with hmore h
          obtain ⟨hlength, hdata⟩ := Bool.or_eq_false_iff.mp hmore
          subst h
          rw [idle, (parse_begun hparse).pointer]
          have hlength := beq_eq_false_iff_ne.mp hlength
          simp only [decide_eq_false_iff_not, Nat.not_lt, Nat.le_zero, List.length_eq_zero_iff] at hdata
          simp [hdata, hlength.symm]
  | some header =>
      rw [processDataHybi, hframe] at h
      have hdata := processPayload_false ho hc.2 hframe h hopen
      rw [step_inside ho hc hframe] at hstep
      split_ifs at hstep
      by_cases hrest : header.length - c.current_frame_masker.pointer ≤ c.data.length
      · rw [proceed_of_le hrest] at hstep
        split_ifs at hstep
        obtain ⟨p, rfl⟩ := ended_eq_moves hstep
        rw [idle, hdata]
        rfl
      · obtain ⟨-, rfl⟩ := proceed_of_lt hrest hstep
        have hpointer := mt (hc.2.pointer_piece hframe).mp hrest
        rw [idle]
        simp [hpointer]

/-- **The loop is a run of the consumer**: the rounds suffice for the buffered bytes. -/
theorem processLoop_consumes (ho : o.failByDrop = true) {n : ℕ} {c : Connection} (hc : c.Reading o)
    (hn : c.fuel < n) : Consumes (step o) c (outcome (processLoop o n c)) := by
  induction n generalizing c with
  | zero => exact absurd hn (Nat.not_lt_zero _)
  | succ n ih =>
      rw [processLoop]
      by_cases hidle : c.idle o = true
      · rw [processDataHybi_idle ho hc.2 hidle, Result.andThen, outcome, if_neg hc.1]
        exact .waits (if_pos hidle)
      have hstep : c.step o = verdict (c.processDataHybi o) := if_neg hidle
      cases hresult : c.processDataHybi o with
      | raised e c' =>
          rw [hresult] at hstep
          exact .halts hstep
      | returned more c' =>
          rw [hresult, verdict] at hstep
          by_cases hclosed : c'.protocol.state = .CLOSED
          · rw [if_pos hclosed] at hstep
            have houtcome : outcome ((Result.returned more c').andThen fun c =>
                if c.protocol.state ≠ .CLOSED then processLoop o n c else .returned true c)
                = .halted (none, c'.protocol.forget) := by
              cases more <;> simp [Result.andThen, hclosed, outcome]
            rw [houtcome]
            exact .halts hstep
          · rw [if_neg hclosed] at hstep
            refine .moves hstep ?_
            cases more with
            | false =>
                rw [Result.andThen, outcome, if_neg hclosed]
                exact .waits (if_pos (idle_of_returned_false ho hc hresult hclosed))
            | true =>
                rw [Result.andThen, if_pos hclosed]
                exact ih (step_sound ho hc hstep) (by have := fuel_lt ho hc hstep; omega)

/-- **`dataReceived` is a run of the consumer** over all the bytes. -/
theorem dataReceived_consumes (ho : o.failByDrop = true) {c : Connection} (hc : c.Reading o) (data : Str) :
    Consumes (step o) (c.extend data) (outcome (dataReceived o data c)) := by
  have hrun := processLoop_consumes ho (hc.extend data) (n := (c.extend data).rounds) (by
    rw [fuel, rounds]
    split_ifs <;> omega)
  rw [dataReceived, consumeData, if_pos hc.1]
  exact hrun

/-! ## Pieces -/

/-- The transport hands over piece after piece; an exception ends the connection. -/
def receiveAll (o : Options) : List Str → Connection → Result Connection
  | [], c => .returned true c
  | data :: chunks, c =>
      match dataReceived o data c with
      | .returned _ c => receiveAll o chunks c
      | .raised e c => .raised e c

/-- A closed connection ignores what it receives. -/
theorem outcome_receiveAll_closed {c : Connection} (hclosed : c.protocol.state = .CLOSED) (chunks : List Str) :
    outcome (receiveAll o chunks c) = .halted (none, c.protocol.forget) := by
  induction chunks generalizing c with
  | nil => exact if_pos hclosed
  | cons data chunks ih =>
      have hignored : dataReceived o data c = .returned true (c.extend data) := by
        rw [dataReceived, consumeData, if_neg (fun h => h hclosed)]
        rfl
      rw [receiveAll, hignored]
      exact ih hclosed

/-- Piece after piece is what the consumer is fed. -/
theorem receiveAll_feeds (ho : o.failByDrop = true) {c : Connection} (hc : c.Reading o) (data : Str)
    (chunks : List Str) : Feeds (step o) extend c (data :: chunks) (outcome (receiveAll o (data :: chunks) c)) := by
  induction chunks generalizing c data with
  | nil =>
      have hrun := dataReceived_consumes ho hc data
      rw [receiveAll]
      cases hresult : dataReceived o data c with
      | raised e c' =>
          rw [hresult] at hrun
          exact .halted [] hrun
      | returned more c' =>
          rw [hresult] at hrun
          dsimp only
          rw [receiveAll, outcome] at *
          split_ifs at hrun ⊢ with hclosed
          · exact .halted [] hrun
          · exact .cons hrun (.nil c')
  | cons next chunks ih =>
      have hrun := dataReceived_consumes ho hc data
      rw [receiveAll]
      cases hresult : dataReceived o data c with
      | raised e c' =>
          rw [hresult] at hrun
          exact .halted _ hrun
      | returned more c' =>
          rw [hresult, outcome] at hrun
          dsimp only
          split_ifs at hrun with hclosed
          · rw [outcome_receiveAll_closed hclosed]
            exact .halted _ hrun
          · exact .cons hrun (ih (hrun.invariant (Reading o) (fun _ _ => step_sound ho) (hc.extend data)) next)

/-- **The pieces do not matter.** However the bytes are cut, the connection ends with the same exception
or closed in the same way, or it waits in the same state for the same bytes. -/
theorem receiveAll_flatten (ho : o.failByDrop = true) {c : Connection} (hc : c.Live o) (data : Str)
    (chunks : List Str) :
    outcome (receiveAll o (data :: chunks) c) = outcome (dataReceived o (data ++ chunks.flatten) c) := by
  by_cases hclosed : c.protocol.state = .CLOSED
  · have hone := outcome_receiveAll_closed (o := o) hclosed [data ++ chunks.flatten]
    rw [outcome_receiveAll_closed hclosed, ← hone, receiveAll]
    cases dataReceived o (data ++ chunks.flatten) c <;> rfl
  · have hreading : c.Reading o := ⟨hclosed, hc hclosed⟩
    exact ((stable ho).feeds hreading (receiveAll_feeds ho hreading data chunks)).unique
      (dataReceived_consumes ho hreading _)

end Connection

end LibreXC.Autobahn
