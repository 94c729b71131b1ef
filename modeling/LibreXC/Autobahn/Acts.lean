import LibreXC.Autobahn.Pieces
import Mathlib.Logic.Relation

/-! # What received bytes make the protocol do

The outside sees a few things only of what the peer's bytes do: the connection fails, a close frame is
taken, a ping is answered, a message goes to the application. Whatever the bytes, what they do is a
sequence of these (**`dataReceived_acts`**), so that a relation between the states of a protocol instance
that holds across each **`Act`** holds across all that is received. -/

namespace LibreXC.Autobahn

open Ascii Python2 Struct Incremental

variable {o : Options} {header : FrameHeader}

namespace Protocol

/-- The application has been handed a message, and has sent back what it has to say. -/
def handed (o : Options) (payload : Str) (isBinary : Bool) (p : Protocol) : Protocol :=
  let p := { p with effects := p.effects ++ [Effect.onMessage payload isBinary] }
  p.broadcast o (o.broadcasts p.effects).1

/-- **One thing that received bytes make the protocol do.** -/
inductive Act (o : Options) : Protocol → Protocol → Prop
  /-- Nothing that shows. -/
  | quiet {p q : Protocol} : q.state = p.state → q.effects = p.effects → Act o p q
  | dropped (p : Protocol) : Act o p p.dropped
  | closeByState (p : Protocol) : Act o p (p.closeByState o)
  | pong {p : Protocol} (payload : Str) : p.state = .OPEN → Act o p (p.sendFrame o 10 payload true 0)
  /-- A text is one. -/
  | handed {p : Protocol} (payload : Str) (isBinary : Bool) : p.state ≠ .CLOSED →
      (isBinary = false → o.utf8validateIncoming = true → IsText payload) → Act o p (p.handed o payload isBinary)

/-- One thing after the other. -/
abbrev Acts (o : Options) : Protocol → Protocol → Prop := Relation.ReflTransGen (Act o)

theorem Acts.refl (p : Protocol) : Acts o p p := Relation.ReflTransGen.refl

theorem Acts.quiet {p q : Protocol} (hstate : q.state = p.state) (heffects : q.effects = p.effects) : Acts o p q :=
  .single (.quiet hstate heffects)

/-- Nothing that shows, and then something. -/
theorem Acts.after {p q r : Protocol} (hacts : Acts o q r) (hstate : q.state = p.state)
    (heffects : q.effects = p.effects) : Acts o p r := (Acts.quiet hstate heffects).trans hacts

theorem Act.after {p q r : Protocol} (hact : Act o q r) (hstate : q.state = p.state)
    (heffects : q.effects = p.effects) : Acts o p r := Acts.after (.single hact) hstate heffects

/-! ## Control frames -/

theorem acts_onCloseFrame (ho : o.failByDrop = true) (code : Option ℕ) (reasonRaw : Option Str) (p : Protocol) :
    Acts o p (p.onCloseFrame o code reasonRaw).state := by
  unfold onCloseFrame
  dsimp only
  rw [violations_eq ho]
  split_ifs
  · exact (Act.dropped _).after rfl rfl
  · dsimp only
    cases reasonRaw with
    | none => exact (Act.closeByState _).after rfl rfl
    | some reason =>
        dsimp only
        by_cases hvalid : (Utf8Validator.reset.validate reason).1.valid = false
        · rw [if_pos hvalid, invalidPayload_eq ho]
          exact (Act.dropped _).after rfl rfl
        · rw [if_neg hvalid]
          dsimp only
          cases decodeUtf8 reason with
          | ok text => exact (Act.closeByState _).after rfl rfl
          | error e => exact .quiet rfl rfl

theorem acts_sendPong (payload : Str) (p : Protocol) : Acts o p (p.sendPong o 10 payload).state := by
  unfold sendPong
  by_cases hopen : p.state ≠ .OPEN
  · rw [if_pos hopen]
    exact .refl p
  · rw [if_neg hopen]
    split
    · exact .refl p
    · exact .single (.pong payload (not_not.mp hopen))

theorem acts_processControlFrame (ho : o.failByDrop = true) (opcode : ℕ) (p : Protocol) :
    Acts o p (p.processControlFrame o opcode).state := by
  unfold processControlFrame
  cases p.incoming.control_frame_data with
  | none => exact .refl p
  | some payload =>
      dsimp only
      by_cases h8 : opcode = 8
      · rw [if_pos h8]
        exact Acts.after (acts_onCloseFrame ho _ _ _) rfl rfl
      · rw [if_neg h8]
        split_ifs
        · exact Acts.after (acts_sendPong payload _) rfl rfl
        · exact .quiet rfl rfl

/-! ## Data frames -/

theorem acts_onMessageFrameBegin (ho : o.failByDrop = true) (length : ℕ) (p : Protocol) :
    Acts o p (p.onMessageFrameBegin o length) := by
  unfold onMessageFrameBegin
  dsimp only
  split_ifs
  · rw [failConnection_eq ho]
    exact (Act.dropped _).after rfl rfl
  · rw [failConnection_eq ho]
    exact (Act.dropped _).after rfl rfl
  · exact .quiet rfl rfl
  · exact .quiet rfl rfl

theorem acts_onFrameBegin (ho : o.failByDrop = true) (p : Protocol) : Acts o p (p.onFrameBegin o header) := by
  unfold onFrameBegin
  split_ifs
  · exact .quiet rfl rfl
  · exact Acts.after (acts_onMessageFrameBegin ho _ _) rfl rfl
  · exact acts_onMessageFrameBegin ho _ _

/-- Whether it returns or raises, the application has been handed the message. -/
theorem state_onMessage (payload : Str) (isBinary : Bool) (p : Protocol) :
    (p.onMessage o payload isBinary).state = p.handed o payload isBinary := by
  rw [onMessage]
  dsimp only
  split <;> rfl

/-- **A message is handed over**, and the application answers or raises. -/
theorem acts_onMessageEnd {p : Protocol} (hfailed : p.failedByMe = false) (hopen : p.state ≠ .CLOSED)
    {payload : Str} (hpayload : p.incoming.message_data = some payload)
    (htext : p.incoming.message_is_binary = false → o.utf8validateIncoming = true → IsText payload) :
    Acts o p (p.onMessageEnd o).state := by
  have hhanded : Acts o p (p.onMessage o payload p.incoming.message_is_binary).state := by
    rw [state_onMessage]
    exact .single (.handed payload _ hopen htext)
  rw [onMessageEnd, if_pos hfailed, hpayload]
  dsimp only
  generalize p.onMessage o payload p.incoming.message_is_binary = r at hhanded
  cases r with
  | raised e q => exact hhanded
  | returned more q =>
      cases more with
      | false => exact hhanded
      | true => exact hhanded.trans (Acts.quiet rfl rfl)

/-- **The end of a frame**: a message that is handed over as a text is one. -/
theorem acts_endFrame (ho : o.failByDrop = true) {p : Protocol} (hfailed : p.failedByMe = false)
    (hopen : p.state ≠ .CLOSED) (hp : p.incoming.Sound o) (hinside : p.incoming.Inside header) :
    Acts o p (p.endFrame o header).state := by
  unfold endFrame
  by_cases h7 : 7 < header.opcode
  · rw [if_pos h7]
    exact acts_processControlFrame ho _ p
  · rw [if_neg h7]
    obtain ⟨frame_data, hframe⟩ := Option.isSome_iff_exists.mp (hinside.frame_data h7)
    have hin := hinside.inside_message h7
    obtain ⟨message_data, hmessage⟩ := Option.isSome_iff_exists.mp (hp.message_data hin)
    rw [onMessageFrameEnd, if_pos hfailed, hmessage, hframe]
    simp only [Result.andThen]
    split_ifs with hfin
    · rw [onLastFrame]
      split_ifs with hinvalid
      · rw [invalidPayload_eq ho]
        exact (Act.dropped _).after rfl rfl
      · have hended := acts_onMessageEnd (o := o) (p := { p with
          incoming := { p.incoming with message_data := some (message_data ++ frame_data), frame_data := none } })
          hfailed hopen rfl ?_
        · have hacts : Acts o p _ := hended.after rfl rfl
          dsimp only at hacts ⊢
          generalize onMessageEnd o _ = r at hacts ⊢
          cases r with
          | raised e q => exact hacts
          | returned more q => cases more <;> exact hacts.trans (Acts.quiet rfl rfl)
        · intro hbinary hvalidate
          have hcurrent : p.incoming.utf8validateIncomingCurrentMessage = true := by
            rw [hp.validating hin, hvalidate, show p.incoming.message_is_binary = false from hbinary]
            rfl
          have hlast : p.incoming.utf8validateLast.2.1 = true :=
            (Bool.not_eq_false _).mp fun h => hinvalid ⟨hcurrent, h⟩
          have htext := (hp.isText_iff hin hcurrent).mp hlast
          rwa [Incoming.received, hmessage, hframe] at htext
    · exact .quiet rfl rfl

end Protocol

namespace Connection

open Protocol

/-! ## Receiving -/

/-- The message being received does not show. -/
theorem acts_forget {p q : Protocol} (h : Acts o p q) : Acts o p q.forget := h.trans (Acts.quiet rfl rfl)

/-- What a step does is such a sequence. -/
def StepActs (o : Options) (p : Protocol) : Step Connection Halted → Prop
  | .waits => True
  | .moves c => Acts o p c.protocol
  | .halts r => Acts o p r.2

theorem stepActs_settle {resume : Protocol → Connection} (hresume : ∀ q, (resume q).protocol = q)
    {p q : Protocol} (h : Acts o p q) : StepActs o p (settle resume q) := by
  unfold settle
  split_ifs
  · exact acts_forget h
  · rw [StepActs, hresume]
    exact h

theorem step_acts (ho : o.failByDrop = true) {c : Connection} (hc : c.Reading o) :
    StepActs o c.protocol (c.step o) := by
  cases hframe : c.current_frame with
  | none =>
      rw [step_between ho hframe]
      cases parse o c.protocol.incoming.inside_message c.data with
      | waiting => trivial
      | violation => exact acts_forget (.single (.dropped _))
      | begun header masker n => exact stepActs_settle (fun _ => rfl) (acts_onFrameBegin ho _)
  | some header =>
      rw [step_inside ho hc hframe]
      split_ifs
      · trivial
      unfold proceed
      dsimp only
      split_ifs with haccepts hrest
      · have hnext := hc.2.push hframe haccepts []
        have hended := acts_endFrame ho hnext.failedByMe hc.1 hnext.incoming (hnext.inside header rfl)
        have hacts : Acts o c.protocol _ := hended.after rfl rfl
        dsimp only at hacts
        generalize Protocol.endFrame o header _ = r at hacts ⊢
        cases r with
        | returned more q => exact stepActs_settle (fun _ => rfl) hacts
        | raised e q => exact acts_forget hacts
      · exact Acts.quiet rfl rfl
      · exact acts_forget (.single (.dropped _))

/-- What consuming does is such a sequence. -/
def OutcomeActs (o : Options) (p : Protocol) : Outcome Connection Halted → Prop
  | .waiting c => Acts o p c.protocol
  | .halted r => Acts o p r.2

theorem consumes_acts (ho : o.failByDrop = true) {c : Connection} {r : Outcome Connection Halted}
    (h : Consumes (step o) c r) (hc : c.Reading o) : OutcomeActs o c.protocol r := by
  induction h with
  | waits => exact Acts.refl _
  | @moves c c' r hmove hrest ih =>
      have hstep := step_acts ho hc
      rw [hmove] at hstep
      have hnext := ih (step_sound ho hc hmove)
      cases r with
      | waiting c'' => exact Relation.ReflTransGen.trans hstep hnext
      | halted r => exact Relation.ReflTransGen.trans hstep hnext
  | @halts c r hhalt =>
      have hstep := step_acts ho hc
      rw [hhalt] at hstep
      exact hstep

/-- **All that received bytes do is a sequence of acts**, and unless an exception escapes they leave the
connection sound. -/
theorem dataReceived_acts (ho : o.failByDrop = true) {c : Connection} (hc : c.Live o) (data : Str) :
    Acts o c.protocol (c.dataReceived o data).state.protocol ∧
      ∀ more c', c.dataReceived o data = .returned more c' → c'.Live o := by
  by_cases hclosed : c.protocol.state = .CLOSED
  · have hignored : c.dataReceived o data = .returned true (c.extend data) := by
      rw [dataReceived, consumeData, if_neg (fun h => h hclosed)]
      rfl
    rw [hignored]
    refine ⟨Acts.quiet rfl rfl, fun more c' h => ?_⟩
    obtain ⟨-, rfl⟩ := Result.returned.inj h
    exact fun h => absurd hclosed h
  · have hreading : c.Reading o := ⟨hclosed, hc hclosed⟩
    have hrun := dataReceived_consumes ho hreading data
    have hacts := consumes_acts ho hrun (hreading.extend data)
    cases hresult : c.dataReceived o data with
    | raised e c' =>
        rw [hresult] at hacts
        refine ⟨Relation.ReflTransGen.trans hacts (Acts.quiet rfl rfl), fun more c'' h => ?_⟩
        cases h
    | returned more c' =>
        rw [hresult, outcome] at hacts hrun
        by_cases hclosed' : c'.protocol.state = .CLOSED
        · rw [if_pos hclosed'] at hacts
          refine ⟨Relation.ReflTransGen.trans hacts (Acts.quiet rfl rfl), fun more c'' h => ?_⟩
          obtain ⟨-, rfl⟩ := Result.returned.inj h
          exact fun h => absurd hclosed' h
        · rw [if_neg hclosed'] at hacts hrun
          refine ⟨hacts, fun more c'' h => ?_⟩
          obtain ⟨-, rfl⟩ := Result.returned.inj h
          exact fun _ => (hrun.invariant (Reading o) (fun _ _ => step_sound ho) (hreading.extend data)).2

end Connection

end LibreXC.Autobahn
