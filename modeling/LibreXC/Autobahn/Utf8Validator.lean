import LibreXC.Lib.Python2
import LibreXC.Lib.Transducer
import Mathlib.Data.Nat.Bitwise

/-! # The incremental UTF-8 validator

The WebSocket library checks text messages byte by byte with the table of a finite automaton, while
they arrive in pieces. The pieces are cut by the network, so that a character may be spread over
several of them.

* **`run_eq_accept_iff`** — the automaton accepts exactly the texts `decode('utf8')` takes, except
  those with surrogates, which Python 2 lets through.
* **`validates_chunks`** — however a text is cut, `validate` says of every piece what there is to say
  about the text up to its end, and stops at the first byte that no continuation can mend.
* **`codepoints_eq`** — `decode` computes the characters `decode('utf8')` returns. -/

namespace LibreXC.Autobahn

open Ascii Python2 Transducer

/-- The transitions of the automaton: the classes of the bytes, then sixteen entries a state. -/
def UTF8VALIDATOR_DFA : List ℕ := [
  0, 0, 0, 0, 0, 0, 0, 0, 0, 0, 0, 0, 0, 0, 0, 0, 0, 0, 0, 0, 0, 0, 0, 0, 0, 0, 0, 0, 0, 0, 0, 0,
  0, 0, 0, 0, 0, 0, 0, 0, 0, 0, 0, 0, 0, 0, 0, 0, 0, 0, 0, 0, 0, 0, 0, 0, 0, 0, 0, 0, 0, 0, 0, 0,
  0, 0, 0, 0, 0, 0, 0, 0, 0, 0, 0, 0, 0, 0, 0, 0, 0, 0, 0, 0, 0, 0, 0, 0, 0, 0, 0, 0, 0, 0, 0, 0,
  0, 0, 0, 0, 0, 0, 0, 0, 0, 0, 0, 0, 0, 0, 0, 0, 0, 0, 0, 0, 0, 0, 0, 0, 0, 0, 0, 0, 0, 0, 0, 0,
  1, 1, 1, 1, 1, 1, 1, 1, 1, 1, 1, 1, 1, 1, 1, 1, 9, 9, 9, 9, 9, 9, 9, 9, 9, 9, 9, 9, 9, 9, 9, 9,
  7, 7, 7, 7, 7, 7, 7, 7, 7, 7, 7, 7, 7, 7, 7, 7, 7, 7, 7, 7, 7, 7, 7, 7, 7, 7, 7, 7, 7, 7, 7, 7,
  8, 8, 2, 2, 2, 2, 2, 2, 2, 2, 2, 2, 2, 2, 2, 2, 2, 2, 2, 2, 2, 2, 2, 2, 2, 2, 2, 2, 2, 2, 2, 2,
  0xa, 0x3, 0x3, 0x3, 0x3, 0x3, 0x3, 0x3, 0x3, 0x3, 0x3, 0x3, 0x3, 0x4, 0x3, 0x3,
  0xb, 0x6, 0x6, 0x6, 0x5, 0x8, 0x8, 0x8, 0x8, 0x8, 0x8, 0x8, 0x8, 0x8, 0x8, 0x8,
  0x0, 0x1, 0x2, 0x3, 0x5, 0x8, 0x7, 0x1, 0x1, 0x1, 0x4, 0x6, 0x1, 0x1, 0x1, 0x1,
  1, 1, 1, 1, 1, 1, 1, 1, 1, 1, 1, 1, 1, 1, 1, 1, 1, 0, 1, 1, 1, 1, 1, 0, 1, 0, 1, 1, 1, 1, 1, 1,
  1, 2, 1, 1, 1, 1, 1, 2, 1, 2, 1, 1, 1, 1, 1, 1, 1, 1, 1, 1, 1, 1, 1, 2, 1, 1, 1, 1, 1, 1, 1, 1,
  1, 2, 1, 1, 1, 1, 1, 1, 1, 2, 1, 1, 1, 1, 1, 1, 1, 1, 1, 1, 1, 1, 1, 3, 1, 3, 1, 1, 1, 1, 1, 1,
  1, 3, 1, 1, 1, 1, 1, 3, 1, 3, 1, 1, 1, 1, 1, 1, 1, 3, 1, 1, 1, 1, 1, 1, 1, 1, 1, 1, 1, 1, 1, 1]

def UTF8_ACCEPT : ℕ := 0

def UTF8_REJECT : ℕ := 1

/-- An entry of the table. The validator asks only for entries the table has (`lt_length_dfa`). -/
def dfa (i : ℕ) : ℕ := UTF8VALIDATOR_DFA.getD i UTF8_REJECT

/-- **The validator**: the state of the automaton, the bits of the current character and the number of
bytes consumed. -/
structure Utf8Validator where
  state : ℕ
  codepoint : ℕ
  i : ℕ
  deriving DecidableEq

/-- What `validate` returns. -/
structure Validation where
  valid : Bool
  endsOnCodePoint : Bool
  currentIndex : ℕ
  totalIndex : ℕ
  deriving DecidableEq

namespace Utf8Validator

/-- Start a new incremental validation. The empty string is valid. -/
def reset : Utf8Validator := ⟨UTF8_ACCEPT, 0, 0⟩

/-- Eat one byte. The new state is also what the method returns. -/
def decode (v : Utf8Validator) (b : UInt8) : Utf8Validator :=
  let tt := dfa b.toNat
  let codepoint :=
    if v.state ≠ UTF8_ACCEPT then (b.toNat &&& 0x3F) ||| (v.codepoint <<< 6)
    else (0xFF >>> tt) &&& b.toNat
  { v with codepoint := codepoint, state := dfa (256 + v.state * 16 + tt) }

/-- The loop of `validate`, from the index `i` on: the state, the index at which it stops, and whether
it has consumed the whole piece. -/
def validateLoop (state i : ℕ) : Str → ℕ × ℕ × Bool
  | [] => (state, i, true)
  | b :: ba =>
      let state := dfa (256 + (state <<< 4) + dfa b.toNat)
      if state = UTF8_REJECT then (state, i, false)
      else validateLoop state (i + 1) ba

/-- **Validate a piece.** -/
def validate (v : Utf8Validator) (ba : Str) : Validation × Utf8Validator :=
  match validateLoop v.state 0 ba with
  | (state, i, false) => (⟨false, false, i, v.i + i⟩, { v with state := state, i := v.i + i })
  | (state, _, true) =>
      (⟨true, state == UTF8_ACCEPT, ba.length, v.i + ba.length⟩,
        { v with state := state, i := v.i + ba.length })

end Utf8Validator

/-! ## The automaton -/

/-- The state after a byte. -/
def next (state : ℕ) (b : UInt8) : ℕ := dfa (256 + state * 16 + dfa b.toNat)

/-- The state after a byte string. -/
def run (state : ℕ) (s : Str) : ℕ := s.foldl next state

@[simp] theorem run_nil (state : ℕ) : run state [] = state := rfl

@[simp] theorem run_cons (state : ℕ) (b : UInt8) (s : Str) : run state (b :: s) = run (next state b) s := rfl

theorem run_append (state : ℕ) (s t : Str) : run state (s ++ t) = run (run state s) t :=
  List.foldl_append

/-- What holds of 256 numbers holds of every byte. -/
theorem forall_byte {P : UInt8 → Prop} (h : ∀ n : Fin 256, P (UInt8.ofNat n)) (b : UInt8) : P b := by
  have hb := h ⟨b.toNat, b.toNat_lt⟩
  rwa [UInt8.ofNat_toNat] at hb

/-- The class of a byte, read off the first half of the table. -/
def byteClass (b : UInt8) : ℕ :=
  if b < 0x80 then 0 else if b < 0x90 then 1 else if b < 0xA0 then 9 else if b < 0xC0 then 7
  else if b < 0xC2 then 8 else if b < 0xE0 then 2 else if b == 0xE0 then 10 else if b == 0xED then 4
  else if b < 0xF0 then 3 else if b == 0xF0 then 11 else if b < 0xF4 then 6 else if b == 0xF4 then 5
  else 8

/-- The second half: the state after a byte of the class. -/
def transition (state c : ℕ) : ℕ :=
  match state with
  | 0 => [0, 1, 2, 3, 5, 8, 7, 1, 1, 1, 4, 6].getD c 1
  | 2 => if c = 1 ∨ c = 7 ∨ c = 9 then 0 else 1
  | 3 => if c = 1 ∨ c = 7 ∨ c = 9 then 2 else 1
  | 4 => if c = 7 then 2 else 1
  | 5 => if c = 1 ∨ c = 9 then 2 else 1
  | 6 => if c = 7 ∨ c = 9 then 3 else 1
  | 7 => if c = 1 ∨ c = 7 ∨ c = 9 then 3 else 1
  | 8 => if c = 1 then 3 else 1
  | _ => 1

/-- The two halves of the table. -/
theorem halves_dfa :
    UTF8VALIDATOR_DFA.take 256 = ((List.range 256).map fun n => byteClass (UInt8.ofNat n)) ∧
      (UTF8VALIDATOR_DFA.take 256).all (· < 12) = true ∧
      UTF8VALIDATOR_DFA.drop 256 = (List.range 144).map fun n => transition (n / 16) (n % 16) := by
  decide +kernel

theorem dfa_byte (b : UInt8) : dfa b.toNat = byteClass b := by
  have hlt : b.toNat < 256 := b.toNat_lt
  rw [dfa, List.getD_eq_getElem?_getD, ← List.getElem?_take_of_lt hlt, halves_dfa.1, List.getElem?_map,
    List.getElem?_range hlt, Option.map_some, Option.getD_some, UInt8.ofNat_toNat]

theorem byteClass_lt (b : UInt8) : byteClass b < 12 := by
  refine of_decide_eq_true (List.all_eq_true.mp halves_dfa.2.1 _ ?_)
  rw [halves_dfa.1]
  exact List.mem_map.mpr ⟨b.toNat, List.mem_range.mpr b.toNat_lt, congrArg byteClass UInt8.ofNat_toNat⟩

/-- **The table, read as classes and transitions.** -/
theorem next_eq {state : ℕ} (h : state < 9) (b : UInt8) :
    next state b = transition state (byteClass b) := by
  have hclass := byteClass_lt b
  have hlt : state * 16 + byteClass b < 144 := by omega
  rw [next, dfa_byte, dfa, List.getD_eq_getElem?_getD, Nat.add_assoc, ← List.getElem?_drop, halves_dfa.2.2,
    List.getElem?_map, List.getElem?_range hlt, Option.map_some, Option.getD_some]
  congr 1 <;> omega

/-- A rejected text stays rejected. -/
@[simp] theorem next_reject (b : UInt8) : next UTF8_REJECT b = UTF8_REJECT := next_eq (by decide) b

theorem run_reject (s : Str) : run UTF8_REJECT s = UTF8_REJECT := by
  induction s with
  | nil => rfl
  | cons b s ih => rw [run_cons, next_reject, ih]

/-- What the class of a byte tells about it. -/
theorem byteClass_tells (b : UInt8) :
    utf8Length b = [1, 0, 2, 3, 3, 4, 4, 0, 0, 0, 3, 4].getD (byteClass b) 0 ∧
      (b == 0xE0) = (byteClass b == 10) ∧ (b == 0xED) = (byteClass b == 4) ∧
      (b == 0xF0) = (byteClass b == 11) ∧ (b == 0xF4) = (byteClass b == 5) ∧
      isContinuation b = [1, 7, 9].contains (byteClass b) ∧
      (isContinuation b && !(b < 0xA0)) = (byteClass b == 7) ∧
      (isContinuation b && b < 0xA0) = [1, 9].contains (byteClass b) ∧
      (isContinuation b && !(b < 0x90)) = [7, 9].contains (byteClass b) ∧
      (isContinuation b && !(0x8F < b)) = (byteClass b == 1) := by
  revert b
  exact forall_byte (by decide +kernel)

/-- The state after the first byte of a character. -/
theorem next_accept (b : UInt8) :
    (utf8Length b = 1 → next UTF8_ACCEPT b = 0) ∧ (utf8Length b = 2 → next UTF8_ACCEPT b = 2) ∧
      (utf8Length b = 3 → next UTF8_ACCEPT b = if b == 0xE0 then 4 else if b == 0xED then 5 else 3) ∧
      (utf8Length b = 4 → next UTF8_ACCEPT b = if b == 0xF0 then 6 else if b == 0xF4 then 8 else 7) ∧
      (utf8Length b ∉ [1, 2, 3, 4] → next UTF8_ACCEPT b = 1) := by
  obtain ⟨hlength, hE0, hED, hF0, hF4, -⟩ := byteClass_tells b
  rw [next_eq (by decide), hlength, hE0, hED, hF0, hF4]
  have hall : ∀ c : Fin 12,
      ([1, 0, 2, 3, 3, 4, 4, 0, 0, 0, 3, 4].getD c.val 0 = 1 → transition UTF8_ACCEPT c = 0) ∧
        ([1, 0, 2, 3, 3, 4, 4, 0, 0, 0, 3, 4].getD c.val 0 = 2 → transition UTF8_ACCEPT c = 2) ∧
        ([1, 0, 2, 3, 3, 4, 4, 0, 0, 0, 3, 4].getD c.val 0 = 3 →
          transition UTF8_ACCEPT c = if c.val == 10 then 4 else if c.val == 4 then 5 else 3) ∧
        ([1, 0, 2, 3, 3, 4, 4, 0, 0, 0, 3, 4].getD c.val 0 = 4 →
          transition UTF8_ACCEPT c = if c.val == 11 then 6 else if c.val == 5 then 8 else 7) ∧
        ([1, 0, 2, 3, 3, 4, 4, 0, 0, 0, 3, 4].getD c.val 0 ∉ [1, 2, 3, 4] → transition UTF8_ACCEPT c = 1) := by
    decide
  exact hall ⟨byteClass b, byteClass_lt b⟩

/-- The bytes that continue a character, with the bounds some first bytes put on the second. -/
theorem next_inside (c : UInt8) :
    next 2 c = (if isContinuation c then 0 else 1) ∧ next 3 c = (if isContinuation c then 2 else 1) ∧
      next 4 c = (if isContinuation c && !(c < 0xA0) then 2 else 1) ∧
      next 5 c = (if isContinuation c && c < 0xA0 then 2 else 1) ∧
      next 6 c = (if isContinuation c && !(c < 0x90) then 3 else 1) ∧
      next 7 c = (if isContinuation c then 3 else 1) ∧
      next 8 c = (if isContinuation c && !(0x8F < c) then 3 else 1) := by
  obtain ⟨-, -, -, -, -, hcontinuation, h4, h5, h6, h8⟩ := byteClass_tells c
  simp only [next_eq (by decide : 2 < 9), next_eq (by decide : 3 < 9), next_eq (by decide : 4 < 9),
    next_eq (by decide : 5 < 9), next_eq (by decide : 6 < 9), next_eq (by decide : 7 < 9),
    next_eq (by decide : 8 < 9)]
  rw [h4, h5, h6, h8, hcontinuation]
  have hall : ∀ c : Fin 12, transition 2 c = (if [1, 7, 9].contains c.val then 0 else 1) ∧
      transition 3 c = (if [1, 7, 9].contains c.val then 2 else 1) ∧
      transition 4 c = (if c.val == 7 then 2 else 1) ∧ transition 5 c = (if [1, 9].contains c.val then 2 else 1) ∧
      transition 6 c = (if [7, 9].contains c.val then 3 else 1) ∧
      transition 7 c = (if [1, 7, 9].contains c.val then 3 else 1) ∧
      transition 8 c = (if c.val == 1 then 3 else 1) := by decide
  exact hall ⟨byteClass c, byteClass_lt c⟩

/-- **The automaton has nine states**, and asks for entries of the table only. -/
theorem next_lt {state : ℕ} (h : state < 9) (b : UInt8) : next state b < 9 := by
  have hall : ∀ q : Fin 9, ∀ c : Fin 12, transition q c < 9 := by decide
  rw [next_eq h]
  exact hall ⟨state, h⟩ ⟨byteClass b, byteClass_lt b⟩

theorem lt_length_dfa {state : ℕ} (h : state < 9) (b : UInt8) :
    b.toNat < UTF8VALIDATOR_DFA.length ∧ 256 + state * 16 + dfa b.toNat < UTF8VALIDATOR_DFA.length := by
  have hlen : UTF8VALIDATOR_DFA.length = 400 := by
    rw [← List.take_append_drop 256 UTF8VALIDATOR_DFA, List.length_append, halves_dfa.1, halves_dfa.2.2,
      List.length_map, List.length_map, List.length_range, List.length_range]
  have hclass := byteClass_lt b
  have := b.toNat_lt
  rw [dfa_byte, hlen]
  omega

theorem run_lt {state : ℕ} (h : state < 9) (s : Str) : run state s < 9 := by
  induction s generalizing state with
  | nil => exact h
  | cons b s ih => exact ih (next_lt h b)

/-! ## The texts of the automaton -/

/-- The code points UTF-8 has no form for, and Python 2 decodes nevertheless. -/
def IsSurrogate (c : CodePoint) : Prop := 0xD800 ≤ c.val ∧ c.val ≤ 0xDFFF

/-- **The text has these characters**, none of which is a surrogate. -/
def Spells (s : Str) (text : Unicode) : Prop := decodeUtf8 s = .ok text ∧ ∀ c ∈ text, ¬ IsSurrogate c

/-- **A byte string is a text**: `decode('utf8')` takes it, and it has no surrogates. -/
def IsText (s : Str) : Prop := ∃ text, Spells s text

/-- Some continuation makes it a text. -/
def Begins (s : Str) : Prop := ∃ t, IsText (s ++ t)

/-- The bits of a continuation byte and of a first byte, and what `decode` takes from them. -/
theorem toNat_bits (b : UInt8) :
    (isContinuation b = true →
      (b &&& 0x3F).toNat + 0x80 = b.toNat ∧ b.toNat < 0xC0 ∧ (b &&& 0x3F).toNat = b.toNat &&& 0x3F) ∧
      (utf8Length b = 1 → b.toNat < 0x80 ∧ (0xFF >>> byteClass b) &&& b.toNat = b.toNat) ∧
      (utf8Length b = 2 → (b &&& 0x1F).toNat + 0xC0 = b.toNat ∧ b.toNat < 0xE0 ∧
        (0xFF >>> byteClass b) &&& b.toNat = (b &&& 0x1F).toNat) ∧
      (utf8Length b = 3 → (b &&& 0x0F).toNat + 0xE0 = b.toNat ∧ b.toNat < 0xF0 ∧
        (0xFF >>> byteClass b) &&& b.toNat = (b &&& 0x0F).toNat) ∧
      (utf8Length b = 4 → (b &&& 0x07).toNat + 0xF0 = b.toNat ∧ b.toNat < 0xF5 ∧
        (0xFF >>> byteClass b) &&& b.toNat = (b &&& 0x07).toNat) := by
  revert b
  exact forall_byte (by decide +kernel)

theorem toNat_continuation {c : UInt8} (h : isContinuation c = true) :
    (c &&& 0x3F).toNat + 0x80 = c.toNat ∧ c.toNat < 0xC0 ∧ (c &&& 0x3F).toNat = c.toNat &&& 0x3F :=
  (toNat_bits c).1 h

theorem toNat_lead (b : UInt8) :
    (utf8Length b = 1 → b.toNat < 0x80 ∧ (0xFF >>> dfa b.toNat) &&& b.toNat = b.toNat) ∧
      (utf8Length b = 2 → (b &&& 0x1F).toNat + 0xC0 = b.toNat ∧ b.toNat < 0xE0 ∧
        (0xFF >>> dfa b.toNat) &&& b.toNat = (b &&& 0x1F).toNat) ∧
      (utf8Length b = 3 → (b &&& 0x0F).toNat + 0xE0 = b.toNat ∧ b.toNat < 0xF0 ∧
        (0xFF >>> dfa b.toNat) &&& b.toNat = (b &&& 0x0F).toNat) ∧
      (utf8Length b = 4 → (b &&& 0x07).toNat + 0xF0 = b.toNat ∧ b.toNat < 0xF5 ∧
        (0xFF >>> dfa b.toNat) &&& b.toNat = (b &&& 0x07).toNat) := by
  rw [dfa_byte]
  exact (toNat_bits b).2

/-- The value of a character, as long as it is one: the bits of its bytes one after the other. -/
theorem val_utf8Point {lead : UInt8} {cs : List UInt8} {n : ℕ} (hn : n < 0x110000)
    (h : n = cs.foldl (fun n b => n * 64 + (b &&& 0x3F).toNat) lead.toNat) :
    (utf8Point lead cs).val = n := by
  rw [utf8Point, ← h]
  exact Nat.mod_eq_of_lt hn

/-- The bits of a character's bytes, one after the other. -/
def bits (n : ℕ) (cs : Str) : ℕ := cs.foldl (fun n b => n * 64 + (b &&& 0x3F).toNat) n

theorem val_two {b c : UInt8} (hb : utf8Length b = 2) (hc : isContinuation c = true) :
    (utf8Point (b &&& 0x1F) [c]).val = (b &&& 0x1F).toNat * 64 + (c &&& 0x3F).toNat := by
  obtain ⟨hlead, hlt, -⟩ := (toNat_lead b).2.1 hb
  obtain ⟨hc1, hc2, -⟩ := toNat_continuation hc
  exact val_utf8Point (by omega) rfl

theorem val_three {b c d : UInt8} (hb : utf8Length b = 3) (hc : isContinuation c = true)
    (hd : isContinuation d = true) : (utf8Point (b &&& 0x0F) [c, d]).val
      = ((b &&& 0x0F).toNat * 64 + (c &&& 0x3F).toNat) * 64 + (d &&& 0x3F).toNat := by
  obtain ⟨hlead, hlt, -⟩ := (toNat_lead b).2.2.1 hb
  obtain ⟨hc1, hc2, -⟩ := toNat_continuation hc
  obtain ⟨hd1, hd2, -⟩ := toNat_continuation hd
  exact val_utf8Point (by omega) rfl

/-- The bounds that the second byte of a long character keeps. -/
theorem bounds_four {b c : UInt8} (hlow : (!(b == 0xF0 && c < 0x90)) = true)
    (hhigh : (!(b == 0xF4 && 0x8F < c)) = true) :
    ¬ (b.toNat = 0xF0 ∧ c.toNat < 0x90) ∧ ¬ (b.toNat = 0xF4 ∧ 0x8F < c.toNat) := by
  constructor
  · rintro ⟨hb, hc⟩
    have hbeq : b = 0xF0 := UInt8.toNat_inj.mp hb
    simp [hbeq, UInt8.lt_iff_toNat_lt, hc] at hlow
  · rintro ⟨hb, hc⟩
    have hbeq : b = 0xF4 := UInt8.toNat_inj.mp hb
    simp [hbeq, UInt8.lt_iff_toNat_lt, hc] at hhigh

theorem val_four {b c d e : UInt8} (hb : utf8Length b = 4) (hc : isContinuation c = true)
    (hd : isContinuation d = true) (he : isContinuation e = true)
    (hlow : (!(b == 0xF0 && c < 0x90)) = true) (hhigh : (!(b == 0xF4 && 0x8F < c)) = true) :
    (utf8Point (b &&& 0x07) [c, d, e]).val = (((b &&& 0x07).toNat * 64 + (c &&& 0x3F).toNat) * 64
      + (d &&& 0x3F).toNat) * 64 + (e &&& 0x3F).toNat := by
  obtain ⟨hlead, hlt, -⟩ := (toNat_lead b).2.2.2 hb
  obtain ⟨hc1, hc2, -⟩ := toNat_continuation hc
  obtain ⟨hd1, hd2, -⟩ := toNat_continuation hd
  obtain ⟨he1, he2, -⟩ := toNat_continuation he
  have hbounds := bounds_four hlow hhigh
  exact val_utf8Point (by omega) rfl

/-- Short characters are no surrogates. -/
theorem not_isSurrogate_two {b c : UInt8} (hb : utf8Length b = 2) (hc : isContinuation c = true) :
    ¬ IsSurrogate (utf8Point (b &&& 0x1F) [c]) := by
  obtain ⟨hlead, hlt, -⟩ := (toNat_lead b).2.1 hb
  obtain ⟨hc1, hc2, -⟩ := toNat_continuation hc
  unfold IsSurrogate
  rw [val_two hb hc]
  omega

/-- The surrogates are the three-byte sequences from `0xED 0xA0` on. -/
theorem isSurrogate_three {b c d : UInt8} (hb : utf8Length b = 3) (hc : isContinuation c = true)
    (hd : isContinuation d = true) :
    IsSurrogate (utf8Point (b &&& 0x0F) [c, d]) ↔ (b == 0xED && !(c < 0xA0)) = true := by
  obtain ⟨hlead, hlt, -⟩ := (toNat_lead b).2.2.1 hb
  obtain ⟨hc1, hc2, -⟩ := toNat_continuation hc
  obtain ⟨hd1, hd2, -⟩ := toNat_continuation hd
  have heq : (b == 0xED) = true ↔ b.toNat = 0xED := by
    rw [beq_iff_eq, ← UInt8.toNat_inj]
    rfl
  have hlt' : c < 0xA0 ↔ c.toNat < 0xA0 := UInt8.lt_iff_toNat_lt
  unfold IsSurrogate
  rw [val_three hb hc hd, Bool.and_eq_true, heq, Bool.not_eq_true', decide_eq_false_iff_not, hlt']
  omega

/-- Long characters are no surrogates. -/
theorem not_isSurrogate_four {b c d e : UInt8} (hb : utf8Length b = 4) (hc : isContinuation c = true)
    (hd : isContinuation d = true) (he : isContinuation e = true)
    (hlow : (!(b == 0xF0 && c < 0x90)) = true) (hhigh : (!(b == 0xF4 && 0x8F < c)) = true) :
    ¬ IsSurrogate (utf8Point (b &&& 0x07) [c, d, e]) := by
  obtain ⟨hlead, hlt, -⟩ := (toNat_lead b).2.2.2 hb
  obtain ⟨hc1, hc2, -⟩ := toNat_continuation hc
  have hbounds := bounds_four hlow hhigh
  unfold IsSurrogate
  rw [val_four hb hc hd he hlow hhigh]
  omega

/-! ### One character -/

/-- The automaton over a two-byte character. -/
theorem run_two {b : UInt8} (hb : utf8Length b = 2) (c : UInt8) (s : Str) :
    run UTF8_ACCEPT (b :: c :: s) = if isContinuation c then run UTF8_ACCEPT s else UTF8_REJECT := by
  rw [run_cons, run_cons, (next_accept b).2.1 hb, (next_inside c).1]
  split
  · rfl
  · exact run_reject s

/-- The automaton over a three-byte character. -/
theorem run_three {b : UInt8} (hb : utf8Length b = 3) (c d : UInt8) (s : Str) :
    run UTF8_ACCEPT (b :: c :: d :: s)
      = if isContinuation c && isContinuation d && !(b == 0xE0 && c < 0xA0)
          && !(b == 0xED && !(c < 0xA0)) then run UTF8_ACCEPT s else UTF8_REJECT := by
  obtain ⟨-, h3, h4, h5, -⟩ := next_inside c
  have h2 := (next_inside d).1
  have hrest : ∀ ok : Bool, run (next (if ok then 2 else 1) d) s
      = if ok && isContinuation d then run UTF8_ACCEPT s else UTF8_REJECT := by
    rintro (_ | _)
    · exact (congrArg (run · s) (next_reject d)).trans (run_reject s)
    · rw [if_pos rfl, h2, Bool.true_and]
      split
      · rfl
      · exact run_reject s
  rw [run_cons, run_cons, run_cons, (next_accept b).2.2.1 hb]
  by_cases hE0 : b = 0xE0
  · subst hE0
    rw [if_pos (beq_self_eq_true _), h4, hrest]
    congr 1
    cases isContinuation c <;> cases isContinuation d <;> cases decide (c < 0xA0) <;> rfl
  · by_cases hED : b = 0xED
    · subst hED
      rw [if_neg (by decide), if_pos (beq_self_eq_true _), h5, hrest]
      congr 1
      cases isContinuation c <;> cases isContinuation d <;> cases decide (c < 0xA0) <;> rfl
    · rw [if_neg (by simpa using hE0), if_neg (by simpa using hED), h3, hrest, beq_false_of_ne hE0,
        beq_false_of_ne hED]
      congr 1
      cases isContinuation c <;> cases isContinuation d <;> rfl

/-- The automaton over a four-byte character. -/
theorem run_four {b : UInt8} (hb : utf8Length b = 4) (c d e : UInt8) (s : Str) :
    run UTF8_ACCEPT (b :: c :: d :: e :: s)
      = if isContinuation c && isContinuation d && isContinuation e && !(b == 0xF0 && c < 0x90)
          && !(b == 0xF4 && 0x8F < c) then run UTF8_ACCEPT s else UTF8_REJECT := by
  obtain ⟨-, -, -, -, h6, h7, h8⟩ := next_inside c
  have h3 := (next_inside d).2.1
  have h2 := (next_inside e).1
  have hrest : ∀ ok : Bool, run (next (next (if ok then 3 else 1) d) e) s
      = if ok && isContinuation d && isContinuation e then run UTF8_ACCEPT s else UTF8_REJECT := by
    rintro (_ | _)
    · have hreject : next (next UTF8_REJECT d) e = UTF8_REJECT := by rw [next_reject, next_reject]
      exact (congrArg (run · s) hreject).trans (run_reject s)
    · rw [if_pos rfl, h3, Bool.true_and]
      cases isContinuation d with
      | false => exact (congrArg (run · s) (next_reject e)).trans (run_reject s)
      | true =>
          rw [if_pos rfl, h2, Bool.true_and]
          split
          · rfl
          · exact run_reject s
  rw [run_cons, run_cons, run_cons, run_cons, (next_accept b).2.2.2.1 hb]
  by_cases hF0 : b = 0xF0
  · subst hF0
    rw [if_pos (beq_self_eq_true _), h6, hrest]
    congr 1
    cases isContinuation c <;> cases isContinuation d <;> cases isContinuation e <;>
      cases decide (c < 0x90) <;> rfl
  · by_cases hF4 : b = 0xF4
    · subst hF4
      rw [if_neg (by decide), if_pos (beq_self_eq_true _), h8, hrest]
      congr 1
      cases isContinuation c <;> cases isContinuation d <;> cases isContinuation e <;>
        cases decide (0x8F < c) <;> rfl
    · rw [if_neg (by simpa using hF0), if_neg (by simpa using hF4), h7, hrest, beq_false_of_ne hF0,
        beq_false_of_ne hF4]
      congr 1
      cases isContinuation c <;> cases isContinuation d <;> cases isContinuation e <;> rfl

/-- What a state inside a character owes. -/
theorem next_owing (c : UInt8) :
    (∀ q ∈ [6, 7, 8], next q c ∈ [1, 3]) ∧ ∀ q ∈ [1, 3, 4, 5], next q c ∈ [1, 2] := by
  have hall : ∀ c : Fin 12, (∀ q ∈ [6, 7, 8], transition q c ∈ [1, 3]) ∧
      ∀ q ∈ [1, 3, 4, 5], transition q c ∈ [1, 2] := by decide
  have hc := hall ⟨byteClass c, byteClass_lt c⟩
  have hlt : ∀ q ∈ [6, 7, 8] ++ [1, 3, 4, 5], q < 9 := by decide
  constructor
  · intro q hq
    rw [next_eq (hlt q (List.mem_append_left _ hq))]
    exact hc.1 q hq
  · intro q hq
    rw [next_eq (hlt q (List.mem_append_right _ hq))]
    exact hc.2 q hq

/-- A character that breaks off leaves the automaton inside it. -/
theorem run_short {b : UInt8} {s : Str} (hs : s.length + 1 < utf8Length b) :
    run UTF8_ACCEPT (b :: s) ≠ UTF8_ACCEPT := by
  have hlead := next_accept b
  have hle : utf8Length b ≤ 4 := by
    unfold utf8Length
    split_ifs <;> omega
  have hthree : utf8Length b = 3 → next UTF8_ACCEPT b ∈ [1, 3, 4, 5] := by
    intro hb
    rw [hlead.2.2.1 hb]
    split_ifs <;> decide
  have hfour : utf8Length b = 4 → next UTF8_ACCEPT b ∈ [6, 7, 8] := by
    intro hb
    rw [hlead.2.2.2.1 hb]
    split_ifs <;> decide
  have hacc : ∀ (q : ℕ) (qs : List ℕ), q ∈ qs → UTF8_ACCEPT ∉ qs → q ≠ UTF8_ACCEPT := fun q qs h hne heq => hne (heq ▸ h)
  cases s with
  | nil =>
      have hb : utf8Length b = 2 ∨ utf8Length b = 3 ∨ utf8Length b = 4 := by
        simp only [List.length_nil] at hs
        omega
      rcases hb with hb | hb | hb
      · rw [run_cons, run_nil, hlead.2.1 hb]
        decide
      · exact hacc _ _ (hthree hb) (by decide)
      · exact hacc _ _ (hfour hb) (by decide)
  | cons c s =>
      cases s with
      | nil =>
          have hb : utf8Length b = 3 ∨ utf8Length b = 4 := by
            simp only [List.length_cons, List.length_nil] at hs
            omega
          rcases hb with hb | hb
          · exact hacc _ _ ((next_owing c).2 _ (hthree hb)) (by decide)
          · exact hacc _ _ ((next_owing c).1 _ (hfour hb)) (by decide)
      | cons d s =>
          have hb : utf8Length b = 4 ∧ s = [] := by
            simp only [List.length_cons] at hs
            exact ⟨by omega, List.length_eq_zero_iff.mp (by omega)⟩
          obtain ⟨hb, rfl⟩ := hb
          have hc := (next_owing c).1 _ (hfour hb)
          have hd := (next_owing d).2 _ ((by decide : [1, 3] ⊆ [1, 3, 4, 5]) hc)
          exact hacc _ _ hd (by decide)

/-- **The automaton accepts what `decode('utf8')` decodes without surrogates**, at every step of the
way. -/
theorem spells_from (whole : Str) (pos : ℕ) (s : Str) :
    run UTF8_ACCEPT s = UTF8_ACCEPT ↔
      ∃ text, decodeUtf8From whole pos s = .ok text ∧ ∀ c ∈ text, ¬ IsSurrogate c := by
  -- what follows a character decides, unless the character is a surrogate
  have hcons : ∀ (c : CodePoint) (x : Except Exc Unicode),
      (∃ text, (c :: ·) <$> x = .ok text ∧ ∀ c ∈ text, ¬ IsSurrogate c) ↔
        ¬ IsSurrogate c ∧ ∃ text, x = .ok text ∧ ∀ c ∈ text, ¬ IsSurrogate c := by
    intro c x
    cases x with
    | error e => exact ⟨fun ⟨_, h, _⟩ => (nomatch h), fun ⟨_, _, h, _⟩ => (nomatch h)⟩
    | ok text =>
        constructor
        · rintro ⟨_, h, hall⟩
          obtain rfl := Except.ok.inj h
          rw [List.forall_mem_cons] at hall
          exact ⟨hall.1, text, rfl, hall.2⟩
        · rintro ⟨hc, _, h, hall⟩
          obtain rfl := Except.ok.inj h
          exact ⟨c :: text, rfl, List.forall_mem_cons.mpr ⟨hc, hall⟩⟩
  have herror : ∀ (r : Str) (e : Exc), run UTF8_ACCEPT r ≠ UTF8_ACCEPT →
      (run UTF8_ACCEPT r = UTF8_ACCEPT ↔ ∃ text, (.error e : Except Exc Unicode) = .ok text ∧
        ∀ c ∈ text, ¬ IsSurrogate c) := by
    intro r e hne
    exact ⟨fun h => absurd h hne, fun ⟨_, h, _⟩ => (nomatch h)⟩
  have hreject : UTF8_REJECT ≠ UTF8_ACCEPT := by decide
  fun_induction decodeUtf8From whole pos s with
  | case1 => exact ⟨fun _ => ⟨[], rfl, fun _ h => absurd h List.not_mem_nil⟩, fun _ => rfl⟩
  | case2 pos b s hb ih =>
      have hpoint : ¬ IsSurrogate (utf8Point b []) := by
        have hlt := ((toNat_lead b).1 hb).1
        have hval : (utf8Point b []).val = b.toNat := val_utf8Point (by omega) rfl
        unfold IsSurrogate
        omega
      rw [hcons, and_iff_right hpoint, ih.symm, run_cons, (next_accept b).1 hb, ← UTF8_ACCEPT.eq_def]
  | case3 pos b hb c s hc ih =>
      rw [hcons, and_iff_right (not_isSurrogate_two hb hc), ih.symm, run_two hb, if_pos hc]
  | case4 pos b hb c s hc =>
      refine herror _ _ ?_
      rwa [run_two hb, if_neg hc]
  | case5 pos b hb => exact herror _ _ (run_short (by rw [hb]; decide))
  | case6 pos b hb c d s hok ih =>
      have hcd : isContinuation c = true ∧ isContinuation d = true := by
        simp only [Bool.and_eq_true] at hok
        exact hok.1
      rw [hcons, isSurrogate_three hb hcd.1 hcd.2, run_three hb, hok, Bool.true_and, ih.symm]
      cases b == 0xED && !decide (c < 0xA0) with
      | false => simp
      | true => simpa using hreject
  | case7 pos b hb c d s hbad =>
      refine herror _ _ ?_
      rwa [run_three hb, Bool.eq_false_iff.mpr hbad, Bool.false_and]
  | case8 pos b hb s hshort =>
      refine herror _ _ (run_short ?_)
      cases s with
      | nil => rw [hb]; decide
      | cons c s =>
          cases s with
          | nil => rw [hb, List.length_singleton]; decide
          | cons d s => exact absurd rfl (hshort c d s)
  | case9 pos b hb c d e s hok ih =>
      have hcde : isContinuation c = true ∧ isContinuation d = true ∧ isContinuation e = true ∧
          (!(b == 0xF0 && c < 0x90)) = true ∧ (!(b == 0xF4 && 0x8F < c)) = true := by
        simp only [Bool.and_eq_true] at hok
        exact ⟨hok.1.1.1.1, hok.1.1.1.2, hok.1.1.2, hok.1.2, hok.2⟩
      obtain ⟨hc, hd, he, hlow, hhigh⟩ := hcde
      rw [hcons, and_iff_right (not_isSurrogate_four hb hc hd he hlow hhigh), ih.symm, run_four hb,
        if_pos hok]
  | case10 pos b hb c d e s hbad =>
      refine herror _ _ ?_
      rwa [run_four hb, if_neg hbad]
  | case11 pos b hb s hshort =>
      refine herror _ _ (run_short ?_)
      rw [hb]
      by_contra hlen
      obtain ⟨c, d, e, s', rfl⟩ : ∃ c d e s', s = c :: d :: e :: s' := by
        rcases s with _ | ⟨c, _ | ⟨d, _ | ⟨e, s'⟩⟩⟩
        · exact absurd (Nat.lt_of_sub_eq_succ rfl) hlen
        · exact absurd (Nat.lt_of_sub_eq_succ rfl) hlen
        · exact absurd (Nat.lt_of_sub_eq_succ rfl) hlen
        · exact ⟨c, d, e, s', rfl⟩
      exact hshort c d e s' rfl
  | case12 pos b s h1 h2 h3 h4 =>
      refine herror _ _ ?_
      have hb : utf8Length b ∉ [1, 2, 3, 4] := by
        simp only [List.mem_cons, List.not_mem_nil, or_false, not_or]
        exact ⟨h1, h2, h3, h4⟩
      rw [run_cons, (next_accept b).2.2.2.2 hb]
      exact (run_reject s).trans_ne hreject

/-- **The accepted byte strings are the texts.** -/
theorem run_eq_accept_iff (s : Str) : run UTF8_ACCEPT s = UTF8_ACCEPT ↔ IsText s := spells_from s 0 s

/-- **A byte string is rejected when no continuation makes it a text.** -/
theorem run_ne_reject_iff (s : Str) : run UTF8_ACCEPT s ≠ UTF8_REJECT ↔ Begins s := by
  constructor
  · intro hne
    -- every other state has a way back
    have hback : ∀ q : Fin 9, q.val ≠ UTF8_REJECT →
        ∃ t ∈ [[], [0x80], [0x80, 0x80], [0xA0, 0x80], [0x90, 0x80, 0x80], [0x80, 0x80, 0x80]],
          run q t = UTF8_ACCEPT := by decide +kernel
    obtain ⟨t, -, ht⟩ := hback ⟨_, run_lt (by decide) s⟩ hne
    exact ⟨t, (run_eq_accept_iff _).mp (by rw [run_append, ht])⟩
  · rintro ⟨t, ht⟩ hreject
    rw [← run_eq_accept_iff, run_append, hreject, run_reject] at ht
    exact absurd ht (by decide)

/-- A text begins itself. -/
theorem IsText.begins {s : Str} (h : IsText s) : Begins s := ⟨[], by rwa [List.append_nil]⟩

theorem isText_nil : IsText [] := (run_eq_accept_iff []).mp rfl

/-- The beginnings of a beginning. -/
theorem Begins.of_append {s t : Str} (h : Begins (s ++ t)) : Begins s := by
  obtain ⟨u, hu⟩ := h
  exact ⟨t ++ u, by rwa [← List.append_assoc]⟩

/-- A text decodes. -/
theorem IsText.decodeUtf8 {s : Str} (h : IsText s) : ∃ text, Python2.decodeUtf8 s = .ok text := by
  obtain ⟨text, htext, -⟩ := h
  exact ⟨text, htext⟩

/-! ## Validating in pieces -/

/-- The loop consumes the piece and ends in the state of the automaton, unless it is rejected: then it
stops in front of the first byte that rejects it. -/
theorem validateLoop_eq (ba : Str) (state i : ℕ) (hstate : state ≠ UTF8_REJECT) :
    (run state ba ≠ UTF8_REJECT ∧
        Utf8Validator.validateLoop state i ba = (run state ba, i + ba.length, true)) ∨
      ∃ n < ba.length, run state (ba.take n) ≠ UTF8_REJECT ∧
        run state (ba.take (n + 1)) = UTF8_REJECT ∧
        Utf8Validator.validateLoop state i ba = (UTF8_REJECT, i + n, false) := by
  induction ba generalizing state i with
  | nil => exact .inl ⟨hstate, rfl⟩
  | cons b ba ih =>
      have hnext : dfa (256 + (state <<< 4) + dfa b.toNat) = next state b := by
        rw [next, Nat.shiftLeft_eq]
      rw [Utf8Validator.validateLoop, hnext]
      by_cases hreject : next state b = UTF8_REJECT
      · refine .inr ⟨0, Nat.succ_pos _, hstate, hreject, ?_⟩
        rw [if_pos hreject, hreject]
        rfl
      · rw [if_neg hreject]
        rcases ih (next state b) (i + 1) hreject with ⟨hrun, heq⟩ | ⟨n, hn, hok, hbad, heq⟩
        · refine .inl ⟨hrun, ?_⟩
          rw [heq, List.length_cons, Nat.add_right_comm, Nat.add_assoc]
          rfl
        · refine .inr ⟨n + 1, Nat.succ_lt_succ hn, hok, hbad, ?_⟩
          rw [heq, Nat.add_right_comm, Nat.add_assoc]

/-- The loop does not depend on the index it starts from. -/
theorem validateLoop_add (ba : Str) (state i : ℕ) : Utf8Validator.validateLoop state i ba =
    ((Utf8Validator.validateLoop state 0 ba).1, i + (Utf8Validator.validateLoop state 0 ba).2.1,
      (Utf8Validator.validateLoop state 0 ba).2.2) := by
  induction ba generalizing state i with
  | nil => rfl
  | cons b ba ih =>
      simp only [Utf8Validator.validateLoop]
      split
      · rfl
      · rw [ih _ (i + 1), ih _ (0 + 1)]
        simp only [Nat.zero_add, Nat.add_assoc]

/-- The loop over a concatenation: the first part, and from there the second. -/
theorem validateLoop_append (ba bb : Str) (state i : ℕ) : Utf8Validator.validateLoop state i (ba ++ bb) =
    if (Utf8Validator.validateLoop state i ba).2.2 then
      Utf8Validator.validateLoop (Utf8Validator.validateLoop state i ba).1
        (Utf8Validator.validateLoop state i ba).2.1 bb
    else Utf8Validator.validateLoop state i ba := by
  induction ba generalizing state i with
  | nil => rfl
  | cons b ba ih =>
      simp only [List.cons_append, Utf8Validator.validateLoop]
      split
      · rfl
      · exact ih _ _

/-- A loop that consumes the piece has gone to its end. -/
theorem validateLoop_index {ba : Str} {state i : ℕ} (h : (Utf8Validator.validateLoop state i ba).2.2 = true) :
    (Utf8Validator.validateLoop state i ba).2.1 = i + ba.length := by
  induction ba generalizing state i with
  | nil => rfl
  | cons b ba ih =>
      simp only [Utf8Validator.validateLoop] at h ⊢
      split at h
      · cases h
      · next hreject =>
          rw [if_neg hreject, ih h, List.length_cons]
          omega

/-- `validate`, with the outcome of its loop spelled out. -/
theorem validate_eq (v : Utf8Validator) (ba : Str) :
    (v.validate ba).1.valid = (Utf8Validator.validateLoop v.state 0 ba).2.2 ∧
      (v.validate ba).2.state = (Utf8Validator.validateLoop v.state 0 ba).1 ∧
      (v.validate ba).2.i = v.i + (Utf8Validator.validateLoop v.state 0 ba).2.1 ∧
      (v.validate ba).1.totalIndex = (v.validate ba).2.i ∧
      (v.validate ba).1.endsOnCodePoint
        = ((v.validate ba).1.valid && (v.validate ba).2.state == UTF8_ACCEPT) ∧
      (v.validate ba).2.codepoint = v.codepoint := by
  unfold Utf8Validator.validate
  split
  · next heq => rw [heq]; exact ⟨rfl, rfl, rfl, rfl, rfl, rfl⟩
  · next heq =>
      have hindex : (Utf8Validator.validateLoop v.state 0 ba).2.1 = 0 + ba.length := validateLoop_index (by rw [heq])
      rw [heq] at hindex ⊢
      refine ⟨rfl, rfl, ?_, rfl, rfl, rfl⟩
      dsimp only at hindex ⊢
      rw [hindex, Nat.zero_add]

/-- **Two pieces are validated like one**, the second from where the first has led to. -/
theorem validate_append (v : Utf8Validator) (ba bb : Str) :
    ((v.validate ba).1.valid = true →
      (v.validate (ba ++ bb)).1.valid = ((v.validate ba).2.validate bb).1.valid ∧
        (v.validate (ba ++ bb)).2 = ((v.validate ba).2.validate bb).2) ∧
      ((v.validate ba).1.valid = false → (v.validate (ba ++ bb)).1.valid = false) := by
  obtain ⟨hvalid, hstate, hi, -, -, hcode⟩ := validate_eq v ba
  obtain ⟨hvalid', hstate', hi', -, -, hcode'⟩ := validate_eq v (ba ++ bb)
  obtain ⟨hvalid₂, hstate₂, hi₂, -, -, hcode₂⟩ := validate_eq (v.validate ba).2 bb
  rw [validateLoop_append] at hvalid' hstate' hi'
  constructor
  · intro h
    rw [hvalid] at h
    rw [if_pos h, validateLoop_add bb _ (_ : ℕ)] at hvalid' hstate' hi'
    rw [← hstate] at hvalid' hstate' hi'
    refine ⟨hvalid'.trans hvalid₂.symm, ?_⟩
    have heq : ∀ a b : Utf8Validator, a.state = b.state → a.codepoint = b.codepoint → a.i = b.i → a = b := by
      rintro ⟨_, _, _⟩ ⟨_, _, _⟩ rfl rfl rfl
      rfl
    refine heq _ _ (hstate'.trans hstate₂.symm) ?_ ?_
    · rw [hcode', hcode₂, hcode]
    · rw [hi', hi₂, hi, Nat.add_assoc]
  · intro h
    rw [hvalid] at h
    rw [hvalid', if_neg (by rw [h]; decide), h]

/-- **What `validate` ought to say** of the piece `ba` when the pieces before it make up `s`. -/
structure Judges (s ba : Str) (q : Validation) : Prop where
  /-- It is valid exactly if what has arrived so far can still become a text. -/
  valid : q.valid = true ↔ Begins (s ++ ba)
  /-- It ends on a character exactly if what has arrived so far is a text. -/
  endsOnCodePoint : q.endsOnCodePoint = true ↔ IsText (s ++ ba)
  /-- A valid piece is consumed. -/
  consumed : q.valid = true ↔ q.currentIndex = ba.length
  total : q.totalIndex = s.length + q.currentIndex
  /-- What is consumed can still become a text, and ends where the first byte follows that rules this
  out. -/
  begins : Begins ((s ++ ba).take q.totalIndex)
  refused : q.valid = false → ¬ Begins ((s ++ ba).take (q.totalIndex + 1))

/-- The validator after the pieces. -/
def Utf8Validator.after (v : Utf8Validator) (chunks : List Str) : Utf8Validator :=
  chunks.foldl (fun v ba => (v.validate ba).2) v

/-- The validator stands where the automaton does. -/
structure Utf8Validator.Stands (v : Utf8Validator) (s : Str) : Prop where
  state : v.state = Autobahn.run UTF8_ACCEPT s
  i : v.i = s.length

theorem Utf8Validator.stands_reset : reset.Stands [] := ⟨rfl, rfl⟩

/-- **One piece**: it is judged, and a valid one moves the validator on. -/
theorem Utf8Validator.Stands.validate {v : Utf8Validator} {s : Str} (hv : v.Stands s) (hs : Begins s)
    (ba : Str) : Judges s ba (v.validate ba).1 ∧
      (Begins (s ++ ba) → (v.validate ba).2.Stands (s ++ ba)) := by
  have hstate : v.state ≠ UTF8_REJECT := hv.state ▸ (run_ne_reject_iff s).mpr hs
  have hrun : ∀ t : Str, Autobahn.run v.state t = Autobahn.run UTF8_ACCEPT (s ++ t) := by
    intro t
    rw [hv.state, run_append]
  have htake : ∀ n, (s ++ ba).take (s.length + n) = s ++ ba.take n := fun n => by
    rw [List.take_append, List.take_of_length_le (Nat.le_add_right _ _), Nat.add_sub_cancel_left]
  rcases validateLoop_eq ba v.state 0 hstate with ⟨hok, heq⟩ | ⟨n, hn, hok, hbad, heq⟩
  · have hbegins : Begins (s ++ ba) := (run_ne_reject_iff _).mp (hrun ba ▸ hok)
    have hvalidate : v.validate ba = (⟨true, Autobahn.run v.state ba == UTF8_ACCEPT, ba.length,
        v.i + ba.length⟩, { v with state := Autobahn.run v.state ba, i := v.i + ba.length }) := by
      rw [Utf8Validator.validate, heq]
    rw [hvalidate]
    refine ⟨⟨?_, ?_, ?_, ?_, ?_, ?_⟩, fun _ => ⟨hrun ba, ?_⟩⟩
    · exact ⟨fun _ => hbegins, fun _ => rfl⟩
    · rw [beq_iff_eq, hrun, run_eq_accept_iff]
    · exact ⟨fun _ => rfl, fun _ => rfl⟩
    · rw [hv.i]
    · rw [hv.i, htake, List.take_length]
      exact hbegins
    · exact fun h => (nomatch h)
    · rw [List.length_append, hv.i]
  · have hnot : ¬ Begins (s ++ ba.take (n + 1)) := by
      rw [← run_ne_reject_iff, ← hrun, not_not]
      exact hbad
    have hnot' : ¬ Begins (s ++ ba) := by
      intro h
      refine hnot (Begins.of_append (t := ba.drop (n + 1)) ?_)
      rwa [List.append_assoc, List.take_append_drop]
    have hvalidate : v.validate ba = (⟨false, false, 0 + n, v.i + (0 + n)⟩,
        { v with state := UTF8_REJECT, i := v.i + (0 + n) }) := by
      rw [Utf8Validator.validate, heq]
    rw [hvalidate, Nat.zero_add]
    refine ⟨⟨?_, ?_, ?_, ?_, ?_, ?_⟩, fun h => absurd h hnot'⟩
    · exact ⟨fun h => (nomatch h), fun h => absurd h hnot'⟩
    · exact ⟨fun h => (nomatch h), fun h => absurd h.begins hnot'⟩
    · exact ⟨fun h => (nomatch h), fun h => absurd h hn.ne⟩
    · rw [hv.i]
    · rw [hv.i, htake, ← run_ne_reject_iff, ← hrun]
      exact hok
    · intro _
      rw [hv.i, Nat.add_assoc, htake]
      exact hnot

/-- **However a text is cut into pieces, each is judged by what has arrived so far.** -/
theorem validates_chunks {chunks : List Str} (h : Begins chunks.flatten) (ba : Str) :
    Judges chunks.flatten ba ((Utf8Validator.reset.after chunks).validate ba).1 := by
  have hstands : (Utf8Validator.reset.after chunks).Stands chunks.flatten := by
    induction chunks using List.reverseRecOn with
    | nil => exact Utf8Validator.stands_reset
    | append_singleton chunks ba ih =>
        rw [List.flatten_append, List.flatten_singleton] at h ⊢
        rw [Utf8Validator.after, List.foldl_append]
        exact ((ih h.of_append).validate h.of_append ba).2 h
  exact (hstands.validate h ba).1

/-- `é`, cut between its bytes. -/
theorem validates_chunks_e_acute : Begins [[0xC3]].flatten ∧
    Judges [[0xC3]].flatten [0xA9] ((Utf8Validator.reset.after [[0xC3]]).validate [0xA9]).1 := by
  have hbegins : Begins [[0xC3]].flatten := (run_ne_reject_iff _).mp (by decide +kernel)
  exact ⟨hbegins, validates_chunks hbegins [0xA9]⟩

/-! ## The characters -/

/-- `decode` as a transducer: a character is complete when the automaton accepts. -/
def eat (v : Utf8Validator) (b : UInt8) : Utf8Validator × Option ℕ :=
  (v.decode b, if (v.decode b).state = UTF8_ACCEPT then some (v.decode b).codepoint else none)

theorem state_decode (v : Utf8Validator) (b : UInt8) : (v.decode b).state = next v.state b := rfl

/-- The first byte starts a character afresh. -/
theorem codepoint_decode_accept {v : Utf8Validator} (h : v.state = UTF8_ACCEPT) (b : UInt8) :
    (v.decode b).codepoint = (0xFF >>> dfa b.toNat) &&& b.toNat := if_neg (not_not.mpr h)

/-- A further byte adds six bits. -/
theorem codepoint_decode_inside {v : Utf8Validator} (h : v.state ≠ UTF8_ACCEPT) {c : UInt8}
    (hc : isContinuation c = true) :
    (v.decode c).codepoint = v.codepoint * 64 + (c &&& 0x3F).toNat := by
  obtain ⟨-, -, hbits⟩ := toNat_continuation hc
  have hlt : (c &&& 0x3F).toNat < 2 ^ 6 := by
    rw [hbits]
    exact Nat.and_lt_two_pow _ (by decide)
  have hdecode : (v.decode c).codepoint = (c.toNat &&& 0x3F) ||| (v.codepoint <<< 6) := if_pos h
  rw [hdecode, ← hbits, Nat.or_comm, ← Nat.shiftLeft_add_eq_or_of_lt hlt, Nat.shiftLeft_eq]

/-- What `eat` emits for a byte that ends no character. -/
theorem outputs_eat_inside {v : Utf8Validator} {b : UInt8} (h : next v.state b ≠ UTF8_ACCEPT) (s : Str) :
    outputs eat v (b :: s) = outputs eat (v.decode b) s := by
  rw [outputs_cons, eat, if_neg (by rwa [state_decode])]
  rfl

/-- What `eat` emits for a byte that ends a character. -/
theorem outputs_eat_accept {v : Utf8Validator} {b : UInt8} (h : next v.state b = UTF8_ACCEPT) (s : Str) :
    outputs eat v (b :: s) = (v.decode b).codepoint :: outputs eat (v.decode b) s := by
  rw [outputs_cons, eat, if_pos (by rwa [state_decode])]
  rfl

/-- The bytes that continue a character add their bits, and the last one ends it. -/
theorem outputs_eat_continue {cs : Str} {v : Utf8Validator} (hne : cs ≠ [])
    (hc : ∀ c ∈ cs, isContinuation c = true)
    (hinside : ∀ n < cs.length, run v.state (cs.take n) ≠ UTF8_ACCEPT)
    (hend : run v.state cs = UTF8_ACCEPT) (s : Str) :
    ∃ w : Utf8Validator, w.state = UTF8_ACCEPT ∧
      outputs eat v (cs ++ s) = bits v.codepoint cs :: outputs eat w s := by
  induction cs generalizing v with
  | nil => exact absurd rfl hne
  | cons c cs ih =>
      rw [List.forall_mem_cons] at hc
      have hstate : v.state ≠ UTF8_ACCEPT := hinside 0 (Nat.succ_pos _)
      have hcode := codepoint_decode_inside hstate hc.1
      cases cs with
      | nil =>
          refine ⟨v.decode c, hend, ?_⟩
          rw [List.cons_append, List.nil_append, outputs_eat_accept hend, hcode]
          rfl
      | cons d cs =>
          have hnext : next v.state c ≠ UTF8_ACCEPT := hinside 1 (by simp)
          have hinside' : ∀ n < (d :: cs).length, run (v.decode c).state ((d :: cs).take n) ≠ UTF8_ACCEPT :=
            fun n hn => hinside (n + 1) (Nat.succ_lt_succ hn)
          obtain ⟨w, hw, heq⟩ := ih (List.cons_ne_nil _ _) hc.2 hinside' hend
          refine ⟨w, hw, ?_⟩
          rw [List.cons_append, outputs_eat_inside hnext, heq, hcode]
          rfl

/-- **A character is eaten whole**: its first byte and the bytes that continue it. -/
theorem outputs_eat_character {b : UInt8} {cs : Str} {v : Utf8Validator} (hv : v.state = UTF8_ACCEPT)
    (hlen : utf8Length b = cs.length + 1) (hne : cs ≠ []) (hc : ∀ c ∈ cs, isContinuation c = true)
    (hend : run UTF8_ACCEPT (b :: cs) = UTF8_ACCEPT) (s : Str) :
    ∃ w : Utf8Validator, w.state = UTF8_ACCEPT ∧ outputs eat v (b :: (cs ++ s))
      = bits ((0xFF >>> dfa b.toNat) &&& b.toNat) cs :: outputs eat w s := by
  have hshort : ∀ n < cs.length, run UTF8_ACCEPT (b :: cs.take n) ≠ UTF8_ACCEPT := by
    intro n hn
    refine run_short ?_
    rw [List.length_take, hlen]
    omega
  have hstate : (v.decode b).state = next UTF8_ACCEPT b := by rw [state_decode, hv]
  have hnext : next v.state b ≠ UTF8_ACCEPT := by
    rw [hv]
    exact hshort 0 (List.length_pos_of_ne_nil hne)
  obtain ⟨w, hw, heq⟩ := outputs_eat_continue (v := v.decode b) hne hc
    (fun n hn => hstate ▸ hshort n hn) (hstate ▸ hend) s
  exact ⟨w, hw, by rw [outputs_eat_inside hnext, heq, codepoint_decode_accept hv]⟩

/-- **`decode` yields the characters of a text**, at every step of the way. -/
theorem codepoints_from (whole : Str) (pos : ℕ) (s : Str) {text : Unicode} {v : Utf8Validator}
    (hv : v.state = UTF8_ACCEPT) (h : decodeUtf8From whole pos s = .ok text)
    (hs : run UTF8_ACCEPT s = UTF8_ACCEPT) : outputs eat v s = text.map (·.val) := by
  have hmap : ∀ (c : CodePoint) (x : Except Exc Unicode) (text : Unicode), (c :: ·) <$> x = .ok text →
      ∃ tail, x = .ok tail ∧ text = c :: tail := by
    intro c x text hx
    cases x with
    | error e => cases hx
    | ok tail => exact ⟨tail, rfl, (Except.ok.inj hx).symm⟩
  have hreject : UTF8_REJECT ≠ UTF8_ACCEPT := by decide
  fun_induction decodeUtf8From whole pos s generalizing text v with
  | case1 =>
      obtain rfl := Except.ok.inj h
      rfl
  | case2 pos b s hb ih =>
      obtain ⟨tail, htail, rfl⟩ := hmap _ _ _ h
      have hnext : next UTF8_ACCEPT b = UTF8_ACCEPT := (next_accept b).1 hb
      obtain ⟨hlt, hbits⟩ := (toNat_lead b).1 hb
      have hval : (utf8Point b []).val = b.toNat := val_utf8Point (by omega) rfl
      rw [run_cons, hnext] at hs
      rw [← hv] at hnext
      rw [outputs_eat_accept (hnext.trans hv), codepoint_decode_accept hv, hbits, List.map_cons, hval,
        ih (hnext.trans hv) htail hs]
  | case3 pos b hb c s hc ih =>
      obtain ⟨tail, htail, rfl⟩ := hmap _ _ _ h
      have hend : run UTF8_ACCEPT [b, c] = UTF8_ACCEPT := by rw [run_two hb, if_pos hc, run_nil]
      rw [run_two hb, if_pos hc] at hs
      obtain ⟨w, hw, heq⟩ := outputs_eat_character hv hb (List.cons_ne_nil _ _) (by simpa using hc) hend s
      rw [((toNat_lead b).2.1 hb).2.2, ih hw htail hs] at heq
      rw [List.map_cons, val_two hb hc]
      exact heq
  | case6 pos b hb c d s hok ih =>
      obtain ⟨tail, htail, rfl⟩ := hmap _ _ _ h
      have hend : run UTF8_ACCEPT (b :: c :: d :: s) = run UTF8_ACCEPT s ∧
          run UTF8_ACCEPT [b, c, d] = UTF8_ACCEPT := by
        rw [run_three hb] at hs ⊢
        rw [run_three hb]
        split at hs
        · next hcond => exact ⟨if_pos hcond, if_pos hcond⟩
        · exact absurd hs hreject
      simp only [Bool.and_eq_true] at hok
      obtain ⟨w, hw, heq⟩ := outputs_eat_character hv hb (List.cons_ne_nil _ _)
        (by simpa using hok.1) hend.2 s
      rw [((toNat_lead b).2.2.1 hb).2.2, ih hw htail (hend.1 ▸ hs)] at heq
      rw [List.map_cons, val_three hb hok.1.1 hok.1.2]
      exact heq
  | case9 pos b hb c d e s hok ih =>
      obtain ⟨tail, htail, rfl⟩ := hmap _ _ _ h
      have hend : run UTF8_ACCEPT [b, c, d, e] = UTF8_ACCEPT := by rw [run_four hb, if_pos hok, run_nil]
      rw [run_four hb, if_pos hok] at hs
      simp only [Bool.and_eq_true] at hok
      obtain ⟨⟨⟨⟨hc, hd⟩, he⟩, hlow⟩, hhigh⟩ := hok
      obtain ⟨w, hw, heq⟩ := outputs_eat_character hv hb (List.cons_ne_nil _ _)
        (by simpa using ⟨hc, hd, he⟩) hend s
      rw [((toNat_lead b).2.2.2 hb).2.2, ih hw htail hs] at heq
      rw [List.map_cons, val_four hb hc hd he hlow hhigh]
      exact heq
  | _ => cases h

/-- **`decode` computes the characters of a text**: those `decode('utf8')` returns, whatever it ate
before a `reset` or another complete text. -/
theorem codepoints_eq {s : Str} {text : Unicode} (h : Spells s text) {v : Utf8Validator}
    (hv : v.state = UTF8_ACCEPT) : outputs eat v s = text.map (·.val) :=
  codepoints_from s 0 s hv h.1 ((run_eq_accept_iff s).mpr ⟨text, h⟩)

/-- `é` and `€`. -/
theorem codepoints_e_acute_euro :
    outputs eat .reset [0xC3, 0xA9, 0xE2, 0x82, 0xAC] = [0xE9, 0x20AC].map fun c : CodePoint => c.val := by
  have hspells : Spells [0xC3, 0xA9, 0xE2, 0x82, 0xAC] [0xE9, 0x20AC] :=
    ⟨by decide +kernel, by simp [IsSurrogate]⟩
  exact codepoints_eq hspells rfl

end LibreXC.Autobahn
