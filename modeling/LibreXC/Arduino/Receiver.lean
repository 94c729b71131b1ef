import LibreXC.Lib.Transducer
import Mathlib.Data.UInt

/-! # The packet receiver of `librexc.ino`

`loop()` alternates `receiveData()` and `checkPacket()`: `sync()` consumes bytes until three
consecutive `0x11` bytes went by, the next six bytes fill `buff`, and the packet is handed on when
the last three of them are `0x22` and the third is the xor of the first two.

Two models are given and proved to agree.

* **`sync`, `receiveData`, `loop`, `runLoop`** follow the functions of the sketch. The serial line is
  the list of bytes still to come; `nextByte()` blocks when the list is empty, and the model then
  reports where it blocked.
* **`Receiver.step`** is the same receiver driven by one byte at a time, its state being where it
  waits in `nextByte()`. It is what the proofs about framing run on (`runLoop_eq`). -/

namespace LibreXC.Arduino

/-- `#define BYTE uint8_t`. -/
abbrev BYTE := UInt8

/-- `#define PACK_START_LEN 3`. -/
abbrev PACK_START_LEN : ℕ := 3
/-- `#define PACK_PAY_LEN 2`. -/
abbrev PACK_PAY_LEN : ℕ := 2
/-- `#define PACK_END_LEN 3`. -/
abbrev PACK_END_LEN : ℕ := 3
/-- `#define BUFF_LEN 6`. -/
abbrev BUFF_LEN : ℕ := 6
/-- `#define SYNC_BYTE 0x11`. -/
abbrev SYNC_BYTE : BYTE := 0x11
/-- `#define END_BYTE 0x22`. -/
abbrev END_BYTE : BYTE := 0x22

/-- The payload `data[PACK_PAY_LEN]` of an accepted packet: command byte and parameter byte. -/
structure Payload where
  /-- `data[0]`, the command byte. -/
  cmd : BYTE
  /-- `data[1]`, the parameter byte. -/
  param : BYTE
  deriving DecidableEq, Repr

/-- The bytes `receiveData()` has stored so far: fewer than `BUFF_LEN`, or it would have returned. -/
abbrev PartialBuff := {buff : List BYTE // buff.length < BUFF_LEN}

/-- **Where the receiver waits for its next byte.** -/
inductive Receiver
  /-- In `sync()`, after `i` matching bytes. -/
  | sync (i : Fin PACK_START_LEN)
  /-- In `receiveData()`, after the bytes `buff` went into the buffer. -/
  | receiveData (buff : PartialBuff)
  deriving DecidableEq

namespace Receiver

/-- In `sync()` with no byte matched: how `loop()` starts and where a packet leaves it. -/
def start : Receiver := .sync 0

/-- In `receiveData()` with an empty buffer: where `sync()` returns to. -/
def synced : Receiver := .receiveData ⟨[], by decide⟩

end Receiver

/-! ## The functions of the sketch -/

/-- `checkPacket()`: the end bytes from the back, then the checksum over the payload. -/
def checkPacket (buff : List BYTE) : Bool :=
  (List.range PACK_END_LEN).all (fun i => buff.getD (BUFF_LEN - 1 - i) 0 == END_BYTE) &&
    buff.getD PACK_PAY_LEN 0
      == (List.range PACK_PAY_LEN).foldl (fun checksum i => checksum ^^^ buff.getD i 0) 0x00

/-- The copy `data[i] = buff[i]` of an accepted packet. -/
def payload (buff : List BYTE) : Payload := ⟨buff.getD 0 0, buff.getD 1 0⟩

/-- `sync()`, entered with `i` bytes matched: the bytes left when it returns, or where it blocks.
A byte that breaks the run is consumed and the count restarts after it. -/
def sync (i : Fin PACK_START_LEN) : List BYTE → Except Receiver (List BYTE)
  | [] => .error (.sync i)
  | b :: line =>
      if b ≠ SYNC_BYTE then sync 0 line
      else if h : i.val + 1 < PACK_START_LEN then sync ⟨i.val + 1, h⟩ line
      else .ok line

/-- The `for` loop of `receiveData()`: fill `buff` up to `BUFF_LEN` bytes. -/
def fillBuff (buff : PartialBuff) : List BYTE → Except Receiver (List BYTE × List BYTE)
  | [] => .error (.receiveData buff)
  | b :: line =>
      if h : (buff.val ++ [b]).length < BUFF_LEN then fillBuff ⟨buff.val ++ [b], h⟩ line
      else .ok (buff.val ++ [b], line)

/-- `receiveData()`: the filled buffer and the bytes left. -/
def receiveData (line : List BYTE) : Except Receiver (List BYTE × List BYTE) := do
  let line ← sync 0 line
  fillBuff ⟨[], by decide⟩ line

/-- `sync()` consumes at least one byte before it returns. -/
theorem sync_length_lt {i : Fin PACK_START_LEN} {line rest : List BYTE}
    (h : sync i line = .ok rest) : rest.length < line.length := by
  induction line generalizing i with
  | nil => simp [sync] at h
  | cons b line ih =>
      rw [sync] at h
      split at h
      · exact Nat.lt_succ_of_lt (ih h)
      · split at h
        · exact Nat.lt_succ_of_lt (ih h)
        · rw [Except.ok.injEq] at h
          simp [h]

/-- `fillBuff` consumes at least one byte before it returns. -/
theorem fillBuff_length_lt {buff : PartialBuff} {line : List BYTE} {r : List BYTE × List BYTE}
    (h : fillBuff buff line = .ok r) : r.2.length < line.length := by
  induction line generalizing buff with
  | nil => simp [fillBuff] at h
  | cons b line ih =>
      rw [fillBuff] at h
      split at h
      · exact Nat.lt_succ_of_lt (ih h)
      · rw [Except.ok.injEq] at h
        simp [← h]

/-- Cons reading of `receiveData()`: it returns through `sync()` and `fillBuff`. -/
theorem receiveData_eq_ok {line : List BYTE} {r : List BYTE × List BYTE} :
    receiveData line = .ok r ↔
      ∃ rest, sync 0 line = .ok rest ∧ fillBuff ⟨[], by decide⟩ rest = .ok r := by
  rw [receiveData]
  cases h : sync 0 line with
  | error w => simp [bind, Except.bind]
  | ok rest => simp [bind, Except.bind]

/-- `receiveData()` consumes at least one byte before it returns. -/
theorem receiveData_length_lt {line : List BYTE} {r : List BYTE × List BYTE}
    (h : receiveData line = .ok r) : r.2.length < line.length := by
  obtain ⟨rest, hs, hf⟩ := receiveData_eq_ok.mp h
  exact (fillBuff_length_lt hf).trans (sync_length_lt hs)

/-- **`loop()` over and over** until the line runs dry: the payloads for which `handleData()` is
called, each with the number of bytes consumed by then (`n` before `line`), and where the receiver
ends up waiting. -/
def runLoop (n : ℕ) (line : List BYTE) : List (ℕ × Payload) × Receiver :=
  match _h : receiveData line with
  | .error w => ([], w)
  | .ok (buff, rest) =>
      let m := n + (line.length - rest.length)
      let next := runLoop m rest
      if checkPacket buff then ((m, payload buff) :: next.1, next.2) else next
termination_by line.length
decreasing_by exact receiveData_length_lt ‹_›

/-! ## The byte-driven receiver -/

/-- **One byte arrives.** The receiver moves on, and hands on a payload when the byte completes a
packet that passes `checkPacket()`. -/
def Receiver.step : Receiver → BYTE → Receiver × Option Payload
  | .sync i, b =>
      if b ≠ SYNC_BYTE then (.start, none)
      else if h : i.val + 1 < PACK_START_LEN then (.sync ⟨i.val + 1, h⟩, none)
      else (.synced, none)
  | .receiveData buff, b =>
      if h : (buff.val ++ [b]).length < BUFF_LEN then (.receiveData ⟨buff.val ++ [b], h⟩, none)
      else (.start, if checkPacket (buff.val ++ [b]) then some (payload (buff.val ++ [b])) else none)

open Transducer

/-- **`sync()` is silent.** The byte-driven receiver emits nothing while `sync()` runs, and goes on
from `synced` with the bytes `sync()` left over, or ends where `sync()` blocked. -/
theorem emits_sync (i : Fin PACK_START_LEN) (n : ℕ) (line : List BYTE) :
    match sync i line with
    | .error w => emits Receiver.step (.sync i) n line = [] ∧ after Receiver.step (.sync i) line = w
    | .ok rest =>
        emits Receiver.step (.sync i) n line
            = emits Receiver.step .synced (n + (line.length - rest.length)) rest ∧
          after Receiver.step (.sync i) line = after Receiver.step .synced rest := by
  induction line generalizing i n with
  | nil => exact ⟨rfl, rfl⟩
  | cons b line ih =>
      -- a byte that keeps `sync()` running: the claim is the induction hypothesis one byte later
      have hstay : ∀ j : Fin PACK_START_LEN, Receiver.step (.sync i) b = (.sync j, none) →
          sync i (b :: line) = sync j line →
          match sync i (b :: line) with
          | .error w => emits Receiver.step (.sync i) n (b :: line) = [] ∧
              after Receiver.step (.sync i) (b :: line) = w
          | .ok rest =>
              emits Receiver.step (.sync i) n (b :: line)
                  = emits Receiver.step .synced (n + ((b :: line).length - rest.length)) rest ∧
                after Receiver.step (.sync i) (b :: line) = after Receiver.step .synced rest := by
        intro j hstep hsync
        rw [hsync, emits_cons, after_cons, hstep]
        have hj := ih j (n + 1)
        cases h : sync j line with
        | error w =>
            rw [h] at hj
            exact ⟨hj.1, hj.2⟩
        | ok rest =>
            rw [h] at hj
            refine ⟨?_, hj.2⟩
            have hlen := sync_length_lt h
            rw [List.length_cons,
              show n + (line.length + 1 - rest.length) = n + 1 + (line.length - rest.length) by omega]
            exact hj.1
      by_cases hb : b ≠ SYNC_BYTE
      · refine hstay 0 ?_ ?_
        · rw [Receiver.step, if_pos hb]
          rfl
        · rw [sync, if_pos hb]
      · by_cases hi : i.val + 1 < PACK_START_LEN
        · refine hstay ⟨i.val + 1, hi⟩ ?_ ?_
          · rw [Receiver.step, if_neg hb, dif_pos hi]
          · rw [sync, if_neg hb, dif_pos hi]
        · have hstep : Receiver.step (.sync i) b = (.synced, none) := by
            rw [Receiver.step, if_neg hb, dif_neg hi]
          rw [sync, if_neg hb, dif_neg hi, emits_cons, after_cons, hstep]
          simp

/-- **`fillBuff` emits once, at its last byte**: the payload of the filled buffer if `checkPacket()`
accepts it; then the receiver is back in `sync()`. -/
theorem emits_fillBuff (buff : PartialBuff) (n : ℕ) (line : List BYTE) :
    match fillBuff buff line with
    | .error w => emits Receiver.step (.receiveData buff) n line = [] ∧
        after Receiver.step (.receiveData buff) line = w
    | .ok (full, rest) =>
        emits Receiver.step (.receiveData buff) n line
            = (if checkPacket full then [(n + (line.length - rest.length), payload full)] else [])
              ++ emits Receiver.step .start (n + (line.length - rest.length)) rest ∧
          after Receiver.step (.receiveData buff) line = after Receiver.step .start rest := by
  induction line generalizing buff n with
  | nil => exact ⟨rfl, rfl⟩
  | cons b line ih =>
      by_cases h : (buff.val ++ [b]).length < BUFF_LEN
      · have hstep : Receiver.step (.receiveData buff) b
            = (.receiveData ⟨buff.val ++ [b], h⟩, none) := by rw [Receiver.step, dif_pos h]
        rw [fillBuff, dif_pos h, emits_cons, after_cons, hstep]
        have hnext := ih ⟨buff.val ++ [b], h⟩ (n + 1)
        cases hf : fillBuff ⟨buff.val ++ [b], h⟩ line with
        | error w =>
            rw [hf] at hnext
            exact ⟨hnext.1, hnext.2⟩
        | ok r =>
            obtain ⟨full, rest⟩ := r
            rw [hf] at hnext
            refine ⟨?_, hnext.2⟩
            have hlen : rest.length < line.length := fillBuff_length_lt hf
            rw [List.length_cons,
              show n + (line.length + 1 - rest.length) = n + 1 + (line.length - rest.length) by omega]
            exact hnext.1
      · have hstep : Receiver.step (.receiveData buff) b
            = (.start, if checkPacket (buff.val ++ [b]) then some (payload (buff.val ++ [b]))
                else none) := by rw [Receiver.step, dif_neg h]
        rw [fillBuff, dif_neg h, emits_cons, after_cons, hstep]
        refine ⟨?_, rfl⟩
        rw [List.length_cons, show n + (line.length + 1 - line.length) = n + 1 by omega]
        split <;> rfl

/-- **The sketch and the byte-driven receiver agree**: `loop()` hands on the same payloads at the
same bytes, and waits in the same place when the line runs dry. -/
theorem runLoop_eq (n : ℕ) (line : List BYTE) :
    runLoop n line = (emits Receiver.step .start n line, after Receiver.step .start line) := by
  induction hlen : line.length using Nat.strong_induction_on generalizing n line with
  | _ len ih =>
  subst hlen
  have hsync := emits_sync 0 n line
  rw [runLoop]
  split
  · next w hw =>
      rw [receiveData] at hw
      cases hs : sync 0 line with
      | error w' =>
          rw [hs] at hsync hw
          obtain rfl : w' = w := by simpa [bind, Except.bind] using hw
          exact Prod.ext hsync.1.symm hsync.2.symm
      | ok rest =>
          rw [hs] at hsync hw
          have hfill := emits_fillBuff ⟨[], by decide⟩ (n + (line.length - rest.length)) rest
          rw [show fillBuff ⟨[], by decide⟩ rest = .error w from hw] at hfill
          exact Prod.ext (hsync.1.trans hfill.1).symm (hsync.2.trans hfill.2).symm
  · next full rest' hr =>
      have hlt : rest'.length < line.length := receiveData_length_lt hr
      obtain ⟨rest, hs, hf⟩ := receiveData_eq_ok.mp hr
      have hlt₁ := sync_length_lt hs
      have hlt₂ : rest'.length < rest.length := fillBuff_length_lt hf
      have hfill := emits_fillBuff ⟨[], by decide⟩ (n + (line.length - rest.length)) rest
      rw [hs] at hsync
      rw [hf] at hfill
      have hpos : n + (line.length - rest.length) + (rest.length - rest'.length)
          = n + (line.length - rest'.length) := by omega
      have hnext := ih rest'.length hlt (n + (line.length - rest'.length)) rest' rfl
      have hemits : emits Receiver.step .start n line = _ := hsync.1.trans hfill.1
      have hafter : after Receiver.step .start line = _ := hsync.2.trans hfill.2
      rw [hemits, hafter, hpos]
      dsimp only
      rw [hnext]
      split <;> rfl

/-! ## Dispatch -/

/-- The handlers `handleData()` can call, with the argument it passes. -/
inductive Handler
  | reset | available_pids | read_all
  | read_pid (pid : BYTE)
  | read_car | read_dtc | delete_dtc
  deriving DecidableEq, Repr

/-- `handleData()`: the handler called for `data[]`, none for a command byte without a case. -/
def handleData (data : Payload) : Option Handler :=
  match data.cmd with
  | 0x01 => some .reset
  | 0x02 => some .available_pids
  | 0x03 => some .read_all
  | 0x04 => some (.read_pid data.param)
  | 0x05 => some .read_car
  | 0x06 => some .read_dtc
  | 0x07 => some .delete_dtc
  | _ => none

/-- The name of a handler in the sketch. -/
def Handler.name : Handler → String
  | .reset => "reset"
  | .available_pids => "available_pids"
  | .read_all => "read_all"
  | .read_pid _ => "read_pid"
  | .read_car => "read_car"
  | .read_dtc => "read_dtc"
  | .delete_dtc => "delete_dtc"

/-- The argument of a handler that has one. -/
def Handler.argument : Handler → Option BYTE
  | .read_pid pid => some pid
  | _ => none

end LibreXC.Arduino
