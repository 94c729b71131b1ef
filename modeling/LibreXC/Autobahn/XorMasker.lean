import LibreXC.Lib.Ascii
import Mathlib.Data.List.Basic
import Mathlib.Data.UInt

/-! # Masking frame payloads

A client masks the payload of a frame with four bytes, repeated. The library has two maskers that do
so byte by byte and with a rotated copy of the mask, and one for payloads that are not masked; which
one works on a frame depends on its length.

* **`process_eq`** — all of them compute the plain masking `Mask.apply` from their pointer on.
* **`unmask_mask`** — what one side masks in some pieces the other side unmasks in any others. -/

namespace LibreXC.Autobahn

open Ascii

/-- **A mask**, of four bytes as the constructors of the maskers assert. -/
structure Mask where
  octets : Str
  length_octets : octets.length = 4
  deriving DecidableEq

/-- The byte of the mask for the position `k`: `mask[k & 3]`. -/
def Mask.octet (mask : Mask) (k : ℕ) : UInt8 := mask.octets.getD (k &&& 3) 0

/-- The copy of the mask that starts at its byte `p`, one of the arrays of `XorMaskerShifted1`. -/
def Mask.shifted (mask : Mask) (p : ℕ) : Str := (List.range 4).map fun j => mask.octet (j + p)

/-- **A masker**: `XorMaskerNull`, `XorMaskerSimple` or `XorMaskerShifted1`. -/
inductive XorMasker
  | null (ptr : ℕ)
  | simple (ptr : ℕ) (msk : Mask)
  | shifted1 (ptr : ℕ) (mskarray : List Str)
  deriving DecidableEq

namespace XorMasker

/-- The constructor of `XorMaskerShifted1`. -/
def newShifted1 (mask : Mask) : XorMasker := .shifted1 0 ((List.range 4).map mask.shifted)

/-- The masker for a payload of the given length: the mask is rotated where that pays. -/
def createXorMasker (mask : Mask) (length : Option ℕ) : XorMasker :=
  match length with
  | none => .simple 0 mask
  | some length => if length < 128 then .simple 0 mask else newShifted1 mask

/-- How many bytes have been processed. -/
def pointer : XorMasker → ℕ
  | .null ptr => ptr
  | .simple ptr _ => ptr
  | .shifted1 ptr _ => ptr

/-- The loop of `XorMaskerSimple.process`. -/
def processLoop (msk : Mask) (ptr : ℕ) : Str → Str × ℕ
  | [] => ([], ptr)
  | b :: data =>
      let rest := processLoop msk (ptr + 1) data
      ((b ^^^ msk.octet ptr) :: rest.1, rest.2)

/-- **Process a piece of the payload.** -/
def process : XorMasker → Str → Str × XorMasker
  | .null ptr, data => (data, .null (ptr + data.length))
  | .simple ptr msk, data =>
      let processed := processLoop msk ptr data
      (processed.1, .simple processed.2 msk)
  | .shifted1 ptr mskarray, data =>
      let msk := mskarray.getD (ptr &&& 3) []
      (data.mapIdx fun k b => b ^^^ msk.getD (k &&& 3) 0, .shifted1 (ptr + data.length) mskarray)

end XorMasker

/-! ## Plain masking -/

/-- **The masking of a piece that starts at the position `p` of the payload.** -/
def Mask.apply (mask : Mask) (p : ℕ) (data : Str) : Str :=
  data.mapIdx fun k b => b ^^^ mask.octet (p + k)

variable (mask : Mask)

/-- The mask repeats after four bytes. -/
theorem Mask.octet_and (k : ℕ) : mask.octet (k &&& 3) = mask.octet k := by
  rw [Mask.octet, Mask.octet, Nat.and_assoc, Nat.and_self]

@[simp] theorem Mask.apply_nil (p : ℕ) : mask.apply p [] = [] := rfl

theorem Mask.apply_cons (p : ℕ) (b : UInt8) (data : Str) :
    mask.apply p (b :: data) = (b ^^^ mask.octet p) :: mask.apply (p + 1) data := by
  rw [Mask.apply, List.mapIdx_cons, Nat.add_zero, Mask.apply]
  simp only [Nat.add_assoc, Nat.add_comm 1]

@[simp] theorem Mask.length_apply (p : ℕ) (data : Str) : (mask.apply p data).length = data.length :=
  List.length_mapIdx

/-- Masking piece by piece. -/
theorem Mask.apply_append (p : ℕ) (s t : Str) :
    mask.apply p (s ++ t) = mask.apply p s ++ mask.apply (p + s.length) t := by
  induction s generalizing p with
  | nil => rfl
  | cons b s ih =>
      rw [List.cons_append, mask.apply_cons, mask.apply_cons, ih, List.length_cons, List.cons_append]
      congr 3
      omega

/-- **Masking twice restores the payload.** -/
@[simp] theorem Mask.apply_apply (p : ℕ) (data : Str) : mask.apply p (mask.apply p data) = data := by
  induction data generalizing p with
  | nil => rfl
  | cons b data ih =>
      rw [mask.apply_cons, mask.apply_cons, ih, UInt8.xor_assoc, UInt8.xor_self, UInt8.xor_zero]

/-! ## The maskers -/

namespace XorMasker

/-- The masker masks with `mask`, or with nothing. -/
def Uses (masker : XorMasker) (mask : Option Mask) : Prop :=
  match masker, mask with
  | .null _, none => True
  | .simple _ msk, some mask => msk = mask
  | .shifted1 _ mskarray, some mask => mskarray = (List.range 4).map mask.shifted
  | _, _ => False

theorem uses_createXorMasker (length : Option ℕ) : (createXorMasker mask length).Uses (some mask) := by
  unfold createXorMasker
  split
  · rfl
  · split <;> rfl

@[simp] theorem pointer_createXorMasker (length : Option ℕ) : (createXorMasker mask length).pointer = 0 := by
  unfold createXorMasker
  split
  · rfl
  · split <;> rfl

/-- The loop masks from its pointer on. -/
theorem processLoop_eq (ptr : ℕ) (data : Str) :
    processLoop mask ptr data = (mask.apply ptr data, ptr + data.length) := by
  induction data generalizing ptr with
  | nil => rfl
  | cons b data ih =>
      rw [processLoop, ih, mask.apply_cons, List.length_cons, Nat.add_right_comm, Nat.add_assoc]

/-- The copies of the mask hold its bytes from their start on. -/
theorem octet_shifted (ptr k : ℕ) :
    (((List.range 4).map mask.shifted).getD (ptr &&& 3) []).getD (k &&& 3) 0 = mask.octet (ptr + k) := by
  have hlt : ∀ n : ℕ, n &&& 3 < 4 := fun n => Nat.and_lt_two_pow n (by decide : 3 < 2 ^ 2)
  have hmod : ∀ n : ℕ, n &&& 3 = n % 4 := fun n => Nat.and_two_pow_sub_one_eq_mod n 2
  have hget : ∀ (α : Type) (f : ℕ → α) (d : α) (n : ℕ), ((List.range 4).map f).getD (n &&& 3) d = f (n &&& 3) := by
    intro α f d n
    rw [List.getD_eq_getElem?_getD, List.getElem?_map, List.getElem?_range (hlt n)]
    rfl
  rw [hget, Mask.shifted, hget, ← mask.octet_and, ← mask.octet_and (ptr + k)]
  simp only [hmod]
  congr 1
  omega

/-- What a masker that uses `mask` makes of a piece that starts at the position `p`. -/
def applyOf (mask : Option Mask) (p : ℕ) (data : Str) : Str :=
  match mask with
  | none => data
  | some mask => mask.apply p data

/-- **Every masker computes the plain masking**, and moves its pointer on. -/
theorem process_eq {masker : XorMasker} {mask : Option Mask} (h : masker.Uses mask) (data : Str) :
    (masker.process data).1 = applyOf mask masker.pointer data ∧
      (masker.process data).2.Uses mask ∧
      (masker.process data).2.pointer = masker.pointer + data.length := by
  cases masker with
  | null ptr =>
      cases mask with
      | none => exact ⟨rfl, trivial, rfl⟩
      | some mask => exact h.elim
  | simple ptr msk =>
      cases mask with
      | none => exact h.elim
      | some mask =>
          obtain rfl : msk = mask := h
          rw [process, processLoop_eq]
          exact ⟨rfl, rfl, rfl⟩
  | shifted1 ptr mskarray =>
      cases mask with
      | none => exact h.elim
      | some mask =>
          obtain rfl : mskarray = (List.range 4).map mask.shifted := h
          refine ⟨?_, rfl, rfl⟩
          simp only [process, octet_shifted]
          rfl

/-- No byte is lost or added. -/
theorem length_process {masker : XorMasker} {mask : Option Mask} (h : masker.Uses mask) (data : Str) :
    (masker.process data).1.length = data.length := by
  rw [(process_eq h data).1]
  cases mask with
  | none => rfl
  | some mask => exact mask.length_apply _ data

@[simp] theorem process_nil (masker : XorMasker) : masker.process [] = ([], masker) := by
  cases masker <;> rfl

/-- A piece after another is processed like both at once. -/
theorem process_append {masker : XorMasker} {mask : Option Mask} (h : masker.Uses mask) (a b : Str) :
    masker.process (a ++ b)
      = ((masker.process a).1 ++ ((masker.process a).2.process b).1, ((masker.process a).2.process b).2) := by
  obtain ⟨ha, huses, hpointer⟩ := process_eq h a
  have hab := (process_eq h (a ++ b)).1
  have hb := (process_eq huses b).1
  have happly : applyOf mask masker.pointer (a ++ b)
      = applyOf mask masker.pointer a ++ applyOf mask (masker.pointer + a.length) b := by
    cases mask with
    | none => rfl
    | some mask => exact mask.apply_append _ a b
  have hnext : (masker.process (a ++ b)).2 = ((masker.process a).2.process b).2 := by
    cases masker with
    | null ptr => simp [process, Nat.add_assoc]
    | simple ptr msk => simp [process, processLoop_eq, Nat.add_assoc]
    | shifted1 ptr mskarray => simp [process, Nat.add_assoc]
  exact Prod.ext (by rw [hab, happly, ha, hb, hpointer]) hnext

/-- The payload and the masker after several pieces. -/
def processAll (masker : XorMasker) : List Str → Str × XorMasker
  | [] => ([], masker)
  | data :: chunks =>
      let processed := masker.process data
      let rest := processAll processed.2 chunks
      (processed.1 ++ rest.1, rest.2)

/-- **The pieces do not matter.** -/
theorem processAll_eq {masker : XorMasker} {mask : Option Mask} (h : masker.Uses mask) (chunks : List Str) :
    (masker.processAll chunks).1 = applyOf mask masker.pointer chunks.flatten := by
  induction chunks generalizing masker with
  | nil => cases mask <;> rfl
  | cons data chunks ih =>
      obtain ⟨hpayload, huses, hpointer⟩ := process_eq h data
      rw [processAll, ih huses, hpayload, hpointer, List.flatten_cons]
      cases mask with
      | none => rfl
      | some mask => exact (mask.apply_append _ _ _).symm

/-- **Unmasking restores what was masked**, whichever masker each side has chosen and however each has
cut the payload. -/
theorem unmask_mask (mask : Mask) (n m : Option ℕ) (sent received : List Str)
    (h : received.flatten = ((createXorMasker mask n).processAll sent).1) :
    ((createXorMasker mask m).processAll received).1 = sent.flatten := by
  rw [processAll_eq (uses_createXorMasker mask m), h, processAll_eq (uses_createXorMasker mask n),
    pointer_createXorMasker, pointer_createXorMasker]
  exact mask.apply_apply 0 _

/-- Three bytes, masked at once with the rotated mask and unmasked in two pieces with the plain one. -/
theorem unmask_mask_abc :
    ((createXorMasker ⟨[1, 2, 3, 4], rfl⟩ (some 3)).processAll [[0x60], [0x60, 0x60]]).1
      = [[0x61, 0x62, 0x63]].flatten :=
  unmask_mask ⟨[1, 2, 3, 4], rfl⟩ (some 128) (some 3) [[0x61, 0x62, 0x63]] [[0x60], [0x60, 0x60]]
    (by decide +kernel)

end XorMasker

end LibreXC.Autobahn
