import Mathlib.Data.List.Basic
import Mathlib.Data.UInt
import Mathlib.Tactic.Common
import Mathlib.Tactic.IntervalCases

/-! # Byte strings and ASCII

Byte strings, their ASCII literals (`str`), the predicate `IsAscii`, and the usual renderings of a
number, whose bytes are ASCII characters. -/

namespace Ascii

/-- A byte string. -/
abbrev Str := List UInt8

/-- The byte string of ASCII characters. -/
def ascii (cs : List Char) : Str := cs.map fun c => UInt8.ofNat c.toNat

/-- A byte-string literal of the source. -/
def str (s : String) : Str := ascii s.toList

/-- Every byte is an ASCII character: what ASCII decoding accepts. -/
def IsAscii (s : Str) : Prop := ∀ b ∈ s, b < 0x80

instance (s : Str) : Decidable (IsAscii s) := List.decidableBAll _ s

@[simp] theorem isAscii_nil : IsAscii [] := by simp [IsAscii]

@[simp] theorem isAscii_cons {b : UInt8} {s : Str} : IsAscii (b :: s) ↔ b < 0x80 ∧ IsAscii s := by
  simp [IsAscii]

@[simp] theorem isAscii_append {s t : Str} : IsAscii (s ++ t) ↔ IsAscii s ∧ IsAscii t := by
  simp [IsAscii, or_imp, forall_and]

/-- ASCII characters make an ASCII byte string. -/
theorem isAscii_ascii {cs : List Char} (h : ∀ c ∈ cs, c.toNat < 0x80) : IsAscii (ascii cs) := by
  intro b hb
  obtain ⟨c, hc, rfl⟩ := List.mem_map.mp hb
  rw [UInt8.lt_iff_toNat_lt, UInt8.toNat_ofNat']
  exact lt_of_le_of_lt (Nat.mod_le _ _) (h c hc)

/-- A digit of any base is an ASCII character. -/
theorem toNat_digitChar_lt (n : ℕ) : n.digitChar.toNat < 0x80 := by
  by_cases h : n < 16
  · interval_cases n <;> decide
  · unfold Nat.digitChar
    iterate 16 rw [if_neg (by omega)]
    decide

/-- Digits in a base above one are ASCII characters. -/
theorem toDigits_lt {b : ℕ} (hb : 1 < b) (n : ℕ) : ∀ c ∈ Nat.toDigits b n, c.toNat < 0x80 := by
  induction n using Nat.strong_induction_on with
  | _ n ih =>
  rw [Nat.toDigits_eq_if hb]
  intro c hc
  split at hc
  · rw [List.mem_singleton.mp hc]
    exact toNat_digitChar_lt n
  · next h =>
      rcases List.mem_append.mp hc with hc | hc
      · exact ih (n / b) (Nat.div_lt_self (by omega) hb) c hc
      · rw [List.mem_singleton.mp hc]
        exact toNat_digitChar_lt _

/-! ## Numbers -/

/-- A natural number in decimal. -/
def decimalNat (n : ℕ) : Str := ascii (Nat.toDigits 10 n)

/-- An integer in decimal. -/
def decimal : ℤ → Str
  | .ofNat n => decimalNat n
  | .negSucc n => 0x2D :: decimalNat (n + 1)

@[simp] theorem isAscii_decimalNat (n : ℕ) : IsAscii (decimalNat n) :=
  isAscii_ascii (toDigits_lt (by decide) n)

@[simp] theorem isAscii_decimal (n : ℤ) : IsAscii (decimal n) := by
  cases n with
  | ofNat n => exact isAscii_decimalNat n
  | negSucc n => exact isAscii_cons.mpr ⟨by decide, isAscii_decimalNat _⟩

/-- A natural number in hexadecimal, with zeros in front up to the width. -/
def hex (width n : ℕ) : Str :=
  let digits := ascii (Nat.toDigits 16 n)
  List.replicate (width - digits.length) 0x30 ++ digits

@[simp] theorem isAscii_hex (width n : ℕ) : IsAscii (hex width n) := by
  refine isAscii_append.mpr ⟨?_, isAscii_ascii (toDigits_lt (by decide) n)⟩
  intro b hb
  rw [List.eq_of_mem_replicate hb]
  decide

end Ascii
