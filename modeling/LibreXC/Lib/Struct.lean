import LibreXC.Lib.Ascii
import Mathlib.Data.UInt
import Mathlib.Tactic.Common

/-! # Numbers in network byte order

Unsigned numbers of a fixed width, most significant byte first, as `struct.pack` and `struct.unpack`
write and read them with the formats `!H`, `!I` and `!Q`. -/

namespace Struct

open Ascii

/-- **`struct.pack`** of an unsigned number into `w` bytes. -/
def pack : ℕ → ℕ → Str
  | 0, _ => []
  | w + 1, n => pack w (n / 256) ++ [UInt8.ofNat n]

/-- **`struct.unpack`** of all bytes. -/
def unpack (s : Str) : ℕ := s.foldl (fun n b => 256 * n + b.toNat) 0

end Struct
