import LibreXC.Lib.Ascii
import Mathlib.Data.List.Basic
import Mathlib.Data.List.DropRight
import Mathlib.Data.Int.Bitwise
import Mathlib.Data.UInt
import Mathlib.Tactic.Common

/-! # Python 2 byte strings, text and exceptions

The fragment of the Python 2 language a program of the Unix daemon kind relies on:

* **`Unicode`** (`unicode`, a sequence of code points, lone surrogates included) beside the byte
  strings `Str` of the type `str`, with the implicit ASCII coercions between them. Both directions
  raise on a character outside ASCII, which is where most surprises of Python 2 come from.
* **`Exc`** with **`Exc.str`**, the text `str(e)` of a raised exception.
* **`decodeUtf8`**, **`encode`** (`'...'.encode('utf-8')` on a byte string), **`splitSpace`**,
  **`index`** (indexing with negative indices) and **`int`** on text. -/

namespace Python2

open Ascii

/-- A code point of a wide build; surrogates are code points like any other. -/
abbrev CodePoint := Fin 0x110000

/-- A text string (`unicode`). -/
abbrev Unicode := List CodePoint

/-- A text literal of the source. -/
def unicode (s : String) : Unicode := s.toList.map fun c => Fin.ofNat 0x110000 c.toNat

/-! ## Exceptions -/

/-- The codecs that appear in codec errors. -/
inductive Codec
  | ascii | utf8
  deriving DecidableEq

/-- The name a codec error carries. -/
def Codec.name : Codec → Str
  | .ascii => str "ascii"
  | .utf8 => str "utf8"

/-- The reasons a codec gives. -/
inductive CodecReason
  | ordinal | startByte | continuationByte | endOfData
  deriving DecidableEq

/-- The text of a codec's reason. -/
def CodecReason.text : CodecReason → Str
  | .ordinal => str "ordinal not in range(128)"
  | .startByte => str "invalid start byte"
  | .continuationByte => str "invalid continuation byte"
  | .endOfData => str "unexpected end of data"

/-- A raised exception. -/
inductive Exc
  /-- `Exception(msg)`. -/
  | exception (msg : Str)
  | indexError (msg : Str)
  | valueError (msg : Str)
  | typeError (msg : Str)
  | attributeError (msg : Str)
  /-- `IOError` and its subclasses. -/
  | ioError (msg : Str)
  /-- `object[start:stop]` is not valid in `codec`. -/
  | unicodeDecodeError (codec : Codec) (object : Str) (start stop : ℕ) (reason : CodecReason)
  /-- `object[start:stop]` has no encoding in `codec`. -/
  | unicodeEncodeError (codec : Codec) (object : Unicode) (start stop : ℕ) (reason : CodecReason)
  deriving DecidableEq

/-- How an encode error shows a single character: `u'\xe9'`, `u'\u20ac'`, `u'\U0001f600'`. -/
def escapeChar (c : CodePoint) : Str :=
  if c.val ≤ 0xFF then str "\\x" ++ hex 2 c.val
  else if c.val ≤ 0xFFFF then str "\\u" ++ hex 4 c.val
  else str "\\U" ++ hex 8 c.val

/-- The place and reason that end the text of a codec error. -/
def codecTail (start stop : ℕ) (reason : CodecReason) : Str :=
  if stop = start + 1 then str " in position " ++ decimalNat start ++ str ": " ++ reason.text
  else str "s in position " ++ decimalNat start ++ str "-" ++ decimalNat (stop - 1) ++ str ": "
    ++ reason.text

/-- **`str(e)`**, the text a handler sees. -/
def Exc.str : Exc → Str
  | .exception msg | .indexError msg | .valueError msg | .typeError msg | .attributeError msg
  | .ioError msg => msg
  | .unicodeDecodeError codec object start stop reason =>
      Ascii.str "'" ++ codec.name ++ Ascii.str "' codec can't decode byte"
        ++ (if stop = start + 1 then Ascii.str " 0x" ++ hex 2 (object.getD start 0).toNat else [])
        ++ codecTail start stop reason
  | .unicodeEncodeError codec object start stop reason =>
      Ascii.str "'" ++ codec.name ++ Ascii.str "' codec can't encode character"
        ++ (if stop = start + 1 then
            Ascii.str " u'" ++ escapeChar (object.getD start 0) ++ Ascii.str "'" else [])
        ++ codecTail start stop reason

@[simp] theorem isAscii_codecName (codec : Codec) : IsAscii codec.name := by
  cases codec <;> decide

@[simp] theorem isAscii_reasonText (reason : CodecReason) : IsAscii reason.text := by
  cases reason <;> decide

@[simp] theorem isAscii_escapeChar (c : CodePoint) : IsAscii (escapeChar c) := by
  unfold escapeChar
  have hx : IsAscii (str "\\x") ∧ IsAscii (str "\\u") ∧ IsAscii (str "\\U") := by decide
  split
  · exact isAscii_append.mpr ⟨hx.1, isAscii_hex _ _⟩
  · split
    · exact isAscii_append.mpr ⟨hx.2.1, isAscii_hex _ _⟩
    · exact isAscii_append.mpr ⟨hx.2.2, isAscii_hex _ _⟩

@[simp] theorem isAscii_codecTail (start stop : ℕ) (reason : CodecReason) :
    IsAscii (codecTail start stop reason) := by
  unfold codecTail
  have hlit : IsAscii (str " in position ") ∧ IsAscii (str "s in position ") ∧ IsAscii (str "-")
      ∧ IsAscii (str ": ") := by decide
  split <;> simp [hlit]

/-- **The text of a codec error is ASCII**, whatever it could not convert. -/
theorem isAscii_str_unicodeDecodeError (codec : Codec) (object : Str) (start stop : ℕ)
    (reason : CodecReason) :
    IsAscii (Exc.unicodeDecodeError codec object start stop reason).str := by
  have hlit : IsAscii (str "'") ∧ IsAscii (str "' codec can't decode byte") ∧ IsAscii (str " 0x") := by
    decide
  simp only [Exc.str]
  split <;> simp [hlit]

/-- The text of an encode error is ASCII: the character is shown escaped. -/
theorem isAscii_str_unicodeEncodeError (codec : Codec) (object : Unicode) (start stop : ℕ)
    (reason : CodecReason) :
    IsAscii (Exc.unicodeEncodeError codec object start stop reason).str := by
  have hlit : IsAscii (str "'") ∧ IsAscii (str "' codec can't encode character")
      ∧ IsAscii (str " u'") := by decide
  simp only [Exc.str]
  split <;> simp [hlit]

/-- Bind reading of a computation that returns. -/
theorem bind_eq_ok {ε : Type*} {α β : Type} {x : Except ε α} {f : α → Except ε β} {b : β} :
    (x >>= f) = .ok b ↔ ∃ a, x = .ok a ∧ f a = .ok b := by
  cases x with
  | error e => simp [bind, Except.bind]
  | ok a => simp [bind, Except.bind]

/-- Bind reading of a computation that raises. -/
theorem bind_eq_error {ε : Type*} {α β : Type} {x : Except ε α} {f : α → Except ε β} {e : ε} :
    (x >>= f) = .error e ↔ x = .error e ∨ ∃ a, x = .ok a ∧ f a = .error e := by
  cases x with
  | error e' => simp [bind, Except.bind]
  | ok a => simp [bind, Except.bind]

/-! ## Codecs -/

/-- The ASCII decoding of a byte string, as an implicit coercion to text does it. -/
def decodeAscii (s : Str) : Except Exc Unicode :=
  if IsAscii s then .ok (s.map fun b => Fin.ofNat 0x110000 b.toNat)
  else
    let start := (s.takeWhile (· < 0x80)).length
    .error (.unicodeDecodeError .ascii s start (start + 1) .ordinal)

/-- The ASCII encoding of a text, as `str.format` on a byte string does it for a text argument. -/
def encodeAscii (s : Unicode) : Except Exc Str :=
  if ∀ c ∈ s, c.val < 0x80 then .ok (s.map fun c => UInt8.ofNat c.val)
  else
    let start := (s.takeWhile (·.val < 0x80)).length
    let stop := start + ((s.drop start).takeWhile (¬ ·.val < 0x80)).length
    .error (.unicodeEncodeError .ascii s start stop .ordinal)

/-- **`s.encode('utf-8')` on a byte string**: the bytes are first decoded as ASCII; the UTF-8 form of
the resulting ASCII text is one byte a character. -/
def encode (s : Str) : Except Exc Str :=
  decodeAscii s >>= fun text => .ok (text.map fun c => UInt8.ofNat c.val)

/-- **An ASCII byte string survives the round trip** of `encode`. -/
theorem encode_of_isAscii {s : Str} (h : IsAscii s) : encode s = .ok s := by
  have hid : (s.map fun b => Fin.ofNat 0x110000 b.toNat).map (fun c => UInt8.ofNat c.val) = s := by
    rw [List.map_map]
    refine List.map_id'' (fun b => ?_) s
    have hb : b.toNat % 0x110000 = b.toNat := Nat.mod_eq_of_lt (by have := b.toNat_lt; omega)
    simp [Fin.ofNat, hb]
  rw [encode, decodeAscii, if_pos h]
  exact congrArg Except.ok hid

/-- **Any other byte string makes `encode` raise.** -/
theorem encode_of_not_isAscii {s : Str} (h : ¬ IsAscii s) : ∃ e, encode s = .error e := by
  rw [encode, decodeAscii, if_neg h]
  exact ⟨_, rfl⟩

/-- A text that has an ASCII encoding encodes to ASCII bytes. -/
theorem isAscii_of_encodeAscii {s : Unicode} {t : Str} (h : encodeAscii s = .ok t) : IsAscii t := by
  unfold encodeAscii at h
  split at h
  · next hs =>
      obtain rfl := Except.ok.inj h
      intro b hb
      obtain ⟨c, hc, rfl⟩ := List.mem_map.mp hb
      rw [UInt8.lt_iff_toNat_lt, UInt8.toNat_ofNat']
      exact lt_of_le_of_lt (Nat.mod_le _ _) (hs c hc)
  · cases h

/-- **An ASCII literal encodes to its bytes.** -/
theorem encodeAscii_unicode {s : String} (h : ∀ c ∈ s.toList, c.toNat < 0x80) :
    encodeAscii (unicode s) = .ok (Ascii.str s) := by
  have hval : ∀ c ∈ s.toList, (Fin.ofNat 0x110000 c.toNat).val = c.toNat := by
    intro c hc
    have := h c hc
    exact Nat.mod_eq_of_lt (by omega)
  have hascii : ∀ c ∈ unicode s, c.val < 0x80 := by
    intro c hc
    obtain ⟨d, hd, rfl⟩ := List.mem_map.mp hc
    rw [hval d hd]
    exact h d hd
  rw [encodeAscii, if_pos hascii, unicode, List.map_map, Ascii.str, ascii]
  refine congrArg Except.ok (List.map_congr_left fun c hc => ?_)
  rw [Function.comp_apply, hval c hc]

/-- **What `encodeAscii` raises is an encode error.** -/
theorem encodeAscii_eq_error {s : Unicode} {e : Exc} (h : encodeAscii s = .error e) :
    ∃ start stop, e = .unicodeEncodeError .ascii s start stop .ordinal := by
  unfold encodeAscii at h
  split at h
  · cases h
  · exact ⟨_, _, (Except.error.inj h).symm⟩

/-- The text of such an error is ASCII. -/
theorem isAscii_str_of_encodeAscii {s : Unicode} {e : Exc} (h : encodeAscii s = .error e) :
    IsAscii e.str := by
  obtain ⟨start, stop, rfl⟩ := encodeAscii_eq_error h
  exact isAscii_str_unicodeEncodeError _ _ _ _ _

/-! ### UTF-8 -/

/-- A UTF-8 continuation byte. -/
def isContinuation (b : UInt8) : Bool := b &&& 0xC0 == 0x80

/-- The length of the sequence a UTF-8 lead byte announces, zero for a byte that starts none. -/
def utf8Length (b : UInt8) : ℕ :=
  if b < 0x80 then 1 else if b < 0xC2 then 0 else if b < 0xE0 then 2 else if b < 0xF0 then 3
  else if b < 0xF5 then 4 else 0

/-- The code point with the given payload bits: the lead byte's, then six from each continuation. -/
def utf8Point (lead : UInt8) (continuation : List UInt8) : CodePoint :=
  Fin.ofNat 0x110000 (continuation.foldl (fun n b => n * 64 + (b &&& 0x3F).toNat) lead.toNat)

/-- Decode the rest of `whole`, of which `pos` bytes are done. Overlong forms and values above
`0x10FFFF` count as a bad continuation byte; surrogates pass, as they do in Python 2. -/
def decodeUtf8From (whole : Str) : ℕ → Str → Except Exc Unicode
  | _, [] => .ok []
  | pos, b :: s =>
      match utf8Length b with
      | 1 => (utf8Point b [] :: ·) <$> decodeUtf8From whole (pos + 1) s
      | 2 =>
          match s with
          | c :: s =>
              if isContinuation c then
                (utf8Point (b &&& 0x1F) [c] :: ·) <$> decodeUtf8From whole (pos + 2) s
              else .error (.unicodeDecodeError .utf8 whole pos (pos + 1) .continuationByte)
          | [] => .error (.unicodeDecodeError .utf8 whole pos (pos + 1) .endOfData)
      | 3 =>
          match s with
          | c :: d :: s =>
              if isContinuation c && isContinuation d && !(b == 0xE0 && c < 0xA0) then
                (utf8Point (b &&& 0x0F) [c, d] :: ·) <$> decodeUtf8From whole (pos + 3) s
              else
                .error (.unicodeDecodeError .utf8 whole pos
                  (pos + 1 + (([c].takeWhile isContinuation).length)) .continuationByte)
          | s =>
              .error (.unicodeDecodeError .utf8 whole pos
                (pos + 1 + (s.takeWhile isContinuation).length) .endOfData)
      | 4 =>
          match s with
          | c :: d :: e :: s =>
              if isContinuation c && isContinuation d && isContinuation e
                  && !(b == 0xF0 && c < 0x90) && !(b == 0xF4 && 0x8F < c) then
                (utf8Point (b &&& 0x07) [c, d, e] :: ·) <$> decodeUtf8From whole (pos + 4) s
              else
                .error (.unicodeDecodeError .utf8 whole pos
                  (pos + 1 + (([c, d].takeWhile isContinuation).length)) .continuationByte)
          | s =>
              .error (.unicodeDecodeError .utf8 whole pos
                (pos + 1 + (s.takeWhile isContinuation).length) .endOfData)
      | _ => .error (.unicodeDecodeError .utf8 whole pos (pos + 1) .startByte)

/-- **`s.decode('utf8')`**. -/
def decodeUtf8 (s : Str) : Except Exc Unicode := decodeUtf8From s 0 s

/-- **What `decodeUtf8` raises is a decode error**, at every step of the way. -/
theorem decodeUtf8From_eq_error {whole s : Str} {pos : ℕ} {e : Exc}
    (h : decodeUtf8From whole pos s = .error e) :
    ∃ start stop reason, e = .unicodeDecodeError .utf8 whole start stop reason := by
  -- the recursive calls sit under a map, which keeps the error
  have hmap : ∀ (c : CodePoint) (x : Except Exc Unicode), (c :: ·) <$> x = .error e → x = .error e := by
    intro c x hx
    cases x with
    | error e' => exact hx
    | ok u => cases hx
  fun_induction decodeUtf8From whole pos s with
  | case1 => cases h
  | case2 _ _ _ _ ih | case3 _ _ _ _ _ _ ih | case6 _ _ _ _ _ _ _ ih
  | case9 _ _ _ _ _ _ _ _ ih => exact ih (hmap _ _ h)
  | _ => exact ⟨_, _, _, (Except.error.inj h).symm⟩

/-- The text of a UTF-8 decode error is ASCII. -/
theorem isAscii_str_of_decodeUtf8 {s : Str} {e : Exc} (h : decodeUtf8 s = .error e) :
    IsAscii e.str := by
  obtain ⟨start, stop, reason, rfl⟩ := decodeUtf8From_eq_error h
  exact isAscii_str_unicodeDecodeError _ _ _ _ _

/-! ## Words, indexing and integers -/

/-- **`s.split(" ")`** on text: every single space separates, so words may be empty. -/
def splitSpace (s : Unicode) : List Unicode := s.splitOn 0x20

/-- There is always a first word. -/
theorem splitSpace_ne_nil (s : Unicode) : splitSpace s ≠ [] := List.splitOn_ne_nil _ _

/-- **`xs[i]`**: a negative index counts from the end. -/
def index {α : Type} (xs : List α) (i : ℤ) : Except Exc α :=
  let j := if i < 0 then i + xs.length else i
  if j < 0 then .error (.indexError (str "list index out of range"))
  else match xs[j.toNat]? with
    | some x => .ok x
    | none => .error (.indexError (str "list index out of range"))

/-- What `xs[i]` returns is a member of `xs`. -/
theorem mem_of_index {α : Type} {xs : List α} {i : ℤ} {x : α} (h : index xs i = .ok x) : x ∈ xs := by
  unfold index at h
  generalize (if i < 0 then i + (xs.length : ℤ) else i) = j at h
  by_cases hj : j < 0
  · rw [if_pos hj] at h
    cases h
  · rw [if_neg hj] at h
    cases hx : xs[j.toNat]? with
    | none =>
        rw [hx] at h
        cases h
    | some y =>
        rw [hx] at h
        obtain rfl := Except.ok.inj h
        exact List.mem_of_getElem? hx

/-- What `xs[i]` raises is an index error. -/
theorem index_eq_error {α : Type} {xs : List α} {i : ℤ} {e : Exc} (h : index xs i = .error e) :
    e = .indexError (str "list index out of range") := by
  unfold index at h
  generalize (if i < 0 then i + (xs.length : ℤ) else i) = j at h
  by_cases hj : j < 0
  · rw [if_pos hj] at h
    exact (Except.error.inj h).symm
  · rw [if_neg hj] at h
    cases hx : xs[j.toNat]? with
    | none =>
        rw [hx] at h
        exact (Except.error.inj h).symm
    | some y =>
        rw [hx] at h
        cases h

/-- At an index that is not negative, `xs[i]` is the plain lookup. -/
theorem index_ofNat {α : Type} (xs : List α) (n : ℕ) (x : α) :
    index xs (n : ℤ) = .ok x ↔ xs[n]? = some x := by
  unfold index
  have hn : ¬ (n : ℤ) < 0 := by omega
  simp only [hn, if_false, Int.toNat_natCast]
  cases xs[n]? <;> simp

/-- Past the end, `xs[i]` raises. -/
theorem index_eq_error_of_le {α : Type} {xs : List α} {n : ℕ} (h : xs.length ≤ n) :
    ∃ e, index xs (n : ℤ) = .error e := by
  unfold index
  have hn : ¬ (n : ℤ) < 0 := by omega
  simp only [hn, if_false, Int.toNat_natCast, List.getElem?_eq_none h]
  exact ⟨_, rfl⟩

/-- White space of Unicode 5.2, as `int` strips it from a text. -/
def isSpace (c : CodePoint) : Bool :=
  (0x09 ≤ c.val && c.val ≤ 0x0D) || (0x1C ≤ c.val && c.val ≤ 0x20)
    || (0x2000 ≤ c.val && c.val ≤ 0x200A)
    || [0x85, 0xA0, 0x1680, 0x180E, 0x2028, 0x2029, 0x202F, 0x205F, 0x3000].contains c.val

/-- The zeros of the runs of ten decimal digits of Unicode 5.2. -/
def digitZeros : List ℕ :=
  [0x0030, 0x0660, 0x06F0, 0x07C0, 0x0966, 0x09E6, 0x0A66, 0x0AE6, 0x0B66, 0x0BE6, 0x0C66, 0x0CE6,
    0x0D66, 0x0E50, 0x0ED0, 0x0F20, 0x1040, 0x1090, 0x17E0, 0x1810, 0x1946, 0x19D0, 0x1A80, 0x1A90,
    0x1B50, 0x1BB0, 0x1C40, 0x1C50, 0xA620, 0xA8D0, 0xA900, 0xA9D0, 0xAA50, 0xABF0, 0xFF10, 0x104A0,
    0x1D7CE, 0x1D7D8, 0x1D7E2, 0x1D7EC, 0x1D7F6]

/-- The value of a decimal digit; `U+19DA` is the one digit of Unicode 5.2 outside a run. -/
def digitValue (c : CodePoint) : Option ℕ :=
  if c.val = 0x19DA then some 1
  else (digitZeros.find? fun z => z ≤ c.val && c.val < z + 10).map (c.val - ·)

/-- The number a run of decimal digits denotes; an empty run denotes none. -/
def digitsValue (s : Unicode) : Option ℕ :=
  if s = [] then none else (s.mapM digitValue).map (List.foldl (fun n d => 10 * n + d) 0)

/-- **`int(s)`** on text: white space around, one optional sign, decimal digits of any script, and
no bound on the result. Python 2 skips white space between the sign and the digits as well. -/
def int (s : Unicode) : Except Exc ℤ :=
  let literal := (s.dropWhile isSpace).rdropWhile isSpace
  let value : Option ℤ :=
    match literal with
    | 0x2D :: digits => (digitsValue (digits.dropWhile isSpace)).map fun n => -(n : ℤ)
    | 0x2B :: digits => (digitsValue (digits.dropWhile isSpace)).map fun n => (n : ℤ)
    | digits => (digitsValue digits).map fun n => (n : ℤ)
  match value with
  | some n => .ok n
  | none => .error (.valueError (str "invalid literal for int() with base 10"))

example : int (unicode "\t-042 ") = .ok (-42) := by decide

example : int (unicode "-\t5") = .ok (-5) := by decide

example : int [0x0663, 0x0660] = .ok 30 := by decide

end Python2
