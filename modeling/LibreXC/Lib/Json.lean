import LibreXC.Lib.Ascii
import Mathlib.Data.List.Infix
import Mathlib.Data.List.TakeDrop
import Mathlib.Data.List.TakeWhile

/-! # JSON texts

The JSON grammar of RFC 8259 over bytes, as a parser. `parse` accepts a text exactly as a whole;
strings and numbers are kept as they are written, escapes included, and bytes above ASCII pass
inside a string (a text that is UTF-8 has them nowhere else).

`render` writes a value without white space, and `parse_render` reads it back, for values whose
strings need no escape and whose numbers are natural (`Value.Plain`). -/

namespace Json

open Ascii

/-- A JSON value. The members of an object keep their order, and a name may occur twice. -/
inductive Value
  | null
  | bool (b : Bool)
  /-- A number as written. -/
  | number (digits : Str)
  /-- A string: what stands between its quotes. -/
  | string (chars : Str)
  | array (elements : List Value)
  | object (members : List (Str × Value))

/-! ## The parser -/

/-- White space: blank, tab, line feed, carriage return. -/
def isSpace (b : UInt8) : Bool := b == 0x20 || b == 0x09 || b == 0x0A || b == 0x0D

/-- A decimal digit. -/
def isDigit (b : UInt8) : Bool := 0x30 ≤ b && b ≤ 0x39

/-- A hexadecimal digit. -/
def isHexDigit (b : UInt8) : Bool :=
  isDigit b || (0x41 ≤ b && b ≤ 0x46) || (0x61 ≤ b && b ≤ 0x66)

/-- The text after its leading white space. -/
def skipSpace (s : Str) : Str := s.dropWhile isSpace

/-- The rest of a string after its opening quote: its characters, and what follows the closing
quote. A backslash starts one of the eight short escapes or a `\u` with four hexadecimal digits. -/
def chars : Str → Option (Str × Str)
  | [] => none
  | b :: s =>
      if b = 0x22 then some ([], s)
      else if b = 0x5C then
        match s with
        | e :: s =>
            if e ∈ str "\"\\/bfnrt" then (chars s).map fun (cs, s) => (b :: e :: cs, s)
            else if e ∈ str "u" then
              match s with
              | h₁ :: h₂ :: h₃ :: h₄ :: s =>
                  if [h₁, h₂, h₃, h₄].all isHexDigit then
                    (chars s).map fun (cs, s) => (b :: e :: h₁ :: h₂ :: h₃ :: h₄ :: cs, s)
                  else none
              | _ => none
            else none
        | [] => none
      else if b < 0x20 then none
      else (chars s).map fun (cs, s) => (b :: cs, s)

/-- One digit or more. -/
def digits (s : Str) : Option (Str × Str) :=
  let ds := s.takeWhile isDigit
  if ds = [] then none else some (ds, s.dropWhile isDigit)

/-- The integer part of a number: no zero in front of another digit. -/
def int (s : Str) : Option (Str × Str) := do
  let (ds, s) ← digits s
  if ds.head? = some 0x30 ∧ ds.length ≠ 1 then none else some (ds, s)

/-- The fraction of a number, if there is one. -/
def frac : Str → Option (Str × Str)
  | [] => some ([], [])
  | b :: s => if b = 0x2E then (digits s).map fun (ds, s) => (b :: ds, s) else some ([], b :: s)

/-- An optional sign out of `signs`. -/
def sign (signs : Str) : Str → Str × Str
  | [] => ([], [])
  | b :: s => if b ∈ signs then ([b], s) else ([], b :: s)

/-- The exponent of a number, if there is one. -/
def exp : Str → Option (Str × Str)
  | [] => some ([], [])
  | b :: s =>
      if b ∈ str "eE" then
        let (sgn, s) := sign (str "+-") s
        (digits s).map fun (ds, s) => (b :: sgn ++ ds, s)
      else some ([], b :: s)

/-- A number. -/
def number (s : Str) : Option (Str × Str) := do
  let (sgn, s) := sign (str "-") s
  let (i, s) ← int s
  let (f, s) ← frac s
  let (e, s) ← exp s
  some (sgn ++ i ++ f ++ e, s)

/-- The three literal names. -/
def literals : List (Str × Value) :=
  [(str "null", .null), (str "true", .bool true), (str "false", .bool false)]

/-- A literal name. -/
def literal (s : Str) : Option (Value × Str) :=
  literals.findSome? fun (name, v) => if name <+: s then some (v, s.drop name.length) else none

/-- The items of a list up to its closing byte: one or more, separated by commas. -/
def items {α : Type} (item : Str → Option (α × Str)) (close : UInt8) :
    ℕ → Str → Option (List α × Str)
  | 0, _ => none
  | n + 1, s => do
      let (x, s) ← item s
      match skipSpace s with
      | [] => none
      | b :: s =>
          if b = 0x2C then (items item close n s).map fun (xs, s) => (x :: xs, s)
          else if b = close then some ([x], s)
          else none

/-- A list after its opening byte, possibly empty. -/
def list {α : Type} (item : Str → Option (α × Str)) (close : UInt8) (s : Str) :
    Option (List α × Str) :=
  match skipSpace s with
  | [] => none
  | b :: rest => if b = close then some ([], rest) else items item close s.length s

/-- A member of an object: a name, a colon, a value. -/
def member (value : Str → Option (Value × Str)) (s : Str) : Option ((Str × Value) × Str) :=
  match skipSpace s with
  | [] => none
  | b :: s =>
      if b = 0x22 then do
        let (name, s) ← chars s
        match skipSpace s with
        | [] => none
        | b :: s => if b = 0x3A then (value s).map fun (v, s) => ((name, v), s) else none
      else none

/-- A value nested less than `n` deep. -/
def value : ℕ → Str → Option (Value × Str)
  | 0, _ => none
  | n + 1, s =>
      match skipSpace s with
      | [] => none
      | b :: s =>
          if b = 0x22 then (chars s).map fun (cs, s) => (.string cs, s)
          else if b = 0x5B then (list (value n) 0x5D s).map fun (vs, s) => (.array vs, s)
          else if b = 0x7B then (list (member (value n)) 0x7D s).map fun (ms, s) => (.object ms, s)
          -- a minus sign or a digit starts a number, and what else there is can only be a name
          else if isDigit b || b == 0x2D then
            (number (b :: s)).map fun (ds, s) => (.number ds, s)
          else literal (b :: s)

/-- **The value of a JSON text**, if the whole of it is one. No value nests deeper than its text is
long. -/
def parse (s : Str) : Option Value := do
  let (v, s) ← value (s.length + 1) s
  if skipSpace s = [] then some v else none

/-! ## What the parser consumes -/

/-- **A reader takes from the front**: what it leaves is a suffix of what it was given. -/
def Consumes {α : Type} (reader : Str → Option (α × Str)) : Prop :=
  ∀ {s x rest}, reader s = some (x, rest) → rest <:+ s

/-- Equal results leave the same. -/
theorem left_eq {α : Type} {x y : α} {s t : Str} (h : some (x, s) = some (y, t)) : s = t :=
  congrArg Prod.snd (Option.some.inj h)

/-- A result made from another leaves what that one left. -/
theorem exists_of_map_eq_some {α β : Type} {r : Option (α × Str)} {f : α × Str → β × Str} {y : β}
    {rest : Str} (h : r.map f = some (y, rest)) (hf : ∀ p, (f p).2 = p.2) :
    ∃ x, r = some (x, rest) ∧ (f (x, rest)).1 = y := by
  obtain ⟨⟨x, left⟩, hx, hfx⟩ := Option.map_eq_some_iff.mp h
  obtain rfl : left = rest := (hf (x, left)).symm.trans (congrArg Prod.snd hfx)
  exact ⟨x, hx, congrArg Prod.fst hfx⟩

/-- What comes after white space and one more byte. -/
theorem suffix_of_skipSpace {s t : Str} {b : UInt8} (h : skipSpace s = b :: t) : b :: t <:+ s :=
  h ▸ List.dropWhile_suffix _

theorem consumes_chars : Consumes chars := by
  intro s cs rest h
  -- the closing quote, the two kinds of escapes and a plain character; every other case is `none`
  fun_induction chars s generalizing cs with
  | case2 =>
      obtain rfl := left_eq h
      exact List.suffix_cons _ _
  | case3 _ _ _ _ ih =>
      obtain ⟨_, h, -⟩ := exists_of_map_eq_some h fun _ => rfl
      exact (ih h).trans ⟨[_, _], rfl⟩
  | case4 _ _ _ _ _ _ _ _ _ _ ih =>
      obtain ⟨_, h, -⟩ := exists_of_map_eq_some h fun _ => rfl
      exact (ih h).trans ⟨[_, _, _, _, _, _], rfl⟩
  | case10 _ _ _ _ _ ih =>
      obtain ⟨_, h, -⟩ := exists_of_map_eq_some h fun _ => rfl
      exact (ih h).trans (List.suffix_cons _ _)
  | _ => cases h

theorem consumes_digits : Consumes digits := by
  intro s ds rest h
  unfold digits at h
  dsimp only at h
  split at h
  · cases h
  · obtain rfl := left_eq h
    exact List.dropWhile_suffix _

theorem consumes_int : Consumes int := by
  intro s ds rest h
  obtain ⟨⟨ds', rest'⟩, hdigits, h⟩ := Option.bind_eq_some_iff.mp h
  dsimp only at h
  split at h
  · cases h
  · obtain rfl := left_eq h
    exact consumes_digits hdigits

theorem consumes_frac : Consumes frac := by
  intro s ds rest h
  unfold frac at h
  split at h
  · obtain rfl := left_eq h
    exact List.suffix_refl _
  · split at h
    · obtain ⟨_, h, -⟩ := exists_of_map_eq_some h fun _ => rfl
      exact (consumes_digits h).trans (List.suffix_cons _ _)
    · obtain rfl := left_eq h
      exact List.suffix_refl _

theorem sign_suffix (signs s : Str) : (sign signs s).2 <:+ s := by
  unfold sign
  split
  · exact List.suffix_refl _
  · split
    · exact List.suffix_cons _ _
    · exact List.suffix_refl _

theorem consumes_exp : Consumes exp := by
  intro s ds rest h
  unfold exp at h
  split at h
  · obtain rfl := left_eq h
    exact List.suffix_refl _
  · split at h
    · obtain ⟨_, h, -⟩ := exists_of_map_eq_some h fun _ => rfl
      exact ((consumes_digits h).trans (sign_suffix _ _)).trans (List.suffix_cons _ _)
    · obtain rfl := left_eq h
      exact List.suffix_refl _

theorem consumes_number : Consumes number := by
  intro s ds rest h
  obtain ⟨⟨i, s₁⟩, hint, h⟩ := Option.bind_eq_some_iff.mp h
  obtain ⟨⟨f, s₂⟩, hfrac, h⟩ := Option.bind_eq_some_iff.mp h
  obtain ⟨⟨e, s₃⟩, hexp, h⟩ := Option.bind_eq_some_iff.mp h
  obtain rfl := left_eq h
  exact (((consumes_exp hexp).trans (consumes_frac hfrac)).trans (consumes_int hint)).trans
    (sign_suffix _ _)

/-- A literal name is read from the front, and its value is no object. -/
theorem literal_suffix {s : Str} {v : Value} {rest : Str} (h : literal s = some (v, rest)) :
    rest <:+ s ∧ ∀ ms, v ≠ .object ms := by
  obtain ⟨⟨name, v'⟩, hmem, h⟩ := List.exists_of_findSome?_eq_some h
  dsimp only at h
  split at h
  · obtain ⟨rfl, rfl⟩ := Prod.ext_iff.mp (Option.some.inj h)
    refine ⟨List.drop_suffix _ _, ?_⟩
    rintro ms rfl
    simp [literals] at hmem
  · cases h

section

variable {α : Type} {item : Str → Option (α × Str)} {close : UInt8}

/-- **Items end with the closing byte.** -/
theorem items_closed (hitem : Consumes item) {n : ℕ} {s : Str} {xs : List α} {rest : Str}
    (h : items item close n s = some (xs, rest)) : close :: rest <:+ s := by
  induction n generalizing s xs with
  | zero => cases h
  | succ n ih =>
      obtain ⟨⟨x, s₁⟩, hx, h⟩ := Option.bind_eq_some_iff.mp h
      dsimp only at h
      split at h
      · cases h
      · next b s₂ hspace =>
          have hs₂ : s₂ <:+ s :=
            ((List.suffix_cons b s₂).trans (suffix_of_skipSpace hspace)).trans (hitem hx)
          split at h
          · -- a comma: the rest of the items ends the list
            obtain ⟨_, h, -⟩ := exists_of_map_eq_some h fun _ => rfl
            exact (ih h).trans hs₂
          · split at h
            · next hclose =>
                obtain rfl := left_eq h
                exact hclose ▸ (suffix_of_skipSpace hspace).trans (hitem hx)
            · cases h

/-- **A list ends with the closing byte.** -/
theorem list_closed (hitem : Consumes item) {s : Str} {xs : List α} {rest : Str}
    (h : list item close s = some (xs, rest)) : close :: rest <:+ s := by
  unfold list at h
  split at h
  · cases h
  · next b s₁ hspace =>
      split at h
      · next hclose =>
          obtain rfl := left_eq h
          exact hclose ▸ suffix_of_skipSpace hspace
      · exact items_closed hitem h

end

theorem consumes_member {value : Str → Option (Value × Str)} (hvalue : Consumes value) :
    Consumes (member value) := by
  intro s m rest h
  unfold member at h
  split at h
  · cases h
  · next b s₁ hspace =>
      split at h
      · obtain ⟨⟨name, s₂⟩, hname, h⟩ := Option.bind_eq_some_iff.mp h
        dsimp only at h
        split at h
        · cases h
        · next b' s₃ hspace' =>
            split at h
            · obtain ⟨_, h, -⟩ := exists_of_map_eq_some h fun _ => rfl
              have hs₃ : s₃ <:+ s₂ := (List.suffix_cons _ _).trans (suffix_of_skipSpace hspace')
              have hs₁ : s₁ <:+ s := (List.suffix_cons _ _).trans (suffix_of_skipSpace hspace)
              exact (((hvalue h).trans hs₃).trans (consumes_chars hname)).trans hs₁
            · cases h
      · cases h

/-- **A value is read from the front**, an object up to a closing brace. -/
theorem value_suffix {n : ℕ} {s : Str} {v : Value} {rest : Str} (h : value n s = some (v, rest)) :
    rest <:+ s ∧ ∀ ms, v = .object ms → 0x7D :: rest <:+ s := by
  induction n generalizing s v rest with
  | zero => cases h
  | succ n ih =>
      have hvalue : Consumes (value n) := fun h => (ih h).1
      rw [value] at h
      split at h
      · cases h
      · next b s₁ hspace =>
          have hs : b :: s₁ <:+ s := suffix_of_skipSpace hspace
          have hs₁ : s₁ <:+ s := (List.suffix_cons b s₁).trans hs
          split at h
          · obtain ⟨cs, hcs, rfl⟩ := exists_of_map_eq_some h fun _ => rfl
            exact ⟨(consumes_chars hcs).trans hs₁, fun _ hv => (nomatch hv)⟩
          · split at h
            · obtain ⟨vs, hvs, rfl⟩ := exists_of_map_eq_some h fun _ => rfl
              have hclosed := (list_closed hvalue hvs).trans hs₁
              exact ⟨(List.suffix_cons _ _).trans hclosed, fun _ hv => (nomatch hv)⟩
            · split at h
              · obtain ⟨ms, hms, rfl⟩ := exists_of_map_eq_some h fun _ => rfl
                have hclosed := (list_closed (consumes_member hvalue) hms).trans hs₁
                exact ⟨(List.suffix_cons _ _).trans hclosed, fun _ _ => hclosed⟩
              · split at h
                · obtain ⟨ds, hds, rfl⟩ := exists_of_map_eq_some h fun _ => rfl
                  exact ⟨(consumes_number hds).trans hs, fun _ hv => (nomatch hv)⟩
                · obtain ⟨hrest, hne⟩ := literal_suffix h
                  exact ⟨hrest.trans hs, fun ms hv => absurd hv (hne ms)⟩

/-- **The text of an object ends with a closing brace**, but for white space. -/
theorem parse_object_closed {s : Str} {ms : List (Str × Value)} (h : parse s = some (.object ms)) :
    ∃ rest, 0x7D :: rest <:+ s ∧ ∀ b ∈ rest, isSpace b = true := by
  obtain ⟨⟨v, rest⟩, hvalue, h⟩ := Option.bind_eq_some_iff.mp h
  dsimp only at h
  split at h
  · next hspace =>
      obtain rfl := Option.some.inj h
      exact ⟨rest, (value_suffix hvalue).2 ms rfl, List.dropWhile_eq_nil_iff.mp hspace⟩
  · cases h

/-! ## Rendering -/

/-- A string in its quotes, its characters as they are. -/
def quoted (cs : Str) : Str := 0x22 :: (cs ++ [0x22])

/-- The texts with commas between them. -/
def commaSeparated (texts : List Str) : Str := List.intercalate [0x2C] texts

mutual

/-- **A value as text**, without white space. -/
def render : Value → Str
  | .null => str "null"
  | .bool b => if b then str "true" else str "false"
  | .number ds => ds
  | .string cs => quoted cs
  | .array vs => 0x5B :: (commaSeparated (renderElements vs) ++ [0x5D])
  | .object ms => 0x7B :: (commaSeparated (renderMembers ms) ++ [0x7D])

/-- The texts of the elements of an array. -/
def renderElements : List Value → List Str
  | [] => []
  | v :: vs => render v :: renderElements vs

/-- The texts of the members of an object. -/
def renderMembers : List (Str × Value) → List Str
  | [] => []
  | m :: ms => renderMember m :: renderMembers ms

/-- The text of a member. -/
def renderMember : Str × Value → Str
  | (name, v) => quoted name ++ 0x3A :: render v

end

theorem renderElements_eq_map (vs : List Value) : renderElements vs = vs.map render := by
  induction vs with
  | nil => rfl
  | cons v vs ih => rw [renderElements, ih, List.map_cons]

theorem renderMembers_eq_map (ms : List (Str × Value)) :
    renderMembers ms = ms.map renderMember := by
  induction ms with
  | nil => rfl
  | cons m ms ih => rw [renderMembers, ih, List.map_cons]

theorem render_array (vs : List Value) :
    render (.array vs) = 0x5B :: (commaSeparated (vs.map render) ++ [0x5D]) := by
  rw [render, renderElements_eq_map]

theorem render_object (ms : List (Str × Value)) :
    render (.object ms) = 0x7B :: (commaSeparated (ms.map renderMember) ++ [0x7D]) := by
  rw [render, renderMembers_eq_map]

/-! ## Reading back what was rendered -/

/-- The characters stand for themselves in a string. -/
def IsPlain (cs : Str) : Prop := ∀ b ∈ cs, 0x20 ≤ b ∧ b ≠ 0x22 ∧ b ≠ 0x5C

instance (cs : Str) : Decidable (IsPlain cs) := List.decidableBAll _ cs

/-- No byte is a control character. -/
def Printable (s : Str) : Prop := ∀ b ∈ s, 0x20 ≤ b

instance (s : Str) : Decidable (Printable s) := List.decidableBAll _ s

@[simp] theorem printable_cons {b : UInt8} {s : Str} :
    Printable (b :: s) ↔ 0x20 ≤ b ∧ Printable s := List.forall_mem_cons

@[simp] theorem printable_append {s t : Str} :
    Printable (s ++ t) ↔ Printable s ∧ Printable t := List.forall_mem_append

/-- **A value that `render` writes as it is**: plain strings, natural numbers. -/
inductive Value.Plain : Value → Prop
  | null : Plain .null
  | bool (b : Bool) : Plain (.bool b)
  | number (n : ℕ) : Plain (.number (decimalNat n))
  | string {cs : Str} (chars : IsPlain cs) : Plain (.string cs)
  | array {vs : List Value} (elements : ∀ v ∈ vs, Plain v) : Plain (.array vs)
  | object {ms : List (Str × Value)} (names : ∀ m ∈ ms, IsPlain m.1)
      (values : ∀ m ∈ ms, Plain m.2) : Plain (.object ms)

/-- What follows a value inside a rendered text. -/
def Ends (s : Str) : Prop := ∀ b ∈ s.head?, b = 0x2C ∨ b = 0x5D ∨ b = 0x7D

theorem ends_comma (s : Str) : Ends (0x2C :: s) := fun _ h => .inl (Option.some.inj h).symm

theorem skipSpace_cons {b : UInt8} {s : Str} (h : isSpace b = false) :
    skipSpace (b :: s) = b :: s := by
  rw [skipSpace, List.dropWhile_cons_of_neg (by rw [h]; exact Bool.false_ne_true)]

/-- The closing quote ends a plain string. -/
theorem chars_plain {cs : Str} (h : IsPlain cs) (s : Str) : chars (cs ++ 0x22 :: s) = some (cs, s) := by
  induction cs with
  | nil =>
      rw [List.nil_append, chars.eq_def]
      rfl
  | cons b cs ih =>
      obtain ⟨⟨hb, hquote, hescape⟩, hcs⟩ := List.forall_mem_cons.mp h
      rw [List.cons_append, chars.eq_def]
      dsimp only
      rw [if_neg hquote, if_neg hescape, if_neg (UInt8.not_lt.mpr hb), ih hcs]
      rfl

/-! ### Numbers -/

/-- A digit starts a number and nothing else. -/
theorem separate_of_isDigit {b : UInt8} (h : isDigit b = true) :
    isSpace b = false ∧ b ≠ 0x5D ∧ b ≠ 0x7D ∧ b ≠ 0x22 ∧ b ≠ 0x5B ∧ b ≠ 0x7B := by
  grind [isDigit, isSpace]

/-- A digit character as a byte. -/
theorem toNat_ofNat_digit {c : Char} (h : c.isDigit) :
    (UInt8.ofNat c.toNat).toNat = c.toNat ∧ 48 ≤ c.toNat ∧ c.toNat ≤ 57 := by
  obtain ⟨hlo, hhi⟩ : 48 ≤ c.toNat ∧ c.toNat ≤ 57 := Char.isDigit_iff_toNat.mp h
  exact ⟨by rw [UInt8.toNat_ofNat', Nat.mod_eq_of_lt (by omega)], hlo, hhi⟩

/-- The digits of a number are digits. -/
theorem isDigit_of_mem_decimalNat {n : ℕ} {b : UInt8} (h : b ∈ decimalNat n) : isDigit b = true := by
  obtain ⟨c, hc, rfl⟩ := List.mem_map.mp h
  obtain ⟨htoNat, hlo, hhi⟩ :=
    toNat_ofNat_digit (Nat.isDigit_of_mem_toDigits (by decide) (by decide) hc)
  simp only [isDigit, Bool.and_eq_true, decide_eq_true_eq, UInt8.le_iff_toNat_le, htoNat]
  exact ⟨hlo, hhi⟩

theorem decimalNat_ne_nil (n : ℕ) : decimalNat n ≠ [] := by
  intro h
  exact Nat.toDigits_ne_nil (List.map_eq_nil_iff.mp h)

/-- The digits of a positive number do not start with a zero. -/
theorem head_toDigits_ne_zero {n : ℕ} (hn : 0 < n) : (Nat.toDigits 10 n).head? ≠ some '0' := by
  induction n using Nat.strong_induction_on with
  | _ n ih =>
  rw [Nat.toDigits_eq_if (by decide)]
  split
  · interval_cases n <;> decide
  · rw [List.head?_append_of_ne_nil _ Nat.toDigits_ne_nil]
    exact ih (n / 10) (by omega) (by omega)

/-- A number is written without a leading zero. -/
theorem not_leadingZero_decimalNat (n : ℕ) :
    ¬ ((decimalNat n).head? = some 0x30 ∧ (decimalNat n).length ≠ 1) := by
  rintro ⟨hhead, hlength⟩
  rw [decimalNat, ascii, List.head?_map, Option.map_eq_some_iff] at hhead
  obtain ⟨c, hc, hbyte⟩ := hhead
  have hmem : c ∈ Nat.toDigits 10 n := List.mem_of_head? hc
  have hdigit := toNat_ofNat_digit (Nat.isDigit_of_mem_toDigits (by decide) (by decide) hmem)
  have hzero : c = '0' := by
    refine Char.toNat_inj.mp ?_
    rw [← hdigit.1, hbyte]
    rfl
  rcases Nat.eq_zero_or_pos n with rfl | hn
  · exact hlength rfl
  · exact head_toDigits_ne_zero hn (hzero ▸ hc)

theorem Ends.not_isDigit {s : Str} (h : Ends s) : ∀ b ∈ s.head?, isDigit b = false := by
  intro b hb
  rcases h b hb with rfl | rfl | rfl <;> rfl

/-- A run of digits ends where a value ends. -/
theorem digits_append {ds s : Str} (hds : ∀ b ∈ ds, isDigit b = true) (hne : ds ≠ []) (hs : Ends s) :
    digits (ds ++ s) = some (ds, s) := by
  have hrest : s.takeWhile isDigit = [] ∧ s.dropWhile isDigit = s := by
    cases s with
    | nil => exact ⟨rfl, rfl⟩
    | cons b s =>
        have hb : ¬ isDigit b = true := by
          rw [hs.not_isDigit b rfl]
          exact Bool.false_ne_true
        exact ⟨List.takeWhile_cons_of_neg hb, List.dropWhile_cons_of_neg hb⟩
  unfold digits
  rw [List.takeWhile_append_of_pos hds, List.dropWhile_append_of_pos hds, hrest.1, hrest.2,
    List.append_nil]
  exact if_neg hne

/-- **A natural number is read back.** -/
theorem number_decimalNat (n : ℕ) {s : Str} (hs : Ends s) :
    number (decimalNat n ++ s) = some (decimalNat n, s) := by
  -- a digit comes first, so there is no sign; what follows starts neither a fraction nor an exponent
  have hsign : sign (str "-") (decimalNat n ++ s) = ([], decimalNat n ++ s) := by
    cases hd : decimalNat n with
    | nil => exact absurd hd (decimalNat_ne_nil n)
    | cons b ds =>
        have hb : isDigit b = true := isDigit_of_mem_decimalNat (hd ▸ List.mem_cons_self)
        rw [List.cons_append, sign, if_neg]
        intro hmem
        obtain rfl := List.mem_singleton.mp hmem
        exact absurd hb (by decide)
  have hint : int (decimalNat n ++ s) = some (decimalNat n, s) := by
    unfold int
    rw [digits_append (fun b hb => isDigit_of_mem_decimalNat hb) (decimalNat_ne_nil n) hs]
    exact if_neg (not_leadingZero_decimalNat n)
  have hfrac : frac s = some ([], s) := by
    cases s with
    | nil => rfl
    | cons b s => rcases hs b rfl with rfl | rfl | rfl <;> rfl
  have hexp : exp s = some ([], s) := by
    cases s with
    | nil => rfl
    | cons b s => rcases hs b rfl with rfl | rfl | rfl <;> rfl
  unfold number
  rw [hsign]
  simp only [hint, hfrac, hexp, Option.bind_eq_bind, Option.bind_some, List.nil_append,
    List.append_nil]

/-! ### Lists -/

theorem commaSeparated_cons_cons (t u : Str) (texts : List Str) :
    commaSeparated (t :: u :: texts) = t ++ 0x2C :: commaSeparated (u :: texts) := by
  rw [commaSeparated, List.intercalate_cons_cons, List.append_assoc]
  rfl

/-- What holds of the comma and of every text's bytes holds of the whole. -/
theorem forall_mem_commaSeparated {p : UInt8 → Prop} (hcomma : p 0x2C) {texts : List Str}
    (h : ∀ t ∈ texts, ∀ b ∈ t, p b) : ∀ b ∈ commaSeparated texts, p b := by
  induction texts with
  | nil => exact fun _ hb => (nomatch hb)
  | cons t texts ih =>
      obtain ⟨ht, htexts⟩ := List.forall_mem_cons.mp h
      cases texts with
      | nil =>
          rw [commaSeparated, List.intercalate_singleton]
          exact ht
      | cons u texts =>
          rw [commaSeparated_cons_cons]
          exact List.forall_mem_append.mpr ⟨ht, List.forall_mem_cons.mpr ⟨hcomma, ih htexts⟩⟩

/-- One more text at the end comes after a comma, unless it is the first. -/
theorem commaSeparated_concat (texts : List Str) (t : Str) :
    commaSeparated (texts ++ [t])
      = commaSeparated texts ++ (if texts.isEmpty then [] else [0x2C]) ++ t := by
  induction texts with
  | nil => exact List.intercalate_singleton
  | cons u texts ih =>
      cases texts with
      | nil =>
          rw [List.singleton_append, commaSeparated_cons_cons, commaSeparated, commaSeparated,
            List.intercalate_singleton, List.intercalate_singleton, List.append_assoc]
          rfl
      | cons u' texts =>
          rw [List.cons_append, List.cons_append, commaSeparated_cons_cons, ← List.cons_append, ih,
            commaSeparated_cons_cons]
          simp

/-- The first text comes first. -/
theorem prefix_commaSeparated (t : Str) (texts : List Str) : t <+: commaSeparated (t :: texts) := by
  cases texts with
  | nil =>
      rw [commaSeparated, List.intercalate_singleton]
  | cons u texts =>
      rw [commaSeparated_cons_cons]
      exact List.prefix_append _ _

/-- A text takes no more room than the list it is in. -/
theorem length_le_commaSeparated {t : Str} {texts : List Str} (h : t ∈ texts) :
    t.length ≤ (commaSeparated texts).length := by
  induction texts with
  | nil => exact nomatch h
  | cons u texts ih =>
      cases texts with
      | nil =>
          obtain rfl := List.mem_singleton.mp h
          rw [commaSeparated, List.intercalate_singleton]
      | cons u' texts =>
          rw [commaSeparated_cons_cons, List.length_append, List.length_cons]
          rcases List.mem_cons.mp h with rfl | h
          · omega
          · have := ih h
            omega

/-- There is a comma between any two texts. -/
theorem length_le_succ_commaSeparated (texts : List Str) :
    texts.length ≤ (commaSeparated texts).length + 1 := by
  induction texts with
  | nil => exact Nat.zero_le _
  | cons t texts ih =>
      cases texts with
      | nil => exact Nat.le_add_left _ _
      | cons u texts =>
          rw [commaSeparated_cons_cons]
          simp only [List.length_cons, List.length_append] at ih ⊢
          omega

section

variable {α : Type} {item : Str → Option (α × Str)} {text : α → Str} {close : UInt8}

/-- **Items that are read back one by one are read back as a list.** -/
theorem items_commaSeparated (hclose : close = 0x5D ∨ close = 0x7D) {x : α} {xs : List α}
    (hitem : ∀ y ∈ x :: xs, ∀ s, Ends s → item (text y ++ s) = some (y, s)) {n : ℕ}
    (hn : xs.length < n) (s : Str) :
    items item close n (commaSeparated ((x :: xs).map text) ++ close :: s) = some (x :: xs, s) := by
  induction xs generalizing x n with
  | nil =>
      obtain ⟨n, rfl⟩ := Nat.exists_eq_succ_of_ne_zero (Nat.ne_zero_of_lt hn)
      have hx := hitem x List.mem_cons_self (close :: s)
        fun b hb => .inr (Option.some.inj hb ▸ hclose)
      have hspace : skipSpace (close :: s) = close :: s :=
        skipSpace_cons (by rcases hclose with rfl | rfl <;> rfl)
      have hcomma : close ≠ 0x2C := by rcases hclose with rfl | rfl <;> decide
      rw [List.map_singleton, commaSeparated, List.intercalate_singleton, items, hx]
      simp only [Option.bind_eq_bind, Option.bind_some, hspace, if_neg hcomma, if_true]
  | cons x' xs ih =>
      obtain ⟨n, rfl⟩ := Nat.exists_eq_succ_of_ne_zero (Nat.ne_zero_of_lt hn)
      -- the comma ends the text of `x`
      have hx := hitem x List.mem_cons_self
        (0x2C :: (commaSeparated ((x' :: xs).map text) ++ close :: s)) (ends_comma _)
      have hxs := ih (fun y hy => hitem y (List.mem_cons_of_mem _ hy)) (Nat.succ_lt_succ_iff.mp hn)
      rw [List.map_cons, List.map_cons, commaSeparated_cons_cons, ← List.map_cons, List.append_assoc,
        List.cons_append, items, hx]
      simp only [Option.bind_eq_bind, Option.bind_some, skipSpace_cons (show isSpace 0x2C = false from rfl),
        if_true, hxs, Option.map_some]

/-- **A list of items is read back**, when no item starts like white space or the closing byte. -/
theorem list_commaSeparated (hclose : close = 0x5D ∨ close = 0x7D) {xs : List α}
    (hitem : ∀ y ∈ xs, ∀ s, Ends s → item (text y ++ s) = some (y, s))
    (hhead : ∀ y ∈ xs, ∃ b t, text y = b :: t ∧ isSpace b = false ∧ b ≠ close) (s : Str) :
    list item close (commaSeparated (xs.map text) ++ close :: s) = some (xs, s) := by
  unfold list
  cases xs with
  | nil =>
      have hspace : skipSpace (close :: s) = close :: s :=
        skipSpace_cons (by rcases hclose with rfl | rfl <;> rfl)
      rw [List.map_nil, commaSeparated, List.intercalate_nil, List.nil_append, hspace]
      exact if_pos rfl
  | cons x xs =>
      obtain ⟨b, t, htext, hspace, hne⟩ := hhead x List.mem_cons_self
      obtain ⟨rest, hrest⟩ := prefix_commaSeparated (text x) (xs.map text)
      have hcons : commaSeparated ((x :: xs).map text) ++ close :: s
          = b :: (t ++ rest ++ close :: s) := by
        rw [List.map_cons, ← hrest, htext]
        rfl
      -- there are no more items than bytes, so the bound on their number is no restriction
      have hcount := length_le_succ_commaSeparated ((x :: xs).map text)
      rw [hcons, skipSpace_cons hspace]
      dsimp only
      rw [if_neg hne, ← hcons]
      refine items_commaSeparated hclose hitem ?_ s
      simp only [List.length_map, List.length_cons, List.length_append] at hcount ⊢
      omega

end

/-! ### Values -/

/-- A rendered value starts neither like white space nor like the end of a list. -/
theorem head_render {v : Value} (h : v.Plain) :
    ∃ b t, render v = b :: t ∧ isSpace b = false ∧ b ≠ 0x5D ∧ b ≠ 0x7D := by
  cases h with
  | null => exact ⟨_, _, rfl, by decide⟩
  | bool b => cases b <;> exact ⟨_, _, rfl, by decide⟩
  | string _ | array _ | object _ _ =>
      rw [render]
      exact ⟨_, _, rfl, by decide⟩
  | number n =>
      cases hd : decimalNat n with
      | nil => exact absurd hd (decimalNat_ne_nil n)
      | cons b ds =>
          have hb : isDigit b = true := isDigit_of_mem_decimalNat (hd ▸ List.mem_cons_self)
          have hsep := separate_of_isDigit hb
          exact ⟨b, ds, by rw [render], hsep.1, hsep.2.1, hsep.2.2.1⟩

/-- **A rendered member is read back**, if its value is. -/
theorem member_renderMember {value : Str → Option (Value × Str)} {m : Str × Value}
    (hname : IsPlain m.1) {s : Str} (hvalue : value (render m.2 ++ s) = some (m.2, s)) :
    member value (renderMember m ++ s) = some (m, s) := by
  obtain ⟨name, v⟩ := m
  have htext : renderMember (name, v) ++ s = 0x22 :: (name ++ 0x22 :: 0x3A :: (render v ++ s)) := by
    rw [renderMember, quoted]
    simp
  unfold member
  rw [htext, skipSpace_cons rfl]
  dsimp only
  rw [if_pos rfl, chars_plain hname]
  simp only [Option.bind_eq_bind, Option.bind_some, skipSpace_cons (show isSpace 0x3A = false from rfl),
    if_true, hvalue, Option.map_some]

/-- A number is read back as a value. -/
theorem value_decimalNat (m n : ℕ) {s : Str} (hs : Ends s) :
    value (n + 1) (decimalNat m ++ s) = some (.number (decimalNat m), s) := by
  have hnumber := number_decimalNat m hs
  cases hd : decimalNat m with
  | nil => exact absurd hd (decimalNat_ne_nil m)
  | cons b ds =>
      -- the first digit is what sends `value` to the numbers
      have hb : isDigit b = true := isDigit_of_mem_decimalNat (hd ▸ List.mem_cons_self)
      obtain ⟨hspace, -, -, hquote, hbracket, hbrace⟩ := separate_of_isDigit hb
      rw [hd, List.cons_append] at hnumber
      rw [List.cons_append, value, skipSpace_cons hspace]
      dsimp only
      rw [if_neg hquote, if_neg hbracket, if_neg hbrace, hb, Bool.true_or, if_pos rfl, hnumber]
      rfl

/-- A plain string is read back as a value. -/
theorem value_quoted {cs : Str} (h : IsPlain cs) (n : ℕ) (s : Str) :
    value (n + 1) (quoted cs ++ s) = some (.string cs, s) := by
  have htext : quoted cs ++ s = 0x22 :: (cs ++ 0x22 :: s) := by simp [quoted]
  rw [htext, value, skipSpace_cons rfl]
  dsimp only
  rw [if_pos rfl, chars_plain h]
  rfl

/-- **An array is read back**, if its elements are. -/
theorem value_array {vs : List Value} (hvs : ∀ v ∈ vs, v.Plain) {n : ℕ}
    (hitem : ∀ v ∈ vs, ∀ s, Ends s → value n (render v ++ s) = some (v, s)) (s : Str) :
    value (n + 1) (render (.array vs) ++ s) = some (.array vs, s) := by
  have hhead : ∀ v ∈ vs, ∃ b t, render v = b :: t ∧ isSpace b = false ∧ b ≠ 0x5D := by
    intro v hv
    obtain ⟨b, t, hhead, hspace, hbracket, -⟩ := head_render (hvs v hv)
    exact ⟨b, t, hhead, hspace, hbracket⟩
  rw [render_array, value, List.cons_append, List.append_assoc, skipSpace_cons rfl]
  dsimp only
  rw [if_neg (by decide), if_pos rfl, List.singleton_append,
    list_commaSeparated (.inl rfl) hitem hhead]
  rfl

/-- **An object is read back**, if its members are. -/
theorem value_object {ms : List (Str × Value)} {n : ℕ}
    (hitem : ∀ m ∈ ms, ∀ s, Ends s → member (value n) (renderMember m ++ s) = some (m, s)) (s : Str) :
    value (n + 1) (render (.object ms) ++ s) = some (.object ms, s) := by
  have hhead : ∀ m ∈ ms, ∃ b t, renderMember m = b :: t ∧ isSpace b = false ∧ b ≠ 0x7D := by
    intro m _
    rw [renderMember, quoted, List.cons_append]
    exact ⟨_, _, rfl, by decide⟩
  rw [render_object, value, List.cons_append, List.append_assoc, skipSpace_cons rfl]
  dsimp only
  rw [if_neg (by decide), if_neg (by decide), if_pos rfl, List.singleton_append,
    list_commaSeparated (.inr rfl) hitem hhead]
  rfl

/-- **A rendered value is read back**, with room for its length. -/
theorem value_render {v : Value} (h : v.Plain) {n : ℕ} (hn : (render v).length ≤ n) {s : Str}
    (hs : Ends s) : value (n + 1) (render v ++ s) = some (v, s) := by
  -- a value inside another is shorter, so the room for it is there one level down
  induction h generalizing n s with
  | null => rfl
  | bool b => cases b <;> rfl
  | number m =>
      rw [render]
      exact value_decimalNat m n hs
  | string hcs =>
      rw [render]
      exact value_quoted hcs n s
  | array hvs ih =>
      refine value_array hvs (fun v hv s hs => ?_) s
      have hlen := length_le_commaSeparated (List.mem_map_of_mem (f := render) hv)
      rw [render_array, List.length_cons, List.length_append] at hn
      obtain ⟨n, rfl⟩ := Nat.exists_eq_add_one_of_ne_zero (show n ≠ 0 by omega)
      apply ih v hv _ hs
      omega
  | object names _ ih =>
      refine value_object (fun m hm s hs => ?_) s
      have hlen := length_le_commaSeparated (List.mem_map_of_mem (f := renderMember) hm)
      rw [renderMember, List.length_append, List.length_cons] at hlen
      rw [render_object, List.length_cons, List.length_append] at hn
      obtain ⟨n, rfl⟩ := Nat.exists_eq_add_one_of_ne_zero (show n ≠ 0 by omega)
      apply member_renderMember (names m hm)
      apply ih m hm _ hs
      omega

/-- **`parse` reads back what `render` writes.** -/
theorem parse_render {v : Value} (h : v.Plain) : parse (render v) = some v := by
  have hvalue := value_render h le_rfl (s := []) (fun b hb => nomatch hb)
  rw [List.append_nil] at hvalue
  rw [parse, hvalue]
  rfl

theorem IsPlain.printable {cs : Str} (h : IsPlain cs) : Printable (quoted cs) := by
  have hcs : Printable cs := fun b hb => (h b hb).1
  exact printable_cons.mpr ⟨by decide, printable_append.mpr ⟨hcs, by decide⟩⟩

/-- **A rendered value holds no control character**, hence no line end. -/
theorem printable_render {v : Value} (h : v.Plain) : Printable (render v) := by
  induction h with
  | null => decide
  | bool b => cases b <;> decide
  | number n =>
      intro b hb
      have hdigit : isDigit b = true := isDigit_of_mem_decimalNat (by rwa [render] at hb)
      grind [isDigit]
  | string hcs =>
      rw [render]
      exact hcs.printable
  | array _ ih =>
      rw [render_array]
      refine printable_cons.mpr ⟨by decide, printable_append.mpr ⟨?_, by decide⟩⟩
      exact forall_mem_commaSeparated (by decide) (List.forall_mem_map.mpr ih)
  | object names _ ih =>
      rw [render_object]
      refine printable_cons.mpr ⟨by decide, printable_append.mpr ⟨?_, by decide⟩⟩
      refine forall_mem_commaSeparated (by decide) (List.forall_mem_map.mpr fun m hm => ?_)
      rw [renderMember]
      exact printable_append.mpr ⟨(names m hm).printable, printable_cons.mpr ⟨by decide, ih m hm⟩⟩

end Json
