import Mathlib.Data.List.Basic

/-! # Symbol-driven transducers

A transducer reads one symbol at a time, moves its state and may emit one output:
`step : σ → α → σ × Option β`. Two readings of a run are used together:

* **`after step s as`** — the state the input leaves behind.
* **`emits step s n as`** — the outputs in order, each tagged with the number of symbols consumed
  when it is emitted (`n` symbols having been consumed before the input starts).

The tags make "which symbols an output was assembled from" a statement about lists; **`outputs`**
forgets them. The block rule `emits_flatMap` lifts the behaviour on one code word to every sequence of
code words. -/

namespace Transducer

variable {σ α β ι : Type*} {step : σ → α → σ × Option β}

/-- The state in which the input `as` leaves the transducer. -/
def after (step : σ → α → σ × Option β) (s : σ) (as : List α) : σ :=
  as.foldl (fun s a => (step s a).1) s

/-- **The outputs on an input**, each with the number of symbols consumed when it is emitted. -/
def emits (step : σ → α → σ × Option β) : σ → ℕ → List α → List (ℕ × β)
  | _, _, [] => []
  | s, n, a :: as => (step s a).2.toList.map (n + 1, ·) ++ emits step (step s a).1 (n + 1) as

@[simp] theorem after_nil (s : σ) : after step s [] = s := rfl

@[simp] theorem after_cons (s : σ) (a : α) (as : List α) :
    after step s (a :: as) = after step (step s a).1 as := rfl

@[simp] theorem emits_nil (s : σ) (n : ℕ) : emits step s n [] = [] := rfl

theorem emits_cons (s : σ) (n : ℕ) (a : α) (as : List α) :
    emits step s n (a :: as)
      = (step s a).2.toList.map (n + 1, ·) ++ emits step (step s a).1 (n + 1) as := rfl

/-- The state after `as ++ bs` is the state `bs` leads to from the state after `as`. -/
theorem after_append (s : σ) (as bs : List α) :
    after step s (as ++ bs) = after step (after step s as) bs := List.foldl_append

/-- **Outputs over a concatenation**: those on `as`, then those on `bs` from where `as` ended. -/
theorem emits_append (s : σ) (n : ℕ) (as bs : List α) :
    emits step s n (as ++ bs)
      = emits step s n as ++ emits step (after step s as) (n + as.length) bs := by
  induction as generalizing s n with
  | nil => rfl
  | cons a as ih =>
      rw [List.cons_append, emits_cons, emits_cons, ih, List.append_assoc, after_cons,
        List.length_cons, Nat.add_right_comm, Nat.add_assoc]

/-! ## Outputs without positions -/

/-- The outputs on an input, in order. -/
def outputs (step : σ → α → σ × Option β) (s : σ) (as : List α) : List β :=
  (emits step s 0 as).map Prod.snd

/-- The outputs do not depend on where the input starts. -/
theorem map_snd_emits (s : σ) (n : ℕ) (as : List α) :
    (emits step s n as).map Prod.snd = outputs step s as := by
  have hshift : ∀ (as : List α) (s : σ) (n m : ℕ),
      (emits step s n as).map Prod.snd = (emits step s m as).map Prod.snd := by
    intro as
    induction as with
    | nil => exact fun _ _ _ => rfl
    | cons a as ih =>
        intro s n m
        rw [emits_cons, emits_cons, List.map_append, List.map_append, List.map_map, List.map_map,
          ih _ (n + 1) (m + 1)]
        rfl
  exact hshift as s n 0

@[simp] theorem outputs_nil (s : σ) : outputs step s [] = [] := rfl

/-- The outputs on a nonempty input: what its first symbol emits, then the rest. -/
theorem outputs_cons (s : σ) (a : α) (as : List α) :
    outputs step s (a :: as) = (step s a).2.toList ++ outputs step (step s a).1 as := by
  rw [outputs, emits_cons, List.map_append, map_snd_emits, List.map_map]
  exact congrArg (· ++ _) (List.map_id'' (fun _ => rfl) _)

/-- Outputs of a concatenation. -/
theorem outputs_append (s : σ) (as bs : List α) :
    outputs step s (as ++ bs) = outputs step s as ++ outputs step (after step s as) bs := by
  rw [outputs, emits_append, List.map_append, map_snd_emits, map_snd_emits]

/-! ## Code words -/

/-- The outputs of a sequence of code words, one at the last symbol of each: `f i` at the end of the
word `w i`, the first word starting after `n` symbols. -/
def wordEnds (w : ι → List α) (f : ι → β) : ℕ → List ι → List (ℕ × β)
  | _, [] => []
  | n, i :: is => (n + (w i).length, f i) :: wordEnds w f (n + (w i).length) is

@[simp] theorem wordEnds_nil (w : ι → List α) (f : ι → β) (n : ℕ) : wordEnds w f n [] = [] := rfl

@[simp] theorem wordEnds_cons (w : ι → List α) (f : ι → β) (n : ℕ) (i : ι) (is : List ι) :
    wordEnds w f n (i :: is)
      = (n + (w i).length, f i) :: wordEnds w f (n + (w i).length) is := rfl

/-- Dropping the positions leaves the decoded sequence. -/
@[simp] theorem map_snd_wordEnds (w : ι → List α) (f : ι → β) (n : ℕ) (is : List ι) :
    (wordEnds w f n is).map Prod.snd = is.map f := by
  induction is generalizing n with
  | nil => rfl
  | cons i is ih => rw [wordEnds_cons, List.map_cons, List.map_cons, ih]

/-- Each output of a sequence of words belongs to one word and is emitted when that word is read. -/
theorem exists_of_mem_wordEnds (w : ι → List α) (f : ι → β) {n : ℕ} {is : List ι} {a : ℕ × β}
    (ha : a ∈ wordEnds w f n is) :
    ∃ pre i post, is = pre ++ i :: post ∧
      a = (n + (pre.flatMap w).length + (w i).length, f i) := by
  induction is generalizing n with
  | nil => cases ha
  | cons i is ih =>
      rcases List.mem_cons.mp ha with rfl | ha
      · exact ⟨[], i, is, rfl, by simp⟩
      · obtain ⟨pre, j, post, rfl, rfl⟩ := ih ha
        refine ⟨i :: pre, j, post, rfl, ?_⟩
        rw [List.flatMap_cons, List.length_append, Nat.add_assoc n (w i).length]

/-- **The block rule.** If every word leads from `s` back to `s` and emits exactly its output at its
last symbol, then a sequence of words is decoded word by word. -/
theorem emits_flatMap {s : σ} (w : ι → List α) (f : ι → β) (hafter : ∀ i, after step s (w i) = s)
    (hemits : ∀ i n, emits step s n (w i) = [(n + (w i).length, f i)]) (n : ℕ) (is : List ι) :
    emits step s n (is.flatMap w) = wordEnds w f n is ∧ after step s (is.flatMap w) = s := by
  induction is generalizing n with
  | nil => exact ⟨rfl, rfl⟩
  | cons i is ih =>
      have htail := ih (n + (w i).length)
      rw [List.flatMap_cons, emits_append, after_append, hafter, hemits, htail.1, htail.2]
      exact ⟨rfl, rfl⟩

end Transducer
