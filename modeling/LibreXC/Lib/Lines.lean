import Mathlib.Data.List.Basic

/-! # Terminated words

A text made of words that each end at their first terminator can be cut into these words in one way
only. So what is known of two such texts as texts is known of their words:

* **`Word.append_inj`** — the first word of a text.
* **`exists_of_flatten_append`** — the words of the beginning of a text are its first words. -/

namespace Terminated

variable {α : Type*} {t : α}

/-- **A terminated word**: the terminator stands at its end and nowhere else. -/
def Word (t : α) (w : List α) : Prop := ∃ body, w = body ++ [t] ∧ t ∉ body

theorem Word.ne_nil {w : List α} (h : Word t w) : w ≠ [] := by
  obtain ⟨body, rfl, -⟩ := h
  exact List.append_ne_nil_of_right_ne_nil _ (List.cons_ne_nil _ _)

/-- Where the terminator occurs first is determined. -/
theorem append_cons_inj {u v x y : List α} (hu : t ∉ u) (hv : t ∉ v) (h : u ++ t :: x = v ++ t :: y) :
    u = v ∧ x = y := by
  induction u generalizing v with
  | nil =>
      cases v with
      | nil => exact ⟨rfl, (List.cons.inj h).2⟩
      | cons b v => exact absurd (List.mem_cons.mpr (.inl (List.cons.inj h).1)) hv
  | cons a u ih =>
      cases v with
      | nil => exact absurd (List.mem_cons.mpr (.inl (List.cons.inj h).1.symm)) hu
      | cons b v =>
          obtain ⟨rfl, htail⟩ := List.cons.inj h
          obtain ⟨rfl, hxy⟩ := ih (fun hm => hu (List.mem_cons_of_mem _ hm))
            (fun hm => hv (List.mem_cons_of_mem _ hm)) htail
          exact ⟨rfl, hxy⟩

/-- **The first word of a text** is determined, and so is what follows it. -/
theorem Word.append_inj {u v x y : List α} (hu : Word t u) (hv : Word t v) (h : u ++ x = v ++ y) :
    u = v ∧ x = y := by
  obtain ⟨u, rfl, hu⟩ := hu
  obtain ⟨v, rfl, hv⟩ := hv
  rw [List.append_assoc, List.append_assoc] at h
  obtain ⟨rfl, hxy⟩ := append_cons_inj hu hv h
  exact ⟨rfl, hxy⟩

/-- **Words at the front of a text of words** are its first words, and the rest are the others. -/
theorem exists_of_flatten_append {us vs : List (List α)} {rest : List α} (hus : ∀ u ∈ us, Word t u)
    (hvs : ∀ v ∈ vs, Word t v) (h : us.flatten ++ rest = vs.flatten) :
    ∃ ws, vs = us ++ ws ∧ rest = ws.flatten := by
  induction us generalizing vs with
  | nil => exact ⟨vs, rfl, h⟩
  | cons u us ih =>
      rw [List.flatten_cons, List.append_assoc] at h
      cases vs with
      | nil => exact absurd (List.append_eq_nil_iff.mp h).1 (hus u List.mem_cons_self).ne_nil
      | cons v vs =>
          rw [List.flatten_cons] at h
          obtain ⟨rfl, htail⟩ := (hus u List.mem_cons_self).append_inj (hvs v List.mem_cons_self) h
          obtain ⟨ws, rfl, hrest⟩ := ih (fun w hw => hus w (List.mem_cons_of_mem _ hw))
            (fun w hw => hvs w (List.mem_cons_of_mem _ hw)) htail
          exact ⟨ws, rfl, hrest⟩

end Terminated
