import Mathlib.Data.List.Induction
import Mathlib.Data.Option.Basic

/-! # Partial transition systems and their finite runs

A system is given by a partial step function `step : σ → ε → Option σ`: the event `e` is enabled in
`s` iff `step s e` is `some` state, and the step is executable. This file collects the rules the
invariant proofs use:

* **`run step s es`** — take the events in order; `none` as soon as one is not enabled.
* **`Along step P s es`** — every event of the run is taken in a state where `P` holds of the state
  and the event. It is the run-level reading of a condition on single steps.
* **`run_invariant`**, **`run_invariant_along`** — a property kept by each (conditioned) step holds
  after every run.
* **`along_of_invariant`** — a condition that an invariant gives, while the invariant needs the
  condition in turn.
* **`exists_run_replicate`**, **`length_filter_le_of_run`** — what a decreasing measure says about
  repeating an event.
* **`run_history`**, **`run_history_along`** — the same for a property that also speaks of the events
  taken so far. -/

namespace TransitionSystem

variable {σ ε : Type*} {step : σ → ε → Option σ}

/-- **A finite run**: the events are taken in order, each in the state its predecessors lead to. -/
def run (step : σ → ε → Option σ) : σ → List ε → Option σ
  | s, [] => some s
  | s, e :: es => (step s e).bind fun s' => run step s' es

@[simp] theorem run_nil (s : σ) : run step s [] = some s := rfl

theorem run_cons (s : σ) (e : ε) (es : List ε) :
    run step s (e :: es) = (step s e).bind fun s' => run step s' es := rfl

/-- Cons reading of a completed run: its first event is enabled and the rest runs from there. -/
theorem run_cons_eq_some {s t : σ} {e : ε} {es : List ε} :
    run step s (e :: es) = some t ↔ ∃ s', step s e = some s' ∧ run step s' es = some t := by
  rw [run_cons, Option.bind_eq_some_iff]

/-- A run over `es ++ fs` is a run over `es` followed by a run over `fs`. -/
theorem run_append (s : σ) (es fs : List ε) :
    run step s (es ++ fs) = (run step s es).bind fun s' => run step s' fs := by
  induction es generalizing s with
  | nil => rfl
  | cons e es ih =>
      rw [List.cons_append, run_cons, run_cons, Option.bind_assoc]
      simp only [ih]

/-- Completed runs follow one another. -/
theorem run_trans {s t u : σ} {es fs : List ε} (hes : run step s es = some t)
    (hfs : run step t fs = some u) : run step s (es ++ fs) = some u := by
  rw [run_append, hes, Option.bind_some, hfs]

/-- Snoc reading of a completed run: everything but the last event runs, and that one is enabled. -/
theorem run_concat_eq_some {s t : σ} {e : ε} {es : List ε} :
    run step s (es ++ [e]) = some t ↔ ∃ s', run step s es = some s' ∧ step s' e = some t := by
  rw [run_append, Option.bind_eq_some_iff]
  simp only [run_cons_eq_some, run_nil, Option.some.injEq, exists_eq_right]

/-- **The invariant rule**: what every step preserves holds after every run. -/
theorem run_invariant (I : σ → Prop)
    (hstep : ∀ s e s', I s → step s e = some s' → I s') {s t : σ} {es : List ε}
    (hI : I s) (hrun : run step s es = some t) : I t := by
  induction es generalizing s with
  | nil =>
      rw [run_nil, Option.some.injEq] at hrun
      exact hrun ▸ hI
  | cons e es ih =>
      obtain ⟨s', he, hes⟩ := run_cons_eq_some.mp hrun
      exact ih (hstep s e s' hI he) hes

/-! ## Repeating one event -/

/-- **An event that decreases a measure runs dry**: repeated often enough it is no longer enabled. -/
theorem exists_run_replicate (step : σ → ε → Option σ) (e : ε) (μ : σ → ℕ)
    (hμ : ∀ s s', step s e = some s' → μ s' < μ s) (s : σ) :
    ∃ k t, run step s (List.replicate k e) = some t ∧ step t e = none := by
  induction hm : μ s using Nat.strongRecOn generalizing s with
  | ind m ih =>
  subst hm
  cases hstep : step s e with
  | none => exact ⟨0, s, rfl, hstep⟩
  | some s' =>
      obtain ⟨k, t, hrun, hstuck⟩ := ih (μ s') (hμ s s' hstep) s' rfl
      refine ⟨k + 1, t, ?_, hstuck⟩
      rw [List.replicate_succ]
      exact run_cons_eq_some.mpr ⟨s', hstep, hrun⟩

/-- **A measure bounds how often its events occur** in a run that increases it nowhere, in states where
an invariant holds. -/
theorem length_filter_le_of_run_invariant (I : σ → Prop)
    (hI : ∀ s e s', I s → step s e = some s' → I s') (p : ε → Bool) (μ : σ → ℕ)
    (hp : ∀ s e s', I s → step s e = some s' → p e = true → μ s' < μ s)
    (hn : ∀ s e s', I s → step s e = some s' → p e = false → μ s' ≤ μ s) {s t : σ} {es : List ε}
    (hs : I s) (hrun : run step s es = some t) : (es.filter p).length + μ t ≤ μ s := by
  induction es generalizing s with
  | nil =>
      rw [run_nil, Option.some.injEq] at hrun
      subst hrun
      exact Nat.le_of_eq (Nat.zero_add _)
  | cons e es ih =>
      obtain ⟨s', hstep, hrun⟩ := run_cons_eq_some.mp hrun
      have htail := ih (hI s e s' hs hstep) hrun
      cases he : p e with
      | true =>
          have := hp s e s' hs hstep he
          rw [List.filter_cons_of_pos he, List.length_cons]
          omega
      | false =>
          have := hn s e s' hs hstep he
          rw [List.filter_cons_of_neg (Bool.eq_false_iff.mp he)]
          omega

/-- The same with a measure for all states. -/
theorem length_filter_le_of_run (p : ε → Bool) (μ : σ → ℕ)
    (hp : ∀ s e s', step s e = some s' → p e = true → μ s' < μ s)
    (hn : ∀ s e s', step s e = some s' → p e = false → μ s' ≤ μ s) {s t : σ} {es : List ε}
    (hrun : run step s es = some t) : (es.filter p).length + μ t ≤ μ s :=
  length_filter_le_of_run_invariant (fun _ => True) (fun _ _ _ _ _ => trivial) p μ
    (fun s e s' _ => hp s e s') (fun s e s' _ => hn s e s') trivial hrun

/-! ## Conditions on the steps of a run -/

/-- **Every step of the run meets `P`**: the event `e` is taken in a state `s` with `P s e`. -/
def Along (step : σ → ε → Option σ) (P : σ → ε → Prop) : σ → List ε → Prop
  | _, [] => True
  | s, e :: es => P s e ∧ ∀ s', step s e = some s' → Along step P s' es

variable {P Q : σ → ε → Prop}

@[simp] theorem along_nil (s : σ) : Along step P s [] := trivial

@[simp] theorem along_cons (s : σ) (e : ε) (es : List ε) :
    Along step P s (e :: es) ↔ P s e ∧ ∀ s', step s e = some s' → Along step P s' es := Iff.rfl

/-- The condition read over prefixes: `P` holds of the state before each event and that event. -/
theorem along_iff {s : σ} {es : List ε} :
    Along step P s es ↔ ∀ pre e t, pre ++ [e] <+: es → run step s pre = some t → P t e := by
  induction es generalizing s with
  | nil => exact ⟨fun _ pre e t hpre => absurd (List.prefix_nil.mp hpre) (by simp), fun _ => trivial⟩
  | cons e es ih =>
      rw [along_cons]
      constructor
      · rintro ⟨he, hes⟩ pre f t hpre hrun
        cases pre with
        | nil =>
            obtain ⟨rfl, -⟩ := List.cons_prefix_cons.mp hpre
            exact Option.some.inj hrun ▸ he
        | cons g pre =>
            obtain ⟨rfl, htail⟩ := List.cons_prefix_cons.mp hpre
            obtain ⟨s', hstep, hrun⟩ := run_cons_eq_some.mp hrun
            exact ih.mp (hes s' hstep) pre f t htail hrun
      · intro h
        refine ⟨h [] e s (List.prefix_append [e] es) rfl, fun s' hstep => ih.mpr ?_⟩
        intro pre f t hpre hrun
        exact h (e :: pre) f t (List.cons_prefix_cons.mpr ⟨rfl, hpre⟩)
          (run_cons_eq_some.mpr ⟨s', hstep, hrun⟩)

/-- A condition on the events alone is met along a run when all its events meet it. -/
theorem along_of_forall_mem {s : σ} {es : List ε} (h : ∀ e ∈ es, ∀ t, P t e) : Along step P s es := by
  rw [along_iff]
  intro pre e t hpre _
  exact h e (hpre.subset (by simp)) t

/-- A condition met along a run is met along the beginning of it. -/
theorem along_of_isPrefix {s : σ} {pre es : List ε} (hpre : pre <+: es) (h : Along step P s es) :
    Along step P s pre := by
  rw [along_iff] at h ⊢
  exact fun pre' e t hpre' => h pre' e t (hpre'.trans hpre)

/-- **Conditions from an invariant that depends on them**: `P` holds along a run if it follows of each
step from an invariant that the steps meeting `P` keep. -/
theorem along_of_invariant (I : σ → Prop)
    (hstep : ∀ s e s', I s → P s e → step s e = some s' → I s') {s : σ} {es : List ε} (hI : I s)
    (hP : ∀ pre e t, pre ++ [e] <+: es → run step s pre = some t → I t → P t e) :
    Along step P s es := by
  induction es generalizing s with
  | nil => trivial
  | cons e es ih =>
      have he : P s e := hP [] e s (List.prefix_append [e] es) rfl hI
      refine ⟨he, fun s' hs' => ih (hstep s e s' hI he hs') fun pre f t hpre hrun => ?_⟩
      exact hP (e :: pre) f t (List.cons_prefix_cons.mpr ⟨rfl, hpre⟩)
        (run_cons_eq_some.mpr ⟨s', hs', hrun⟩)

/-- **The conditioned invariant rule**: what every step meeting `P` preserves holds after every run
whose steps all meet `P`. -/
theorem run_invariant_along (I : σ → Prop)
    (hstep : ∀ s e s', I s → P s e → step s e = some s' → I s') {s t : σ} {es : List ε}
    (hI : I s) (hP : Along step P s es) (hrun : run step s es = some t) : I t := by
  induction es generalizing s with
  | nil =>
      rw [run_nil, Option.some.injEq] at hrun
      exact hrun ▸ hI
  | cons e es ih =>
      obtain ⟨s', he, hes⟩ := run_cons_eq_some.mp hrun
      exact ih (hstep s e s' hI hP.1 he) (hP.2 s' he) hes

/-- **Steps that decrease a measure** are at most as many as it was at first, in a run whose steps all
meet the condition the invariant needs. -/
theorem length_le_of_run_along (I : σ → Prop)
    (hstep : ∀ s e s', I s → P s e → step s e = some s' → I s') (μ : σ → ℕ)
    (hμ : ∀ s e s', I s → P s e → step s e = some s' → μ s' < μ s) {s t : σ} {es : List ε}
    (hI : I s) (hP : Along step P s es) (hrun : run step s es = some t) : es.length + μ t ≤ μ s := by
  induction es generalizing s with
  | nil =>
      rw [run_nil, Option.some.injEq] at hrun
      subst hrun
      exact Nat.le_of_eq (Nat.zero_add _)
  | cons e es ih =>
      obtain ⟨s', he, hes⟩ := run_cons_eq_some.mp hrun
      have htail := ih (hstep s e s' hI hP.1 he) (hP.2 s' he) hes
      have hlt := hμ s e s' hI hP.1 he
      rw [List.length_cons]
      omega

/-- **The conditioned invariant rule with a history**: `I` may relate the state to the events taken
so far. -/
theorem run_history_along (I : List ε → σ → Prop)
    (hstep : ∀ h s e s', I h s → P s e → step s e = some s' → I (h ++ [e]) s') {s t : σ}
    {es : List ε} (hI : I [] s) (hP : Along step P s es) (hrun : run step s es = some t) : I es t := by
  induction es using List.reverseRecOn generalizing t with
  | nil =>
      rw [run_nil, Option.some.injEq] at hrun
      exact hrun ▸ hI
  | append_singleton es e ih =>
      obtain ⟨s', hes, he⟩ := run_concat_eq_some.mp hrun
      rw [along_iff] at hP ih
      have hprefix := ih (fun pre f u hpre => hP pre f u (hpre.trans (List.prefix_append es [e]))) hes
      exact hstep es s' e t hprefix (hP es e s' (List.prefix_refl _) hes) he

/-- The invariant rule with a history and no condition. -/
theorem run_history (I : List ε → σ → Prop)
    (hstep : ∀ h s e s', I h s → step s e = some s' → I (h ++ [e]) s') {s t : σ} {es : List ε}
    (hI : I [] s) (hrun : run step s es = some t) : I es t :=
  run_history_along (P := fun _ _ => True) I (fun h s e s' hs _ => hstep h s e s' hs) hI
    (along_iff.mpr fun _ _ _ _ _ => trivial) hrun

/-- **Conditions that agree on the invariant states agree along every run.** -/
theorem along_congr (I : σ → Prop) (hstep : ∀ s e s', I s → step s e = some s' → I s')
    (hPQ : ∀ s e, I s → (P s e ↔ Q s e)) {s : σ} (hI : I s) (es : List ε) :
    Along step P s es ↔ Along step Q s es := by
  induction es generalizing s with
  | nil => exact Iff.rfl
  | cons e es ih =>
      rw [along_cons, along_cons, hPQ s e hI]
      exact and_congr_right' <| forall_congr' fun s' => forall_congr' fun he => ih (hstep s e s' hI he)

end TransitionSystem
