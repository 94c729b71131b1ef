import Mathlib.Data.List.Basic

/-! # Incremental consumers

A consumer works on configurations that hold the input received and not yet consumed. A step
consumes some of it, waits for more or halts; a driver **`Consumes`** by taking steps until one waits
or halts.

* **`Stable`** — more input does not change what a step has done: the step is taken all the same, or
  the longer input leads to the same step as the remainder does.
* **`Stable.feeds`** — a stable consumer reaches the same outcome however its input is cut into
  pieces. -/

namespace Incremental

variable {α κ ρ : Type*}

/-- What a step does. -/
inductive Step (κ ρ : Type*)
  /-- Nothing, until more input arrives. -/
  | waits
  | moves (c : κ)
  /-- No further input is looked at. -/
  | halts (r : ρ)

/-- Where consuming ends. -/
inductive Outcome (κ ρ : Type*)
  | waiting (c : κ)
  | halted (r : ρ)

/-- **Consuming**: steps are taken until one waits or halts. -/
inductive Consumes (step : κ → Step κ ρ) : κ → Outcome κ ρ → Prop
  | waits {c : κ} : step c = .waits → Consumes step c (.waiting c)
  | moves {c c' : κ} {r : Outcome κ ρ} : step c = .moves c' → Consumes step c' r → Consumes step c r
  | halts {c : κ} {r : ρ} : step c = .halts r → Consumes step c (.halted r)

variable {step : κ → Step κ ρ}

/-- The outcome is determined. -/
theorem Consumes.unique {c : κ} {r r' : Outcome κ ρ} (h : Consumes step c r) (h' : Consumes step c r') :
    r = r' := by
  induction h with
  | waits hstep =>
      cases h' with
      | waits => rfl
      | moves hstep' => exact absurd (hstep.symm.trans hstep') (by simp)
      | halts hstep' => exact absurd (hstep.symm.trans hstep') (by simp)
  | moves hstep _ ih =>
      cases h' with
      | waits hstep' => exact absurd (hstep.symm.trans hstep') (by simp)
      | moves hstep' hrest =>
          obtain rfl := Step.moves.inj (hstep.symm.trans hstep')
          exact ih hrest
      | halts hstep' => exact absurd (hstep.symm.trans hstep') (by simp)
  | halts hstep =>
      cases h' with
      | waits hstep' => exact absurd (hstep.symm.trans hstep') (by simp)
      | moves hstep' => exact absurd (hstep.symm.trans hstep') (by simp)
      | halts hstep' => rw [Step.halts.inj (hstep.symm.trans hstep')]

/-- **What every move preserves holds where consuming waits.** -/
theorem Consumes.invariant (I : κ → Prop) (hstep : ∀ c c', I c → step c = .moves c' → I c') {c c' : κ}
    (h : Consumes step c (.waiting c')) (hc : I c) : I c' := by
  generalize hr : Outcome.waiting c' = r at h
  induction h with
  | waits => exact Outcome.waiting.inj hr ▸ hc
  | moves hmove _ ih => exact ih (hstep _ _ hc hmove) hr
  | halts => cases hr

/-! ## Input in pieces -/

/-- **More input does not change what a step has done**, in configurations where `I` holds; `extend`
adds input to a configuration. -/
structure Stable (step : κ → Step κ ρ) (extend : κ → List α → κ) (I : κ → Prop) : Prop where
  extend_append : ∀ c a b, extend (extend c a) b = extend c (a ++ b)
  invariant_extend : ∀ c a, I c → I (extend c a)
  invariant_moves : ∀ c c', I c → step c = .moves c' → I c'
  /-- The step is taken all the same, or it is taken together with the next. -/
  moves : ∀ c c' a, I c → step c = .moves c' →
    step (extend c a) = .moves (extend c' a) ∨
      step (extend c a) = step (extend c' a) ∧ step (extend c' a) ≠ .waits
  halts : ∀ c r a, I c → step c = .halts r → step (extend c a) = .halts r

/-- The outcome depends on the first step only. -/
theorem Consumes.congr {c d : κ} (h : step d = step c) {r : Outcome κ ρ} (hr : Consumes step c r)
    (hwaits : step c ≠ .waits) : Consumes step d r := by
  cases hr with
  | waits hstep => exact absurd hstep hwaits
  | moves hstep hrest => exact .moves (h.trans hstep) hrest
  | halts hstep => exact .halts (h.trans hstep)

variable {extend : κ → List α → κ} {I : κ → Prop}

/-- A move and more input may be exchanged. -/
theorem Stable.consumes_of_moves (h : Stable step extend I) {c c' : κ} (hc : I c) (hmove : step c = .moves c')
    {a : List α} {r : Outcome κ ρ} (hrest : Consumes step (extend c' a) r) : Consumes step (extend c a) r := by
  rcases h.moves c c' a hc hmove with hstep | ⟨hstep, hwaits⟩
  · exact .moves hstep hrest
  · exact hrest.congr hstep hwaits

/-- **What halts a consumer halts it with all that follows.** -/
theorem Stable.halted (h : Stable step extend I) {c : κ} {r : ρ} (hc : I c)
    (hrun : Consumes step c (.halted r)) (a : List α) : Consumes step (extend c a) (.halted r) := by
  generalize hout : Outcome.halted r = out at hrun
  induction hrun with
  | waits => cases hout
  | moves hmove _ ih => exact h.consumes_of_moves hc hmove (ih (h.invariant_moves _ _ hc hmove) hout)
  | halts hhalt =>
      cases hout
      exact .halts (h.halts _ _ a hc hhalt)

/-- **Where a consumer waits, more input takes it on** as if all had come at once. -/
theorem Stable.waiting (h : Stable step extend I) {c c' : κ} (hc : I c)
    (hrun : Consumes step c (.waiting c')) {a : List α} {r : Outcome κ ρ}
    (hrest : Consumes step (extend c' a) r) : Consumes step (extend c a) r := by
  generalize hout : Outcome.waiting c' = out at hrun
  induction hrun with
  | waits =>
      cases hout
      exact hrest
  | moves hmove _ ih => exact h.consumes_of_moves hc hmove (ih (h.invariant_moves _ _ hc hmove) hout)
  | halts => cases hout

/-- **Input that arrives in pieces**: after each the consumer runs; once halted it ignores the rest. -/
inductive Feeds (step : κ → Step κ ρ) (extend : κ → List α → κ) : κ → List (List α) → Outcome κ ρ → Prop
  | nil (c : κ) : Feeds step extend c [] (.waiting c)
  | cons {c c' : κ} {a : List α} {chunks : List (List α)} {r : Outcome κ ρ} :
      Consumes step (extend c a) (.waiting c') → Feeds step extend c' chunks r →
        Feeds step extend c (a :: chunks) r
  | halted {c : κ} {a : List α} {r : ρ} (chunks : List (List α)) :
      Consumes step (extend c a) (.halted r) → Feeds step extend c (a :: chunks) (.halted r)

/-- **The pieces do not matter.** -/
theorem Stable.feeds (h : Stable step extend I) {c : κ} (hc : I c) {a : List α} {chunks : List (List α)}
    {r : Outcome κ ρ} (hfeeds : Feeds step extend c (a :: chunks) r) :
    Consumes step (extend c (a ++ chunks.flatten)) r := by
  induction chunks generalizing c a with
  | nil =>
      rw [List.flatten_nil, List.append_nil]
      cases hfeeds with
      | cons hrun hrest =>
          cases hrest
          exact hrun
      | halted _ hrun => exact hrun
  | cons b chunks ih =>
      rw [List.flatten_cons, ← h.extend_append]
      have hca := h.invariant_extend c a hc
      cases hfeeds with
      | cons hrun hrest => exact h.waiting hca hrun (ih (hrun.invariant I h.invariant_moves hca) hrest)
      | halted _ hrun => exact h.halted hca hrun _

end Incremental
