import Mathlib

/-! Runs of a system given by a partial step function. An action that is not
possible in a state gives `none`. A run may be held to a side condition on every
step, read in the state the step is taken from; `invariant` is the induction
rule all safety results of the development go through. -/
namespace Velda.Lib

variable {σ α : Type}

/-- The states reached from `init` by steps that all meet `ok`. -/
inductive Reachable (step : σ → α → Option σ) (ok : σ → α → Prop) (init : σ) : σ → Prop
  | start : Reachable step ok init init
  | next {s t : σ} {a : α} : Reachable step ok init s → ok s a → step s a = some t →
      Reachable step ok init t

def Any (_ : σ) (_ : α) : Prop := True

instance (s : σ) (a : α) : Decidable (Any s a) := inferInstanceAs (Decidable True)

/-- Run a list of actions, refusing the first one that does not meet `ok`. -/
def runChecked (step : σ → α → Option σ) (ok : σ → α → Prop) [∀ s a, Decidable (ok s a)] :
    σ → List α → Option σ
  | s, [] => some s
  | s, a :: rest => if ok s a then (step s a).bind fun t => runChecked step ok t rest else none

variable {step : σ → α → Option σ} {ok : σ → α → Prop} {init s t : σ}

lemma Reachable.invariant {I : σ → Prop} (start : I init)
    (preserved : ∀ s a t, I s → ok s a → step s a = some t → I t)
    (h : Reachable step ok init s) : I s := by
  induction h with
  | start => exact start
  | next _ meets taken ih => exact preserved _ _ _ ih meets taken

/-- The rule with a property known of all reached states. -/
lemma Reachable.invariant_of {K I : σ → Prop}
    (known : ∀ s, Reachable step ok init s → K s) (start : I init)
    (preserved : ∀ s a t, K s → I s → ok s a → step s a = some t → I t)
    (h : Reachable step ok init s) : I s := by
  induction h with
  | start => exact start
  | next before meets taken ih => exact preserved _ _ _ (known _ before) ih meets taken

lemma Reachable.weaken {ok' : σ → α → Prop} (weaker : ∀ s a, ok s a → ok' s a)
    (h : Reachable step ok init s) : Reachable step ok' init s := by
  induction h with
  | start => exact .start
  | next _ meets taken ih => exact .next ih (weaker _ _ meets) taken

lemma Reachable.weaken_of {ok' : σ → α → Prop} {K : σ → Prop}
    (known : ∀ s, Reachable step ok init s → K s) (weaker : ∀ s a, K s → ok s a → ok' s a)
    (h : Reachable step ok init s) : Reachable step ok' init s := by
  induction h with
  | start => exact .start
  | next before meets taken ih => exact .next ih (weaker _ _ (known _ before) meets) taken

lemma Reachable.of_runChecked [∀ s a, Decidable (ok s a)] {acts : List α}
    (h : Reachable step ok init s) (taken : runChecked step ok s acts = some t) :
    Reachable step ok init t := by
  induction acts generalizing s with
  | nil =>
    cases taken
    exact h
  | cons a rest ih =>
    simp only [runChecked] at taken
    split at taken
    · next meets =>
      obtain ⟨u, hu, tail⟩ := Option.bind_eq_some_iff.mp taken
      exact ih (.next h meets hu) tail
    · cases taken

lemma reachable_of_runChecked [∀ s a, Decidable (ok s a)] {acts : List α}
    (taken : runChecked step ok init acts = some t) : Reachable step ok init t :=
  Reachable.of_runChecked .start taken

/-- A property of the end of a checked run, for runs whose end state is too large to write. -/
lemma exists_of_run (step : σ → α → Option σ) (ok : σ → α → Prop)
    [∀ s a, Decidable (ok s a)] (init : σ) (acts : List α) (p : σ → Prop)
    (h : ∃ t ∈ runChecked step ok init acts, p t) : ∃ t, Reachable step ok init t ∧ p t := by
  obtain ⟨t, taken, holds⟩ := h
  exact ⟨t, reachable_of_runChecked taken, holds⟩

end Velda.Lib
