import Mathlib

/-! Computations that can fail. `Leads` is a rule for those that also change a state and
keep their changes when they fail: wherever such a computation stops, a relation holds
between the states before and after it, and if it succeeds so does a postcondition. -/
namespace Velda.Lib

variable {ε σ α β : Type}

lemma exists_of_bind_ok {x : Except ε α} {f : α → Except ε β} {b : β}
    (success : (x >>= f) = .ok b) : ∃ a, x = .ok a ∧ f a = .ok b := by
  cases x with
  | error e => cases success
  | ok a => exact ⟨a, rfl, success⟩

lemma exists_of_map_ok {x : Except ε α} {f : α → β} {b : β} (success : x.map f = .ok b) :
    ∃ a, x = .ok a ∧ f a = b := by
  cases x with
  | error e => cases success
  | ok a => exact ⟨a, rfl, Except.ok.inj success⟩

structure Leads (R : σ → σ → Prop) (s : σ) (x : EStateM ε σ α) (Q : α → σ → Prop) : Prop where
  ok : ∀ a s', x s = .ok a s' → R s s' ∧ Q a s'
  error : ∀ e s', x s = .error e s' → R s s'

def endState (x : EStateM ε σ α) (s : σ) : σ :=
  match x s with
  | .ok _ s' => s'
  | .error _ s' => s'

def attempt (x : EStateM ε σ α) : EStateM ε σ (Option α) := fun s =>
  match x s with
  | .ok a s' => .ok (some a) s'
  | .error _ s' => .ok none s'

def ensure (p : Prop) [Decidable p] (e : ε) : EStateM ε σ Unit := if p then pure () else throw e

def onlyIf (p : Prop) [Decidable p] (x : EStateM ε σ Unit) : EStateM ε σ Unit :=
  if p then x else pure ()

/-- Run a computation for each element, one after another, and drop those for which it
gives nothing. -/
def collect (f : α → EStateM ε σ (Option β)) : List α → EStateM ε σ (List β)
  | [] => pure []
  | a :: rest => do
    let b ← f a
    let tail ← collect f rest
    pure (b.toList ++ tail)

variable {R : σ → σ → Prop} {s : σ} {x : EStateM ε σ α} {Q Q' : α → σ → Prop}

namespace Leads

lemma endState (h : Leads R s x Q) : R s (endState x s) := by
  unfold Lib.endState
  cases done : x s with
  | ok a s' => exact (h.ok a s' done).1
  | error e s' => exact h.error e s' done

lemma mono (h : Leads R s x Q) (weaker : ∀ a s', R s s' → Q a s' → Q' a s') : Leads R s x Q' where
  ok a s' done := ⟨(h.ok a s' done).1, weaker a s' (h.ok a s' done).1 (h.ok a s' done).2⟩
  error := h.error

lemma bind [IsTrans σ R] {f : α → EStateM ε σ β} {P : β → σ → Prop} (h : Leads R s x Q)
    (rest : ∀ a s', R s s' → Q a s' → Leads R s' (f a) P) : Leads R s (x >>= f) P := by
  have unfolded : (x >>= f) s = match x s with
      | .ok a s' => f a s'
      | .error e s' => .error e s' := rfl
  cases done : x s with
  | error e s' =>
    rw [done] at unfolded
    refine ⟨fun b s'' ended => ?_, fun e' s'' ended => ?_⟩
    · rw [unfolded] at ended
      cases ended
    · rw [unfolded] at ended
      cases ended
      exact h.error e s' done
  | ok a s' =>
    rw [done] at unfolded
    obtain ⟨first, holds⟩ := h.ok a s' done
    have tail := rest a s' first holds
    refine ⟨fun b s'' ended => ?_, fun e' s'' ended => ?_⟩
    · have last := tail.ok b s'' (unfolded.symm.trans ended)
      exact ⟨IsTrans.trans s s' s'' first last.1, last.2⟩
    · exact IsTrans.trans s s' s'' first (tail.error e' s'' (unfolded.symm.trans ended))

lemma attempt (h : Leads R s x Q) :
    Leads R s (Lib.attempt x) fun result s' => ∀ a, result = some a → Q a s' := by
  have unfolded : Lib.attempt x s = match x s with
      | .ok a s' => .ok (some a) s'
      | .error _ s' => .ok none s' := rfl
  cases done : x s with
  | ok a s' =>
    rw [done] at unfolded
    refine ⟨fun b s'' ended => ?_, fun e s'' ended => ?_⟩ <;> rw [unfolded] at ended <;> cases ended
    refine ⟨(h.ok a s' done).1, fun b same => ?_⟩
    cases same
    exact (h.ok a s' done).2
  | error e s' =>
    rw [done] at unfolded
    refine ⟨fun b s'' ended => ?_, fun e s'' ended => ?_⟩ <;> rw [unfolded] at ended <;> cases ended
    exact ⟨h.error e s' done, fun b same => nomatch same⟩

variable [Std.Refl R]

lemma pure {a : α} (holds : Q a s) : Leads R s (Pure.pure a : EStateM ε σ α) Q where
  ok b s' done := by
    cases done
    exact ⟨Std.Refl.refl s, holds⟩
  error e s' done := nomatch done

lemma throw (e : ε) : Leads R s (MonadExcept.throw e : EStateM ε σ α) Q where
  ok b s' done := nomatch done
  error e s' done := by
    cases done
    exact Std.Refl.refl s

lemma ensure {p : Prop} [Decidable p] {e : ε} {Q : Unit → σ → Prop} (holds : p → Q () s) :
    Leads R s (Lib.ensure p e) Q := by
  unfold Lib.ensure
  split
  · next meets => exact .pure (holds meets)
  · exact .throw e

lemma onlyIf {p : Prop} [Decidable p] {x : EStateM ε σ Unit} {Q : Unit → σ → Prop}
    (done : p → Leads R s x Q) (skipped : ¬ p → Q () s) : Leads R s (Lib.onlyIf p x) Q := by
  unfold Lib.onlyIf
  split
  · next meets => exact done meets
  · next fails => exact .pure (skipped fails)

lemma get {Q : σ → σ → Prop} (holds : Q s s) : Leads R s (MonadState.get : EStateM ε σ σ) Q where
  ok b s' done := by
    cases done
    exact ⟨Std.Refl.refl s, holds⟩
  error e s' done := nomatch done

end Leads

end Velda.Lib
