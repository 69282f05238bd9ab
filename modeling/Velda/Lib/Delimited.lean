import Mathlib

/-! Texts that are told apart by the characters between them. -/
namespace Velda.Lib
open List

variable {α : Type} {p : α → Prop} {a b r t : List α} {c d : α}

/-- Two texts that go up to the first delimiter are the same, and so is what follows. -/
lemma eq_of_append_delim (ha : ∀ x ∈ a, ¬ p x) (hb : ∀ x ∈ b, ¬ p x) (hc : p c) (hd : p d)
    (same : a ++ c :: r = b ++ d :: t) : a = b ∧ c = d ∧ r = t := by
  induction a generalizing b with
  | nil =>
    cases b with
    | nil => simpa using same
    | cons y b =>
      obtain ⟨rfl, -⟩ : c = y ∧ _ := by simpa using same
      exact absurd hc (hb c mem_cons_self)
  | cons x a ih =>
    cases b with
    | nil =>
      obtain ⟨rfl, -⟩ : x = d ∧ _ := by simpa using same
      exact absurd hd (ha x mem_cons_self)
    | cons y b =>
      obtain ⟨rfl, rest⟩ : x = y ∧ a ++ c :: r = b ++ d :: t := by simpa using same
      obtain ⟨rfl, after⟩ := ih (fun z mem => ha z (mem_cons_of_mem _ mem))
        (fun z mem => hb z (mem_cons_of_mem _ mem)) rest
      exact ⟨rfl, after⟩

lemma eq_of_append_sep (ha : c ∉ a) (hb : c ∉ b) (same : a ++ c :: r = b ++ c :: t) :
    a = b ∧ r = t := by
  obtain ⟨rfl, -, rest⟩ := eq_of_append_delim (p := (· = c)) (fun x mem is => ha (is ▸ mem))
    (fun x mem is => hb (is ▸ mem)) rfl rfl same
  exact ⟨rfl, rest⟩

lemma eq_of_append_last (hr : c ∉ r) (ht : c ∉ t) (same : a ++ c :: r = b ++ c :: t) :
    a = b ∧ r = t := by
  have reversed := congrArg List.reverse same
  simp only [reverse_append, reverse_cons, append_assoc]
    at reversed
  obtain ⟨last, first⟩ := eq_of_append_sep (by simpa using hr) (by simpa using ht) reversed
  exact ⟨reverse_inj.mp first, reverse_inj.mp last⟩

lemma prefix_of_append_sep (free : c ∉ r) (h : r <+: a ++ c :: b) : r <+: a := by
  refine prefix_of_prefix_length_le h (prefix_append a _) ?_
  by_contra longer
  obtain ⟨t, same⟩ := h
  have here : c ∈ r := by
    have atEnd := congrArg (·[a.length]?) same
    simp only [List.getElem?_append_left (show a.length < r.length by omega)] at atEnd
    exact mem_of_getElem? (by simpa using atEnd)
  exact free here

lemma infix_of_append_sep (free : c ∉ r) (h : r <:+: a ++ c :: b) : r <:+: a ∨ r <:+: b := by
  induction a with
  | nil =>
    rcases infix_cons_iff.mp h with first | later
    · exact .inl (prefix_of_append_sep free first).isInfix
    · exact .inr later
  | cons y a ih =>
    rcases infix_cons_iff.mp h with first | later
    · exact .inl (prefix_of_append_sep free first).isInfix
    · exact (ih later).imp (fun inside => inside.trans (suffix_cons y a).isInfix) id

end Velda.Lib
