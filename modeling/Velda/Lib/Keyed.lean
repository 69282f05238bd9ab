import Mathlib

/-! Finite maps whose entries carry their own key, such as a map from ids to the
objects with these ids. No two entries have one key, and inserting an entry
replaces the one that had its key. -/
namespace Velda.Lib
open List

variable {α κ : Type} {key : α → κ}

structure Keyed (key : α → κ) where
  entries : List α
  nodup : (entries.map key).Nodup

variable {a : α} {m : Keyed key} {k : κ}

namespace Keyed

def empty : Keyed key := ⟨[], nodup_nil⟩

instance : Membership α (Keyed key) := ⟨fun m a => a ∈ m.entries⟩

lemma mem_def : a ∈ m ↔ a ∈ m.entries := Iff.rfl

instance [DecidableEq α] (m : Keyed key) (a : α) : Decidable (a ∈ m) :=
  inferInstanceAs (Decidable (a ∈ m.entries))

def size (m : Keyed key) : Nat := m.entries.length

lemma eq_of_key_eq {b : α} (ha : a ∈ m) (hb : b ∈ m) (h : key a = key b) : a = b :=
  inj_on_of_nodup_map m.nodup ha hb h

@[simp] lemma mem_empty : ¬ a ∈ (empty : Keyed key) := not_mem_nil

@[simp] lemma size_empty : (empty : Keyed key).size = 0 := rfl

variable [DecidableEq κ]

def lookup (m : Keyed key) (k : κ) : Option α := m.entries.find? (key · = k)

def erase (m : Keyed key) (k : κ) : Keyed key where
  entries := m.entries.filter (key · ≠ k)
  nodup := m.nodup.sublist (filter_sublist.map key)

def insert (m : Keyed key) (a : α) : Keyed key where
  entries := (m.erase (key a)).entries ++ [a]
  nodup := by
    rw [map_append, nodup_append]
    refine ⟨(m.erase (key a)).nodup, by simp, ?_⟩
    rintro k hk _ hk' rfl
    obtain ⟨b, hb, rfl⟩ := mem_map.mp hk
    simp only [erase, mem_filter, ne_eq, decide_eq_true_eq] at hb
    exact hb.2 (by simpa using hk')

lemma lookup_eq_some_iff : m.lookup k = some a ↔ a ∈ m ∧ key a = k := by
  constructor
  · intro h
    exact ⟨mem_of_find?_eq_some h, by simpa using List.find?_some h⟩
  · rintro ⟨mem, rfl⟩
    cases found : m.lookup (key a) with
    | none => exact absurd (List.find?_eq_none.mp found a mem) (by simp)
    | some b =>
      have atKey : key b = key a := by simpa using List.find?_some found
      rw [eq_of_key_eq (mem_of_find?_eq_some found) mem atKey]

lemma lookup_eq_none_iff : m.lookup k = none ↔ ∀ a ∈ m, key a ≠ k := by
  simp [lookup, mem_def]

@[simp] lemma mem_erase : a ∈ m.erase k ↔ a ∈ m ∧ key a ≠ k := by
  simp [mem_def, erase]

@[simp] lemma mem_insert {b : α} : b ∈ m.insert a ↔ b = a ∨ (b ∈ m ∧ key b ≠ key a) := by
  rw [mem_def, insert, mem_append, mem_singleton, ← mem_def, mem_erase, or_comm]

lemma erase_of_lookup_none (h : m.lookup k = none) : m.erase k = m := by
  have same : m.entries.filter (key · ≠ k) = m.entries :=
    filter_eq_self.mpr fun a ha => by simpa using lookup_eq_none_iff.mp h a ha
  cases m
  simpa [erase] using same

lemma lookup_erase (m : Keyed key) (k l : κ) :
    (m.erase k).lookup l = if l = k then none else m.lookup l := by
  split
  · next same =>
    rw [lookup_eq_none_iff]
    intro a mem atKey
    exact (mem_erase.mp mem).2 (atKey.trans same)
  · next ne =>
    cases found : m.lookup l with
    | none =>
      rw [lookup_eq_none_iff] at found ⊢
      exact fun a mem => found a (mem_erase.mp mem).1
    | some a =>
      obtain ⟨mem, rfl⟩ := lookup_eq_some_iff.mp found
      exact lookup_eq_some_iff.mpr ⟨mem_erase.mpr ⟨mem, ne⟩, rfl⟩

@[simp] lemma lookup_insert_self (m : Keyed key) (a : α) : (m.insert a).lookup (key a) = some a :=
  lookup_eq_some_iff.mpr ⟨mem_insert.mpr (.inl rfl), rfl⟩

lemma lookup_insert_of_ne (h : k ≠ key a) : (m.insert a).lookup k = m.lookup k := by
  ext b
  simp only [lookup_eq_some_iff, mem_insert]
  constructor
  · rintro ⟨rfl | ⟨mem, -⟩, own⟩
    · exact absurd own.symm h
    · exact ⟨mem, own⟩
  · rintro ⟨mem, own⟩
    exact ⟨.inr ⟨mem, own ▸ h⟩, own⟩

lemma perm_filter_key {l : List α} (nodup : (l.map key).Nodup) (mem : a ∈ l) :
    l.Perm (a :: l.filter (key · ≠ key a)) := by
  induction l with
  | nil => cases mem
  | cons b rest ih =>
    rw [map_cons, nodup_cons] at nodup
    by_cases same : key b = key a
    · have here : a = b := by
        rcases mem_cons.mp mem with here | later
        · exact here
        · exact absurd (same ▸ mem_map_of_mem later) nodup.1
      have none : rest.filter (key · ≠ key a) = rest := by
        refine filter_eq_self.mpr fun c hc => ?_
        rw [← same]
        exact decide_eq_true fun eq => nodup.1 (eq ▸ mem_map_of_mem hc)
      rw [filter_cons_of_neg (by simpa using same), none, here]
    · have later : a ∈ rest := (mem_cons.mp mem).resolve_left fun eq => same (eq ▸ rfl)
      rw [filter_cons_of_pos (by simpa using same)]
      exact ((ih nodup.2 later).cons b).trans (.swap a b _)

lemma length_filter_key {l : List α} (nodup : (l.map key).Nodup) (mem : a ∈ l) :
    (l.filter (key · ≠ key a)).length + 1 = l.length :=
  (perm_filter_key nodup mem).length_eq.symm

lemma size_erase (m : Keyed key) (k : κ) :
    (m.erase k).size + (if (m.lookup k).isSome then 1 else 0) = m.size := by
  cases found : m.lookup k with
  | none => rw [erase_of_lookup_none found]; rfl
  | some a =>
    obtain ⟨mem, rfl⟩ := lookup_eq_some_iff.mp found
    exact length_filter_key m.nodup mem

lemma size_insert (m : Keyed key) (a : α) :
    (m.insert a).size = m.size + if (m.lookup (key a)).isSome then 0 else 1 := by
  have erased := m.size_erase (key a)
  have added : (m.insert a).size = (m.erase (key a)).size + 1 := by
    simp [insert, size]
  split at erased <;> simp_all

def total (f : α → Int) (m : Keyed key) : Int := (m.entries.map f).sum

lemma total_erase (f : α → Int) (m : Keyed key) (k : κ) :
    (m.erase k).total f = m.total f - ((m.lookup k).map f).getD 0 := by
  cases found : m.lookup k with
  | none => simp [erase_of_lookup_none found]
  | some a =>
    obtain ⟨mem, rfl⟩ := lookup_eq_some_iff.mp found
    have sums := ((perm_filter_key m.nodup mem).map f).sum_eq
    rw [map_cons, sum_cons] at sums
    simp only [total, erase, Option.map_some, Option.getD_some]
    omega

lemma total_insert (f : α → Int) (m : Keyed key) (a : α) :
    (m.insert a).total f = m.total f - ((m.lookup (key a)).map f).getD 0 + f a := by
  rw [← total_erase]
  simp [total, insert]

section Count
variable [DecidableEq α]

def count (m : Keyed key) (a : α) : Nat := m.entries.count a

omit [DecidableEq κ] in
lemma count_pos_iff : 0 < m.count a ↔ a ∈ m := List.count_pos_iff

omit [DecidableEq κ] in
lemma count_eq_zero_iff : m.count a = 0 ↔ a ∉ m := count_eq_zero

omit [DecidableEq κ] in
lemma count_le_one (m : Keyed key) (a : α) : m.count a ≤ 1 :=
  nodup_iff_count_le_one.mp (List.Nodup.of_map key m.nodup) a

lemma count_erase (m : Keyed key) (k : κ) (a : α) :
    (m.erase k).count a = if key a = k then 0 else m.count a := by
  split
  · next atKey => exact count_eq_zero_iff.mpr fun h => (mem_erase.mp h).2 atKey
  · next ne => exact count_filter (by simpa using ne)

lemma count_insert (m : Keyed key) (a b : α) :
    (m.insert a).count b = (m.erase (key a)).count b + if a = b then 1 else 0 := by
  simp [count, insert, count_singleton]

end Count

end Keyed

lemma lookup_filter_ne {κ α : Type} [DecidableEq κ] (l : List (κ × α)) (j k : κ) :
    (l.filter (·.1 ≠ k)).lookup j = if j = k then none else l.lookup j := by
  induction l with
  | nil => simp
  | cons e rest ih =>
    obtain ⟨i, a⟩ := e
    by_cases own : i = k
    · subst own
      rw [filter_cons_of_neg (by simp), ih, lookup_cons]
      by_cases same : j = i
      · simp [same]
      · rw [if_neg same, if_neg same, beq_false_of_ne same]
    · rw [filter_cons_of_pos (by simpa using own), lookup_cons, lookup_cons, ih]
      by_cases same : j = i
      · subst same
        simp [own]
      · rw [beq_false_of_ne same]

end Velda.Lib
