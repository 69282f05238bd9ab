import Mathlib

/-! A recursive query with `UNION ALL`: every row produced is kept with its
multiplicity and feeds the recursive case once. The query ends when a round
produces nothing. -/
namespace Velda.Lib
open List Option

variable {ρ κ : Type}

/-- All rows of the query started from `frontier`, when it ends within `rounds` rounds. -/
def recursiveQuery (next : ρ → List ρ) : (rounds : Nat) → (frontier : List ρ) → Option (List ρ)
  | _, [] => some []
  | 0, _ :: _ => none
  | rounds + 1, row :: rest =>
    (recursiveQuery next rounds ((row :: rest).flatMap next)).map ((row :: rest) ++ ·)

variable {next : ρ → List ρ} {rounds : Nat} {frontier rows : List ρ}

/-- The rows are the frontier and, for every row once, what the recursive case makes of it. -/
lemma recursiveQuery_perm (h : recursiveQuery next rounds frontier = some rows) :
    rows.Perm (frontier ++ rows.flatMap next) := by
  induction rounds generalizing frontier rows with
  | zero =>
    cases frontier with
    | nil => cases h; exact .refl _
    | cons row rest => cases h
  | succ rounds ih =>
    cases frontier with
    | nil => cases h; exact .refl _
    | cons row rest =>
      obtain ⟨tail, found, rfl⟩ := map_eq_some_iff.mp h
      rw [flatMap_append]
      exact (ih found).append_left _

variable {l : List κ} {r : ρ} {f : κ → Nat}

section

variable (h : recursiveQuery next rounds frontier = some rows)
include h

lemma recursiveQuery_mem_cases (mem : r ∈ rows) : r ∈ frontier ∨ ∃ u ∈ rows, r ∈ next u := by
  have both := (recursiveQuery_perm h).mem_iff.mp mem
  simpa using both

lemma recursiveQuery_frontier (mem : r ∈ frontier) : r ∈ rows :=
  (recursiveQuery_perm h).mem_iff.mpr (mem_append_left _ mem)

lemma recursiveQuery_closed {u : ρ} (mem : u ∈ rows) (produced : r ∈ next u) : r ∈ rows :=
  (recursiveQuery_perm h).mem_iff.mpr
    (mem_append_right _ (mem_flatMap.mpr ⟨u, mem, produced⟩))

end

/-- What holds of the frontier and is handed on by the recursive case holds of every row. -/
lemma recursiveQuery_induction {p : ρ → Prop} (base : ∀ r ∈ frontier, p r)
    (handed : ∀ u, p u → ∀ r ∈ next u, p r)
    (h : recursiveQuery next rounds frontier = some rows) : ∀ r ∈ rows, p r := by
  induction rounds generalizing frontier rows with
  | zero =>
    cases frontier with
    | nil => cases h; exact base
    | cons row rest => cases h
  | succ rounds ih =>
    cases frontier with
    | nil => cases h; exact base
    | cons row rest =>
      obtain ⟨tail, found, rfl⟩ := map_eq_some_iff.mp h
      have later := ih (fun r mem => by
        obtain ⟨u, hu, produced⟩ := mem_flatMap.mp mem
        exact handed u (base u hu) r produced) found
      intro r mem
      exact (mem_append.mp mem).elim (base r) (later r)

lemma recursiveQuery_isSome {k : Nat} (ends : (fun l : List ρ => l.flatMap next)^[k] frontier = [])
    (enough : k ≤ rounds) : (recursiveQuery next rounds frontier).isSome := by
  induction rounds generalizing frontier k with
  | zero =>
    obtain rfl : k = 0 := by omega
    obtain rfl : frontier = [] := ends
    rfl
  | succ rounds ih =>
    cases frontier with
    | nil => rfl
    | cons row rest =>
      cases k with
      | zero => cases ends
      | succ k =>
        simp only [recursiveQuery, isSome_map]
        exact ih (by simpa only [Function.iterate_succ_apply] using ends) (by omega)

/-- A query does not end whose rows keep producing rows of some kind. -/
lemma recursiveQuery_eq_none {p : ρ → Prop} (handed : ∀ r, p r → ∃ r' ∈ next r, p r')
    (mem : r ∈ frontier) (start : p r) : recursiveQuery next rounds frontier = none := by
  induction rounds generalizing frontier r with
  | zero =>
    cases frontier with
    | nil => cases mem
    | cons row rest => rfl
  | succ rounds ih =>
    cases frontier with
    | nil => cases mem
    | cons row rest =>
      obtain ⟨r', produced, again⟩ := handed r start
      rw [recursiveQuery, ih (mem_flatMap.mpr ⟨r, mem, produced⟩) again]
      rfl

lemma recursiveQuery_mono {more : Nat} (h : recursiveQuery next rounds frontier = some rows)
    (enough : rounds ≤ more) : recursiveQuery next more frontier = some rows := by
  induction rounds generalizing frontier rows more with
  | zero =>
    cases frontier with
    | nil =>
      cases h
      cases more <;> rfl
    | cons row rest => cases h
  | succ rounds ih =>
    obtain ⟨more, rfl⟩ : ∃ m, more = m + 1 := ⟨more - 1, by omega⟩
    cases frontier with
    | nil => exact h
    | cons row rest =>
      obtain ⟨tail, found, rfl⟩ := map_eq_some_iff.mp h
      rw [recursiveQuery, ih found (by omega)]
      rfl

/-- A query whose rows are those of another one, with rows in between that lead nowhere. -/
lemma recursiveQuery_filter (next' : ρ → List ρ) (keep : ρ → Bool) {p : ρ → Prop}
    (base : ∀ r ∈ frontier, p r) (handed : ∀ u, p u → ∀ r ∈ next u, p r)
    (kept : ∀ u, p u → keep u = true → (next u).filter keep = next' u)
    (dropped : ∀ u, p u → keep u = false → (next u).filter keep = [])
    (h : recursiveQuery next rounds frontier = some rows) :
    recursiveQuery next' rounds (frontier.filter keep) = some (rows.filter keep) := by
  have step : ∀ l : List ρ, (∀ r ∈ l, p r) →
      (l.flatMap next).filter keep = (l.filter keep).flatMap next' := by
    intro l holds
    induction l with
    | nil => rfl
    | cons u rest ih =>
      have first := holds u mem_cons_self
      rw [flatMap_cons, filter_append, ih fun r mem => holds r (mem_cons_of_mem _ mem)]
      cases keeps : keep u with
      | true => rw [filter_cons_of_pos keeps, flatMap_cons, kept u first keeps]
      | false => rw [filter_cons_of_neg (by simp [keeps]), dropped u first keeps]; rfl
  induction rounds generalizing frontier rows with
  | zero =>
    cases frontier with
    | nil =>
      cases h
      rfl
    | cons row rest => cases h
  | succ rounds ih =>
    cases frontier with
    | nil =>
      cases h
      rfl
    | cons row rest =>
      obtain ⟨tail, found, rfl⟩ := map_eq_some_iff.mp h
      have later := ih (fun r mem => by
        obtain ⟨u, hu, produced⟩ := mem_flatMap.mp mem
        exact handed u (base u hu) r produced) found
      rw [step _ base] at later
      rw [filter_append]
      cases left : (row :: rest).filter keep with
      | nil =>
        rw [left] at later
        cases rounds <;> simp_all [recursiveQuery]
      | cons row' rest' =>
        rw [recursiveQuery, ← left, later]
        rfl

lemma countP_recursiveQuery (h : recursiveQuery next rounds frontier = some rows) (p : ρ → Bool) :
    rows.countP p = frontier.countP p + (rows.map fun r => (next r).countP p).sum := by
  rw [(recursiveQuery_perm h).countP_eq, countP_append, countP_flatMap]
  rfl

lemma sum_countP_comm (l : List ρ) (m : List κ) (p : ρ → κ → Bool) :
    (l.map fun a => m.countP (p a)).sum = (m.map fun b => l.countP (p · b)).sum := by
  induction l with
  | nil => simp
  | cons a l ih =>
    simp only [map_cons, sum_cons, ih]
    clear ih
    induction m with
    | nil => simp
    | cons b m ihm =>
      simp only [countP_cons, map_cons, sum_cons] at *
      omega

lemma sum_le_one (nodup : l.Nodup) (small : ∀ a ∈ l, f a ≤ 1)
    (single : ∀ a ∈ l, ∀ b ∈ l, 0 < f a → 0 < f b → a = b) : (l.map f).sum ≤ 1 := by
  induction l with
  | nil => simp
  | cons a l ih =>
    simp only [nodup_cons] at nodup
    simp only [map_cons, sum_cons]
    have first := small a mem_cons_self
    by_cases zero : f a = 0
    · have rest := ih nodup.2 (fun b hb => small b (mem_cons_of_mem _ hb))
        (fun b hb c hc => single b (mem_cons_of_mem _ hb) c (mem_cons_of_mem _ hc))
      omega
    · have others : (l.map f).sum = 0 := by
        apply sum_eq_zero
        intro n mem
        obtain ⟨b, hb, rfl⟩ := mem_map.mp mem
        by_contra nonzero
        have same := single a mem_cons_self b (mem_cons_of_mem _ hb)
          (by omega) (by omega)
        exact nodup.1 (same ▸ hb)
      omega

lemma add_le_sum (f : κ → Nat) {a b : κ} (ha : a ∈ l) (hb : b ∈ l) (ne : a ≠ b) :
    f a + f b ≤ (l.map f).sum := by
  induction l with
  | nil => cases ha
  | cons c l ih =>
    have bound {x : κ} (hx : x ∈ l) : f x ≤ (l.map f).sum :=
      le_sum_of_mem (mem_map_of_mem hx)
    rw [map_cons, sum_cons]
    rcases mem_cons.mp ha with rfl | later <;> rcases mem_cons.mp hb with rfl | later'
    · exact absurd rfl ne
    · have := bound later'
      omega
    · have := bound later
      omega
    · have := ih later later'
      omega

lemma sum_min_one_eq_iff :
    (l.map fun a => min (f a) 1).sum = (l.map f).sum ↔ ∀ a ∈ l, f a ≤ 1 := by
  have le (l : List κ) : (l.map fun a => min (f a) 1).sum ≤ (l.map f).sum :=
    sum_le_sum fun a _ => min_le_left _ _
  induction l with
  | nil => simp
  | cons a l ih =>
    have rest := le l
    rw [map_cons, sum_cons, map_cons, sum_cons, forall_mem_cons]
    constructor
    · intro same
      exact ⟨by omega, ih.mp (by omega)⟩
    · rintro ⟨first, others⟩
      have := ih.mpr others
      omega

lemma countP_add_sum {p q : κ → Bool}
    (h : ∀ a ∈ l, (if q a then 1 else 0) + f a = if p a then 1 else 0) :
    l.countP q + (l.map f).sum = l.countP p := by
  induction l with
  | nil => rfl
  | cons a l ih =>
    have first := h a mem_cons_self
    have rest := ih fun b hb => h b (mem_cons_of_mem _ hb)
    simp only [countP_cons, map_cons, sum_cons]
    omega

end Velda.Lib
