import Mathlib

/-! Nodes that hold other nodes under names, as the directories of a file tree do. What
is reached from a node through such names is below it. The lemmas say what stays below a
node when one name is added, dropped or moved elsewhere. -/
namespace Velda.Lib

variable {α ν : Type}

def Holds (E : α → ν → Option α) (d i : α) : Prop := ∃ n, E d n = some i

/-- `i` is `p` or is reached from it by names. -/
def Below (E : α → ν → Option α) (p i : α) : Prop := Relation.ReflTransGen (Holds E) p i

def setName [DecidableEq α] [DecidableEq ν] (E : α → ν → Option α) (d : α) (n : ν)
    (v : Option α) : α → ν → Option α :=
  fun x m => if x = d ∧ m = n then v else E x m

variable {E : α → ν → Option α} {p c d d' i : α} {n n' : ν}

lemma Below.refl (p : α) : Below E p p := Relation.ReflTransGen.refl

lemma Below.step (below : Below E p d) (named : E d n = some i) : Below E p i :=
  Relation.ReflTransGen.tail below ⟨n, named⟩

lemma Below.eq_of_bare (bare : ∀ n, E p n = none) (below : Below E p i) : i = p := by
  induction below with
  | refl => rfl
  | tail _ held ih =>
    obtain ⟨n, named⟩ := held
    rw [ih, bare] at named
    cases named

lemma Below.mono {F : α → ν → Option α} (more : ∀ d n i, E d n = some i → F d n = some i)
    (below : Below E p i) : Below F p i := by
  induction below with
  | refl => exact .refl p
  | tail _ held ih =>
    obtain ⟨n, named⟩ := held
    exact ih.step (more _ _ _ named)

/-- Where the holder of a node is known, one comes back up to what the node is below. -/
lemma Below.exists_iterate {up : α → α} {K : α → Prop}
    (back : ∀ d n c, E d n = some c → K c → up c = d) (holder : ∀ d n c, E d n = some c → K d)
    (below : Below E p i) (known : K i) : ∃ k, up^[k] i = p ∧ ∀ j ≤ k, K (up^[j] i) := by
  induction below with
  | refl =>
    refine ⟨0, rfl, fun j le => ?_⟩
    rw [Nat.le_zero.mp le]
    exact known
  | tail _ held ih =>
    obtain ⟨n, named⟩ := held
    obtain ⟨k, top, along⟩ := ih (holder _ n _ named)
    have first := back _ n _ named known
    refine ⟨k + 1, ?_, fun j le => ?_⟩
    · rw [Function.iterate_succ_apply, first, top]
    · cases j with
      | zero => exact known
      | succ j =>
        rw [Function.iterate_succ_apply, first]
        exact along j (Nat.le_of_succ_le_succ le)

lemma exists_iterate_lt {f : ℕ → ℕ} {a b N k : ℕ} (reached : f^[k] a = b)
    (bounded : ∀ j ≤ k, f^[j] a < N) : ∃ j < N, f^[j] a = b := by
  induction k using Nat.strong_induction_on with
  | _ k ih =>
    by_cases few : k < N
    · exact ⟨k, few, reached⟩
    -- two of the values agree, and what lies between them can be left out
    have maps : ∀ j ∈ Finset.range (k + 1), f^[j] a ∈ Finset.range N := fun j mem =>
      Finset.mem_range.mpr (bounded j (Nat.lt_succ_iff.mp (Finset.mem_range.mp mem)))
    obtain ⟨x, hx, y, hy, ne, same⟩ :=
      Finset.exists_ne_map_eq_of_card_lt_of_maps_to (by simp; omega) maps
    rw [Finset.mem_range] at hx hy
    wlog lt : x < y generalizing x y
    · exact this y hy x hx ne.symm same.symm (by omega)
    refine ih (k - y + x) (by omega) ?_ fun j le => bounded j (by omega)
    rw [Function.iterate_add_apply, same, ← Function.iterate_add_apply, ← reached]
    congr 2
    omega

variable [DecidableEq α] [DecidableEq ν]

@[simp] lemma setName_self (v : Option α) : setName E d n v d n = v := by
  simp [setName]

lemma setName_of_ne {v : Option α} {x : α} {m : ν} (ne : ¬ (x = d ∧ m = n)) :
    setName E d n v x m = E x m :=
  if_neg ne

lemma below_of_added (free : E d n = none) (below : Below E p i) :
    Below (setName E d n (some c)) p i := by
  refine below.mono fun x m i named => ?_
  rw [setName_of_ne, named]
  rintro ⟨rfl, rfl⟩
  rw [free] at named
  cases named

lemma below_of_dropped (named : E d n = some c) (bare : ∀ m, E c m = none)
    (below : Below E p i) (other : i ≠ c) : Below (setName E d n none) p i := by
  induction below with
  | refl => exact .refl p
  | @tail y i _ held ih =>
    obtain ⟨m, child⟩ := held
    have between : y ≠ c := fun same => by
      rw [same, bare] at child
      cases child
    refine (ih between).step (n := m) ?_
    rw [setName_of_ne, child]
    rintro ⟨rfl, rfl⟩
    exact other (Option.some.inj (child.symm.trans named))

section Moved
variable (named : E d n = some c) (bare : ∀ old, E d' n' = some old → ∀ m, E old m = none)
include named

private lemma moved_name {x : α} {m : ν} (child : E x m = some i) (other : i ≠ c)
    (kept : E d' n' ≠ some i) : setName (setName E d n none) d' n' (some c) x m = some i := by
  rw [setName_of_ne, setName_of_ne, child]
  · rintro ⟨rfl, rfl⟩
    exact other (Option.some.inj (child.symm.trans named))
  · rintro ⟨rfl, rfl⟩
    exact kept child

include bare

omit named [DecidableEq α] [DecidableEq ν] in
private lemma kept_of_child {x : α} {m : ν} (child : E x m = some i) : E d' n' ≠ some x := by
  intro replaced
  rw [bare x replaced] at child
  cases child

private lemma below_of_moved_apart (below : Below E p i) (outside : ¬ Below E c i)
    (kept : E d' n' ≠ some i) : Below (setName (setName E d n none) d' n' (some c)) p i := by
  induction below with
  | refl => exact .refl p
  | @tail y i _ held ih =>
    obtain ⟨m, child⟩ := held
    have above : ¬ Below E c y := fun inside => outside (inside.step child)
    have other : i ≠ c := fun same => outside (same ▸ .refl i)
    exact (ih above (kept_of_child bare child)).step (moved_name named child other kept)

variable (apart : ¬ Below E c d')
include apart

lemma below_moved (into : Below E p d') :
    Below (setName (setName E d n none) d' n' (some c)) p c := by
  have place : E d' n' ≠ some d' := fun self => by
    rw [bare d' self] at self
    cases self
  exact (below_of_moved_apart named bare into apart place).step (setName_self _)

/-- Moving a node to a place that is not below it keeps everything below `p`, apart from
what stood at that place. -/
lemma below_of_moved (into : Below E p d') (below : Below E p i) (kept : E d' n' ≠ some i) :
    Below (setName (setName E d n none) d' n' (some c)) p i := by
  induction below with
  | refl => exact .refl p
  | @tail y i _ held ih =>
    obtain ⟨m, child⟩ := held
    by_cases moved : i = c
    · rw [moved]
      exact below_moved named bare apart into
    · exact (ih (kept_of_child bare child)).step (moved_name named child moved kept)

end Moved

end Velda.Lib
