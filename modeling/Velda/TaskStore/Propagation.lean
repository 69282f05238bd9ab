import Velda.TaskStore.Operations

/-! What one pass of `updateTaskStatus` does when the dependency graph is acyclic.
The rows of the recursive query for a task are counted by the chains of failing
dependencies that lead to its upstreams, so a task reached along two chains hands
each of its downstream tasks two rows. -/
namespace Velda.TaskStore
open Lib List

def Ranked (rank : TaskKey → Nat) (deps : List Dependency) : Prop :=
  ∀ d ∈ deps, rank d.upstream < rank d.downstream

def Acyclic (deps : List Dependency) : Prop := ∃ rank, Ranked rank deps

instance (rank : TaskKey → Nat) (deps : List Dependency) : Decidable (Ranked rank deps) :=
  inferInstanceAs (Decidable (∀ d ∈ deps, _))

/-- Dependencies, last first, along which the outcome of `base` makes a task fail. -/
inductive FailChain (s : Store) (base : TaskKey) (outcome : Outcome) :
    List Dependency → TaskKey → Outcome → Prop
  | base : FailChain s base outcome [] base outcome
  | link {chain : List Dependency} {d : Dependency} {upstream : Outcome} :
      FailChain s base outcome chain d.upstream upstream → d ∈ s.deps →
      s.isOpen d.downstream = true → edgeOutcome upstream d.trigger = .failUpstream →
      FailChain s base outcome (d :: chain) d.downstream .failUpstream

variable {s : Store} {base v : TaskKey} {outcome o : Outcome} {rows : List UpdateRow}
  {rank : TaskKey → Nat} {chain : List Dependency}

lemma edgeOutcome_cases (upstream : Outcome) (trigger : Trigger) :
    edgeOutcome upstream trigger = .failUpstream ∨ edgeOutcome upstream trigger = .met := by
  unfold edgeOutcome
  split
  · exact .inl rfl
  · split
    · exact .inl rfl
    · exact .inr rfl

lemma mem_downstreamRows :
    r ∈ s.downstreamRows u ↔ ∃ d ∈ s.deps, d.upstream = u.key ∧ s.isOpen d.downstream = true ∧
      u.outcome ≠ .met ∧ r = ⟨d.downstream, edgeOutcome u.outcome d.trigger⟩ := by
  simp only [Store.downstreamRows, mem_map, mem_filter, decide_eq_true_eq]
  constructor
  · rintro ⟨d, ⟨mem, up, isOpen, notMet⟩, rfl⟩
    exact ⟨d, mem, up, isOpen, notMet, rfl⟩
  · rintro ⟨d, mem, up, isOpen, notMet, rfl⟩
    exact ⟨d, ⟨mem, up, isOpen, notMet⟩, rfl⟩

namespace FailChain

lemma rank_le (ranked : Ranked rank s.deps) (h : FailChain s base outcome chain v o) :
    rank base + chain.length ≤ rank v := by
  induction h with
  | base => simp
  | link _ mem _ _ ih =>
    have step := ranked _ mem
    simp only [length_cons]
    omega

lemma of_base (ranked : Ranked rank s.deps) (h : FailChain s base outcome chain base o) :
    chain = [] ∧ o = outcome := by
  have bound := h.rank_le ranked
  have empty : chain = [] := length_eq_zero_iff.mp (by omega)
  subst empty
  cases h
  exact ⟨rfl, rfl⟩

lemma outcome_of_ne (h : FailChain s base outcome chain v o) (ne : v ≠ base) :
    o = .failUpstream := by
  cases h with
  | base => exact absurd rfl ne
  | link => rfl

lemma outcome_ne_met (start : outcome ≠ .met) (h : FailChain s base outcome chain v o) :
    o ≠ .met := by
  cases h with
  | base => exact start
  | link => simp

lemma outcome_unique (ranked : Ranked rank s.deps) (h : FailChain s base outcome chain v o)
    (h' : FailChain s base outcome chain' v o') : o = o' := by
  by_cases atBase : v = base
  · subst atBase
    rw [(h.of_base ranked).2, (h'.of_base ranked).2]
  · rw [h.outcome_of_ne atBase, h'.outcome_of_ne atBase]

lemma isOpen_of_ne (h : FailChain s base outcome chain v o) (ne : v ≠ base) :
    s.isOpen v = true := by
  cases h with
  | base => exact absurd rfl ne
  | link _ _ isOpen _ => exact isOpen

end FailChain

lemma row_of_chain (start : outcome ≠ .met) (found : s.downstreamUpdates base outcome = some rows)
    (h : FailChain s base outcome chain v o) : ⟨v, o⟩ ∈ rows := by
  induction h with
  | base => exact recursiveQuery_frontier found (mem_singleton.mpr rfl)
  | @link _ d _ tail mem isOpen edge ih =>
    refine recursiveQuery_closed found ih (mem_downstreamRows.mpr ?_)
    exact ⟨d, mem, rfl, isOpen, tail.outcome_ne_met start, by rw [edge]⟩

lemma chain_of_row (found : s.downstreamUpdates base outcome = some rows) (mem : r ∈ rows)
    (notMet : r.outcome ≠ .met) : ∃ chain, FailChain s base outcome chain r.key r.outcome := by
  refine recursiveQuery_induction
    (p := fun r => r.outcome ≠ .met → ∃ chain, FailChain s base outcome chain r.key r.outcome)
    ?_ ?_ found r mem notMet
  · intro r mem _
    obtain rfl := mem_singleton.mp mem
    exact ⟨[], .base⟩
  · intro u handed r produced notMet
    obtain ⟨d, dep, up, isOpen, started, rfl⟩ := mem_downstreamRows.mp produced
    obtain ⟨chain, h⟩ := handed started
    rw [← up] at h
    have edge : edgeOutcome u.outcome d.trigger = .failUpstream :=
      (edgeOutcome_cases _ _).resolve_right notMet
    exact ⟨d :: chain, edge ▸ .link h dep isOpen edge⟩

lemma row_cases (found : s.downstreamUpdates base outcome = some rows) (mem : r ∈ rows) :
    r = ⟨base, outcome⟩ ∨ ∃ d ∈ s.deps, ∃ chain o,
      FailChain s base outcome chain d.upstream o ∧ s.isOpen d.downstream = true ∧
      r = ⟨d.downstream, edgeOutcome o d.trigger⟩ := by
  rcases recursiveQuery_mem_cases found mem with start | ⟨u, hu, produced⟩
  · exact .inl (mem_singleton.mp start)
  · obtain ⟨d, dep, up, isOpen, started, rfl⟩ := mem_downstreamRows.mp produced
    obtain ⟨chain, h⟩ := chain_of_row found hu started
    exact .inr ⟨d, dep, chain, u.outcome, up ▸ h, isOpen, rfl⟩

def failCount (rows : List UpdateRow) (k : TaskKey) : Nat :=
  rows.countP fun r => r.key = k ∧ r.outcome ≠ .met

lemma failCount_pos_iff (start : outcome ≠ .met)
    (found : s.downstreamUpdates base outcome = some rows) :
    0 < failCount rows v ↔ ∃ chain o, FailChain s base outcome chain v o := by
  simp only [failCount, countP_pos_iff, decide_eq_true_eq]
  constructor
  · rintro ⟨r, mem, rfl, notMet⟩
    obtain ⟨chain, h⟩ := chain_of_row found mem notMet
    exact ⟨chain, r.outcome, h⟩
  · rintro ⟨chain, o, h⟩
    exact ⟨⟨v, o⟩, row_of_chain start found h, rfl, h.outcome_ne_met start⟩

lemma countP_rows (found : s.downstreamUpdates base outcome = some rows) (p : UpdateRow → Bool) :
    rows.countP p = (if p ⟨base, outcome⟩ then 1 else 0) + (s.deps.map fun d => rows.countP fun r =>
        (d.upstream = r.key ∧ s.isOpen d.downstream ∧ r.outcome ≠ .met) ∧
          p ⟨d.downstream, edgeOutcome r.outcome d.trigger⟩).sum := by
  rw [countP_recursiveQuery found p, countP_singleton, ← sum_countP_comm]
  congr 2
  refine map_congr_left fun r _ => ?_
  rw [Store.downstreamRows, countP_map, countP_filter]
  refine countP_congr fun d _ => ?_
  simp only [Bool.and_eq_true, decide_eq_true_eq]
  tauto

lemma failCount_le_one (ranked : Ranked rank s.deps) (nodup : s.deps.Nodup)
    (start : outcome ≠ .met) (found : s.downstreamUpdates base outcome = some rows)
    (single : ∀ c c' o o', FailChain s base outcome c v o → FailChain s base outcome c' v o' →
      c = c') : failCount rows v ≤ 1 := by
  induction hn : rank v using Nat.strong_induction_on generalizing v with
  | _ n ih =>
  subst hn
  have extend : ∀ d ∈ s.deps, 0 < rows.countP (fun r =>
      (d.upstream = r.key ∧ s.isOpen d.downstream ∧ r.outcome ≠ .met) ∧
        (d.downstream = v ∧ edgeOutcome r.outcome d.trigger ≠ .met)) →
      d.downstream = v ∧ ∃ chain o, FailChain s base outcome chain d.upstream o ∧
        FailChain s base outcome (d :: chain) v .failUpstream := by
    intro d mem positive
    simp only [countP_pos_iff, decide_eq_true_eq] at positive
    obtain ⟨r, hr, ⟨up, isOpen, started⟩, rfl, edge⟩ := positive
    obtain ⟨chain, h⟩ := chain_of_row found hr started
    rw [← up] at h
    exact ⟨rfl, chain, r.outcome, h,
      .link h mem isOpen ((edgeOutcome_cases _ _).resolve_right edge)⟩
  have total := countP_rows found fun r => r.key = v ∧ r.outcome ≠ .met
  simp only [decide_eq_true_eq] at total
  rw [failCount, total]
  by_cases atBase : base = v
  · subst atBase
    have none : ∀ d ∈ s.deps, rows.countP (fun r =>
        (d.upstream = r.key ∧ s.isOpen d.downstream ∧ r.outcome ≠ .met) ∧
          (d.downstream = base ∧ edgeOutcome r.outcome d.trigger ≠ .met)) = 0 := by
      intro d mem
      by_contra positive
      obtain ⟨_, chain, o, _, long⟩ := extend d mem (Nat.pos_of_ne_zero positive)
      exact absurd (long.of_base ranked).1 (by simp)
    rw [sum_eq_zero]
    · simp [start]
    · intro n mem
      obtain ⟨d, hd, rfl⟩ := mem_map.mp mem
      exact none d hd
  · rw [if_neg (by simp [atBase]), Nat.zero_add]
    refine sum_le_one nodup ?_ ?_
    · intro d mem
      by_cases positive : 0 < rows.countP (fun r =>
          (d.upstream = r.key ∧ s.isOpen d.downstream ∧ r.outcome ≠ .met) ∧
            (d.downstream = v ∧ edgeOutcome r.outcome d.trigger ≠ .met))
      · obtain ⟨rfl, chain, o, h, long⟩ := extend d mem positive
        have earlier := ih (rank d.upstream) (ranked d mem)
          (fun c c' oc oc' hc hc' => by
            have edge : edgeOutcome o d.trigger = .failUpstream := by
              cases long with
              | link tail _ _ edge => rwa [tail.outcome_unique ranked h] at edge
            have isOpen := long.isOpen_of_ne (Ne.symm atBase)
            rw [hc.outcome_unique ranked h] at hc
            rw [hc'.outcome_unique ranked h] at hc'
            have same := single _ _ _ _ (.link hc mem isOpen edge) (.link hc' mem isOpen edge)
            exact (List.cons.inj same).2) rfl
        refine Nat.le_trans (countP_mono_left ?_) earlier
        intro r _ both
        simp only [decide_eq_true_eq] at both ⊢
        exact ⟨both.1.1.symm, both.1.2.2⟩
      · omega
    · intro d hd d' hd' positive positive'
      obtain ⟨_, c, _, _, long⟩ := extend d hd positive
      obtain ⟨_, c', _, _, long'⟩ := extend d' hd' positive'
      exact (List.cons.inj (single _ _ _ _ long long')).1

lemma FailChain.unique_of_failCount (ranked : Ranked rank s.deps) (start : outcome ≠ .met)
    (found : s.downstreamUpdates base outcome = some rows) (h : FailChain s base outcome chain v o)
    (h' : FailChain s base outcome chain' v o') (single : failCount rows v ≤ 1) :
    chain = chain' := by
  induction h generalizing chain' o' with
  | base => exact (h'.of_base ranked).1.symm
  | @link chain d up tail mem isOpen edge ih =>
    have long := FailChain.link tail mem isOpen edge
    generalize own : d.downstream = v at h' single long
    cases h' with
    | base => exact absurd (long.of_base ranked).1 (by simp)
    | @link chain' d' up' tail' mem' isOpen' edge' =>
      have total := countP_rows found fun r => r.key = d'.downstream ∧ r.outcome ≠ .met
      simp only [decide_eq_true_eq] at total
      let handed (e : Dependency) : Nat := rows.countP fun r =>
        (e.upstream = r.key ∧ s.isOpen e.downstream ∧ r.outcome ≠ .met) ∧
          (e.downstream = d'.downstream ∧ edgeOutcome r.outcome e.trigger ≠ .met)
      have sum : (s.deps.map handed).sum ≤ 1 := by
        refine le_trans ?_ single
        rw [failCount, total]
        exact Nat.le_add_left _ _
      have counted {e : Dependency} {c : List Dependency} {u : Outcome}
          (same : e.downstream = d'.downstream) (chained : FailChain s base outcome c e.upstream u)
          (fails : edgeOutcome u e.trigger = .failUpstream) :
          failCount rows e.upstream ≤ handed e := by
        refine countP_mono_left fun r hr holds => ?_
        simp only [decide_eq_true_eq] at holds ⊢
        obtain ⟨c', reached⟩ := chain_of_row found hr holds.2
        rw [holds.1] at reached
        rw [reached.outcome_unique ranked chained, fails, same, isOpen']
        refine ⟨⟨holds.1.symm, rfl, ?_⟩, rfl, nofun⟩
        exact reached.outcome_unique ranked chained ▸ holds.2
      have first := counted own tail edge
      have second := counted rfl tail' edge'
      have positive := (failCount_pos_iff start found).mpr ⟨chain, up, tail⟩
      have positive' := (failCount_pos_iff start found).mpr ⟨chain', up', tail'⟩
      by_cases same : d = d'
      · have bound : handed d ≤ (s.deps.map handed).sum :=
          le_sum_of_mem (mem_map_of_mem mem)
        rw [← same] at tail' ⊢
        rw [ih tail' (by omega)]
      · have bound := add_le_sum handed mem mem' same
        omega

lemma countP_key (found : s.downstreamUpdates base outcome = some rows) (ne : v ≠ base)
    (isOpen : s.isOpen v = true) : rows.countP (fun r => r.key = v) =
      ((s.dependenciesOf v).map fun d => failCount rows d.upstream).sum := by
  have total := countP_rows found fun r => r.key = v
  simp only [decide_eq_true_eq] at total
  rw [total, if_neg (Ne.symm ne), Nat.zero_add, Store.dependenciesOf]
  induction s.deps with
  | nil => rfl
  | cons d rest ih =>
    rw [map_cons, sum_cons, ih, filter_cons]
    by_cases own : d.downstream = v
    · simp only [own, isOpen]
      congr 1
      refine countP_congr fun r _ => ?_
      simp only [decide_eq_true_eq, and_true, true_and]
      exact and_congr_left fun _ => eq_comm
    · simp [own]

lemma iterate_chain (ranked : Ranked rank s.deps) (k : Nat)
    (mem : r ∈ (fun l : List UpdateRow => l.flatMap s.downstreamRows)^[k] [⟨base, outcome⟩]) :
    ∃ used : List Dependency, used.length = k ∧ used.Nodup ∧ used ⊆ s.deps ∧
      ∀ d ∈ used, rank d.upstream < rank r.key := by
  induction k generalizing r with
  | zero => exact ⟨[], rfl, nodup_nil, nil_subset _, by simp⟩
  | succ k ih =>
    rw [Function.iterate_succ_apply'] at mem
    obtain ⟨u, hu, produced⟩ := mem_flatMap.mp mem
    obtain ⟨d, dep, up, _, _, rfl⟩ := mem_downstreamRows.mp produced
    obtain ⟨used, length, nodup, subset, below⟩ := ih hu
    have step := ranked d dep
    refine ⟨d :: used, by simp [length], ?_, cons_subset.mpr ⟨dep, subset⟩, ?_⟩
    · refine nodup_cons.mpr ⟨fun again => ?_, nodup⟩
      have := below d again
      rw [up] at this
      omega
    · intro e he
      rcases mem_cons.mp he with rfl | he
      · exact step
      · have := below e he
        rw [← up] at this
        exact this.trans step

lemma downstreamUpdates_isSome (acyclic : Acyclic s.deps) (base : TaskKey) (outcome : Outcome) :
    (s.downstreamUpdates base outcome).isSome := by
  obtain ⟨rank, ranked⟩ := acyclic
  refine recursiveQuery_isSome ?_ le_rfl
  refine eq_nil_iff_forall_not_mem.mpr fun r mem => ?_
  obtain ⟨used, length, nodup, subset, _⟩ := iterate_chain ranked _ mem
  have bound := (subperm_of_subset nodup subset).length_le
  omega

lemma firstOutcome_of_chain (ranked : Ranked rank s.deps) (start : outcome ≠ .met)
    (found : s.downstreamUpdates base outcome = some rows)
    (h : FailChain s base outcome chain v o) : firstOutcome rows v = some o := by
  unfold firstOutcome
  cases hf : rows.find? fun r => r.key = v ∧ r.outcome ≠ .met with
  | none =>
    have absent := List.find?_eq_none.mp hf _ (row_of_chain start found h)
    simp [h.outcome_ne_met start] at absent
  | some r =>
    have holds := List.find?_some hf
    simp only [decide_eq_true_eq] at holds
    obtain ⟨rfl, notMet⟩ := holds
    obtain ⟨chain', h'⟩ := chain_of_row found (mem_of_find?_eq_some hf) notMet
    rw [Option.map_some, h'.outcome_unique ranked h]

lemma firstOutcome_eq_none (h : failCount rows v = 0) : firstOutcome rows v = none := by
  simp only [failCount, countP_eq_zero] at h
  rw [firstOutcome, List.find?_eq_none.mpr h, Option.map_none]

@[simp] lemma applyRows_key (now : Time) (t : Task) : (applyRows rows now t).key = t.key := by
  unfold applyRows
  split <;> rfl

@[simp] lemma applyRows_leaseBy (now : Time) (t : Task) :
    (applyRows rows now t).leaseBy = t.leaseBy := by
  unfold applyRows
  split <;> rfl

@[simp] lemma applyRows_result (now : Time) (t : Task) :
    (applyRows rows now t).result = t.result := by
  unfold applyRows
  split <;> rfl

lemma countP_key_of_untouched (h : touched rows t = false) (p : Outcome → Bool) :
    rows.countP (fun r => r.key = t.key ∧ p r.outcome) = 0 := by
  simp only [touched, any_eq_false, decide_eq_true_eq] at h
  simp only [countP_eq_zero, decide_eq_true_eq]
  exact fun r mem both => h r mem both.1

lemma applyRows_status (now : Time) (t : Task) :
    (applyRows rows now t).status = Outcome.status t.status (firstOutcome rows t.key) := by
  cases h : touched rows t with
  | true => simp [applyRows, h]
  | false =>
    have zero := countP_key_of_untouched h fun o => o ≠ .met
    rw [applyRows, h, firstOutcome_eq_none (by simpa [failCount] using zero)]
    rfl

lemma applyRows_pendingUpstreams (now : Time) (t : Task) :
    (applyRows rows now t).pendingUpstreams = t.pendingUpstreams - upstreamMet rows t.key := by
  cases h : touched rows t with
  | true => simp [applyRows, h]
  | false =>
    have zero := countP_key_of_untouched h fun o => o = .met ∨ o = .failUpstream
    have zero : upstreamMet rows t.key = 0 := by simpa [upstreamMet] using zero
    simp [applyRows, h, zero]

lemma upstreamMet_eq_countP_key (found : s.downstreamUpdates base outcome = some rows)
    (ne : v ≠ base) : upstreamMet rows v = rows.countP fun r => r.key = v := by
  refine countP_congr fun r mem => ?_
  simp only [decide_eq_true_eq, and_iff_left_iff_imp]
  rintro rfl
  rcases row_cases found mem with rfl | ⟨d, _, _, o, _, _, rfl⟩
  · exact absurd rfl ne
  · exact (edgeOutcome_cases o d.trigger).symm

end Velda.TaskStore
