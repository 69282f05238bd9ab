import Velda.Tracker.Leases

/-! The expansion of a sharded task. Every attempt creates its shards from the first one on, under
other names where those are taken, and the pool of a gang is changed before it is known whether
its batch can be had. -/
namespace Velda.Tracker
open Lib Broker TaskStore List Option TaskTracker

variable {cfg : Config} {setup : Setup} {row : Task} {w : Workload} {pool : String} {c : Callback}
  {s s' t : Store} {count i n : Nat} {done : Bool}

/-- How many of `count` shards are created, from `i` on. -/
def Callback.creates (c : Callback) (count i : Nat) : Nat :=
  c.failedShard.elim count fun failed => if i ≤ failed then min count (failed - i) else count

/-- The number in the name of a shard, to which `CreateTask` may append another one. -/
def shardName (name : TaskStore.Name) : TaskStore.Name :=
  String.ofList (name.toList.takeWhile (· ≠ '_'))

lemma shardName_eq {name : TaskStore.Name}
    (h : name = toString i ∨ ∃ j : Nat, name = toString i ++ "_" ++ toString j) :
    shardName name = toString i := by
  have digits : ∀ d ∈ Nat.toDigits 10 i, (!decide (d = '_')) = true := by
    intro d mem
    have digit := Nat.isDigit_of_mem_toDigits (by omega) (by omega) mem
    rw [Bool.not_eq_true', decide_eq_false_iff_not]
    rintro rfl
    cases digit
  obtain rfl | ⟨j, rfl⟩ := h
  · simp [shardName, takeWhile_eq_self_iff.mpr digits, ← Nat.repr_eq_ofList_toDigits]
  · simp [shardName, takeWhile_append_of_pos digits, ← Nat.repr_eq_ofList_toDigits]

lemma createShards_rows (h : createShards setup row w pool c count i s = (s', done)) :
    ∃ new, s'.tasks = s.tasks ++ new ∧
      (∀ t ∈ new, t.pool = pool ∧ t.key.parentId = row.key.childrenId) ∧
      new.map (shardName ·.key.taskId) = (range' i (c.creates count i)).map toString := by
  induction count generalizing i s with
  | zero =>
    cases h
    cases failed : c.failedShard <;> simp [Callback.creates, failed]
  | succ count ih =>
    simp only [createShards] at h
    split at h
    · next failed =>
      cases h
      exact ⟨[], by simp, by simp, by simp [Callback.creates, failed]⟩
    · next going =>
      have more : c.creates (count + 1) i = c.creates count (i + 1) + 1 := by
        unfold Callback.creates
        cases failed : c.failedShard with
        | none => rfl
        | some f =>
          have other : f ≠ i := fun same => going (by rw [failed, same])
          simp only [elim_some]
          split <;> split <;> omega
      split at h
      · next refused =>
        have made := createTask_isSome s (shardRequest setup row w pool i) (c.answer.clock i)
        rw [refused] at made
        cases made
      · next m _ created =>
        obtain ⟨name, own, -, -, named, tasks, -⟩ := createTask_spec created
        obtain ⟨new, rest, placed, names⟩ := ih h
        refine ⟨_ :: new, by rw [rest, tasks, append_assoc]; rfl, ?_, ?_⟩
        · exact forall_mem_cons.mpr ⟨⟨rfl, rfl⟩, placed⟩
        · rw [more, range'_succ, map_cons, map_cons, names]
          exact congrArg (· :: _) (shardName_eq named)

def shardCount (s : Store) (row : TaskKey) (shard : Nat) : Nat :=
  (s.children row).countP (shardName ·.key.taskId = toString shard)

/-- Attempts to expand a task, last first, each with the number of shards that it creates. Whatever
is done between them, nothing else makes a child of the task. -/
inductive Expanded (setup : Setup) (row : Task) (w : Workload) (n : Nat) :
    List Nat → Store → Store → Prop
  | none {s t : Store} : (t.children row.key).map (·.key) = (s.children row.key).map (·.key) →
      Expanded setup row w n [] s t
  | attempt {s m s' t : Store} {ks : List Nat} {p : String} {c : Callback} {done : Bool} :
      Expanded setup row w n ks s m → createShards setup row w p c n 0 m = (s', done) →
      (t.children row.key).map (·.key) = (s'.children row.key).map (·.key) →
      Expanded setup row w n (c.creates n 0 :: ks) s t

lemma shardCount_congr {row : TaskKey}
    (same : (t.children row).map (·.key) = (s.children row).map (·.key)) :
    shardCount t row shard = shardCount s row shard := by
  have count : ∀ s : Store, shardCount s row shard =
      ((s.children row).map (·.key)).countP (shardName ·.taskId = toString shard) :=
    fun s => by rw [countP_map]; rfl
  rw [count, count, same]

lemma shardCount_createShards (h : createShards setup row w pool c n 0 s = (s', done)) :
    shardCount s' row.key shard =
      shardCount s row.key shard + if shard < c.creates n 0 then 1 else 0 := by
  obtain ⟨new, tasks, placed, names⟩ := createShards_rows h
  have children : s'.children row.key = s.children row.key ++ new := by
    have all : new.filter (·.key.parentId = row.key.childrenId) = new :=
      filter_eq_self.mpr fun t ht => by simp [placed t ht]
    rw [Store.children, tasks, filter_append, all, Store.children]
  have once : new.countP (shardName ·.key.taskId = toString shard) =
      (range (c.creates n 0)).count shard := by
    have mapped : new.countP (shardName ·.key.taskId = toString shard) =
        (new.map (shardName ·.key.taskId)).count (toString shard) := by
      rw [List.count, countP_map]
      exact countP_congr fun _ _ => by simp
    rw [mapped, names, ← range_eq_range', count_map_of_injective]
    exact fun i j same => numbered_inj (congrArg ("" ++ "_" ++ ·) same)
  rw [shardCount, children, countP_append, once, nodup_range.count]
  simp [shardCount]

lemma Expanded.counts (h : Expanded setup row w n ks s t) (shard : Nat) :
    shardCount t row.key shard = shardCount s row.key shard + ks.countP (shard < ·) := by
  induction h with
  | none same => exact shardCount_congr same
  | attempt _ made same ih =>
    rw [shardCount_congr same, shardCount_createShards made, ih, countP_cons]
    simp only [decide_eq_true_eq]
    omega

/-- A task gets one child for each of its shards exactly when one attempt creates all of them and
the others none. -/
theorem shards_once_iff {ks : List Nat} (h : Expanded setup row w n ks s t)
    (fresh : s.children row.key = []) (some : 0 < n) :
    (∀ shard < n, shardCount t row.key shard = 1) ↔ ks.filter (0 < ·) = [n] := by
  have counts : ∀ shard, shardCount t row.key shard = ks.countP (shard < ·) := fun shard => by
    rw [h.counts, shardCount, fresh, countP_nil, Nat.zero_add]
  have bounded : ∀ k ∈ ks, k ≤ n := by
    clear counts fresh
    induction h with
    | none => simp
    | @attempt _ _ _ _ _ _ c _ _ _ _ ih =>
      refine forall_mem_cons.mpr ⟨?_, ih⟩
      cases failed : c.failedShard <;> simp [Callback.creates, failed]
  simp only [counts]
  constructor
  · intro once
    have first := once 0 some
    rw [countP_eq_length_filter] at first
    obtain ⟨k, only⟩ := length_eq_one_iff.mp first
    have last := once (n - 1) (by omega)
    obtain ⟨j, mem, above⟩ := countP_pos_iff.mp (last ▸ Nat.one_pos)
    have above : n - 1 < j := of_decide_eq_true above
    have full : j = n := by
      have := bounded j mem
      omega
    have listed : j ∈ ks.filter (0 < ·) := mem_filter.mpr ⟨mem, by simp; omega⟩
    rw [only, mem_singleton] at listed
    rw [only, ← listed, full]
  · intro only shard below
    have filtered : ks.countP (shard < ·) = (ks.filter (0 < ·)).countP (shard < ·) := by
      rw [countP_filter]
      refine countP_congr fun k _ => ?_
      simp only [Bool.and_eq_true, decide_eq_true_eq]
      omega
    simp [filtered, only, below]

def parent : Task := SessionRequest.row ⟨⟨[], "p"⟩, [], "pool", 0, 0, [], []⟩ "p" .leased 0 0

theorem shards_once_retried : ∃ t, Expanded sharding parent ⟨2, -1, false, ""⟩ 2 [2, 0] .empty t ∧
    ∀ shard < 2, shardCount t parent.key shard = 1 := by
  have h : Expanded sharding parent ⟨2, -1, false, ""⟩ 2 [2, 0] .empty _ :=
    .attempt (p := "pool") (c := {}) (.attempt (p := "pool") (c := { failedShard := some 0 })
      (.none rfl) rfl rfl) rfl rfl
  exact ⟨_, h, (shards_once_iff h rfl (by decide)).mpr (by decide)⟩

/-- The second shard cannot be created. The lease of the task is released, and with the next one
the first shard is created again. -/
theorem shards_duplicated : ∃ tr : TaskTracker taskPool,
    Reachable (step sharding) (Unblocked sharding) init tr ∧
      shardCount tr.store ⟨[], "p"⟩ 0 = 2 ∧ shardCount tr.store ⟨[], "p"⟩ 1 = 1 :=
  exists_of_run _ _ _
    (List.flatten [arrives, [.renewLeaser "broker" 1, .poll,
      .process 0 { failedShard := some 1, periodic := true }, .releaseExpiredLeaser 2, .poll,
      .process 0 {}]]) _ (by decide +kernel)

def batchPool (row : Task) : String :=
  row.pool ++ ":" ++ "/".intercalate row.key.childrenId.reverse

/-- The shards of a gang are in the pool of the batch that was requested; if none was, they are in
the pool of the task, and there is no new pool. `accepted` is the answer of `RequestBatch`. -/
def FallsBack (setup : Setup) (row : Task) (w : Workload) (c : Callback) (accepted : Bool)
    (tr u : TaskTracker cfg) : Prop :=
  let batched := w.gang && tr.getPool setup row.pool
  let pool := if batched then batchPool row else row.pool
  let made := (createShards setup row w pool c w.totalShards.toNat 0 tr.store).1.tasks.drop
    tr.store.tasks.length
  if batched && accepted then ∀ t ∈ made, t.pool = batchPool row
  else (∀ t ∈ made, t.pool = row.pool) ∧ ∀ p ∈ u.pools, p ∈ tr.pools

end Velda.Tracker
