import Velda.TaskStore.Counters

/-! What `CreateTask` does to the tables when the requested name is free, and when it
keeps the counters exact. -/
namespace Velda.TaskStore
open List Option Store

variable {s : Store} {k : TaskKey}

def Store.refuses (s : Store) (d : Dependency) : Bool :=
  match s.statusOf d.upstream with
  | some status => status.finished && !d.trigger.allows status
  | none => false

variable {name first : Name} {r : SessionRequest} {rounds nextIndex : Nat} {d : Dependency}
  {s' : Store} {t : Task}

lemma allows_of_not_refuses {status : Status} (h : s.refuses d = false)
    (found : s.statusOf d.upstream = some status) (finished : status.finished = true) :
    d.trigger.allows status = true := by
  simpa [refuses, found, finished] using h

lemma addDownstreams_cons (d : Dependency) (rest : List Dependency) (triggerMet : Nat) :
    addDownstreams s (d :: rest) triggerMet =
      if s.refuses d then ({ s with deps := s.deps ++ [d] }, none)
      else addDownstreams { s with deps := s.deps ++ [d] } rest
        (triggerMet + if s.unfinished d.upstream then 0 else 1) := by
  have sameStatus : ({ s with deps := s.deps ++ [d] } : Store).statusOf d.upstream =
      s.statusOf d.upstream := rfl
  rw [addDownstreams]
  unfold refuses unfinished
  rcases eq_none_or_eq_some (s.statusOf d.upstream) with none | ⟨status, found⟩
  · simp only [sameStatus, none]
    rfl
  · simp only [sameStatus, found]
    cases status <;> cases d.trigger <;> simp [Status.finished, Trigger.allows]

def Store.linked (s : Store) (requested : List Dependency) : List Dependency :=
  requested.take ((requested.takeWhile fun d => !s.refuses d).length + 1)

lemma linked_isPrefix (s : Store) (requested : List Dependency) :
    s.linked requested <+: requested :=
  take_prefix _ _

lemma linked_of_accepted (accepted : requested.any s.refuses = false) :
    s.linked requested = requested := by
  have all : requested.takeWhile (fun d => !s.refuses d) = requested := by
    rw [takeWhile_eq_self_iff]
    intro d hd
    simpa using any_eq_false.mp accepted d hd
  rw [linked, all, take_of_length_le (Nat.le_succ _)]

lemma addDownstreams_eq (requested : List Dependency) : ∀ (s : Store) (triggerMet : Nat), ∃ met,
      addDownstreams s requested triggerMet = ({ s with deps := s.deps ++ s.linked requested },
          if requested.any s.refuses then none else some met) ∧
      met + requested.countP (fun d => s.unfinished d.upstream) =
        triggerMet + requested.length := by
  induction requested with
  | nil =>
    intro s triggerMet
    exact ⟨triggerMet, by simp [addDownstreams, linked], rfl⟩
  | cons d rest ih =>
    intro s triggerMet
    obtain ⟨met, store, total⟩ := ih { s with deps := s.deps ++ [d] }
      (triggerMet + if s.unfinished d.upstream then 0 else 1)
    change met + rest.countP (fun d => s.unfinished d.upstream) = _ at total
    refine ⟨met, ?_, ?_⟩
    · rw [addDownstreams_cons, any_cons]
      cases refused : s.refuses d with
      | true => simp [linked, refused]
      | false =>
        rw [if_neg Bool.false_ne_true, Bool.false_or, store]
        have linked : s.linked (d :: rest) = d :: s.linked rest := by
          simp [linked, refused]
        rw [linked, append_assoc]
        rfl
    · split at total <;> simp_all <;> omega

lemma chooseTaskId_free (taken : Name → Bool) (free : taken name = false) (rounds nextIndex : Nat) :
    chooseTaskId taken name (rounds + 1) nextIndex name = some name := by
  simp [chooseTaskId, free]

lemma any_key_of_find_none (h : s.find k = none) : s.tasks.any (·.key = k) = false := by
  simpa [find] using h

def SessionRequest.created (r : SessionRequest) (s : Store) (now : Time) : Task :=
  r.row r.taskId.taskId
    (if r.dependencyRows.any s.refuses then .failedUpstream else .queueing)
    (if r.dependencyRows.any s.refuses then r.dependencies.length
      else r.dependencyRows.countP fun d => s.unfinished d.upstream) now

lemma createTask_eq (now : Time) (free : s.find r.taskId = none) : createTask s r now = some
      ({ s with
          tasks := s.tasks ++ [r.created s now]
          deps := s.deps ++ s.linked r.dependencyRows
          pollReady := s.pollReady || ((r.created s now).status = .queueing &&
            (r.created s now).pendingUpstreams = 0) },
        r.taskId, (r.created s now).pendingUpstreams) := by
  obtain ⟨met, eq, total⟩ := addDownstreams_eq r.dependencyRows s 0
  have name := chooseTaskId_free (fun name => s.tasks.any (·.key = ⟨r.taskId.parentId, name⟩))
    (any_key_of_find_none free) s.tasks.length 2
  have length : r.dependencyRows.length = r.dependencies.length := length_map _
  rw [createTask, eq]
  simp only [name, SessionRequest.created]
  rcases Bool.eq_false_or_eq_true (r.dependencyRows.any s.refuses) with refused | accepted
  · simp [refused, SessionRequest.row]
  · have count : (r.dependencies.length : Int) - met =
        r.dependencyRows.countP fun d => s.unfinished d.upstream := by omega
    simp [accepted, count, SessionRequest.row]

lemma chooseTaskId_cases {taken : Name → Bool}
    (h : chooseTaskId taken first rounds nextIndex name = some chosen) :
    taken chosen = false ∧ (chosen = name ∨ ∃ i : Nat, chosen = first ++ "_" ++ toString i) := by
  induction rounds generalizing nextIndex name with
  | zero => cases h
  | succ rounds ih =>
    simp only [chooseTaskId] at h
    split at h
    · obtain ⟨free, rfl | numbered⟩ := ih h
      · exact ⟨free, .inr ⟨_, rfl⟩⟩
      · exact ⟨free, .inr numbered⟩
    · next free =>
      cases h
      exact ⟨Bool.eq_false_iff.mpr free, .inl rfl⟩

def candidates (taskIdPrefix : Name) : (rounds nextIndex : Nat) → Name → List Name
  | 0, _, _ => []
  | rounds + 1, nextIndex, taskId => taskId ::
      candidates taskIdPrefix rounds (nextIndex + 1) (taskIdPrefix ++ "_" ++ toString nextIndex)

lemma length_candidates (first : Name) (rounds nextIndex : Nat) (name : Name) :
    (candidates first rounds nextIndex name).length = rounds := by
  induction rounds generalizing nextIndex name with
  | zero => rfl
  | succ rounds ih => rw [candidates, length_cons, ih]

lemma mem_candidates (h : other ∈ candidates first rounds nextIndex name) :
    other = name ∨ ∃ i ≥ nextIndex, other = first ++ "_" ++ toString i := by
  induction rounds generalizing nextIndex name with
  | zero => cases h
  | succ rounds ih =>
    rcases mem_cons.mp h with rfl | later
    · exact .inl rfl
    · rcases ih later with rfl | ⟨i, above, rfl⟩
      · exact .inr ⟨nextIndex, le_rfl, rfl⟩
      · exact .inr ⟨i, by omega, rfl⟩

lemma numbered_inj {i j : Nat} (h : first ++ "_" ++ toString i = first ++ "_" ++ toString j) :
    i = j := by
  have digits : Nat.toDigits 10 i = Nat.toDigits 10 j := by
    simpa [Nat.repr_eq_ofList_toDigits, String.ofList_inj] using h
  have value := congrArg (fun l => Nat.ofDigitChars 10 l 0) digits
  simpa using value

lemma nodup_candidates (other : ∀ i ≥ nextIndex, name ≠ first ++ "_" ++ toString i) :
    (candidates first rounds nextIndex name).Nodup := by
  induction rounds generalizing nextIndex name with
  | zero => exact nodup_nil
  | succ rounds ih =>
    refine nodup_cons.mpr ⟨fun mem => ?_, ih fun i above same => ?_⟩
    · rcases mem_candidates mem with rfl | ⟨i, above, rfl⟩
      · exact other nextIndex le_rfl rfl
      · exact other i (by omega) rfl
    · have := numbered_inj same
      omega

lemma taken_of_chooseTaskId {taken : Name → Bool}
    (h : chooseTaskId taken first rounds nextIndex name = none) :
    ∀ other ∈ candidates first rounds nextIndex name, taken other = true := by
  induction rounds generalizing nextIndex name with
  | zero => simp [candidates]
  | succ rounds ih =>
    simp only [chooseTaskId] at h
    split at h
    · next used => exact forall_mem_cons.mpr ⟨used, ih h⟩
    · cases h

/-- One of the names is free, because there is one more of them than rows. -/
lemma createTask_isSome (s : Store) (r : SessionRequest) (now : Time) :
    (createTask s r now).isSome = true := by
  obtain ⟨met, eq, -⟩ := addDownstreams_eq r.dependencyRows s 0
  have tasks : (addDownstreams s r.dependencyRows 0).1.tasks = s.tasks := by rw [eq]
  simp only [createTask, isSome_map, tasks]
  by_contra none
  rw [not_isSome_iff_eq_none] at none
  have used := taken_of_chooseTaskId none
  have other : ∀ i ≥ 2, r.taskId.taskId ≠ r.taskId.taskId ++ "_" ++ toString i := by
    intro i _ same
    have length := congrArg String.length same
    simp only [String.length_append] at length
    have : "_".length = 1 := rfl
    omega
  have subset : candidates r.taskId.taskId (s.tasks.length + 1) 2 r.taskId.taskId ⊆
      s.tasks.map (·.key.taskId) := by
    intro name mem
    obtain ⟨t, ht, atKey⟩ := any_eq_true.mp (used name mem)
    exact mem_map.mpr ⟨t, ht, by rw [of_decide_eq_true atKey]⟩
  have short := (subperm_of_subset (nodup_candidates other) subset).length_le
  rw [length_candidates, length_map] at short
  omega

lemma createTask_spec {key : TaskKey} {count : Int}
    (h : createTask s r now = some (s', key, count)) :
    ∃ name, key = ⟨r.taskId.parentId, name⟩ ∧ s.find key = none ∧
      (s.find r.taskId = none → name = r.taskId.taskId) ∧
      (name = r.taskId.taskId ∨ ∃ i : Nat, name = r.taskId.taskId ++ "_" ++ toString i) ∧
      s'.tasks = s.tasks ++ [r.row name
        (if r.dependencyRows.any s.refuses then .failedUpstream else .queueing) count now] ∧
      s'.deps = s.deps ++ s.linked r.dependencyRows ∧
      count = if r.dependencyRows.any s.refuses then (r.dependencies.length : Int)
        else r.dependencyRows.countP fun d => s.unfinished d.upstream := by
  obtain ⟨met, eq, total⟩ := addDownstreams_eq r.dependencyRows s 0
  have length : r.dependencyRows.length = r.dependencies.length := length_map _
  simp only [createTask, eq] at h
  obtain ⟨name, chosen, inserted⟩ := map_eq_some_iff.mp h
  cases inserted
  obtain ⟨free, named⟩ := chooseTaskId_cases chosen
  refine ⟨name, rfl, by simpa [find] using free, fun unused => ?_, named, ?_, rfl, ?_⟩
  · rw [chooseTaskId_free _ (any_key_of_find_none unused)] at chosen
    exact (Option.some.inj chosen).symm
  · cases r.dependencyRows.any s.refuses <;> rfl
  · cases r.dependencyRows.any s.refuses
    · simp only [Bool.false_eq_true, if_false, getD_some]
      omega
    · simp

lemma createTask_cases {key : TaskKey} {count : Int}
    (h : createTask s r now = some (s', key, count)) :
    ∃ added name status, s'.tasks = s.tasks ++ [r.row name status count now] ∧
      s'.deps = s.deps ++ added ∧ added <+: r.dependencyRows ∧
      key = ⟨r.taskId.parentId, name⟩ ∧ s.find key = none ∧
      (s.find r.taskId = none → name = r.taskId.taskId) ∧
      (name = r.taskId.taskId ∨ ∃ i : Nat, name = r.taskId.taskId ++ "_" ++ toString i) ∧
      (status = .queueing ∨ status = .failedUpstream ∧ r.dependencyRows.any s.refuses = true) := by
  obtain ⟨name, own, free, same, named, tasks, deps, -⟩ := createTask_spec h
  refine ⟨_, name, _, tasks, deps, linked_isPrefix s _, own, free, same, named, ?_⟩
  cases r.dependencyRows.any s.refuses
  · exact .inl rfl
  · exact .inr ⟨rfl, rfl⟩

lemma uniqueKeys_append {row : Task} (unique : s.UniqueKeys) (free : s.find row.key = none)
    (tasks : s'.tasks = s.tasks ++ [row]) : s'.UniqueKeys := by
  rw [Store.UniqueKeys, tasks, List.map_append, List.nodup_append]
  refine ⟨unique, by simp, ?_⟩
  rintro _ old _ new rfl
  obtain ⟨t, ht, atKey⟩ := mem_map.mp old
  have absent := any_key_of_find_none free
  rw [List.any_eq_false] at absent
  exact absent t ht (decide_eq_true (atKey.trans (mem_singleton.mp new)))

section Insert
variable {row : Task} {added : List Dependency} (free : s.find row.key = none)

def Store.insert (s : Store) (row : Task) (added : List Dependency) : Store :=
  { s with tasks := s.tasks ++ [row], deps := s.deps ++ added }

lemma find_insert_of_ne (ne : row.key ≠ k) : (s.insert row added).find k = s.find k := by
  simp [Store.insert, Store.find, ne]

include free in
lemma find_insert_self : (s.insert row added).find row.key = some row := by
  rw [find] at free ⊢
  simp only [Store.insert, List.find?_append, free, none_or, List.find?_cons,
    decide_true]

lemma unfinished_insert_of_ne (ne : row.key ≠ k) :
    (s.insert row added).unfinished k = s.unfinished k := by
  rw [unfinished, unfinished, statusOf, statusOf, find_insert_of_ne ne]

include free in
lemma ne_of_mem (unique : s.UniqueKeys) (ht : t ∈ s.tasks) : row.key ≠ t.key := by
  intro same
  rw [same, find_of_mem unique ht] at free
  cases free

lemma dependenciesOf_insert_of_ne (own : ∀ d ∈ added, d.downstream = row.key)
    (ne : row.key ≠ k) : (s.insert row added).dependenciesOf k = s.dependenciesOf k := by
  have none : added.filter (·.downstream = k) = [] := by
    refine filter_eq_nil_iff.mpr fun d hd => ?_
    rw [own d hd]
    simpa using ne
  rw [Store.dependenciesOf, Store.insert, filter_append, none, append_nil,
    dependenciesOf]

include free in
lemma dependenciesOf_insert_self (C : Consistent s) (own : ∀ d ∈ added, d.downstream = row.key) :
    (s.insert row added).dependenciesOf row.key = added := by
  have none : s.deps.filter (·.downstream = row.key) = [] := by
    refine filter_eq_nil_iff.mpr fun d hd => ?_
    have owned := C.owned d hd
    intro same
    rw [of_decide_eq_true same, free] at owned
    cases owned
  have all : added.filter (·.downstream = row.key) = added :=
    filter_eq_self.mpr fun d hd => by simp [own d hd]
  rw [Store.dependenciesOf, Store.insert, filter_append, none, all, nil_append]

/-- The row is queueing with the right counter, or failed with no queueing task waiting
for it. -/
def Fits (s : Store) (row : Task) (added : List Dependency) : Prop :=
  (row.status = .failedUpstream ∧
    ∀ d ∈ s.deps, d.upstream = row.key → s.statusOf d.downstream ≠ some .queueing) ∨
  (row.status = .queueing ∧ added.any s.refuses = false ∧
    row.pendingUpstreams = added.countP fun d => s.unfinished d.upstream)

include free

lemma unfinished_free : s.unfinished row.key = true := by
  rw [unfinished, statusOf, free]
  rfl

section

variable (C : Consistent s)
  (fits : Fits s row added)
  (ht : t ∈ s.tasks)
  (isOpen : t.status.open = true)
  (hd : d ∈ s.dependenciesOf t.key)
include C fits ht isOpen hd

lemma upstream_insert : row.key ≠ d.upstream ∨ row.status = .queueing := by
  rcases fits with ⟨failed, unawaited⟩ | ⟨queueing, _⟩
  · refine .inl fun same => ?_
    obtain ⟨dep, own⟩ := mem_dependenciesOf.mp hd
    have notQueueing := unawaited d dep same.symm
    rw [own, statusOf_of_mem C.unique ht, ne_eq, Option.some.injEq] at notQueueing
    have busy : t.status = .leased ∨ t.status = .runningSubtasks := by
      revert isOpen notQueueing
      cases t.status <;> simp [Status.open]
    have finished := C.ready t ht busy d hd
    rw [← same, unfinished_free free] at finished
    cases finished
  · exact .inr queueing

lemma unfinished_upstream_insert :
    (s.insert row added).unfinished d.upstream = s.unfinished d.upstream := by
  by_cases same : row.key = d.upstream
  · have queueing := (upstream_insert free C fits ht isOpen hd).resolve_left (· same)
    rw [← same, unfinished_free free, unfinished, statusOf, find_insert_self free]
    simp [queueing, Status.finished]
  · exact unfinished_insert_of_ne same

end

lemma Consistent.insert (C : Consistent s) (own : ∀ d ∈ added, d.downstream = row.key)
    (nodup : added.Nodup) (acyclic : Acyclic (s.deps ++ added)) (unleased : row.leaseBy = none)
    (fits : Fits s row added) : Consistent (s.insert row added) := by
  have elsewhere : ∀ d ∈ added, row.key ≠ d.upstream := by
    obtain ⟨rank, ranked⟩ := acyclic
    intro d hd same
    have lt := ranked d (mem_append_right _ hd)
    rw [own d hd, same] at lt
    exact lt.false
  have cases : ∀ {t}, t ∈ (s.insert row added).tasks → t ∈ s.tasks ∨ t = row := by
    intro t ht
    simpa [Store.insert] using ht
  have oldDeps : ∀ {t}, t ∈ s.tasks →
      (s.insert row added).dependenciesOf t.key = s.dependenciesOf t.key :=
    fun ht => dependenciesOf_insert_of_ne own (ne_of_mem free C.unique ht)
  refine ⟨?_, ?_, acyclic, ?_, ?_, ?_, ?_, ?_, ?_⟩
  · exact uniqueKeys_append C.unique free rfl
  · refine nodup_append.mpr ⟨C.nodup, nodup, ?_⟩
    rintro d hd e he rfl
    have owned := C.owned d hd
    rw [own d he, free] at owned
    cases owned
  · intro d hd
    rcases mem_append.mp hd with old | new
    · by_cases same : row.key = d.downstream
      · rw [← same, find_insert_self free]
        rfl
      · rw [find_insert_of_ne same]
        exact C.owned d old
    · rw [own d new, find_insert_self free]
      rfl
  · intro t ht queueing
    rcases cases ht with old | rfl
    · have isOpen : t.status.open = true := by rw [queueing]; rfl
      rw [oldDeps old, C.exact t old queueing, Int.natCast_inj]
      exact countP_congr fun d hd => by
        rw [unfinished_upstream_insert free C fits old isOpen hd]
    · obtain ⟨-, -, counter⟩ := fits.resolve_left fun h => by simp [h.1] at queueing
      rw [dependenciesOf_insert_self free C own, counter, Int.natCast_inj]
      exact countP_congr fun d hd => by rw [unfinished_insert_of_ne (elsewhere d hd)]
  · intro t ht busy d hd
    rcases cases ht with old | rfl
    · rw [oldDeps old] at hd
      have isOpen : t.status.open = true := by rcases busy with h | h <;> rw [h] <;> rfl
      rw [unfinished_upstream_insert free C fits old isOpen hd]
      exact C.ready t old busy d hd
    · rcases fits with ⟨h, -⟩ | ⟨h, -⟩ <;> simp [h] at busy
  · intro t ht isOpen d hd st found finished
    rcases cases ht with old | rfl
    · rw [oldDeps old] at hd
      have ne : row.key ≠ d.upstream := by
        intro same
        have queueing := (upstream_insert free C fits old isOpen hd).resolve_left (· same)
        rw [← same, statusOf, find_insert_self free, map_some, queueing] at found
        cases found
        cases finished
      rw [statusOf, find_insert_of_ne ne] at found
      exact C.allowed t old isOpen d hd st found finished
    · rw [dependenciesOf_insert_self free C own] at hd
      obtain ⟨-, accepted, -⟩ := fits.resolve_left fun h => by simp [h.1, Status.open] at isOpen
      rw [statusOf, find_insert_of_ne (elsewhere d hd)] at found
      refine allows_of_not_refuses ?_ found finished
      simpa using any_eq_false.mp accepted d hd
  · intro t ht hasLease
    rcases cases ht with old | rfl
    · exact C.leased t old hasLease
    · rw [unleased] at hasLease
      cases hasLease
  · intro t ht queueing
    rcases cases ht with old | rfl
    · exact C.fresh t old queueing
    · exact unleased

end Insert

lemma nodup_dependencyRows (nodup : (r.dependencies.map (·.1)).Nodup) :
    r.dependencyRows.Nodup := by
  refine (List.Nodup.of_map _ nodup).map_on ?_
  intro a ha b hb same
  have name : a.1 = b.1 := congrArg (·.upstream.taskId) same
  exact inj_on_of_nodup_map nodup ha hb name

lemma Acyclic.of_isPrefix {deps requested added : List Dependency}
    (acyclic : Acyclic (deps ++ requested)) (h : added <+: requested) : Acyclic (deps ++ added) := by
  obtain ⟨rank, ranked⟩ := acyclic
  refine ⟨rank, fun d hd => ranked d ?_⟩
  rcases mem_append.mp hd with old | new
  · exact mem_append_left _ old
  · exact mem_append_right _ (h.subset new)

def CreateClean (s : Store) (r : SessionRequest) : Prop :=
  r.dependencyRows.any s.refuses = true →
    ∀ d ∈ s.deps, d.upstream = r.taskId → s.statusOf d.downstream ≠ some .queueing

instance (s : Store) (r : SessionRequest) : Decidable (CreateClean s r) :=
  inferInstanceAs (Decidable (_ → _))

lemma Consistent.createTask {now : Time} {key : TaskKey} {count : Int} (C : Consistent s)
    (free : s.find r.taskId = none) (nodup : (r.dependencies.map (·.1)).Nodup)
    (acyclic : Acyclic (s.deps ++ r.dependencyRows)) (clean : CreateClean s r)
    (h : createTask s r now = some (s', key, count)) : Consistent s' := by
  rw [createTask_eq now free, Option.some.injEq, Prod.mk.injEq] at h
  have isPre := linked_isPrefix s r.dependencyRows
  have own : ∀ d ∈ s.linked r.dependencyRows, d.downstream = (r.created s now).key := by
    intro d hd
    obtain ⟨e, -, rfl⟩ := mem_map.mp (isPre.subset hd)
    rfl
  have fits : Fits s (r.created s now) (s.linked r.dependencyRows) := by
    unfold SessionRequest.created
    cases refused : r.dependencyRows.any s.refuses with
    | true => exact .inl ⟨rfl, clean refused⟩
    | false =>
      rw [linked_of_accepted refused]
      exact .inr ⟨rfl, refused, rfl⟩
  have inserted := C.insert free own ((nodup_dependencyRows nodup).sublist isPre.sublist)
    (acyclic.of_isPrefix isPre) rfl fits
  rw [← h.1]
  exact ⟨inserted.unique, inserted.nodup, inserted.acyclic, inserted.owned, inserted.exact,
    inserted.ready, inserted.allowed, inserted.leased, inserted.fresh⟩

end Velda.TaskStore
