import Velda.Broker.Scheduler
import Velda.TaskStore.Counters

/-! The batch of a poll against the order of the scheduler. The poll sorts by `priority DESC`,
while the scheduler and `--priority` put the lower number first, so a batch that leaves ready
tasks behind is in order only when all of them have one priority. -/
namespace Velda.TaskStore
open List Broker

variable {s : Store} {t u : Task} {leaser : String}

def GoesFirst (t u : Task) : Prop :=
  match sessionComparator (t.priority, "") (u.priority, "") with
  | .lt => True
  | .eq => t.createTime ≤ u.createTime
  | .gt => False

def Store.ready (s : Store) : List Task :=
  s.tasks.filter fun t => t.status = .queueing ∧ t.pendingUpstreams = 0

/-- No ready task that the poll leaves behind comes before a task of the batch. -/
def LeasesFirst (s : Store) (leaser : String) : Prop :=
  ∀ t ∈ (pollTasksOnce s leaser).2, ∀ u ∈ (pollTasksOnce s leaser).1.ready, GoesFirst t u

lemma goesFirst_iff : GoesFirst t u ↔
    t.priority < u.priority ∨ t.priority = u.priority ∧ t.createTime ≤ u.createTime := by
  unfold GoesFirst sessionComparator
  rcases lt_trichotomy t.priority u.priority with lower | same | higher
  · simp [lower]
  · simp [same]
  · simp [higher, higher.not_gt, higher.ne']

def Store.queue (s : Store) : List Task := s.ready.insertionSort leaseOrder

lemma mem_queue : t ∈ s.queue ↔ t ∈ s.ready := mem_insertionSort _

lemma queue_sorted (s : Store) : s.queue.Pairwise leaseOrder := by
  have total : Std.Total leaseOrder := ⟨fun a b => by grind [leaseOrder]⟩
  have trans : IsTrans Task leaseOrder := ⟨fun a b c => by grind [leaseOrder]⟩
  exact pairwise_insertionSort leaseOrder s.ready

lemma chosen_iff (unique : s.UniqueKeys) (ht : t ∈ s.tasks) :
    s.availableTasks.any (·.key = t.key) = true ↔ t ∈ s.queue.take 10 := by
  refine ⟨fun chosen => ?_, fun mem => any_eq_true.mpr ⟨t, mem, decide_eq_true rfl⟩⟩
  obtain ⟨a, mem, same⟩ := any_eq_true.mp chosen
  have known := (mem_filter.mp (mem_queue.mp (mem_of_mem_take mem))).1
  have found := find_of_mem unique known
  rw [of_decide_eq_true same, find_of_mem unique ht] at found
  cases found
  exact mem

lemma mem_left (unique : s.UniqueKeys) :
    u ∈ (pollTasksOnce s leaser).1.ready ↔ u ∈ s.queue.drop 10 := by
  have parts : s.queue.take 10 ++ s.queue.drop 10 = s.queue := take_append_drop 10 s.queue
  have nodup : (s.queue.take 10 ++ s.queue.drop 10).Nodup := by
    rw [parts]
    exact (perm_insertionSort _ _).nodup_iff.mpr (unique.of_map.filter _)
  have apart : ∀ t ∈ s.queue.take 10, t ∉ s.queue.drop 10 := fun t early late =>
    disjoint_of_nodup_append nodup early late
  simp only [Store.ready, pollTasksOnce, mem_filter, mem_map]
  constructor
  · rintro ⟨⟨t, known, rfl⟩, ready⟩
    split at ready
    · simp at ready
    · next unchosen =>
      rw [if_neg unchosen]
      have mem := mem_queue.mpr (mem_filter.mpr ⟨known, ready⟩)
      rw [← parts, mem_append] at mem
      exact mem.resolve_left fun early => unchosen ((chosen_iff unique known).mpr early)
  · intro late
    obtain ⟨known, ready⟩ := mem_filter.mp (mem_queue.mp (mem_of_mem_drop late))
    refine ⟨⟨u, known, if_neg fun chosen => ?_⟩, ready⟩
    exact apart u ((chosen_iff unique known).mp chosen) late

lemma leasesFirst_iff (unique : s.UniqueKeys) : LeasesFirst s leaser ↔
    ∀ t ∈ s.queue.take 10, ∀ u ∈ s.queue.drop 10, GoesFirst t u := by
  unfold LeasesFirst
  simp only [mem_left unique]
  constructor
  · intro first t early
    have known := (mem_filter.mp (mem_queue.mp (mem_of_mem_take early))).1
    exact first { t with status := .leased, leaseBy := some leaser }
      (mem_map_of_mem (mem_filter.mpr ⟨known, (chosen_iff unique known).mpr early⟩))
  · intro first t mem
    obtain ⟨a, chosen, rfl⟩ := mem_map.mp mem
    obtain ⟨known, chosen⟩ := mem_filter.mp chosen
    exact first a ((chosen_iff unique known).mp chosen)

def waiting (priorities : List Int) : Store :=
  { Store.empty with
    tasks := priorities.zipIdx.map fun p =>
      SessionRequest.row ⟨⟨[], toString p.2⟩, [], "default", 0, p.1, [], []⟩ (toString p.2)
        .queueing 0 p.2 }

end Velda.TaskStore
