import Mathlib
import Velda.Lib.Keyed

/-! A keyed set fed through two channels, one with members to add and one with
members to remove. The two channels are read in any order. Reading a removal
confirms it to the member named there when some member has its key, and is
dropped otherwise. -/
namespace Velda.Lib
open List

variable {α κ : Type} {key : α → κ}

structure Registry (key : α → κ) where
  members : Keyed key
  adds : List α
  removes : List α

variable {a b : α}

namespace Registry

def empty : Registry key := ⟨.empty, [], []⟩

def sendAdd (r : Registry key) (a : α) : Registry key := { r with adds := r.adds ++ [a] }

def sendRemove (r : Registry key) (a : α) : Registry key := { r with removes := r.removes ++ [a] }

def Sole (r : Registry key) (a : α) : Prop := ∀ b ∈ r.members, key b = key a → b = a

def Fresh (r : Registry key) (a : α) : Prop := ∀ b ∈ r.members, key b ≠ key a

section Decide
variable [DecidableEq α] [DecidableEq κ]

instance (r : Registry key) (a : α) : Decidable (r.Sole a) :=
  inferInstanceAs (Decidable (∀ b ∈ r.members.entries, key b = key a → b = a))

instance (r : Registry key) (a : α) : Decidable (r.Fresh a) :=
  inferInstanceAs (Decidable (∀ b ∈ r.members.entries, key b ≠ key a))

end Decide

section Take
variable [DecidableEq κ]

def takeAdd (r : Registry key) : Option (Registry key) :=
  match r.adds with
  | [] => none
  | a :: rest => some { r with adds := rest, members := r.members.insert a }

def takeRemove (r : Registry key) : Option (Registry key × Option α) :=
  match r.removes with
  | [] => none
  | a :: rest =>
    if (r.members.lookup (key a)).isSome then
      some ({ r with removes := rest, members := r.members.erase (key a) }, some a)
    else some ({ r with removes := rest }, none)

def leave (r : Registry key) (a : α) : Registry key :=
  { r with members := r.members.erase (key a) }

variable {r t : Registry key}

lemma takeAdd_cases (h : r.takeAdd = some t) : ∃ a rest, r.adds = a :: rest ∧
      t = { r with adds := rest, members := r.members.insert a } := by
  unfold takeAdd at h
  split at h
  · cases h
  · next a rest adds => exact ⟨a, rest, adds, (Option.some.inj h).symm⟩

lemma takeRemove_cases {confirmed : Option α} (h : r.takeRemove = some (t, confirmed)) :
    ∃ a rest, r.removes = a :: rest ∧ (((r.members.lookup (key a)).isSome ∧ confirmed = some a ∧
          t = { r with removes := rest, members := r.members.erase (key a) }) ∨
        (r.members.lookup (key a) = none ∧ confirmed = none ∧
          t = { r with removes := rest })) := by
  unfold takeRemove at h
  split at h
  · cases h
  · next a rest removes =>
    refine ⟨a, rest, removes, ?_⟩
    split at h
    · next found =>
      cases h
      exact .inl ⟨found, rfl, rfl⟩
    · next missing =>
      cases h
      exact .inr ⟨by simpa using missing, rfl, rfl⟩

def Mentions (r : Registry key) (a : α) : Prop := a ∈ r.members ∨ a ∈ r.adds ∨ a ∈ r.removes

omit [DecidableEq κ] in
lemma mentions_sendAdd (h : (r.sendAdd b).Mentions a) : r.Mentions a ∨ a = b := by
  rcases h with member | waits | leaves
  · exact .inl (.inl member)
  · rcases mem_append.mp waits with old | new
    · exact .inl (.inr (.inl old))
    · exact .inr (mem_singleton.mp new)
  · exact .inl (.inr (.inr leaves))

omit [DecidableEq κ] in
lemma mentions_sendRemove (h : (r.sendRemove b).Mentions a) : r.Mentions a ∨ a = b := by
  rcases h with member | waits | leaves
  · exact .inl (.inl member)
  · exact .inl (.inr (.inl waits))
  · rcases mem_append.mp leaves with old | new
    · exact .inl (.inr (.inr old))
    · exact .inr (mem_singleton.mp new)

lemma mentions_of_takeAdd (h : r.takeAdd = some t) (mentioned : t.Mentions a) : r.Mentions a := by
  obtain ⟨b, rest, adds, rfl⟩ := takeAdd_cases h
  rcases mentioned with member | waits | leaves
  · rcases Keyed.mem_insert.mp member with rfl | ⟨old, -⟩
    · exact .inr (.inl (adds ▸ mem_cons_self))
    · exact .inl old
  · exact .inr (.inl (adds ▸ mem_cons_of_mem _ waits))
  · exact .inr (.inr leaves)

lemma mentions_of_takeRemove {confirmed : Option α} (h : r.takeRemove = some (t, confirmed)) :
    (∀ a, t.Mentions a → r.Mentions a) ∧ ∀ a ∈ confirmed, r.Mentions a := by
  obtain ⟨b, rest, removes, taken⟩ := takeRemove_cases h
  rcases taken with ⟨-, rfl, rfl⟩ | ⟨-, rfl, rfl⟩
  · refine ⟨fun a mentioned => ?_, fun a same => ?_⟩
    · rcases mentioned with member | waits | leaves
      · exact .inl (Keyed.mem_erase.mp member).1
      · exact .inr (.inl waits)
      · exact .inr (.inr (removes ▸ mem_cons_of_mem _ leaves))
    · cases same
      exact .inr (.inr (removes ▸ mem_cons_self))
  · refine ⟨fun a mentioned => ?_, fun a same => by cases same⟩
    rcases mentioned with member | waits | leaves
    · exact .inl member
    · exact .inr (.inl waits)
    · exact .inr (.inr (removes ▸ mem_cons_of_mem _ leaves))

end Take

section Waiting
variable [DecidableEq α]

/-- How often `a` is on its way into the set or in it. -/
def waiting (r : Registry key) (a : α) : Nat := r.adds.count a + r.members.count a

@[simp] lemma waiting_empty (a : α) : (empty : Registry key).waiting a = 0 := rfl

@[simp] lemma waiting_sendAdd (r : Registry key) (a b : α) :
    (r.sendAdd a).waiting b = r.waiting b + if a = b then 1 else 0 := by
  simp only [waiting, sendAdd, count_append, count_singleton, beq_iff_eq]
  omega

@[simp] lemma waiting_sendRemove (r : Registry key) (a b : α) :
    (r.sendRemove a).waiting b = r.waiting b := rfl

variable {r t : Registry key}

lemma waiting_eq_zero_iff : r.waiting a = 0 ↔ a ∉ r.adds ∧ a ∉ r.members := by
  rw [waiting, Nat.add_eq_zero_iff, count_eq_zero, Keyed.count_eq_zero_iff]

variable [DecidableEq κ]

lemma waiting_erase {removes : List α} (mem : a ∈ r.members) (b : α) :
    ({ r with removes := removes, members := r.members.erase (key a) } : Registry key).waiting b +
      (if some a = some b then 1 else 0) = r.waiting b := by
  simp only [waiting, Keyed.count_erase, Option.some.injEq]
  by_cases same : a = b
  · subst same
    have one := r.members.count_le_one a
    have pos := Keyed.count_pos_iff.mpr mem
    simp only [if_true]
    omega
  · have kept : (if key b = key a then 0 else r.members.count b) = r.members.count b := by
      split
      · next atKey =>
        have absent : b ∉ r.members := fun hb => same (Keyed.eq_of_key_eq mem hb atKey.symm)
        exact (Keyed.count_eq_zero_iff.mpr absent).symm
      · rfl
    rw [kept, if_neg same]
    rfl

lemma waiting_leave (mem : a ∈ r.members) (b : α) :
    (r.leave a).waiting b + (if some a = some b then 1 else 0) = r.waiting b :=
  waiting_erase mem b

lemma waiting_takeAdd (h : r.takeAdd = some t) : ∃ a rest, r.adds = a :: rest ∧ ∀ b, t.waiting b =
      rest.count b + (if key b = key a then 0 else r.members.count b) + if a = b then 1 else 0 := by
  obtain ⟨a, rest, adds, rfl⟩ := takeAdd_cases h
  refine ⟨a, rest, adds, fun b => ?_⟩
  rw [waiting, Keyed.count_insert, Keyed.count_erase, Nat.add_assoc]

lemma waiting_takeAdd_fresh (fresh : ∀ a ∈ r.adds.head?, r.Fresh a) (h : r.takeAdd = some t)
    (b : α) : t.waiting b = r.waiting b := by
  obtain ⟨a, rest, adds, after⟩ := waiting_takeAdd h
  have absent : key b = key a → r.members.count b = 0 := by
    intro same
    refine Keyed.count_eq_zero_iff.mpr fun mem => ?_
    exact fresh a (by rw [adds]; rfl) b mem same
  rw [after, waiting, adds, count_cons]
  simp only [beq_iff_eq]
  split
  · next same =>
    rw [absent same]
    omega
  · omega

lemma waiting_takeRemove {confirmed : Option α} (sole : ∀ a ∈ r.removes.head?, r.Sole a)
    (h : r.takeRemove = some (t, confirmed)) (b : α) :
    t.waiting b + (if confirmed = some b then 1 else 0) = r.waiting b := by
  obtain ⟨a, rest, removes, taken⟩ := takeRemove_cases h
  have sole := sole a (by rw [removes]; rfl)
  rcases taken with ⟨found, rfl, rfl⟩ | ⟨_, rfl, rfl⟩
  · obtain ⟨c, found⟩ := Option.isSome_iff_exists.mp found
    obtain ⟨mem, atKey⟩ := Keyed.lookup_eq_some_iff.mp found
    obtain rfl := sole c mem atKey
    exact waiting_erase mem b
  · simp [waiting]

end Waiting

section Turn
variable [DecidableEq κ]

/-- One read of a channel, or none, that confirms `confirmed`. -/
inductive Read (r : Registry key) : Registry key → Option α → Prop
  | same : Read r r none
  | add {t : Registry key} : r.takeAdd = some t → Read r t none
  | remove {t : Registry key} {confirmed : Option α} : r.takeRemove = some (t, confirmed) →
      Read r t confirmed

/-- A read, after which `matched` may leave. -/
inductive Turn (r : Registry key) : Registry key → Option α → Option α → Prop
  | stay {t : Registry key} {confirmed : Option α} : Read r t confirmed → Turn r t confirmed none
  | leave {t : Registry key} {confirmed : Option α} {a : α} : Read r t confirmed → a ∈ t.members →
      Turn r (t.leave a) confirmed (some a)

variable {r t : Registry key} {confirmed matched : Option α}

lemma Read.mentions (h : Read r t confirmed) :
    (∀ a, t.Mentions a → r.Mentions a) ∧ ∀ a ∈ confirmed, r.Mentions a := by
  cases h with
  | same => exact ⟨fun _ => id, fun _ none => by cases none⟩
  | add taken => exact ⟨fun _ => mentions_of_takeAdd taken, fun _ none => by cases none⟩
  | remove taken => exact mentions_of_takeRemove taken

lemma Read.size_le (h : Read r t confirmed) : t.members.size ≤ r.members.size + 1 := by
  cases h with
  | same => omega
  | add taken =>
    obtain ⟨a, rest, -, rfl⟩ := takeAdd_cases taken
    rw [r.members.size_insert a]
    split <;> omega
  | remove taken =>
    obtain ⟨a, rest, -, ⟨-, -, rfl⟩ | ⟨-, -, rfl⟩⟩ := takeRemove_cases taken
    · have size := r.members.size_erase (key a)
      show (r.members.erase (key a)).size ≤ _
      omega
    · exact Nat.le_succ _

lemma size_leave (mem : a ∈ r.members) : (r.leave a).members.size + 1 = r.members.size :=
  Keyed.length_filter_key r.members.nodup mem

lemma Turn.mentions (h : Turn r t confirmed matched) :
    (∀ a, t.Mentions a → r.Mentions a) ∧ (∀ a ∈ confirmed, r.Mentions a) ∧
      ∀ a ∈ matched, r.Mentions a := by
  cases h with
  | stay read => exact ⟨read.mentions.1, read.mentions.2, fun _ none => by cases none⟩
  | leave read mem =>
    refine ⟨fun a mentioned => read.mentions.1 a ?_, read.mentions.2, fun a same => ?_⟩
    · exact mentioned.imp_left fun member => (Keyed.mem_erase.mp member).1
    · cases same
      exact read.mentions.1 _ (.inl mem)

variable [DecidableEq α]

/-- The next reads displace no other member than `b` from the place of `b`. -/
def Keeps (r : Registry key) (b : α) : Prop :=
  b ∈ r.members → ∀ a ∈ r.adds.take 1 ++ r.removes.take 1, key a = key b → a = b

instance (r : Registry key) (b : α) : Decidable (r.Keeps b) :=
  inferInstanceAs (Decidable (b ∈ r.members.entries → _))

/-- The next removal finds nobody else in the place of `b`. -/
def Answers (r : Registry key) (b : α) : Prop := r.removes.head? = some b → r.Sole b

instance (r : Registry key) (b : α) : Decidable (r.Answers b) :=
  inferInstanceAs (Decidable (_ → _))

lemma Read.waiting_le (h : Read r t confirmed) (b : α) :
    t.waiting b ≤ r.waiting b ∧ ((confirmed = some b → r.Answers b) →
      t.waiting b + (if confirmed = some b then 1 else 0) ≤ r.waiting b) := by
  cases h with
  | same => exact ⟨Nat.le_refl _, fun _ => Nat.le_refl _⟩
  | add taken =>
    obtain ⟨a, rest, adds, after⟩ := waiting_takeAdd taken
    have fewer : t.waiting b ≤ r.waiting b := by
      rw [after, waiting, adds, count_cons]
      simp only [beq_iff_eq]
      split <;> omega
    exact ⟨fewer, fun _ => fewer⟩
  | remove taken =>
    obtain ⟨a, rest, removes, ⟨found, rfl, rfl⟩ | ⟨-, rfl, rfl⟩⟩ := takeRemove_cases taken
    · have fewer : r.adds.count b + (r.members.erase (key a)).count b ≤ r.waiting b := by
        rw [waiting, Keyed.count_erase]
        split <;> omega
      refine ⟨fewer, fun answers => ?_⟩
      by_cases same : a = b
      · subst same
        obtain ⟨c, found⟩ := Option.isSome_iff_exists.mp found
        obtain ⟨mem, atKey⟩ := Keyed.lookup_eq_some_iff.mp found
        obtain rfl := answers rfl (by rw [removes]; rfl) c mem atKey
        exact Nat.le_of_eq (waiting_erase mem c)
      · simpa [waiting, same] using fewer
    · exact ⟨Nat.le_refl _, fun _ => Nat.le_refl _⟩

/-- A turn moves what waits and makes nothing up, unless it confirms a removal in the place of
another member. -/
lemma Turn.waiting_le (h : Turn r t confirmed matched) (b : α) :
    t.waiting b + (if matched = some b then 1 else 0) ≤ r.waiting b ∧
      ((confirmed = some b → r.Answers b) → t.waiting b + (if matched = some b then 1 else 0) +
        (if confirmed = some b then 1 else 0) ≤ r.waiting b) := by
  cases h with
  | stay read => simpa using read.waiting_le b
  | leave read mem =>
    obtain ⟨fewer, answered⟩ := read.waiting_le b
    have left := waiting_leave mem b
    exact ⟨by omega, fun sole => by have := answered sole; omega⟩

lemma Read.removes_count (h : Read r t confirmed) (b : α) :
    t.removes.count b + (if confirmed = some b then 1 else 0) ≤ r.removes.count b := by
  cases h with
  | same => exact Nat.le_refl _
  | add taken =>
    obtain ⟨a, rest, -, rfl⟩ := takeAdd_cases taken
    exact Nat.le_refl _
  | remove taken =>
    obtain ⟨a, rest, removes, ⟨-, rfl, rfl⟩ | ⟨-, rfl, rfl⟩⟩ := takeRemove_cases taken <;>
    simp [removes, count_cons]

lemma Turn.removes_count (h : Turn r t confirmed matched) (b : α) :
    t.removes.count b + (if confirmed = some b then 1 else 0) ≤ r.removes.count b := by
  cases h with
  | stay read | leave read _ => exact read.removes_count b

lemma Read.waiting_pos (h : Read r t confirmed) (keeps : r.Keeps b) (waits : 0 < r.waiting b) :
    0 < t.waiting b + if confirmed = some b then 1 else 0 := by
  cases h with
  | same => simpa using waits
  | add taken =>
    obtain ⟨a, rest, adds, after⟩ := waiting_takeAdd taken
    rw [after]
    rw [waiting, adds, count_cons] at waits
    by_cases same : a = b
    · simp [same]
    · simp only [beq_iff_eq] at waits ⊢
      by_cases member : b ∈ r.members
      · have ne : key b ≠ key a := fun atKey => same (keeps member a (by simp [adds]) atKey.symm)
        rw [if_neg ne]
        omega
      · have none := Keyed.count_eq_zero_iff.mpr member
        omega
  | remove taken =>
    obtain ⟨a, rest, removes, ⟨found, rfl, rfl⟩ | ⟨-, rfl, rfl⟩⟩ := takeRemove_cases taken
    · by_cases same : a = b
      · simp [same]
      · have kept : (r.members.erase (key a)).count b = r.members.count b := by
          rw [Keyed.count_erase]
          split
          · next atKey =>
            refine (Keyed.count_eq_zero_iff.mpr fun member => same ?_).symm
            exact keeps member a (by simp [removes]) atKey.symm
          · rfl
        simpa [waiting, kept, same] using waits
    · simpa [waiting] using waits

/-- Who waits is still there after a turn that displaces nobody, or has been answered. -/
lemma Turn.waiting_pos (h : Turn r t confirmed matched) (keeps : r.Keeps b)
    (waits : 0 < r.waiting b) : 0 < t.waiting b + (if matched = some b then 1 else 0) +
      (if confirmed = some b then 1 else 0) := by
  cases h with
  | stay read => simpa using read.waiting_pos keeps waits
  | leave read mem =>
    have moved := read.waiting_pos keeps waits
    have left := waiting_leave mem b
    omega

end Turn

end Registry

end Velda.Lib
