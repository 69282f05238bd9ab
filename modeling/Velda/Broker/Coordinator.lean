import Velda.Lib.Run
import Velda.Broker.Session

/-! The gang coordinator (`gang_coordinator.go`) for callbacks of any kind. What it is for
is said by `Gang`: the members are those that have notified and not withdrawn since, and
the call that completes the gang runs the callbacks of all of them. The coordinator
follows that only until the first start: before it a withdrawal is ignored, and after it
a gang that is complete again is not started. -/
namespace Velda.Broker
open Lib

variable {φ : Type}

structure Coordinator (φ : Type) where
  desired : Int
  notif : Keyed (Prod.fst : Int × φ → Int)
  triggered : Bool

def newGangCoordinator (desired : Int) : Coordinator φ := ⟨desired, .empty, false⟩

namespace Coordinator

/-- The second component is what runs now, in the order of the entries. -/
def notify (g : Coordinator φ) (id : Int) (f : φ) : Coordinator φ × List φ :=
  let notif := g.notif.insert (id, f)
  if (notif.size : Int) = g.desired ∧ g.triggered = false then
    ({ g with notif, triggered := true }, notif.entries.map (·.2))
  else ({ g with notif }, [])

def unnotify (g : Coordinator φ) (id : Int) : Coordinator φ × Bool :=
  if g.triggered = false then (g, false) else ({ g with notif := g.notif.erase id }, true)

end Coordinator

inductive GangCall (φ : Type)
  | notify (id : Int) (f : φ)
  | unnotify (id : Int)

abbrev Gang (φ : Type) := Keyed (Prod.fst : Int × φ → Int)

def Gang.after (m : Gang φ) : GangCall φ → Gang φ
  | .notify id f => m.insert (id, f)
  | .unnotify id => m.erase id

def Gang.Completes (m : Gang φ) (desired : Int) : GangCall φ → Prop
  | .notify id f => (m.size : Int) ≠ desired ∧ ((m.insert (id, f)).size : Int) = desired
  | .unnotify _ => False

instance (m : Gang φ) (n : Int) (c : GangCall φ) : Decidable (m.Completes n c) := by
  induction c using GangCall.casesOn <;> unfold Gang.Completes <;> infer_instance

structure Performed (φ : Type) where
  members : Gang φ
  call : GangCall φ
  ran : List φ

/-- The callbacks of all members run if the call completes the gang, and none otherwise. -/
def Performed.AllOrNothing (desired : Int) (e : Performed φ) : Prop :=
  (e.members.Completes desired e.call →
    e.ran.Perm ((e.members.after e.call).entries.map (·.2))) ∧
  (¬ e.members.Completes desired e.call → e.ran = [])

instance [DecidableEq φ] (n : Int) (e : Performed φ) : Decidable (e.AllOrNothing n) :=
  inferInstanceAs (Decidable ((_ → _) ∧ (_ → _)))

structure Trace (φ : Type) where
  gang : Coordinator φ
  members : Gang φ
  log : List (Performed φ)

def Trace.init (desired : Int) : Trace φ := ⟨newGangCoordinator desired, .empty, []⟩

def Trace.step (s : Trace φ) (c : GangCall φ) : Option (Trace φ) :=
  match c with
  | .notify id f =>
    let r := s.gang.notify id f
    some ⟨r.1, s.members.after c, s.log ++ [⟨s.members, c, r.2⟩]⟩
  | .unnotify id =>
    some ⟨(s.gang.unnotify id).1, s.members.after c, s.log ++ [⟨s.members, c, []⟩]⟩

/-- Nobody who has notified withdraws before the start, and after it the gang does not get
complete again. -/
def OneStart (s : Trace φ) : GangCall φ → Prop
  | .notify id _ => s.gang.triggered = true → s.gang.notif.lookup id = none →
      (s.gang.notif.size : Int) + 1 ≠ s.gang.desired
  | .unnotify id => s.gang.triggered = false → s.gang.notif.lookup id = none

instance (s : Trace φ) (c : GangCall φ) : Decidable (OneStart s c) := by
  induction c using GangCall.casesOn <;> unfold OneStart <;> infer_instance

/-- The coordinator knows the members; before the start the gang was never complete. -/
structure Trace.Faithful (n : Int) (s : Trace φ) : Prop where
  desired : s.gang.desired = n
  members : s.gang.notif = s.members
  waiting : s.gang.triggered = false → (s.members.size : Int) = n → s.members.size = 0
  log : ∀ e ∈ s.log, e.AllOrNothing n

namespace Trace

variable {n : Int} {s t : Trace φ}

lemma allOrNothing_append {e : Performed φ} (before : ∀ e ∈ l, e.AllOrNothing n)
    (last : e.AllOrNothing n) : ∀ d ∈ l ++ [e], d.AllOrNothing n := by
  intro d mem
  rcases List.mem_append.mp mem with old | new
  · exact before d old
  · rwa [List.mem_singleton.mp new]

lemma Faithful.start (F : s.Faithful n) (started : s.gang.triggered = false) {id : Int}
    (full : ((s.members.insert (id, f)).size : Int) = n) :
    s.members.Completes n (.notify id f) := by
  refine ⟨fun complete => ?_, full⟩
  have empty := F.waiting started complete
  have grown := s.members.size_insert (id, f)
  have none : s.members.lookup id = none :=
    Keyed.lookup_eq_none_iff.mpr fun a mem _ => by
      have nil : s.members.entries = [] := List.eq_nil_of_length_eq_zero empty
      rw [Keyed.mem_def, nil] at mem
      cases mem
  rw [none] at grown
  simp only [Option.isSome_none, Bool.false_eq_true, if_false] at grown
  omega

lemma Faithful.not_completes (F : s.Faithful n) (started : s.gang.triggered = true) {id : Int}
    (ok : OneStart s (.notify id f)) : ¬ s.members.Completes n (.notify id f) := by
  rintro ⟨incomplete, full⟩
  rw [s.members.size_insert (id, f)] at full
  cases known : s.members.lookup id with
  | some a =>
    rw [known] at full
    exact incomplete (by simpa using full)
  | none =>
    rw [known] at full
    refine ok started (F.members ▸ known) ?_
    rw [F.members, F.desired]
    simpa using full

lemma Faithful.step (F : s.Faithful n) (ok : OneStart s c) (taken : s.step c = some t) :
    t.Faithful n := by
  cases c with
  | notify id f =>
    cases taken
    unfold Coordinator.notify
    by_cases starts : ((s.gang.notif.insert (id, f)).size : Int) = s.gang.desired ∧
        s.gang.triggered = false
    · simp only [if_pos starts]
      rw [F.members, F.desired] at starts
      refine ⟨F.desired, congrArg (·.insert (id, f)) F.members, (fun again => nomatch again),
        allOrNothing_append F.log ⟨fun _ => ?_, fun never => ?_⟩⟩
      · rw [F.members]
        exact .refl _
      · exact absurd (F.start starts.2 starts.1) never
    · simp only [if_neg starts]
      rw [F.members, F.desired] at starts
      refine ⟨F.desired, congrArg (·.insert (id, f)) F.members,
        fun waits full => absurd ⟨full, waits⟩ starts,
        allOrNothing_append F.log ⟨fun completes => ?_, fun _ => rfl⟩⟩
      cases started : s.gang.triggered with
      | false => exact absurd ⟨completes.2, started⟩ starts
      | true => exact absurd completes (F.not_completes started ok)
  | unnotify id =>
    cases taken
    have nothing : Performed.AllOrNothing n ⟨s.members, .unnotify id, []⟩ :=
      ⟨fun never => never.elim, fun _ => rfl⟩
    unfold Coordinator.unnotify
    cases started : s.gang.triggered with
    | false =>
      have same : s.members.erase id = s.members :=
        Keyed.erase_of_lookup_none (F.members ▸ ok started)
      refine ⟨F.desired, ?_, ?_, allOrNothing_append F.log nothing⟩
      · exact F.members.trans same.symm
      · intro waits
        rw [show s.members.after (.unnotify id) = s.members from same]
        exact F.waiting waits
    | true =>
      refine ⟨F.desired, congrArg (·.erase id) F.members, fun waits => ?_,
        allOrNothing_append F.log nothing⟩
      cases waits

end Trace

/-- In a run with one start, every call that completes the gang runs the callbacks of all
members, each once, and no other call runs any. -/
theorem gang_all_or_nothing {n : Int} {s : Trace φ}
    (h : Reachable Trace.step OneStart (.init n) s) : ∀ e ∈ s.log, e.AllOrNothing n := by
  have faithful : s.Faithful n := by
    refine h.invariant ⟨rfl, rfl, fun _ _ => rfl, fun e mem => ?_⟩ ?_
    · cases mem
    · exact fun s c t F ok taken => F.step ok taken
  exact faithful.log

theorem gang_all_or_nothing_two : ∃ s, Reachable Trace.step OneStart (.init 2) s ∧
      s.log.map (·.ran) = [[], ["a", "b"], [], []] ∧ ∀ e ∈ s.log, e.AllOrNothing 2 := by
  obtain ⟨s, reached, ran⟩ := exists_of_run Trace.step OneStart (.init 2)
    [.notify 0 "a", .notify 1 "b", .unnotify 0, .notify 1 "c"]
    (fun s => s.log.map (·.ran) = [[], ["a", "b"], [], []]) (by decide)
  exact ⟨s, reached, ran, gang_all_or_nothing reached⟩

/-- The callback of a member that withdrew before the start runs, and a gang that is complete
again is not started again. -/
theorem gang_not_all_or_nothing :
    (∃ s, Reachable Trace.step Any (.init 2) s ∧ ∃ e ∈ s.log, "a" ∈ e.ran ∧
      (e.members.after e.call).lookup 0 = none ∧ ¬ e.AllOrNothing 2) ∧
    ∃ s : Trace String, Reachable Trace.step Any (.init 1) s ∧
      ∃ e ∈ s.log, e.members.Completes 1 e.call ∧ e.ran = [] ∧ ¬ e.AllOrNothing 1 := by
  constructor
  · exact exists_of_run Trace.step Any (.init 2)
      [.notify 0 "a", .unnotify 0, .notify 1 "b"] _ (by decide)
  · exact exists_of_run Trace.step Any (.init 1)
      [.notify 0 "a", .unnotify 0, .notify 0 "b"] _ (by decide)

end Velda.Broker
