import Velda.Pool.Connected
import Velda.Pool.Tally

/-! A pool with the agents that connect to it. The pool tells an idle worker to shut down on
the channel in its entry, and holds its lock while it does, so the entry of every idle
worker has to have the channel of the agent that is connected under its name. An entry
that is dropped while its agent is connected is made again without a channel. -/
variable {other : String} {now : Time}

namespace Velda.Pool
open Lib List Option Keyed AutoScaledPool

variable {χ : Type}

variable {c : χ}

namespace AutoScaledPool

variable {p q : AutoScaledPool χ} {name : String} {w : Worker χ}

/-- There is an idle worker of this name that is told to shut down on this channel. -/
def IdleOn (p : AutoScaledPool χ) (name : String) (chan : Option χ) : Prop :=
  ∃ w, p.workers.lookup name = some w ∧ w.status = .idle ∧ w.statusChan = chan

variable {chan : Option χ}

lemma IdleOn.of_workers (I : q.IdleOn name chan) (same : q.workers = p.workers) :
    p.IdleOn name chan := by
  obtain ⟨w, found, idle⟩ := I
  exact ⟨w, by rw [← same, found], idle⟩

lemma IdleOn.of_set {status : WorkerStatusCode} {slots : Int}
    (I : (p.setWorkerStatusLocked other status slots).IdleOn name chan) (active : status ≠ .idle) :
    name ≠ other ∧ p.IdleOn name chan := by
  obtain ⟨w, found, idle, rest⟩ := I
  rw [lookup_set] at found
  split at found
  · cases found
    exact absurd idle active
  · next differs => exact ⟨differs, w, found, idle, rest⟩

lemma IdleOn.of_remove (I : (p.removeWorkerLocked other).IdleOn name chan) :
    p.IdleOn name chan := by
  obtain ⟨w, found, idle⟩ := I
  simp only [removeWorkerLocked, lookup_erase] at found
  split at found
  · cases found
  · exact ⟨w, found, idle⟩

lemma IdleOn.of_upkept (U : Upkept p q) (I : q.IdleOn name chan) : p.IdleOn name chan := by
  induction U with
  | same => exact I
  | other _ workers _ _ _ _ ih => exact ih (I.of_workers workers)
  | set other slots _ notIdle _ ih => exact ih (I.of_set notIdle).2
  | remove other _ _ ih => exact ih I.of_remove
  | setVersion other version _ ih =>
    obtain ⟨w, found, idle, rest⟩ := I
    obtain ⟨v, before, status, -, same⟩ := lookup_setVersion found
    exact ih ⟨v, before, status.trans idle, same.trans rest⟩
  | await _ ih => exact ih I
  | claimUnknown _ ih => exact ih I

lemma IdleOn.of_markLost (I : (p.markLost other now).IdleOn name chan) :
    name ≠ other ∧ p.IdleOn name chan := by
  unfold markLost at I
  simp only at I
  split at I
  · next none =>
    refine ⟨fun same => ?_, I⟩
    subst same
    obtain ⟨w, found, idle, -⟩ := I
    rw [workerStatus, found] at none
    rw [show w.status = .none from none] at idle
    cases idle
  · exact I.of_set (by decide)
  · exact I.of_set (by decide)
  · exact I.of_set (by decide)

lemma IdleOn.of_event (I : (p.handleResourcePoolEvent other now).IdleOn name chan) :
    p.IdleOn name chan := by
  unfold handleResourcePoolEvent at I
  simp only at I
  split at I
  · exact I.of_remove
  · split at I <;> exact I

lemma IdleOn.of_told (I : (p.told op).IdleOn name chan) (unset : ∀ other, ¬ op.sets other .idle)
    (silent : ∀ name busy chan slots o, op ≠ .notifyAgentAvailable name busy chan slots o) :
    p.IdleOn name chan :=
  told_rule (I := fun q => q.IdleOn name chan → p.IdleOn name chan) (fun _ => id) (fun _ _ => id)
    (fun _ sets old I => old (I.of_set fun idle => unset _ (idle ▸ sets)).2)
    (fun _ _ _ _ _ same => absurd same (silent _ _ _ _ _)) (fun _ _ _ _ => IdleOn.of_event)
    (fun _ _ _ => id) id I

/-- A worker is idle after an operation because it was before, because its agent says so, or
because its agent has just connected. -/
inductive IdleSince (p : AutoScaledPool χ) (name : String) : Op χ → Option χ → Prop
  | before {op : Op χ} {chan : Option χ} : p.IdleOn name chan →
      (∀ now o, op ≠ .markLost name now o) → op.notifies name = false → IdleSince p name op chan
  | marked (slots : Int) (o : Oracle) :
      IdleSince p name (.markIdle name slots o) ((p.workers.lookup name).bind Worker.statusChan)
  | connected (chan : χ) (slots : Int) (o : Oracle) :
      IdleSince p name (.notifyAgentAvailable name false chan slots o) (some chan)

lemma idleSince_told (I : (p.told op).IdleOn name chan) : p.IdleSince name op chan := by
  cases op with
  | markIdle other slots o =>
    obtain ⟨w, found, idle, rfl⟩ := I
    simp only [told, lookup_set] at found
    split at found
    · next same =>
      subst same
      cases found
      exact .marked slots o
    · exact .before ⟨w, found, idle, rfl⟩ (fun _ _ h => by cases h) rfl
  | markLost other now o =>
    obtain ⟨differs, before⟩ := I.of_markLost
    exact .before before (fun _ _ same => differs (by cases same; rfl)) rfl
  | notifyAgentAvailable other busy chan slots o =>
    obtain ⟨w, found, idle, rfl⟩ := I
    simp only [told, lookup_notify] at found
    split at found
    · next same =>
      subst same
      cases found
      cases busy with
      | false => exact .connected chan slots o
      | true => cases idle
    · next differs =>
      exact .before ⟨w, found, idle, rfl⟩ (fun _ _ h => by cases h)
        (by simp [Op.notifies, Ne.symm differs])
  | _ =>
    exact .before (I.of_told (by simp [Op.sets]) (by simp)) (fun _ _ h => by cases h) rfl

lemma deleteOne_sent (h : p.deleteOneWorkerLocked pick = some (q, sent, deleted)) (mem : c ∈ sent) :
    p.IdleOn pick (some c) := by
  unfold deleteOneWorkerLocked at h
  simp only at h
  split at h
  · cases h
    cases mem
  · split at h
    · split at h
      · cases h
        cases mem
      · cases h
    · split at h
      · split at h
        · cases h
          cases mem
        · cases h
      · next w found =>
        split at h
        · cases h
          cases mem
        · obtain ⟨chan, here, same⟩ := map_eq_some_iff.mp h
          cases same
          obtain rfl := mem_singleton.mp mem
          have kept := (mem_filter.mp (mem_of_find?_eq_some found)).1
          obtain ⟨listed, idle⟩ := mem_filter.mp kept
          obtain rfl : w.name = pick := by simpa using List.find?_some found
          exact ⟨w, lookup_eq_some_iff.mpr ⟨listed, rfl⟩, by simpa using idle, here⟩

lemma deleteOne_returns (all : ∀ name, ¬ p.IdleOn name none)
    (pending : p.workersByStatus .pending = []) (mem : w ∈ p.workersByStatus .idle)
    (spare : ¬ p.idleSizeLocked - w.availableSlot < p.minIdle) :
    (p.deleteOneWorkerLocked w.name).isSome = true := by
  unfold deleteOneWorkerLocked
  simp only
  split
  · rfl
  · rw [if_neg (not_not.mpr pending)]
    split
    · next none =>
      have found := List.find?_eq_none.mp none w (mem_filter.mpr ⟨mem, by simpa using spare⟩)
      simp at found
    · next v found =>
      split
      · rfl
      · have kept := (mem_filter.mp (mem_of_find?_eq_some found)).1
        obtain ⟨listed, idle⟩ := mem_filter.mp kept
        cases chan : v.statusChan with
        | none =>
          exact absurd ⟨v, lookup_eq_some_iff.mpr ⟨listed, rfl⟩, by simpa using idle, chan⟩
            (all v.name)
        | some c => rfl

end AutoScaledPool

/-- A pool, the agents that have connected to it, newest first, and those that have called
`MarkLost`. An agent is known by its channel. -/
structure Roster (χ : Type) where
  pool : AutoScaledPool χ
  arrivals : List (String × χ) := []
  gone : List χ := []

/-- An operation, with the agent that makes it if an agent does. -/
structure Call (χ : Type) where
  op : Op χ
  agent : Option χ := none

namespace Roster

/-- The channel of the agent that connected last under a name, connected or not. -/
def latest (t : Roster χ) (name : String) : Option χ :=
  (t.arrivals.find? (·.1 = name)).map Prod.snd

variable {name : String}

lemma mem_of_latest {t : Roster χ} (h : t.latest name = some c) : (name, c) ∈ t.arrivals := by
  obtain ⟨⟨other, chan⟩, found, same⟩ := map_eq_some_iff.mp h
  obtain rfl : other = name := by simpa using List.find?_some found
  obtain rfl : chan = c := same
  exact mem_of_find?_eq_some found

def note (t : Roster χ) (call : Call χ) : Roster χ :=
  match call.op with
  | .notifyAgentAvailable name _ chan _ _ => { t with arrivals := (name, chan) :: t.arrivals }
  | .markLost _ _ _ => { t with gone := call.agent.toList ++ t.gone }
  | _ => t

lemma latest_note {t : Roster χ} {call : Call χ} (silent : call.op.notifies name = false) :
    (t.note call).latest name = t.latest name := by
  obtain ⟨op, agent⟩ := call
  cases op with
  | notifyAgentAvailable other busy chan slots o =>
    have differs : other ≠ name := by simpa [Op.notifies] using silent
    unfold latest note
    rw [List.find?_cons_of_neg (by simpa using differs)]
  | _ => rfl

lemma latest_notified (t : Roster χ) (name : String) (busy : Bool) (chan : χ) (slots : Int)
    (o : Oracle) (agent : Option χ) :
    (t.note ⟨.notifyAgentAvailable name busy chan slots o, agent⟩).latest name = some chan := by
  simp [latest, note]

lemma gone_note {t : Roster χ} {call : Call χ} (h : c ∈ (t.note call).gone) :
    c ∈ t.gone ∨ call.agent = some c ∧ ∃ name now o, call.op = .markLost name now o := by
  obtain ⟨op, agent⟩ := call
  cases op with
  | markLost name now o =>
    rcases mem_append.mp h with own | before
    · exact .inr ⟨mem_toList.mp own, name, now, o, rfl⟩
    · exact .inl before
  | _ => exact .inl h

lemma gone_subset_note {t : Roster χ} {call : Call χ} (h : c ∈ t.gone) :
    c ∈ (t.note call).gone := by
  obtain ⟨op, agent⟩ := call
  cases op with
  | markLost => exact mem_append_right _ h
  | _ => exact h

/-- The entry of a worker whose agent is connected has its channel, and no other entry says that
its worker is idle. -/
structure Sound (t : Roster χ) : Prop where
  unique : ∀ x ∈ t.arrivals, ∀ y ∈ t.arrivals, x.2 = y.2 → x = y
  gone : ∀ c ∈ t.gone, c ∈ t.arrivals.map Prod.snd
  held : ∀ name c, t.latest name = some c → c ∉ t.gone → t.pool.Connected name (some c)
  idle : ∀ name chan, t.pool.IdleOn name chan → ∃ c, chan = some c ∧ t.latest name = some c ∧
    c ∉ t.gone

variable [DecidableEq χ]

/-- The channel of the agent that is connected under a name, the newest one if several are. -/
def current (t : Roster χ) (name : String) : Option χ :=
  (t.arrivals.find? fun x => x.1 = name ∧ x.2 ∉ t.gone).map Prod.snd

/-- An agent connects once, and marks its worker until it has marked it as lost. -/
def Allowed (t : Roster χ) (call : Call χ) : Prop :=
  match call.op with
  | .notifyAgentAvailable _ _ chan _ _ => call.agent = some chan ∧ chan ∉ t.arrivals.map Prod.snd
  | .markBusy name _ _ | .markIdle name _ _ | .markLost name _ _ =>
    ∃ c ∈ call.agent, (name, c) ∈ t.arrivals ∧ c ∉ t.gone
  | _ => True

instance (t : Roster χ) (call : Call χ) : Decidable (t.Allowed call) := by
  obtain ⟨op, agent⟩ := call
  induction op using Op.casesOn <;> unfold Allowed <;> infer_instance

def step (t : Roster χ) (call : Call χ) : Option (Roster χ) :=
  if t.Allowed call then
    (t.pool.apply call.op).map fun r => { t.note call with pool := r.1 }
  else none

/-- Agents that connected last under their name and are still connected are left alone: the call
does not drop their worker, and the backend promises none of their name; and only such an agent
says that its worker is idle. -/
def Spared (t : Roster χ) (call : Call χ) : Prop :=
  (∀ x ∈ (t.note call).arrivals, (t.note call).latest x.1 = some x.2 → x.2 ∉ (t.note call).gone →
    call.op.Spares x.1) ∧
  match call.op with
  | .markIdle name _ _ => call.agent = t.latest name
  | _ => True

instance (t : Roster χ) (call : Call χ) : Decidable (Spared t call) := by
  obtain ⟨op, agent⟩ := call
  induction op using Op.casesOn <;> unfold Spared <;> infer_instance

lemma current_of_latest {t : Roster χ} (h : t.latest name = some c) (here : c ∉ t.gone) :
    t.current name = some c := by
  unfold latest at h
  unfold current
  generalize t.arrivals = arrivals at h ⊢
  induction arrivals with
  | nil => cases h
  | cons x rest ih =>
    by_cases same : x.1 = name
    · rw [List.find?_cons_of_pos (by simpa using same)] at h
      obtain rfl : x.2 = c := by simpa using h
      rw [List.find?_cons_of_pos (by simpa using ⟨same, here⟩)]
      rfl
    · rw [List.find?_cons_of_neg (by simpa using same)] at h
      rw [List.find?_cons_of_neg (by simp [same])]
      exact ih h

namespace Sound

variable {t : Roster χ} {call : Call χ}

omit [DecidableEq χ] in
lemma idle_inside (S : t.Sound) (allowed : t.Allowed call) (spared : Spared t call)
    {u : AutoScaledPool χ} (inside : Upkept (t.pool.told call.op) u) (I : u.IdleOn name chan) :
    ∃ c, chan = some c ∧ (t.note call).latest name = some c ∧ c ∉ (t.note call).gone := by
  obtain ⟨op, agent⟩ := call
  have since := idleSince_told (I.of_upkept inside)
  cases since with
  | before idle notLost silent =>
    obtain ⟨c, rfl, last, here⟩ := S.idle name _ idle
    refine ⟨c, rfl, (latest_note silent).trans last, fun away => ?_⟩
    rcases gone_note away with before | ⟨own, other, now, o, rfl⟩
    · exact here before
    · obtain ⟨d, made, arrived, -⟩ := allowed
      obtain rfl : d = c := Option.some.inj (made.symm.trans own)
      cases S.unique _ (mem_of_latest last) _ arrived rfl
      exact notLost now o rfl
  | marked slots o =>
    obtain ⟨c, made, -, here⟩ := allowed
    have last : t.latest name = some c := spared.2.symm.trans made
    obtain ⟨w, found, -, own⟩ := S.held name c last here
    exact ⟨c, by rw [found]; exact own, last, here⟩
  | connected chan slots o =>
    exact ⟨chan, rfl, latest_notified t name false chan slots o agent,
      fun away => allowed.2 (S.gone chan away)⟩

omit [DecidableEq χ] in
lemma held_step (S : t.Sound) (spared : Spared t call) {q : AutoScaledPool χ}
    (applied : t.pool.apply call.op = some (q, sent)) (last : (t.note call).latest name = some c)
    (here : c ∉ (t.note call).gone) : q.Connected name (some c) := by
  have spares := spared.1 _ (mem_of_latest last) last here
  obtain ⟨op, agent⟩ := call
  cases silent : op.notifies name with
  | false =>
    rw [latest_note silent] at last
    exact (S.held name c last fun away => here (gone_subset_note away)).apply spares silent applied
  | true =>
    cases op with
    | notifyAgentAvailable other busy chan slots o =>
      obtain rfl : other = name := by simpa [Op.notifies] using silent
      rw [latest_notified] at last
      cases last
      exact connected_notify spares applied
    | _ => cases silent

lemma step (S : t.Sound) {t' : Roster χ} (spared : Spared t call)
    (taken : t.step call = some t') : t'.Sound := by
  unfold Roster.step at taken
  split at taken
  · next allowed =>
    obtain ⟨⟨q, sent⟩, applied, rfl⟩ := map_eq_some_iff.mp taken
    refine ⟨?_, ?_, fun name c => S.held_step spared applied, fun name chan I =>
      S.idle_inside allowed spared (upkept_apply applied) I⟩
    · obtain ⟨op, agent⟩ := call
      cases op with
      | notifyAgentAvailable name busy chan slots o =>
        have fresh : ∀ y ∈ t.arrivals, chan ≠ y.2 := fun y mem same =>
          allowed.2 (mem_map.mpr ⟨y, mem, same.symm⟩)
        intro x hx y hy same
        rcases mem_cons.mp hx with rfl | hx
        · rcases mem_cons.mp hy with rfl | hy
          · rfl
          · exact absurd same (fresh y hy)
        · rcases mem_cons.mp hy with rfl | hy
          · exact absurd same.symm (fresh x hx)
          · exact S.unique x hx y hy same
      | _ => exact S.unique
    · intro c away
      have arrived : ∀ d ∈ t.arrivals.map Prod.snd, d ∈ (t.note call).arrivals.map Prod.snd := by
        obtain ⟨op, agent⟩ := call
        cases op with
        | notifyAgentAvailable => exact fun d mem => mem_cons_of_mem _ mem
        | _ => exact fun _ => id
      rcases gone_note away with before | ⟨own, name, now, o, lost⟩
      · exact arrived c (S.gone c before)
      · obtain ⟨op, agent⟩ := call
        subst lost
        obtain ⟨d, made, mem, -⟩ := allowed
        obtain rfl : d = c := Option.some.inj (made.symm.trans own)
        exact arrived d (mem_map.mpr ⟨_, mem, rfl⟩)
  · cases taken

end Sound

def init : Roster χ := { pool := initial }

lemma sound_of_reachable {t : Roster χ} (h : Reachable step Spared init t) : t.Sound := by
  have start : (init : Roster χ).Sound := by
    refine ⟨fun _ mem => ?_, fun _ mem => ?_, fun _ _ last => ?_, ?_⟩
    · cases mem
    · cases mem
    · cases last
    · rintro name chan ⟨w, found, -⟩
      exact absurd found (by simp [init, AutoScaledPool.initial, Keyed.lookup, Keyed.empty])
  exact Reachable.invariant (I := Sound) start (fun _ _ _ S spared taken => S.step spared taken) h

/-- Every idle worker has the channel of the agent that is connected under its name, and
`deleteOneWorkerLocked` sends on that channel only and does not wait for ever, wherever in an
operation it is called. -/
theorem idle_answerable {t : Roster χ} (h : Reachable step Spared init t) {call : Call χ}
    (allowed : t.Allowed call) (spared : Spared t call) {u : AutoScaledPool χ}
    (inside : Upkept (t.pool.told call.op) u) : (∀ w ∈ u.workers, w.status = .idle →
      ∃ c, w.statusChan = some c ∧ (t.note call).current w.name = some c) ∧
    (∀ pick q sent deleted, u.deleteOneWorkerLocked pick = some (q, sent, deleted) →
      ∀ c ∈ sent, (t.note call).current pick = some c) ∧
    (u.workersByStatus .pending = [] → ∀ w ∈ u.workersByStatus .idle,
      ¬ u.idleSizeLocked - w.availableSlot < u.minIdle →
        (u.deleteOneWorkerLocked w.name).isSome = true) := by
  have sound := sound_of_reachable h
  have idle : ∀ name chan, u.IdleOn name chan →
      ∃ c, chan = some c ∧ (t.note call).current name = some c := by
    intro name chan I
    obtain ⟨c, same, last, here⟩ := sound.idle_inside allowed spared inside I
    exact ⟨c, same, current_of_latest last here⟩
  refine ⟨fun w mem status => ?_, fun pick q sent deleted deletes c mem => ?_,
    fun pending w mem spare => ?_⟩
  · exact idle w.name _ ⟨w, lookup_eq_some_iff.mpr ⟨mem, rfl⟩, status, rfl⟩
  · obtain ⟨d, same, now⟩ := idle pick _ (deleteOne_sent deletes mem)
    cases same
    exact now
  · refine deleteOne_returns (fun name I => ?_) pending mem spare
    obtain ⟨c, same, -⟩ := idle name _ I
    cases same

def patient : AutoScaledPoolConfig where
  backend := some ⟨0, false⟩
  maxIdle := 5
  maxSize := 5

theorem idle_answerable_connected : ∃ t : Roster Nat, Reachable step Spared init t ∧
      ∃ w ∈ t.pool.workers, w.status = .idle ∧ w.statusChan = some 7 ∧
        t.current "a" = some 7 ∧ (t.pool.deleteOneWorkerLocked "a").isSome = true := by
  obtain ⟨t, reached, w, mem, idle, named, spare, pending, quiet⟩ :=
    exists_of_run (@step Nat _) Spared init
      [⟨.updateConfig patient {}, none⟩,
        ⟨.notifyAgentAvailable "a" false 7 1 {}, some 7⟩, ⟨.requestWorker {}, none⟩,
        ⟨.markBusy "a" 0 {}, some 7⟩, ⟨.markIdle "a" 1 {}, some 7⟩]
      (fun t => ∃ w ∈ t.pool.workers.entries, w.status = .idle ∧ w.name = "a" ∧
        ¬ t.pool.idleSizeLocked - w.availableSlot < t.pool.minIdle ∧
        t.pool.workersByStatus .pending = [] ∧
        t.Allowed ⟨.shutdown, none⟩ ∧ Spared t ⟨.shutdown, none⟩ ∧ t.current "a" = some 7)
      (by decide +kernel)
  obtain ⟨allowed, spared, now⟩ := quiet
  obtain ⟨channels, -, returns⟩ := idle_answerable reached allowed spared .same
  obtain ⟨c, own, same⟩ := channels w mem idle
  rw [named] at same
  cases same.symm.trans now
  exact ⟨t, reached, w, mem, idle, own, now, named ▸ returns pending w
    (mem_filter.mpr ⟨mem, by simpa using idle⟩) spare⟩

/-- A backend event drops the entry of a worker that is running; its agent ends the session and
the entry is made again without a channel, so that the next deletion does not return. Or an agent
connects a second time, the new connection ends, and the old one, which still runs, says that it
is idle: the pool has the channel of the connection that has ended. -/
theorem idle_unanswerable : (∃ t : Roster Nat, Reachable step Any init t ∧ t.current "a" = some 7 ∧
      t.pool.workersByStatus .pending = [] ∧
      ∃ w ∈ t.pool.workersByStatus .idle, w.name = "a" ∧ w.statusChan = none ∧
        ¬ t.pool.idleSizeLocked - w.availableSlot < t.pool.minIdle ∧
        t.pool.deleteOneWorkerLocked "a" = none) ∧
    ∃ t : Roster Nat, Reachable step Any init t ∧ t.current "a" = some 7 ∧
      ∃ w ∈ t.pool.workersByStatus .idle, w.name = "a" ∧ w.statusChan = some 8 := by
  constructor
  · exact exists_of_run _ _ _
      [⟨.updateConfig patient {}, none⟩,
        ⟨.notifyAgentAvailable "a" false 7 1 {}, some 7⟩, ⟨.requestWorker {}, none⟩,
        ⟨.markBusy "a" 0 {}, some 7⟩, ⟨.resourcePoolEvent "a" 1 {}, none⟩,
        ⟨.markIdle "a" 1 {}, some 7⟩] _ (by decide +kernel)
  · exact exists_of_run _ _ _
      [⟨.updateConfig patient {}, none⟩,
        ⟨.notifyAgentAvailable "a" false 7 1 {}, some 7⟩,
        ⟨.notifyAgentAvailable "a" false 8 1 {}, some 8⟩, ⟨.markLost "a" 1 {}, some 8⟩,
        ⟨.markIdle "a" 1 {}, some 7⟩] _ (by decide +kernel)

end Roster

end Velda.Pool
