import Velda.Broker.References
import Velda.Pool.Upkeep

/-! A broker together with the managers of its pools. A turn of the broker is followed by
the calls of the managers that it makes, in their order; a manager that tells a worker
to shut down puts a request on the status channel of its connection. Timers, the
backend and the configuration act on a manager by themselves. -/
namespace Velda.Broker
open Lib

variable {cfg : Config}

/-- The pool whose manager a scheduler has: a scheduler made for one task shares it. -/
def managerOf (scheduler : String) : String :=
  String.ofList (scheduler.toList.takeWhile (· ≠ ':'))

def Event.call (cfg : Config) (now : Time) (o : Pool.Oracle) :
    Event → Option (String × Pool.Op AgentPtr)
  | .requestWorker x => some (managerOf (cfg.scheduler x), .requestWorker o)
  | .requestCancelled x => some (managerOf (cfg.scheduler x), .requestCancelled o)
  | .notifyAgentAvailable a busy slots =>
    some (managerOf (cfg.agentPool a), .notifyAgentAvailable (cfg.agentId a) busy a slots o)
  | .markBusy a slots => some (managerOf (cfg.agentPool a), .markBusy (cfg.agentId a) slots o)
  | .markIdle a slots => some (managerOf (cfg.agentPool a), .markIdle (cfg.agentId a) slots o)
  | .markDeleting a => some (managerOf (cfg.agentPool a), .markDeleting (cfg.agentId a) o)
  | .markLost a => some (managerOf (cfg.agentPool a), .markLost (cfg.agentId a) now o)
  | _ => none

/-- What happens to a pool manager without a call of a session or an agent. -/
def ownOp : Pool.Op AgentPtr → Bool
  | .requestBatch .. | .beginReconnect | .reconnect .. | .resourcePoolEvent ..
  | .deleteOneIdleWorker .. | .retryScaleUp _ | .readyForIdleMaintenance _ | .updateConfig ..
  | .shutdown => true
  | _ => false

/-- `waiting` are the sessions that have asked for a worker and have since neither been taken by
an agent nor been cancelled or ended; it is only read by statements. -/
structure Fleet (cfg : Config) where
  broker : State cfg
  pools : String → Pool.AutoScaledPool AgentPtr
  waiting : List SessionPtr

variable {f g : Fleet cfg}

namespace Fleet

def init : Fleet cfg := ⟨.init, fun _ => {}, []⟩

/-- The session that an agent takes in a turn; a release of a gang member takes none. -/
def taken (s : State cfg) : Action → Option SessionPtr
  | .agent a .sessionReq =>
    if (s.agents a).stopping then none
    else ((s.net.sessionReq a).head?.filter fun r => r.accept && !r.isRelease cfg).map (·.session)
  | _ => none

def record (waiting : List SessionPtr) : Event → List SessionPtr
  | .requestWorker x => waiting.insert x
  | .requestCancelled x => waiting.filter (· ≠ x)
  | .recordExecution x final => if final = .checkpointed then waiting else waiting.filter (· ≠ x)
  | _ => waiting

def tell (s : State cfg) (a : AgentPtr) : State cfg := (Broker.step s (.requestShutdown a)).getD s

def apply (f : Fleet cfg) (pool : String) (op : Pool.Op AgentPtr) : Option (Fleet cfg) :=
  ((f.pools pool).apply op).map fun (p, told) =>
    { f with
      pools := Function.update f.pools pool p
      broker := told.foldl tell f.broker }

/-- The calls that a turn makes, each with what the backend and the maps answer. -/
def deliver : List Event → List Pool.Oracle → Fleet cfg → Option (Fleet cfg)
  | [], _, f => some f
  | e :: rest, os, f =>
    match e.call cfg f.broker.now (os.headD {}) with
    | none => deliver rest os f
    | some (pool, op) => (f.apply pool op).bind (deliver rest os.tail)

inductive Action
  | broker (act : Broker.Action) (os : List Pool.Oracle)
  | pool (name : String) (op : Pool.Op AgentPtr)

def turned (f : Fleet cfg) (act : Broker.Action) (t : State cfg) : Fleet cfg :=
  { f with
    broker := t
    waiting := (f.broker.news t).foldl record (f.waiting.filter (some · ≠ taken f.broker act)) }

def step (f : Fleet cfg) : Action → Option (Fleet cfg)
  | .broker (.requestShutdown _) _ => none
  | .broker act os =>
    (Broker.step f.broker act).bind fun t => deliver (f.broker.news t) os (f.turned act t)
  | .pool name op => if ownOp op then f.apply name op else none

def Unblocked (f : Fleet cfg) (act : Action) : Prop := ∀ g ∈ f.step act, g.broker.Buffered

instance (f : Fleet cfg) (act : Action) : Decidable (Unblocked f act) :=
  inferInstanceAs (Decidable (∀ g ∈ f.step act, g.broker.Buffered))

def plain (acts : List Broker.Action) : List Action := acts.map (.broker · [])

lemma told_eq (s : State cfg) (l : List AgentPtr) :
    ∃ c, l.foldl tell s = s.modifyNet fun n => { n with statusChan := c } := by
  induction l generalizing s with
  | nil => exact ⟨s.net.statusChan, rfl⟩
  | cons a rest ih =>
    obtain ⟨c, told⟩ := ih (tell s a)
    refine ⟨c, ?_⟩
    rw [List.foldl_cons, told]
    unfold tell
    cases h : Broker.step s (.requestShutdown a) with
    | none => rfl
    | some t =>
      cases (step_cases h).2
      rfl

lemma apply_eq {pool : String} (h : f.apply pool op = some g) :
    ∃ p told, (f.pools pool).apply op = some (p, told) ∧
      g = ⟨told.foldl tell f.broker, Function.update f.pools pool p, f.waiting⟩ := by
  obtain ⟨⟨p, told⟩, applied, rfl⟩ := Option.map_eq_some_iff.mp h
  exact ⟨p, told, applied, rfl⟩

lemma deliver_rule {P : Fleet cfg → Prop} (h : deliver evs os f = some g) (start : P f) (each : ∀ u
      v, ∀ e ∈ evs, ∀ now o pool op, e.call cfg now o = some (pool, op) → P u → u.apply pool op =
      some v → P v) : P g := by
  induction evs generalizing os f with
  | nil =>
    cases h
    exact start
  | cons e rest ih =>
    unfold deliver at h
    have later : ∀ u v, ∀ e ∈ rest, ∀ now o pool op, e.call cfg now o = some (pool, op) → P u →
        u.apply pool op = some v → P v := fun u v e mem => each u v e (List.mem_cons_of_mem _ mem)
    split at h
    · exact ih h start later
    · next pool op call =>
      obtain ⟨u, applied, delivered⟩ := Option.bind_eq_some_iff.mp h
      exact ih delivered (each f u e List.mem_cons_self _ _ _ _ call start applied) later

lemma broker_apply {pool : String} (h : f.apply pool op = some g) :
    g.waiting = f.waiting ∧
      ∃ c, g.broker = f.broker.modifyNet fun n => { n with statusChan := c } := by
  obtain ⟨p, told, -, rfl⟩ := apply_eq h
  exact ⟨rfl, told_eq f.broker told⟩

lemma broker_deliver (h : deliver evs os f = some g) :
    g.waiting = f.waiting ∧
      ∃ c, g.broker = f.broker.modifyNet fun n => { n with statusChan := c } := by
  refine deliver_rule (P := fun g => g.waiting = f.waiting ∧
    ∃ c, g.broker = f.broker.modifyNet fun n => { n with statusChan := c }) h
    ⟨rfl, f.broker.net.statusChan, rfl⟩ fun u v e _ now o pool op _ known applied => ?_
  obtain ⟨waiting, c, broker⟩ := known
  obtain ⟨same, d, told⟩ := broker_apply applied
  exact ⟨same.trans waiting, d, by rw [told, broker]; rfl⟩

lemma step_cases (h : step f act = some g) :
    (∃ b os t, act = .broker b os ∧ (∀ a, b ≠ .requestShutdown a) ∧
      Broker.step f.broker b = some t ∧ deliver (f.broker.news t) os (f.turned b t) = some g) ∨
    ∃ name op, act = .pool name op ∧ ownOp op = true ∧ f.apply name op = some g := by
  cases act with
  | broker b os =>
    refine .inl ?_
    by_cases request : ∃ a, b = .requestShutdown a
    · obtain ⟨a, rfl⟩ := request
      cases h
    · have plain : ∀ a, b ≠ .requestShutdown a := fun a same => request ⟨a, same⟩
      have turn : step f (.broker b os) = (Broker.step f.broker b).bind fun t =>
          deliver (f.broker.news t) os (f.turned b t) := by
        cases b with
        | requestShutdown a => exact absurd rfl (plain a)
        | _ => rfl
      rw [turn] at h
      obtain ⟨t, taken, delivered⟩ := Option.bind_eq_some_iff.mp h
      exact ⟨b, os, t, rfl, plain, taken, delivered⟩
  | pool name op =>
    refine .inr ⟨name, op, rfl, ?_⟩
    simp only [step] at h
    split at h
    · next own => exact ⟨own, h⟩
    · cases h

lemma reachable_told {ok : State cfg → Broker.Action → Prop}
    (shutdown : ∀ s a, ok s (.requestShutdown a)) (h : Reachable Broker.step ok .init s)
    (l : List AgentPtr) : Reachable Broker.step ok .init (l.foldl tell s) := by
  induction l generalizing s with
  | nil => exact h
  | cons a rest ih =>
    refine ih ?_
    unfold tell
    cases taken : Broker.step s (.requestShutdown a) with
    | none => exact h
    | some t => exact .next h (shutdown s a) taken

lemma broker_reachable {ok : Fleet cfg → Action → Prop}
    {brokerOk : State cfg → Broker.Action → Prop}
    (meets : ∀ f act os, ok f (.broker act os) → brokerOk f.broker act)
    (shutdown : ∀ s a, brokerOk s (.requestShutdown a)) (h : Reachable step ok init f) :
    Reachable Broker.step brokerOk .init f.broker := by
  refine Reachable.invariant (I := fun f : Fleet cfg => Reachable Broker.step brokerOk .init f.broker)
    .start (fun f act g reached holds taken => ?_) h
  have applied : ∀ {u v : Fleet cfg} {pool op}, u.apply pool op = some v →
      Reachable Broker.step brokerOk .init u.broker →
      Reachable Broker.step brokerOk .init v.broker := by
    intro u v pool op h reached
    obtain ⟨p, told, -, rfl⟩ := apply_eq h
    exact reachable_told shutdown reached told
  rcases step_cases taken with ⟨b, os, t, rfl, -, stepped, delivered⟩ | ⟨name, op, rfl, -, done⟩
  · exact deliver_rule (P := fun f : Fleet cfg => Reachable Broker.step brokerOk .init f.broker)
      delivered (.next reached (meets f b os holds) stepped)
      fun u v e _ now o pool op _ reached h => applied h reached
  · exact applied done reached

end Fleet

end Velda.Broker
