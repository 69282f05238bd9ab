import Velda.Broker.Step

/-! How the turns of the broker move offers of agents. An agent is offered when it sends
itself to the scheduler; from there the offer is in the scheduler's queue or set, on
the channel of a session, in an answer to the agent, or in a confirmation. -/
namespace Velda.Broker
open Lib List Function Net AgentInput

variable {cfg : Config}

variable {n m : Net cfg} {x : SessionPtr} {a : AgentPtr} {g : Agent cfg} {input : AgentInput}

namespace Net

@[simp] lemma offers_addAgent (n : Net cfg) (a b : AgentPtr) :
    (n.addAgent a).offers b = n.offers b + if a = b then 1 else 0 := by
  unfold offers addAgent modifyScheduler
  by_cases pool : cfg.agentPool b = cfg.agentPool a
  · simp only [pool, update_self, Registry.waiting_sendAdd]
    omega
  · have ne : a ≠ b := fun same => pool (same ▸ rfl)
    simp [update_of_ne pool, ne]

@[simp] lemma offers_removeAgent (n : Net cfg) (a b : AgentPtr) :
    (n.removeAgent a).offers b = n.offers b := by
  unfold offers removeAgent modifyScheduler
  by_cases pool : cfg.agentPool b = cfg.agentPool a
  · simp [pool]
  · simp [update_of_ne pool]

lemma offers_sessions (n : Net cfg) (pool : String) (r : Registry cfg.rank) (b : AgentPtr) :
    (n.modifyScheduler pool fun p => { p with sessions := r }).offers b = n.offers b := by
  unfold offers modifyScheduler
  by_cases same : cfg.agentPool b = pool
  · simp [same]
  · simp [update_of_ne same]

@[simp] lemma offers_addSession (n : Net cfg) (x : SessionPtr) (b : AgentPtr) :
    (n.addSession x).offers b = n.offers b :=
  n.offers_sessions _ _ b

@[simp] lemma offers_removeSession (n : Net cfg) (x : SessionPtr) (b : AgentPtr) :
    (n.removeSession x).offers b = n.offers b :=
  n.offers_sessions _ _ b

@[simp] lemma offers_request (n : Net cfg) (a : AgentPtr) (r : SessionRequest) (b : AgentPtr) :
    (n.request a r).offers b = n.offers b + if a = b ∧ r.isRelease cfg = false then 1 else 0 := by
  unfold offers request
  by_cases same : b = a
  · subst same
    cases h : r.isRelease cfg <;> simp [h, Nat.add_assoc]
  · simp [update_of_ne same, Ne.symm same]

lemma offers_releases (n : Net cfg) (l : List (AgentPtr × SessionRequest))
    (releases : ∀ m ∈ l, m.2.isRelease cfg = true) (b : AgentPtr) :
    (l.foldl (fun n (a, r) => n.request a r) n).offers b = n.offers b := by
  induction l generalizing n with
  | nil => rfl
  | cons m rest ih =>
    rw [foldl_cons, ih _ fun m hm => releases m (mem_cons_of_mem _ hm),
      offers_request, releases m mem_cons_self]
    simp

lemma takeAgent_perm (h : n.takeAgent x = some (a, m)) :
    ∃ rest, m = { n with agentChan := rest } ∧ n.agentChan.Perm ((x, a) :: rest) := by
  obtain ⟨⟨y, c⟩, found, same⟩ := Option.map_eq_some_iff.mp h
  cases same
  have atSession : y = x := by simpa using List.find?_some found
  subst atSession
  exact ⟨_, rfl, perm_cons_erase (mem_of_find?_eq_some found)⟩

lemma offers_takeAgent (h : n.takeAgent x = some (a, m)) (b : AgentPtr) :
    m.offers b + (if a = b then 1 else 0) = n.offers b := by
  obtain ⟨rest, rfl, perm⟩ := takeAgent_perm h
  simp only [offers, perm.countP_eq, countP_cons, decide_eq_true_eq]
  omega

lemma takeResponse_cases (h : n.takeResponse x = some (r, m)) :
    ∃ rest, n.agentResponse x = r :: rest ∧
      m = { n with agentResponse := Function.update n.agentResponse x rest } := by
  unfold takeResponse at h
  split at h
  · cases h
  · next queue =>
    cases h
    exact ⟨_, queue, rfl⟩

end Net

def Net.agentsOf (n : Net cfg) (pool : String) : Registry cfg.agentId := (n.schedulers pool).agents

def Net.leaving (n : Net cfg) (a : AgentPtr) : Nat := (n.agentsOf (cfg.agentPool a)).removes.count a

lemma Net.agentsOf_sessions (n : Net cfg) (pool : String) (r : Registry cfg.rank) (p : String) :
    (n.modifyScheduler pool fun q => { q with sessions := r }).agentsOf p = n.agentsOf p := by
  unfold agentsOf modifyScheduler
  by_cases same : p = pool
  · simp [same]
  · simp [update_of_ne same]

structure SameOffers (n m : Net cfg) : Prop where
  registry : ∀ p, m.agentsOf p = n.agentsOf p
  offers : ∀ b, m.offers b = n.offers b
  confirm : m.agentConfirm = n.agentConfirm

lemma Net.requests_eq (n : Net cfg) (l : List (AgentPtr × SessionRequest)) :
    l.foldl (fun n (a, r) => n.request a r) n =
      { n with sessionReq := (l.foldl (fun n (a, r) => n.request a r) n).sessionReq } := by
  induction l generalizing n with
  | nil => rfl
  | cons m rest ih =>
    rw [foldl_cons, ih]
    rfl

lemma isRelease_of_mem_releases {s : State cfg} {m : AgentPtr × SessionRequest}
    (h : m ∈ s.releases l) : m.2.isRelease cfg = true := by
  obtain ⟨f, -, made⟩ := mem_filterMap.mp h
  cases f with
  | cleanup => cases made
  | release x member ctx =>
    obtain ⟨a, -, rfl⟩ := Option.map_eq_some_iff.mp made
    simp [SessionRequest.isRelease, member]

lemma sameOffers_answer (h : n.takeAgent x = some (a, m)) (answer : r.isRelease cfg = false) :
    SameOffers n (m.request a r) := by
  have moved := offers_takeAgent h
  obtain ⟨rest, rfl, -⟩ := takeAgent_perm h
  refine ⟨fun _ => rfl, fun b => ?_, rfl⟩
  simpa [answer] using moved b

lemma sameOffers_releases (h : SameOffers n m) {l : List (AgentPtr × SessionRequest)}
    (releases : ∀ r ∈ l, r.2.isRelease cfg = true) :
    SameOffers n (l.foldl (fun n (a, r) => n.request a r) m) := by
  have offers := fun b => (offers_releases m l releases b).trans (h.offers b)
  rw [requests_eq] at offers ⊢
  exact ⟨h.registry, offers, h.confirm⟩

lemma sameOffers_loopStep {s t : State cfg} (h : LoopStep s x i l e t) :
    t.agents = s.agents ∧ t.connected = s.connected ∧ SameOffers s.net t.net := by
  cases h with
  | enqueue => exact ⟨rfl, rfl, agentsOf_sessions _ _ _, offers_addSession _ _, rfl⟩
  | cancelCtx | cancelSignal =>
    exact ⟨rfl, rfl, agentsOf_sessions _ _ _, offers_removeSession _ _, rfl⟩
  | assign _ alone taken =>
    exact ⟨rfl, rfl, sameOffers_answer taken (by simp [SessionRequest.isRelease, alone])⟩
  | hold _ member taken =>
    have held := sameOffers_answer (r := ⟨x, l.ctx, true, true⟩) taken
      (by simp [SessionRequest.isRelease])
    exact ⟨rfl, rfl, sameOffers_releases held fun _ => isRelease_of_mem_releases⟩
  | failed _ taken | started _ taken | killDone _ taken | killStarted _ taken =>
    obtain ⟨rest, -, rfl⟩ := takeResponse_cases taken
    exact ⟨rfl, rfl, fun _ => rfl, fun _ => rfl, rfl⟩
  | declined _ taken => exact ⟨rfl, rfl, sameOffers_answer taken rfl⟩
  | _ =>
    exact ⟨rfl, rfl, fun _ => rfl, fun _ => rfl, rfl⟩

def AgentOutput.events : AgentOutput → List Event
  | .complete x final => [.recordExecution x final]
  | .checkpointed x => [.recordExecution x .checkpointed]
  | .log e => [e]
  | _ => []

namespace State

lemma perform_agents (a : AgentPtr) (s : State cfg) (o : AgentOutput) :
    (s.perform a o).agents = s.agents ∧ (s.perform a o).connected = s.connected := by
  cases o <;> exact ⟨rfl, rfl⟩

@[simp] lemma performAll_agents (s : State cfg) (a : AgentPtr)
    (r : Agent cfg × List AgentOutput) :
    (s.performAll a r).agents = Function.update s.agents a r.1 :=
  performAll_rule (P := fun u => u.agents = Function.update s.agents a r.1) rfl
    fun u o same => (perform_agents a u o).1.trans same

@[simp] lemma performAll_connected (s : State cfg) (a : AgentPtr)
    (r : Agent cfg × List AgentOutput) : (s.performAll a r).connected = s.connected :=
  performAll_rule (P := fun u => u.connected = s.connected) rfl
    fun u o same => (perform_agents a u o).2.trans same

lemma perform_events (a : AgentPtr) (s : State cfg) (o : AgentOutput) :
    (s.perform a o).events = o.events.reverse ++ s.events := by
  cases o <;> rfl

lemma events_performAll (s : State cfg) (a : AgentPtr) (r : Agent cfg × List AgentOutput) :
    (s.performAll a r).events = (r.2.flatMap AgentOutput.events).reverse ++ s.events := by
  have folded : ∀ (outs : List AgentOutput) (s : State cfg),
      (outs.foldl (perform a) s).events =
        (outs.flatMap AgentOutput.events).reverse ++ s.events := by
    intro outs
    induction outs with
    | nil => exact fun _ => rfl
    | cons o rest ih =>
      intro s
      rw [foldl_cons, ih, perform_events, flatMap_cons, reverse_append,
        append_assoc]
  exact folded r.2 _

lemma offers_perform (a : AgentPtr) (s : State cfg) (o : AgentOutput) (b : AgentPtr) :
    (s.perform a o).net.offers b = s.net.offers b + (if o = .addAgent ∧ a = b then 1 else 0) ∧
      (s.perform a o).net.leaving b =
        s.net.leaving b + (if o = .removeAgent ∧ a = b then 1 else 0) ∧
      (s.perform a o).net.agentConfirm = s.net.agentConfirm := by
  cases o with
  | addAgent =>
    refine ⟨by simp [perform, modifyNet], ?_, rfl⟩
    by_cases pool : cfg.agentPool b = cfg.agentPool a
    · simp [perform, modifyNet, leaving, agentsOf, addAgent, modifyScheduler, pool,
        Registry.sendAdd]
    · simp [perform, modifyNet, leaving, agentsOf, addAgent, modifyScheduler,
        update_of_ne pool]
  | removeAgent =>
    refine ⟨by simp [perform, modifyNet], ?_, rfl⟩
    by_cases pool : cfg.agentPool b = cfg.agentPool a
    · simp [perform, modifyNet, leaving, agentsOf, removeAgent, modifyScheduler,
        pool, Registry.sendRemove, count_singleton]
    · have ne : a ≠ b := fun same => pool (same ▸ rfl)
      simp [perform, modifyNet, leaving, agentsOf, removeAgent, modifyScheduler,
        update_of_ne pool, ne]
  | _ =>
    exact ⟨rfl, rfl, rfl⟩

lemma offers_performAll (s : State cfg) (a : AgentPtr) (r : Agent cfg × List AgentOutput)
    (b : AgentPtr) :
    (s.performAll a r).net.offers b = s.net.offers b + (if a = b then r.2.count .addAgent else 0) ∧
      (s.performAll a r).net.leaving b =
        s.net.leaving b + (if a = b then r.2.count .removeAgent else 0) ∧
      (s.performAll a r).net.agentConfirm = s.net.agentConfirm := by
  have folded : ∀ (outs : List AgentOutput) (s : State cfg),
      (outs.foldl (perform a) s).net.offers b =
          s.net.offers b + (if a = b then outs.count .addAgent else 0) ∧
        (outs.foldl (perform a) s).net.leaving b =
          s.net.leaving b + (if a = b then outs.count .removeAgent else 0) ∧
        (outs.foldl (perform a) s).net.agentConfirm = s.net.agentConfirm := by
    intro outs
    induction outs with
    | nil => simp
    | cons o rest ih =>
      intro s
      obtain ⟨offers, leaving, confirm⟩ := ih (s.perform a o)
      obtain ⟨offers', leaving', confirm'⟩ := offers_perform a s o b
      rw [foldl_cons, offers, leaving, confirm, offers', leaving', confirm', count_cons,
        count_cons]
      refine ⟨?_, ?_, rfl⟩
      · by_cases same : a = b <;> by_cases add : o = .addAgent <;> simp [same, add]
        omega
      · by_cases same : a = b <;> by_cases remove : o = .removeAgent <;> simp [same, remove]
        omega
  exact folded r.2 _

end State

namespace Agent

def failures (g : Agent cfg) (m : AgentUpdateRequest) : Nat :=
  match m.sessionInitResponse with
  | some (k, false) => if (g.mySessions.lookup k).isSome then 1 else 0
  | _ => 0

def completions (g : Agent cfg) (m : AgentUpdateRequest) (revoked : Bool) : Nat :=
  match m.sessionCompletion with
  | some c =>
    if revoked = true ∧ m.sessionInitResponse ≠ some (c.key, false) ∧
      (g.mySessions.lookup c.key).isSome then 1 else 0
  | none => 0

def endings (g : Agent cfg) (m : AgentUpdateRequest) (revoked : Bool) : Nat :=
  g.failures m + g.completions m revoked

lemma count_stop (g : Agent cfg) : g.stop.2.count .addAgent = 0 := by
  unfold stop
  split
  · rfl
  · cases g.receiving <;> simp

lemma receiving_stop (g : Agent cfg) : g.stop.1.receiving = g.receiving := by
  unfold stop
  split <;> rfl

/-- What ending `n` sessions leaves of an agent. -/
structure Ended (g : Agent cfg) (n : Nat) (h : Agent cfg) : Prop where
  size : h.mySessions.size + n = g.mySessions.size
  subset : ∀ x ∈ h.mySessions, x ∈ g.mySessions
  receiving : h.receiving = (g.receiving || decide (0 < n))
  phase : h.phase = g.phase
  shutdownRequested : h.shutdownRequested = g.shutdownRequested
  lastMessageTime : h.lastMessageTime = g.lastMessageTime
  stopping : g.stopping = true → h.stopping = true

lemma Ended.refl (g : Agent cfg) : Ended g 0 g :=
  ⟨rfl, fun _ => id, by simp, rfl, rfl, rfl, id⟩

lemma Ended.trans {m n : Nat} (first : Ended g m h) (second : Ended h n k) : Ended g (m + n) k := by
  have total := first.size
  have rest := second.size
  refine ⟨by omega, fun x hx => first.subset x (second.subset x hx), ?_,
    second.phase.trans first.phase, second.shutdownRequested.trans first.shutdownRequested,
    second.lastMessageTime.trans first.lastMessageTime, fun h => second.stopping (first.stopping h)⟩
  rw [second.receiving, first.receiving, Bool.or_assoc, ← Bool.decide_or]
  congr 2
  rw [eq_iff_iff]
  omega

lemma Ended.rejoin (held : (g.mySessions.lookup k).isSome) : Ended g 1 (g.rejoin k) := by
  have size := g.mySessions.size_erase k
  rw [if_pos held] at size
  exact ⟨size, fun x hx => (Keyed.mem_erase.mp hx).1, by simp [Agent.rejoin], rfl, rfl, rfl, id⟩

lemma Ended.stop (g : Agent cfg) : Ended g 0 g.stop.1 := by
  unfold Agent.stop
  split
  · exact .refl g
  · exact ⟨rfl, fun _ => id, by simp, rfl, rfl, rfl, fun _ => rfl⟩

variable {m : AgentUpdateRequest}

lemma Inited.ended (inited : g.Inited a m.sessionInitResponse (h, outs)) :
    Ended g (g.failures m) h ∧ outs.count .addAgent = g.failures m ∧
      ∀ l, (h.mySessions.lookup l).isSome ↔
        m.sessionInitResponse ≠ some (l, false) ∧ (g.mySessions.lookup l).isSome := by
  unfold failures
  generalize m.sessionInitResponse = init at inited ⊢
  cases inited with
  | none => exact ⟨.refl g, rfl, by simp⟩
  | @unknown k success missing =>
    refine ⟨?_, ?_, fun l => ⟨fun held => ⟨?_, held⟩, And.right⟩⟩
    · cases success <;> simp [missing, Ended.refl]
    · cases success <;> simp [missing]
    · rintro ⟨⟩
      rw [missing] at held
      cases held
  | started => exact ⟨.refl g, rfl, by simp⟩
  | @failed k x found =>
    have held : (g.mySessions.lookup k).isSome := by rw [found]; rfl
    refine ⟨by simp [held, Ended.rejoin], by simp [held], fun l => ?_⟩
    by_cases same : l = k
    · simp [same, Agent.rejoin, Keyed.lookup_erase]
    · simp [same, Ne.symm same, Agent.rejoin, Keyed.lookup_erase]

lemma Completed.ended {g h : Agent cfg} (completed : h.Completed a revoked m.sessionCompletion out)
    (held : ∀ l, (h.mySessions.lookup l).isSome ↔
      m.sessionInitResponse ≠ some (l, false) ∧ (g.mySessions.lookup l).isSome) :
    Ended h (g.completions m revoked) out.1 ∧
      out.2.count .addAgent = g.completions m revoked := by
  simp only [completions, ← held]
  generalize m.sessionCompletion = completion at completed ⊢
  cases completed with
  | none => exact ⟨.refl h, rfl⟩
  | unknown missing => simp [missing, Ended.refl]
  | unrevoked found refused => simp [refused, Ended.stop, count_stop]
  | checkpointed found revoked => simp [found, revoked, Ended.rejoin]
  | @completed c _ found revoked => cases c.hasResult <;> simp [found, revoked, Ended.rejoin]

lemma ended_of_update (g : Agent cfg) (a : AgentPtr) (m : AgentUpdateRequest) (revoked : Bool) :
    Ended g (g.endings m revoked) (g.handleSessionUpdate a m revoked).1 ∧
      (g.handleSessionUpdate a m revoked).2.count .addAgent = g.endings m revoked := by
  obtain ⟨h, first, out, inited, completed, same⟩ := g.updated a m revoked
  obtain ⟨ended, count, held⟩ := inited.ended
  obtain ⟨ended', count'⟩ := completed.ended held
  rw [same]
  exact ⟨ended.trans ended', by rw [count_append, count, count', endings]⟩

end Agent

def AgentInput.consumes (cfg : Config) : AgentInput → Nat
  | .sessionReq r => if r.isRelease cfg then 0 else 1
  | _ => 0

def AgentInput.confirms : AgentInput → Nat
  | .cancelConfirm => 1
  | _ => 0

lemma Net.Received.offers (h : n.Received a e m input) (b : AgentPtr) :
    m.offers b + (if a = b then input.consumes cfg else 0) = n.offers b ∧
      m.agentConfirm b + (if a = b then input.confirms else 0) = n.agentConfirm b := by
  cases h with
  | cancelConfirm some =>
    simp only [offers, consumes, confirms]
    by_cases same : b = a
    · subst same
      simp only [update_self, if_true]
      omega
    · simp [update_of_ne same, Ne.symm same]
  | @sessionReq r rest queue =>
    simp only [offers, consumes, confirms]
    by_cases same : b = a
    · subst same
      rw [update_self, queue, countP_cons]
      cases r.isRelease cfg <;> simp
      omega
    · simp [update_of_ne same, Ne.symm same]
  | _ => simp [consumes, confirms, offers]

lemma Net.Received.schedulers (h : n.Received a e m input) : m.schedulers = n.schedulers := by
  cases h <;> rfl

namespace Agent

/-- An input offers the agent only when it is not on offer: it ends no session while the agent
is receiving, and a release comes only when the agent is not receiving. -/
def Once (g : Agent cfg) : AgentInput → Prop
  | .update m revoked => g.endings m revoked + g.receiving.toNat ≤ 1
  | .sessionReq r => r.isRelease cfg = true → g.receiving = false
  | _ => True

instance (g : Agent cfg) (input : AgentInput) : Decidable (g.Once input) := by
  induction input using AgentInput.casesOn <;> unfold Once <;> infer_instance

lemma count_acceptOutputs (g : Agent cfg) (a : AgentPtr) (r : SessionRequest) :
    (g.acceptOutputs a r).count .addAgent = (g.accept a r.session).receiving.toNat ∧
      (g.acceptOutputs a r).count .removeAgent = 0 := by
  unfold acceptOutputs
  cases (g.accept a r.session).receiving <;>
  cases (g.mySessions.lookup (cfg.key r.session)).isSome <;> cases r.holdResourceOnly <;> simp

lemma consumes_of_declined (declined : r.accept = false) : consumes cfg (.sessionReq r) = 1 := by
  simp [consumes, SessionRequest.isRelease, declined]

lemma phase_handle (g : Agent cfg) (a : AgentPtr) (input : AgentInput) :
    (g.handle a input).1.phase = g.phase := by
  have handled := g.handled a input
  generalize g.handle a input = out at handled ⊢
  cases handled with
  | stop => exact (Ended.stop g).phase
  | update m revoked => exact (g.ended_of_update a m revoked).1.phase
  | _ => rfl

lemma started_settle (running : g.phase = .running) (a : AgentPtr) (input : AgentInput) :
    (settle a (g.handle a input)).1.phase.started = true := by
  unfold settle
  split
  · rfl
  · rw [phase_handle, running]
    rfl

lemma receiving_handle (a : AgentPtr) (once : g.Once input)
    (onOffer : input.consumes cfg + input.confirms ≤ g.receiving.toNat) :
    (g.handle a input).1.receiving.toNat + input.consumes cfg + input.confirms =
      g.receiving.toNat + (g.handle a input).2.count .addAgent := by
  have atMost := Bool.toNat_le g.receiving
  have requested : ∀ r, input = .sessionReq r → g.receiving.toNat = input.consumes cfg := by
    rintro r rfl
    simp only [consumes] at once onOffer ⊢
    split
    · next release => simp [once release]
    · next answer =>
      rw [if_neg answer] at onOffer
      omega
  have handled := g.handled a input
  generalize g.handle a input = out at handled ⊢
  cases handled with
  | stop => simp [consumes, confirms, receiving_stop, count_stop]
  | update m revoked =>
    obtain ⟨ended, count⟩ := g.ended_of_update a m revoked
    simp only [Once] at once
    simp only [count, ended.receiving, consumes, confirms]
    rcases Nat.eq_zero_or_pos (g.endings m revoked) with none | some
    · simp [none]
    · have idle : g.receiving.toNat = 0 := by omega
      have one : g.endings m revoked = 1 := by omega
      simp [one, idle]
  | confirmed | withdrawn | unexpected =>
    simp only [confirms] at onOffer
    simp [confirms]
    omega
  | @refused r =>
    rw [requested r rfl]
    cases r.accept <;> simp [confirms]
  | @released r | @declined r =>
    rw [requested r rfl]
    simp [confirms, Nat.add_comm]
  | @accepted r =>
    rw [requested r rfl, (g.count_acceptOutputs a r).1]
    simp [confirms, Nat.add_comm]
  | _ => simp [consumes, confirms]

end Agent

end Velda.Broker
