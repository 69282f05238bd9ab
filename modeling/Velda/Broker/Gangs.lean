import Velda.Broker.Withdrawal

/-! The second requests of gang members. When the last member of a gang has an agent,
every member sends a request to the agent it holds; until then each of them is owed
one. -/
namespace Velda.Broker
open Lib List Function State Session Net

variable {cfg : Config}

def Callback.names : Callback cfg → SessionPtr → Prop
  | .release x _ _, y => x = y
  | .cleanup, _ => False

variable {s t : State cfg} {x z : SessionPtr} {a b : AgentPtr} {n : Net cfg} {r : SessionRequest}
  {y : Session}

lemma Callback.isSome_of_names {f : Callback cfg} (h : f.names x) :
    (cfg.request x).shard.isSome = true := by
  cases f with
  | release y member ctx => exact h ▸ member
  | cleanup => cases h

namespace State

def Waiting (s : State cfg) (x : SessionPtr) : Prop :=
  ∃ g, (s.gangs g).triggered = false ∧ ∃ m ∈ (s.gangs g).notif, m.2.names x

/-- The second request of a session is on its way to the agent, or will be. -/
def Owed (s : State cfg) (a : AgentPtr) (x : SessionPtr) : Prop :=
  (∃ r ∈ s.net.sessionReq a, r.isRelease cfg = true ∧ r.session = x) ∨
    ((s.sessions x).agent = some a ∧ s.Waiting x)

end State

structure SameGangs (s t : State cfg) : Prop where
  requests : t.net.sessionReq = s.net.sessionReq
  agent : ∀ x, (t.sessions x).agent = (s.sessions x).agent
  waiting : ∀ x, t.Waiting x → s.Waiting x

lemma SameGangs.trans (first : SameGangs s t) (second : SameGangs t u) : SameGangs s u :=
  ⟨second.requests.trans first.requests, fun x => (second.agent x).trans (first.agent x),
    fun x h => first.waiting x (second.waiting x h)⟩

lemma SameGangs.owed (h : SameGangs s t) (owed : t.Owed a x) : s.Owed a x := by
  unfold State.Owed at owed ⊢
  rw [h.requests, h.agent] at owed
  exact owed.imp_right fun waits => ⟨waits.1, h.waiting x waits.2⟩

lemma SameGangs.of_session (x : SessionPtr) (y : Session)
    (sessions : t.sessions = Function.update s.sessions x y)
    (agent : y.agent = (s.sessions x).agent) (requests : t.net.sessionReq = s.net.sessionReq)
    (gangs : t.gangs = s.gangs) : SameGangs s t := by
  refine ⟨requests, fun z => ?_, fun z => by simp only [State.Waiting, gangs]; exact id⟩
  rw [sessions]
  by_cases same : z = x
  · rw [same, update_self, agent]
  · rw [update_of_ne same]

lemma sameGangs_turned {completed : Bool} (agent : y.agent = (s.sessions x).agent)
    (requests : n.sessionReq = s.net.sessionReq) : SameGangs s (s.turned x y n completed evs) :=
  .of_session x y rfl agent requests rfl

section Sessions

lemma Session.agent_markStale (r : Request) (done : Ctx → Bool) (t : Time) (x : Session) :
    (x.markStale r done t).agent = x.agent := by
  unfold markStale
  split
  · split <;> rfl
  · rfl
  · rfl

lemma Session.agent_refresh (done : Ctx → Bool) (x : Session) (i : Nat) (l : Loop) :
    (x.refresh done i l).agent = x.agent := by
  unfold refresh
  split <;> rfl

lemma Session.agent_schedule (x : Session) (ctx : Ctx) : (x.schedule ctx).agent = x.agent := by
  unfold schedule
  split <;> rfl

lemma Session.agent_signal (x : Session) : x.signal.agent = x.agent := by
  unfold signal
  split <;> rfl

end Sessions

lemma GangCoordinator.leave_triggered (g : GangPtr) (c : GangCoordinator cfg) (x : SessionPtr) :
    (leave g c x).triggered = c.triggered ∧ (c.triggered = false → leave g c x = c) := by
  unfold leave unnotify
  split
  · split
    · split
      · next triggered => exact ⟨rfl, fun not => by rw [not] at triggered; cases triggered⟩
      · exact ⟨rfl, fun _ => rfl⟩
    · exact ⟨rfl, fun _ => rfl⟩
  · exact ⟨rfl, fun _ => rfl⟩

lemma GangCoordinator.foldl_leave (g : GangPtr) (l : List SessionPtr) (c : GangCoordinator cfg) :
    (l.foldl (leave g) c).triggered = c.triggered ∧
      (c.triggered = false → l.foldl (leave g) c = c) := by
  induction l generalizing c with
  | nil => exact ⟨rfl, fun _ => rfl⟩
  | cons x rest ih =>
    obtain ⟨triggered, same⟩ := leave_triggered g c x
    obtain ⟨triggered', same'⟩ := ih (leave g c x)
    refine ⟨triggered'.trans triggered, fun not => ?_⟩
    rw [foldl_cons, same' (triggered.trans not), same not]

lemma sameGangs_markStale (s : State cfg) (l : List SessionPtr) (time : Time) :
    SameGangs s (s.markStale l time) := by
  refine ⟨rfl, fun x => ?_, fun x => ?_⟩
  · simp only [State.markStale]
    split
    · exact agent_markStale _ _ _ _
    · rfl
  · rintro ⟨g, untriggered, m, mem, names⟩
    obtain ⟨triggered, same⟩ := GangCoordinator.foldl_leave g
      (l.filter fun x => (s.sessions x).status = .waitingForOtherShards) (s.gangs g)
    have before : (s.gangs g).triggered = false := triggered.symm.trans untriggered
    have kept : (s.markStale l time).gangs g = s.gangs g := same before
    rw [kept] at mem
    exact ⟨g, before, m, mem, names⟩

lemma sameGangs_perform (a : AgentPtr) (s : State cfg) (o : AgentOutput) :
    SameGangs s (s.perform a o) := by
  cases o with
  | complete x | checkpointed x => exact .of_session x _ rfl rfl rfl rfl
  | markStale l time => exact sameGangs_markStale s l time
  | _ => exact ⟨rfl, fun _ => rfl, fun _ => id⟩

lemma sameGangs_performAll (s : State cfg) (a : AgentPtr) (r : Agent cfg × List AgentOutput) :
    SameGangs s (s.performAll a r) :=
  performAll_rule (P := SameGangs s) ⟨rfl, fun _ => rfl, fun _ => id⟩
    fun u o same => same.trans (sameGangs_perform a u o)

lemma Net.Received.requests (h : n.Received a e m input) (mem : r ∈ m.sessionReq b) :
    r ∈ n.sessionReq b := by
  cases h with
  | @sessionReq q rest queue =>
    by_cases same : b = a
    · subst same
      rw [queue]
      simp only [update_self] at mem
      exact mem_cons_of_mem _ mem
    · simpa [update_of_ne same] using mem
  | _ => exact mem

lemma Net.mem_request : r ∈ (n.request b q).sessionReq a ↔ r ∈ n.sessionReq a ∨ a = b ∧ r = q := by
  by_cases same : a = b
  · subst same
    simp [request]
  · simp [request, same]

lemma Net.mem_requests {l : List (AgentPtr × SessionRequest)} :
    r ∈ (l.foldl (fun n (a, r) => n.request a r) n).sessionReq a ↔
      r ∈ n.sessionReq a ∨ (a, r) ∈ l := by
  induction l generalizing n with
  | nil => simp
  | cons m rest ih => rw [foldl_cons, ih, mem_request, mem_cons, Prod.ext_iff, or_assoc]

def State.Sent (s : State cfg) (a : AgentPtr) (x : SessionPtr) : Prop :=
  ∃ r ∈ s.net.sessionReq a, r.accept = true ∧ r.isRelease cfg = false ∧ r.session = x

lemma State.Waiting.isSome (h : s.Waiting x) : (cfg.request x).shard.isSome = true := by
  obtain ⟨g, -, m, -, names⟩ := h
  exact Callback.isSome_of_names names

lemma owed_answer {completed : Bool} (taken : s.net.takeAgent x = some (b, n))
    (answer : r.isRelease cfg = false)
    (kept : y.agent = (s.sessions x).agent ∨ (cfg.request x).shard = none)
    (owed : (s.turned x y (n.request b r) completed evs).Owed a z) : s.Owed a z := by
  obtain ⟨rest, rfl, -⟩ := takeAgent_perm taken
  rcases owed with ⟨q, mem, release, named⟩ | ⟨agent, waits⟩
  · rcases mem_request.mp mem with old | ⟨-, rfl⟩
    · exact .inl ⟨q, old, release, named⟩
    · rw [answer] at release
      cases release
  · refine .inr ⟨?_, waits⟩
    by_cases same : z = x
    · subst same
      simp only [turned, update_self] at agent
      rcases kept with kept | alone
      · rw [← kept, agent]
      · have member := waits.isSome
        rw [alone] at member
        cases member
    · simpa [turned, update_of_ne same] using agent

lemma waiting_of_notify {c : GangCoordinator cfg} {id : Int} (names : g.names z)
    (h : g ∈ (c.notify d id f).2 ∨
      (c.notify d id f).1.triggered = false ∧ ∃ m ∈ (c.notify d id f).1.notif, m.2 = g) :
    c.triggered = false ∧ (f.names z ∨ ∃ m ∈ c.notif, m.2.names z) := by
  have inserted : ∀ m ∈ c.notif.insert (id, f), m.2 = g →
      f.names z ∨ ∃ m ∈ c.notif, m.2.names z := by
    rintro m mem rfl
    rcases Keyed.mem_insert.mp mem with rfl | ⟨old, -⟩
    · exact .inl names
    · exact .inr ⟨m, old, names⟩
  unfold GangCoordinator.notify at h
  simp only at h
  split at h
  · next full =>
    rcases h with run | ⟨untriggered, -⟩
    · obtain ⟨m, mem, same⟩ := mem_map.mp run
      exact ⟨full.2, inserted m mem same⟩
    · cases untriggered
  · rcases h with run | ⟨untriggered, m, mem, same⟩
    · cases run
    · exact ⟨untriggered, inserted m mem same⟩

lemma owed_hold {ctx : Option Ctx} (member : (cfg.request x).shard.isSome = true)
    (taken : s.net.takeAgent x = some (b, n)) (agent : y.agent = some b) (after : t = (s.turned x y
      (n.request b ⟨x, ctx, true, true⟩) false []).notifyGang shard (.release x member ctx))
    (owed : t.Owed a z) : s.Owed a z ∨ t.Sent a z := by
  obtain ⟨rest, rfl, -⟩ := takeAgent_perm taken
  have sent : t.Sent b x := by
    refine ⟨⟨x, ctx, true, true⟩, ?_, rfl, by simp [SessionRequest.isRelease], rfl⟩
    rw [after]
    exact mem_requests.mpr (.inl (by simp [turned, request]))
  have sessions : ∀ w, (t.sessions w).agent = if w = x then some b else (s.sessions w).agent := by
    intro w
    rw [after]
    simp only [notifyGang, turned, update_apply]
    split
    · exact agent
    · rfl
  have known : (t.sessions z).agent = some a →
      (s.gangs shard.gang).triggered = false ∧
        ((Callback.release x member ctx : Callback cfg).names z ∨
          ∃ m ∈ (s.gangs shard.gang).notif, m.2.names z) → s.Owed a z ∨ t.Sent a z := by
    rintro own ⟨untriggered, names⟩
    rw [sessions] at own
    split at own
    · next same =>
      cases own
      exact .inr (same ▸ sent)
    · next other =>
      rcases names with new | ⟨m, mem, old⟩
      · exact absurd new.symm other
      · exact .inl (.inr ⟨own, shard.gang, untriggered, m, mem, old⟩)
  rcases owed with ⟨r, mem, release, named⟩ | ⟨own, g, untriggered, m, mem, names⟩
  · rw [after] at mem
    rcases mem_requests.mp mem with old | released
    · rcases mem_request.mp old with old | ⟨-, rfl⟩
      · exact .inl (.inl ⟨r, old, release, named⟩)
      · simp [SessionRequest.isRelease] at release
    · obtain ⟨f, run, made⟩ := mem_filterMap.mp released
      cases f with
      | cleanup => cases made
      | release w isMember c =>
        obtain ⟨own, atAgent, same⟩ := Option.map_eq_some_iff.mp made
        cases same
        subst named
        refine known ?_ (waiting_of_notify (g := .release w isMember c) rfl (.inl run))
        rw [after]
        exact atAgent
  · by_cases same : g = shard.gang
    · subst same
      simp only [after, notifyGang, update_self] at untriggered mem
      exact known own (waiting_of_notify names (.inr ⟨untriggered, m, mem, rfl⟩))
    · simp only [after, notifyGang, update_of_ne same]
        at untriggered mem
      rw [sessions] at own
      split at own
      · next atSession =>
        cases own
        exact .inr (atSession ▸ sent)
      · exact .inl (.inr ⟨own, g, untriggered, m, mem, names⟩)

lemma owed_of_loopStep (h : LoopStep s x i l e t) (owed : t.Owed a z) :
    s.Owed a z ∨ t.Sent a z := by
  cases h with
  | assign _ alone taken =>
    exact .inl (owed_answer taken (by simp [SessionRequest.isRelease, alone]) (.inr alone) owed)
  | declined _ taken =>
    refine .inl (owed_answer taken ?_ ?_ owed)
    · rfl
    · exact .inl rfl
  | hold _ member taken => exact owed_hold _ taken rfl rfl owed
  | failed _ taken | started _ taken | killDone _ taken | killStarted _ taken =>
    obtain ⟨rest, -, rfl⟩ := takeResponse_cases taken
    refine .inl (SameGangs.owed ?_ owed)
    exact sameGangs_turned rfl rfl
  | staleSignal | staleRefresh =>
    refine .inl (SameGangs.owed ?_ owed)
    exact sameGangs_turned (agent_refresh _ _ _ _) rfl
  | noCtx | notReconnected => exact .inl owed
  | _ =>
    refine .inl (SameGangs.owed ?_ owed)
    exact sameGangs_turned rfl rfl

lemma owed_of_step (h : Step s act t) (owed : t.Owed a x) : s.Owed a x ∨ t.Sent a x := by
  cases h with
  | @addSession y =>
    refine .inl (owed.imp_right fun waits => ⟨?_, waits.2⟩)
    by_cases same : x = y
    · have agent := waits.1
      simp [newSession, same] at agent
    · simpa [newSession, update_of_ne same] using waits.1
  | schedule => exact .inl ((sameGangs_turned (agent_schedule _ _) rfl).owed owed)
  | killRunning =>
    refine .inl (SameGangs.owed ?_ owed)
    exact sameGangs_turned rfl rfl
  | killSignal => exact .inl ((sameGangs_turned (agent_signal _) rfl).owed owed)
  | @register b y _ _ alone =>
    refine .inl (owed.imp_right fun waits => ⟨?_, waits.2⟩)
    by_cases same : x = y
    · have member := waits.2.isSome
      rw [same, alone] at member
      cases member
    · simpa [registered, update_of_ne same] using waits.1
  | startAgent => exact .inl ((sameGangs_performAll _ _ _).owed owed)
  | sender =>
    have before := (sameGangs_performAll _ _ _).owed owed
    exact .inl before
  | agent _ taken =>
    refine .inl (((sameGangs_performAll _ _ _).owed owed).imp_left ?_)
    rintro ⟨r, mem, release⟩
    exact ⟨r, (received taken).requests mem, release⟩
  | loop _ taken => exact owed_of_loopStep taken owed
  | _ => exact .inl owed

end Velda.Broker
