import Velda.Broker.Gangs
import Velda.Broker.SessionView

/-! Who can still do something with a session object: its loops, the agents that have
it, and whoever holds a request, a message or a callback for it. An object that none
of them knows stays as it is. -/
namespace Velda.Broker
open Lib List Function AgentOutput State Session Net Agent Keyed

variable {cfg : Config}

variable {s t : State cfg} {act : Action} {y x : SessionPtr} {a b : AgentPtr} {g : Agent cfg}
  {o : AgentOutput} {r : Agent cfg × List AgentOutput} {f : Send} {input : AgentInput}

lemma mem_resChan_performAll (h : f ∈ (s.performAll a r).net.resChan b) :
    f ∈ s.net.resChan b ∨ b = a ∧ .send f ∈ r.2 := by
  revert h
  refine performAll_rule_mem (P := fun u => f ∈ u.net.resChan b →
    f ∈ s.net.resChan b ∨ b = a ∧ .send f ∈ r.2) .inl fun u o mem ih => ?_
  cases o with
  | send g =>
    intro h
    by_cases same : b = a
    · subst same
      simp only [perform, modifyNet, update_self, mem_append,
        mem_singleton] at h
      rcases h with old | rfl
      · exact ih old
      · exact .inr ⟨rfl, mem⟩
    · exact ih (by simpa [perform, modifyNet, update_of_ne same] using h)
  | _ => exact ih

namespace Agent

lemma held_handle (h : x ∈ (g.handle a input).1.mySessions) :
    x ∈ g.mySessions ∨ ∃ r, input = .sessionReq r ∧ r.accept = true ∧ r.session = x := by
  have handled := g.handled a input
  generalize g.handle a input = out at handled h
  cases handled with
  | stop => exact .inl (by rwa [mySessions_stop] at h)
  | update m revoked => exact .inl ((g.ended_of_update a m revoked).1.subset x h)
  | @accepted r _ accept =>
    rcases mem_insert.mp h with rfl | ⟨old, -⟩
    · exact .inr ⟨r, rfl, accept, rfl⟩
    · exact .inl old
  | _ => exact .inl h

lemma held_runSend {granted sent : Bool} (h : x ∈ (g.runSend a granted sent f).1.mySessions) :
    x ∈ g.mySessions := by
  cases f with
  | session z ctx =>
    cases sent with
    | true => exact h
    | false => exact (mem_erase.mp h).1
  | kill k =>
    cases sent with
    | true => exact h
    | false => exact mySessions_stop g ▸ h

end Agent

def Taken (s t : State cfg) (act : Action) (x : SessionPtr) : Prop :=
  ∃ i l, act = .loop x i .agent ∧ (s.sessions x).loops[i]? = some l ∧ l.state = .queueing ∧
    (t.sessions x).agent ≠ none

lemma Taken.loops (h : Taken s t act x) : (s.sessions x).loops ≠ [] := by
  obtain ⟨i, l, -, found, -⟩ := h
  intro none
  rw [none] at found
  cases found

lemma request_of_step (h : Step s act t) {r : SessionRequest} (mem : r ∈ t.net.sessionReq b)
    (accept : r.accept = true) :
    r ∈ s.net.sessionReq b ∨ Taken s t act r.session ∨ s.Waiting r.session := by
  cases h with
  | startAgent =>
    rw [startAgent, (sameGangs_performAll _ _ _).requests] at mem
    exact .inl mem
  | sender =>
    rw [(sameGangs_performAll _ _ _).requests] at mem
    exact .inl mem
  | agent _ taken =>
    rw [(sameGangs_performAll _ _ _).requests] at mem
    exact .inl ((received taken).requests mem)
  | loop found taken =>
    cases taken with
    | assign state _ taken =>
      obtain ⟨rest, rfl, -⟩ := takeAgent_perm taken
      rcases mem_request.mp mem with old | ⟨-, rfl⟩
      · exact .inl old
      · exact .inr (.inl ⟨_, _, rfl, found, state, by simp [turned, setLoop]⟩)
    | declined _ taken =>
      obtain ⟨rest, rfl, -⟩ := takeAgent_perm taken
      rcases mem_request.mp mem with old | ⟨-, rfl⟩
      · exact .inl old
      · cases accept
    | @hold c n shard state member taken =>
      obtain ⟨rest, rfl, -⟩ := takeAgent_perm taken
      rcases mem_requests.mp mem with old | released
      · rcases mem_request.mp old with old | ⟨-, rfl⟩
        · exact .inl old
        · exact .inr (.inl ⟨_, _, rfl, found, state, by
            simp [notifyGang, turned, endLoop]⟩)
      · obtain ⟨f, run, made⟩ := mem_filterMap.mp released
        cases f with
        | cleanup => cases made
        | release w isMember ctx =>
          obtain ⟨own, -, same⟩ := Option.map_eq_some_iff.mp made
          cases same
          obtain ⟨untriggered, new | ⟨m, old, names⟩⟩ :=
            waiting_of_notify (g := .release w isMember ctx) rfl (.inl run)
          · obtain rfl : _ = w := new
            exact .inr (.inl ⟨_, _, rfl, found, state, by
              simp [notifyGang, turned, endLoop]⟩)
          · exact .inr (.inr ⟨shard.gang, untriggered, m, old, names⟩)
    | failed _ taken | started _ taken | killDone _ taken | killStarted _ taken =>
      obtain ⟨rest, -, rfl⟩ := takeResponse_cases taken
      exact .inl mem
    | _ => exact .inl mem
  | _ =>
    exact .inl mem

lemma waiting_of_step (h : Step s act t) (waiting : t.Waiting x) :
    s.Waiting x ∨ Taken s t act x := by
  cases h with
  | startAgent | agent | sender =>
    have before := (sameGangs_performAll _ _ _).waiting x waiting
    exact .inl before
  | loop found taken =>
    cases taken with
    | @hold c n shard state member taken =>
      obtain ⟨g, untriggered, m, mem, names⟩ := waiting
      by_cases same : g = shard.gang
      · subst same
        simp only [notifyGang, update_self] at untriggered mem
        obtain ⟨before, new | old⟩ :=
          waiting_of_notify names (.inr ⟨untriggered, m, mem, rfl⟩)
        · obtain rfl : _ = x := new
          exact .inr ⟨_, _, rfl, found, state, by
            simp [notifyGang, turned, endLoop]⟩
        · exact .inl ⟨shard.gang, before, old⟩
      · simp only [notifyGang, update_of_ne same]
          at untriggered mem
        exact .inl ⟨g, untriggered, m, mem, names⟩
    | _ => exact .inl waiting
  | _ =>
    exact .inl waiting

lemma send_of_step (h : Step s act t) (names : f.session? = some x) (mem : f ∈ t.net.resChan b) :
    f ∈ s.net.resChan b ∨ ∃ r ∈ s.net.sessionReq b, r.accept = true ∧ r.session = x := by
  have turned : ∀ {n a r}, Turn s act a r → n.resChan b ⊆ s.net.resChan b →
      f ∈ (({ s with net := n } : State cfg).performAll a r).net.resChan b →
      f ∈ s.net.resChan b ∨ ∃ r ∈ s.net.sessionReq b, r.accept = true ∧ r.session = x := by
    intro n a r turn less mem
    rcases mem_resChan_performAll mem with old | ⟨rfl, sent⟩
    · exact .inl (less old)
    · cases turn.made _ sent with
      | kill => cases names
      | send queue accept =>
        exact .inr ⟨_, by rw [queue]; exact mem_cons_self, accept, Option.some.inj names⟩
  cases h with
  | startAgent => exact turned (.start rfl) (fun _ => id) mem
  | @agent c e n input _ taken =>
    have same : n.resChan = s.net.resChan := by cases received taken <;> rfl
    exact turned (.agent taken) (by rw [same]; exact fun _ => id) mem
  | @sender c g rest granted sent _ queue =>
    refine turned (.sender granted sent queue) (fun f old => ?_) mem
    by_cases same : b = c
    · subst same
      simp only [update_self] at old
      rw [queue]
      exact mem_cons_of_mem _ old
    · simpa [update_of_ne same] using old
  | @loop z i l e _ found taken =>
    cases taken with
    | assign _ _ taken | declined _ taken =>
      obtain ⟨rest, rfl, -⟩ := takeAgent_perm taken
      exact .inl mem
    | hold _ _ taken =>
      obtain ⟨rest, rfl, -⟩ := takeAgent_perm taken
      simp only [notifyGang] at mem
      rw [requests_eq] at mem
      exact .inl mem
    | failed _ taken | started _ taken | killDone _ taken | killStarted _ taken =>
      obtain ⟨rest, -, rfl⟩ := takeResponse_cases taken
      exact .inl mem
    | _ => exact .inl mem
  | _ =>
    exact .inl mem

lemma held_of_step (h : Step s act t) (mem : x ∈ (t.agents b).mySessions) :
    x ∈ (s.agents b).mySessions ∨ act = .register b x ∨
      ∃ r ∈ s.net.sessionReq b, r.accept = true ∧ r.session = x := by
  cases h with
  | @connect c =>
    by_cases same : b = c
    · subst same
      simp [modifyAgent] at mem
    · simp only [modifyAgent, update_of_ne same] at mem
      exact .inl mem
  | @dropAgent c | @recv c =>
    by_cases same : b = c
    · subst same
      simp only [modifyAgent, update_self] at mem
      exact .inl mem
    · simp only [modifyAgent, update_of_ne same] at mem
      exact .inl mem
  | @register c z =>
    by_cases same : b = c
    · subst same
      simp only [registered, update_self] at mem
      rcases mem_insert.mp mem with rfl | ⟨old, -⟩
      · exact .inr (.inl rfl)
      · exact .inl old
    · simp only [registered, update_of_ne same] at mem
      exact .inl mem
  | @startAgent c =>
    rw [startAgent, performAll_agents] at mem
    by_cases same : b = c
    · subst same
      simp only [update_self] at mem
      exact .inl mem
    · rw [update_of_ne same] at mem
      exact .inl mem
  | @agent c e n input _ taken =>
    rw [performAll_agents] at mem
    by_cases same : b = c
    · subst same
      rw [update_self, mySessions_settle] at mem
      refine (held_handle mem).imp_right fun requested => .inr ?_
      obtain ⟨r, rfl, accept, own⟩ := requested
      cases received taken with
      | sessionReq queue => exact ⟨r, by rw [queue]; exact mem_cons_self, accept, own⟩
    · rw [update_of_ne same] at mem
      exact .inl mem
  | @sender c =>
    rw [performAll_agents] at mem
    by_cases same : b = c
    · subst same
      rw [update_self] at mem
      exact .inl (held_runSend mem)
    · rw [update_of_ne same] at mem
      exact .inl mem
  | loop _ taken =>
    rw [(sameOffers_loopStep taken).1] at mem
    exact .inl mem
  | _ => exact .inl mem

structure State.Unsought (s : State cfg) (y : SessionPtr) : Prop where
  requested : ∀ b, ∀ r ∈ s.net.sessionReq b, r.accept = true → r.session ≠ y
  sent : ∀ b, ∀ f ∈ s.net.resChan b, f.session? ≠ some y
  waiting : ¬ s.Waiting y

lemma State.Unsought.step_of_untaken (U : s.Unsought y) (untaken : ¬ Taken s t act y)
    (h : Step s act t) : t.Unsought y where
  requested b r mem accept own := by
    subst own
    rcases request_of_step h mem accept with old | taken | waits
    · exact U.requested b r old accept rfl
    · exact untaken taken
    · exact U.waiting waits
  sent b f mem own := by
    rcases send_of_step h own mem with old | ⟨r, asked, accept, names⟩
    · exact U.sent b f old own
    · exact U.requested b r asked accept names
  waiting waits := (waiting_of_step h waits).elim U.waiting untaken

lemma State.Unsought.step (U : s.Unsought y) (loops : (s.sessions y).loops = [])
    (h : Step s act t) : t.Unsought y :=
  U.step_of_untaken (fun taken => taken.loops loops) h

structure State.Idle (s : State cfg) (y : SessionPtr) : Prop extends s.Unsought y where
  loops : (s.sessions y).loops = []
  held : ∀ b, y ∉ (s.agents b).mySessions

lemma Turn.stopping (turn : Turn s act a r) (h : (s.agents a).stopping = true) :
    r.1.stopping = true := by
  cases turn with
  | start => exact h
  | @agent _ _ _ input =>
    rw [stopping_settle]
    have handled := (s.agents a).handled a input
    generalize (s.agents a).handle a input = out at handled ⊢
    cases handled with
    | stop => exact stopping_stop _
    | update m revoked => exact ((s.agents a).ended_of_update a m revoked).1.stopping h
    | unexpected _ alive | released alive | declined alive | accepted alive =>
      rw [h] at alive
      cases alive
    | _ => exact h
  | sender granted sent => exact stopping_runSend _ granted sent _ h

/-- The events in which a session takes part, other than kills and its own registration. -/
def Event.concerns (y : SessionPtr) : Event → Bool
  | .requestWorker x | .requestCancelled x | .grantAccess _ x | .revokeAccess _ x
  | .sendSession _ x | .updateTaskResult x | .recordExecution x _ => x = y
  | _ => false

def AgentOutput.touches (y : SessionPtr) : AgentOutput → Bool
  | .markStale l _ => y ∈ l
  | o => o.events.any (Event.concerns y)

lemma AgentOutput.onSession_of_untouched (h : o.touches y = false) (done : Ctx → Bool)
    (z : Session) : o.onSession cfg done y z = z := by
  cases o with
  | markStale l time => simp_all [touches, onSession]
  | complete x final | checkpointed x =>
    simp_all [touches, onSession, events, Event.concerns]
  | _ => rfl

lemma Turn.touched (h : Turn s act a r) (mem : o ∈ r.2) (touched : o.touches y = true) :
    y ∈ (s.agents a).mySessions ∨ ∃ f ∈ s.net.resChan a, f.session? = some y := by
  cases h.made o mem with
  | markStale _ _ held => exact .inl (held y (by simpa [touches] using touched))
  | failed _ _ _ found | completed _ _ found | checkpointed _ _ found _ =>
    obtain ⟨held, -⟩ := lookup_eq_some_iff.mp found
    obtain rfl : _ = y := by simpa [touches, AgentOutput.events, Event.concerns] using touched
    exact .inl held
  | result held | revoked _ held =>
    obtain rfl : _ = y := by simpa [touches, AgentOutput.events, Event.concerns] using touched
    exact .inl held
  | granted _ queue | unsent _ queue | sent _ queue =>
    obtain rfl : _ = y := by simpa [touches, AgentOutput.events, Event.concerns] using touched
    exact .inr ⟨_, by rw [queue]; exact mem_cons_self, rfl⟩
  | _ => cases touched

lemma Turn.untouched (h : Turn s act a r) (held : y ∉ (s.agents a).mySessions)
    (sent : ∀ f ∈ s.net.resChan a, f.session? ≠ some y) : ∀ o ∈ r.2, o.touches y = false := by
  intro o mem
  by_contra touched
  rcases h.touched mem (by simpa using touched) with has | ⟨f, queued, own⟩
  · exact held has
  · exact sent f queued own

def AgentOutput.Spares (cfg : Config) (y : SessionPtr) (o : AgentOutput) : Prop :=
  ∀ done z, o.onSession cfg done y z = z

lemma AgentOutput.onSessions_of_spared (h : ∀ o ∈ outs, o.Spares cfg y) (done : Ctx → Bool)
    (z : Session) : onSessions cfg done y z outs = z := by
  unfold onSessions
  induction outs with
  | nil => rfl
  | cons o rest ih =>
    rw [foldl_cons, h o mem_cons_self]
    exact ih fun o mem => h o (mem_cons_of_mem _ mem)

lemma session_of_spared (h : Step s act t) (loops : (s.sessions y).loops = [])
    (spared : ∀ a r, Turn s act a r → ∀ o ∈ r.2, o.Spares cfg y)
    (fresh : act ≠ .addSession y ∧ ∀ b, act ≠ .register b y)
    (scheduled : y ∈ s.created → ∀ ctx, (s.sessions y).schedule ctx = s.sessions y)
    (signalled : y ∈ s.created → (s.sessions y).status ≠ .queueing ∧
      (s.sessions y).status ≠ .waitingForOtherShards ∧ (s.sessions y).status ≠ .stale) :
    t.sessions y = s.sessions y := by
  refine session_of_turn h y (I := (· = s.sessions y)) rfl
    (fun a r turn => onSessions_of_spared (spared a r turn) _ _)
    (fun same => absurd same fresh.1) (fun b same => absurd same (fresh.2 b))
    (fun ctx _ known => scheduled known ctx) (fun _ _ known waits => ?_)
    (fun i l e _ found _ => ?_)
  · have quiet := signalled known
    rcases waits with waits | waits | waits <;> rw [waits] at quiet <;> simp at quiet
  · rw [loops] at found
    cases found

lemma State.Idle.spared (I : s.Idle y) (turn : Turn s act a r) : ∀ o ∈ r.2, o.Spares cfg y :=
  fun o mem => onSession_of_untouched (turn.untouched (I.held a) (I.sent a) o mem)

lemma State.Idle.step (I : s.Idle y) (h : Step s act t) (fresh : ∀ b, act ≠ .register b y)
    (same : t.sessions y = s.sessions y) : t.Idle y where
  toUnsought := I.toUnsought.step I.loops h
  loops := by rw [same, I.loops]
  held b mem := by
    rcases held_of_step h mem with old | reported | ⟨r, asked, accept, names⟩
    · exact I.held b old
    · exact fresh b reported
    · exact I.requested b r asked accept names

def State.Fresh (s : State cfg) : Prop := ∀ y ∉ s.created, s.Idle y

lemma State.Fresh.step (F : s.Fresh) (h : Step s act t) : t.Fresh := by
  intro y unmade
  have absent : y ∉ s.created := fun made => unmade (created_of_step h made)
  have unregistered : ∀ b, act ≠ .register b y := by
    rintro b rfl
    cases h
    exact unmade mem_cons_self
  have unadded : act ≠ .addSession y := by
    rintro rfl
    cases h
    exact unmade mem_cons_self
  refine (F y absent).step h unregistered (session_of_spared h (F y absent).loops
    (fun a r turn => (F y absent).spared turn) ⟨unadded, unregistered⟩ ?_ ?_) <;>
  exact fun made => absurd made absent

lemma fresh_of_reachable {ok : State cfg → Action → Prop} {s : State cfg}
    (h : Reachable step ok .init s) : s.Fresh := by
  refine Reachable.invariant (I := State.Fresh) (fun y _ => ?_)
    (fun s act t F _ taken => F.step (step_cases taken).2) h
  refine ⟨⟨by simp [State.init, Net.empty], by simp [State.init, Net.empty], ?_⟩, rfl,
    fun b mem => mem_empty mem⟩
  rintro ⟨g, -, m, mem, names⟩
  simp only [init, mem_insert] at mem
  rcases mem with rfl | ⟨mem, -⟩
  · exact names
  · exact mem_empty mem

lemma AgentOutput.touches_of_concerns (mem : e ∈ o.events) (h : e.concerns y = true) :
    o.touches y = true := by
  cases o <;> simp_all [touches, AgentOutput.events]

lemma concerned_of_step (h : Step s act t) : ∃ evs, t.events = evs ++ s.events ∧
      (∀ y, ∀ e ∈ evs, e.concerns y = true → ¬ s.Idle y) ∧
      ∀ a x, .reGrantAccess a x ∈ evs → act = .register a x := by
  obtain ⟨evs, events, source⟩ := logged_of_step h
  have looped : ∀ {x i e}, act = .loop x i e → ¬ s.Idle x := by
    rintro x i e rfl idle
    cases h with
    | loop found =>
      rw [idle.loops] at found
      cases found
  refine ⟨evs, events, fun y e mem concerns idle => ?_, fun b x mem => ?_⟩
  · cases source e mem with
    | @turn a r _ turn logged =>
      obtain ⟨o, made, logged⟩ := mem_flatMap.mp logged
      have free := turn.untouched (idle.held a) (idle.sent a) o made
      rw [touches_of_concerns logged concerns] at free
      cases free
    | killed | requestKill | registered => cases concerns
    | asked own | withdrawn own | revoked _ own | recorded _ own =>
      cases of_decide_eq_true concerns
      exact looped own idle
  · cases source _ mem with
    | registered own => exact own
    | turn turn logged =>
      obtain ⟨o, made, logged⟩ := mem_flatMap.mp logged
      cases turn.made o made <;> simp [AgentOutput.events] at logged

inductive Rekeyed (s : State cfg) (act : Action) (z : SessionPtr) : Prop
  | added : act = .addSession z → s.db.sessions (cfg.key z) = none → Rekeyed s act z
  | registered {b : AgentPtr} : act = .register b z → Rekeyed s act z
  | looped : (s.sessions z).loops ≠ [] → Rekeyed s act z
  | completed {a : AgentPtr} {r : Agent cfg × List AgentOutput} {final : FinalState} :
      Turn s act a r → .complete z final ∈ r.2 → Rekeyed s act z

lemma db_of_step (h : Step s act t) (k : SessionKey) :
    t.db.sessions k = s.db.sessions k ∨ ∃ z, cfg.key z = k ∧ Rekeyed s act z := by
  have performed : ∀ {n a r}, Turn s act a r →
      (({ s with net := n } : State cfg).performAll a r).db.sessions k = s.db.sessions k ∨
        ∃ z, cfg.key z = k ∧ Rekeyed s act z := by
    intro n a r turn
    refine performAll_rule_mem
      (P := fun u => u.db.sessions k = s.db.sessions k ∨ ∃ z, cfg.key z = k ∧ Rekeyed s act z)
      (.inl rfl) fun u o mem before => ?_
    cases o with
    | complete z final =>
      by_cases own : cfg.key z = k
      · exact .inr ⟨z, own, .completed turn mem⟩
      · refine before.imp_left fun same => ?_
        rw [← same]
        exact update_of_ne (Ne.symm own) _ _
    | _ => exact before
  cases h with
  | @addSession z _ free =>
    by_cases own : cfg.key z = k
    · exact .inr ⟨z, own, .added rfl free⟩
    · exact .inl (update_of_ne (Ne.symm own) _ _)
  | @register b z =>
    by_cases own : cfg.key z = k
    · exact .inr ⟨z, own, .registered rfl⟩
    · exact .inl (update_of_ne (Ne.symm own) _ _)
  | startAgent => exact performed (.start rfl)
  | agent _ taken => exact performed (.agent taken)
  | sender granted sent _ queue => exact performed (.sender granted sent queue)
  | @loop z i l e _ found taken =>
    by_cases own : cfg.key z = k
    · exact .inr ⟨z, own, .looped fun none => by rw [none] at found; cases found⟩
    · left
      cases taken with
      | refused | shutdown | failed | confirmed | cancelShutdown | declined | staleShutdown
      | lost => exact update_of_ne (Ne.symm own) _ _
      | _ => rfl
  | _ => exact .inl rfl

lemma entry_of_step (h : Step s act t) (entry : t.db.sessions k = some x) :
    s.db.sessions k = some x ∨
      cfg.key x = k ∧ (act = .addSession x ∨ ∃ a, act = .register a x) := by
  have removed : ∀ (db : SessionDatabase) (r : Request), (db.remove r).sessions k = some x →
      db.sessions k = some x := by
    intro db r found
    by_cases own : r.key = k
    · have gone : (db.remove r).sessions r.key = none := update_self ..
      rw [own, found] at gone
      cases gone
    · exact (update_of_ne (Ne.symm own) _ _).symm.trans found
  have entered : ∀ z, (s.db.register (cfg.request z) z).sessions k = some x →
      s.db.sessions k = some x ∨ cfg.key x = k ∧ z = x := by
    intro z found
    by_cases own : cfg.key z = k
    · have here : (s.db.register (cfg.request z) z).sessions (cfg.key z) = some z :=
        update_self ..
      rw [own, found] at here
      cases here
      exact .inr ⟨own, rfl⟩
    · exact .inl ((update_of_ne (Ne.symm own) _ _).symm.trans found)
  have performed : ∀ {n a r}, Turn s act a r →
      (({ s with net := n } : State cfg).performAll a r).db.sessions k = some x →
      s.db.sessions k = some x := by
    intro n a r _
    refine performAll_rule
      (P := fun u => u.db.sessions k = some x → s.db.sessions k = some x) id fun u o ih found => ?_
    cases o with
    | complete z final => exact ih (removed _ _ found)
    | _ => exact ih found
  cases h with
  | @addSession z =>
    exact (entered z entry).imp_right fun ⟨own, same⟩ => ⟨own, .inl (same ▸ rfl)⟩
  | @register b z =>
    exact (entered z entry).imp_right fun ⟨own, same⟩ => ⟨own, .inr ⟨b, same ▸ rfl⟩⟩
  | startAgent => exact .inl (performed (.start rfl) entry)
  | agent _ taken => exact .inl (performed (.agent taken) entry)
  | sender granted sent _ queue => exact .inl (performed (.sender granted sent queue) entry)
  | @loop z i l e _ found taken =>
    left
    cases taken with
    | refused | shutdown | failed | confirmed | cancelShutdown | declined | staleShutdown
    | lost => exact removed _ _ entry
    | _ => exact entry
  | _ => exact .inl entry

lemma agent_of_step (h : Step s act t) (known : x ∈ s.created)
    (unset : (t.sessions x).agent = none) : (s.sessions x).agent = none := by
  revert unset
  refine session_of_step h x (I := fun y => y.agent = none → (s.sessions x).agent = none) id ?_
    (fun _ unused => absurd known unused.1) (fun _ _ unused => absurd known unused.1) ?_ ?_ ?_
  · intro o y before
    cases o with
    | complete | checkpointed =>
      simp only [onSession]
      split <;> exact before
    | markStale =>
      simp only [onSession]
      split
      · rw [agent_markStale]
        exact before
      · exact before
    | _ => exact before
  · intro ctx _
    rw [agent_schedule]
    exact id
  · intro force _
    rw [agent_signal]
    exact id
  · intro i l e _ _ taken
    cases taken with
    | noCtx | notReconnected => exact id
    | assign | hold => simp [notifyGang, turned, setLoop, endLoop]
    | staleSignal | staleRefresh =>
      simp only [turned, update_self, agent_refresh]
      exact id
    | _ =>
      simp only [turned, update_self]
      exact id

structure State.Assigned (s : State cfg) (x : SessionPtr) : Prop where
  held : ∀ b, x ∈ (s.agents b).mySessions → (s.sessions x).agent ≠ none
  requested : ∀ b, ∀ r ∈ s.net.sessionReq b, r.accept = true → r.session = x →
    (s.sessions x).agent ≠ none
  waiting : s.Waiting x → (s.sessions x).agent ≠ none

lemma State.Idle.assigned (I : s.Idle x) : s.Assigned x where
  held b mem := absurd mem (I.held b)
  requested b r mem accept own := absurd own (I.requested b r mem accept)
  waiting waits := absurd waits I.waiting

lemma State.Assigned.step (A : s.Assigned x) (fresh : s.Fresh) (h : Step s act t) :
    t.Assigned x := by
  by_cases known : x ∈ s.created
  · have set : (s.sessions x).agent ≠ none → (t.sessions x).agent ≠ none :=
      fun before after => before (agent_of_step h known after)
    constructor
    · intro b mem
      rcases held_of_step h mem with old | reported | ⟨r, asked, accept, names⟩
      · exact set (A.held b old)
      · subst reported
        cases h with
        | register _ unused => exact absurd known unused.1
      · exact set (A.requested b r asked accept names)
    · rintro b r mem accept rfl
      rcases request_of_step h mem accept with old | ⟨_, _, -, -, -, agent⟩ | waits
      · exact set (A.requested b r old accept rfl)
      · exact agent
      · exact set (A.waiting waits)
    · intro waits
      rcases waiting_of_step h waits with old | ⟨_, _, -, -, -, agent⟩
      · exact set (A.waiting old)
      · exact agent
  · by_cases made : ∃ b, act = .register b x
    · obtain ⟨b, rfl⟩ := made
      cases h
      constructor <;> simp [registered]
    · have idle := fresh x known
      have unsought := idle.toUnsought.step idle.loops h
      refine ⟨fun b mem => ?_,
        fun b r mem accept own => absurd own (unsought.requested b r mem accept),
        fun waits => absurd waits unsought.waiting⟩
      rcases held_of_step h mem with old | reported | ⟨r, asked, accept, names⟩
      · exact absurd old (idle.held b)
      · exact absurd ⟨b, reported⟩ made
      · exact absurd names (idle.requested b r asked accept)

lemma assigned_of_reachable {ok : State cfg → Action → Prop} (h : Reachable step ok .init s)
    (x : SessionPtr) : s.Assigned x :=
  Reachable.invariant_of (K := State.Fresh) (I := fun s : State cfg => s.Assigned x)
    (fun _ => fresh_of_reachable) (@fresh_of_reachable _ ok _ .start x not_mem_nil).assigned
    (fun _ _ _ fresh A _ taken => A.step fresh (step_cases taken).2) h

end Velda.Broker
