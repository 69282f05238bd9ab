import Velda.Broker.Completion

/-! The end of a session in the events of a step. A result comes with the end of its session, and
as long as agents report in time a session ends once and stays ended. -/
namespace Velda.Broker
open List Event

variable {cfg : Config}

lemma Turn.complete_of_result (turn : Turn s act a r) (mem : .log (.updateTaskResult x) ∈ r.2) :
    ∃ final, .complete x final ∈ r.2 := by
  cases turn.made _ mem with
  | result =>
    cases turn with
    | agent taken =>
      cases Net.received taken with
      | @update m _ message =>
        have answered : .log (.updateTaskResult x) ∈
            ((s.agents a).handleSessionUpdate a m true).2 := by
          unfold Agent.settle at mem
          split at mem <;> simpa [Agent.handle] using mem
        suffices ended : .complete x .complete ∈ ((s.agents a).handleSessionUpdate a m true).2 from
          ⟨.complete, by unfold Agent.settle; split <;> simp [Agent.handle, ended]⟩
        obtain ⟨h, first, out, inited, completed, eq⟩ := (s.agents a).updated a m true
        obtain ⟨init, completion⟩ := m
        rw [eq] at answered ⊢
        rcases mem_append.mp answered with front | back
        · cases inited <;> simp at front
        · cases completed with
          | @completed c => cases results : c.hasResult <;> simp_all
          | unrevoked _ never => cases never
          | _ => simp at back

section Step
variable {s t : State cfg} {act : Action} {x : SessionPtr}

lemma closes_of_result (h : Step s act t) (mem : .updateTaskResult x ∈ s.news t) :
    ∃ e ∈ s.news t, e.closes x = true := by
  cases source h mem with
  | turn turn listed =>
    obtain ⟨o, made, logged⟩ := mem_flatMap.mp listed
    have answers : o = .log (.updateTaskResult x) := by
      cases o <;> simp [AgentOutput.events] at logged
      rw [logged]
    subst answers
    obtain ⟨final, completes⟩ := turn.complete_of_result made
    rw [turn.news h]
    exact AgentOutput.closes_of_complete completes (turn.verdicts.final x final completes)

lemma closes_once (h : Step s act t) (kept : s.Kept x) (timely : Timely s act) (mem : e ∈ s.news t)
    (closes : e.closes x = true) :
    (s.news t).countP (·.closes x) = 1 ∧ (s.sessions x).status.terminal = false := by
  obtain ⟨evs, added, -⟩ := concerned_of_step h
  have records := State.records_eq added x
  rw [State.news_eq added] at mem ⊢
  obtain ⟨final, rfl, kind⟩ : ∃ final, e = .recordExecution x final ∧ final ≠ .checkpointed := by
    cases e with
    | recordExecution y final =>
      simp only [Event.closes, Bool.and_eq_true, decide_eq_true_eq] at closes
      exact ⟨final, by rw [closes.1], closes.2⟩
    | _ => cases closes
  have recorded : final ∈ evs.filterMap (record x) :=
    mem_filterMap.mpr ⟨_, mem_reverse.mp mem, by simp [record]⟩
  have nothing : t.records x ≠ s.records x := by
    intro same
    rw [same] at records
    rw [self_eq_append_left.mp records] at recorded
    cases recorded
  cases recorded_of_step h kept timely with
  | unchanged _ same | going _ _ _ same | resumed _ _ _ same => exact absurd same nothing
  | ended last going _ _ _ more =>
    refine ⟨?_, ExecutionStatus.terminal_of_going going⟩
    rw [records] at more
    have only : evs.filterMap (record x) = [last] :=
      append_cancel_right (more.trans (singleton_append).symm)
    obtain rfl : final = last := by
      rw [only] at recorded
      exact mem_singleton.mp recorded
    have length : (evs.filterMap (record x)).length = 1 := by rw [only]; rfl
    rw [length_filterMap_eq_countP] at length
    rw [(reverse_perm evs).countP_eq, ← length]
    refine countP_congr fun d made => ?_
    cases d with
    | recordExecution y other =>
      by_cases own : y = x
      · subst own
        have listed : other ∈ evs.filterMap (record y) :=
          mem_filterMap.mpr ⟨_, made, by simp [record]⟩
        rw [only] at listed
        cases mem_singleton.mp listed
        simp [closes, record]
      · simp [Event.closes, Event.record, own]
    | _ => simp [Event.closes, Event.record]

lemma terminal_of_step (h : Step s act t) (kept : s.Kept x) (timely : Timely s act)
    (past : (s.sessions x).status.terminal = true) : (t.sessions x).status.terminal = true := by
  cases recorded_of_step h kept timely with
  | unchanged same =>
    rw [same]
    exact past
  | going live | ended _ live =>
    rw [ExecutionStatus.terminal_of_going live] at past
    cases past
  | resumed checkpointed =>
    rw [checkpointed] at past
    cases past

end Step

end Velda.Broker
