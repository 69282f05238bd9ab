import Velda.Lib.Run

/-! Name resolution for the sessions of an agent: `dnsserver.go`, with the calls of `SetContext` and
`Reset` that `Runner.Run` of `runner.go` makes. There is one slot for the context of a session. -/
namespace Velda.Agentd.Dns
open Lib

abbrev Text := List Char

def dnsDomainSuffix : Text := ".local.velda.".toList

/-- `sessionIdQueryPattern`. -/
def isSessionId (label : Text) : Bool :=
  label.length = 16 && label.all fun c => c.isDigit || 'a' ≤ c && c ≤ 'f' || 'A' ≤ c && c ≤ 'F'

def parseSessionDnsName (name : Text) : Option (Text × Text) :=
  if dnsDomainSuffix.isSuffixOf name then
    match (name.take (name.length - dnsDomainSuffix.length)).splitOn '.' with
    | [label] =>
      if isSessionId label then some (label.map Char.toLower, []) else some ([], label)
    | [sessionId, serviceName] => some (sessionId, serviceName)
    | _ => none
  else none

structure Question where
  isA : Bool
  name : Text

/-- A session in the answer of `ListSessions`; no record is made for a bad address. -/
structure Listed where
  sessionId : Text
  internalIpAddress : Option Nat
  deriving DecidableEq

inductive Reply
  | panicked
  | failed
  | answer (records : List (Text × Nat))
  deriving DecidableEq

def records (name sessionId : Text) (sessions : List Listed) : List (Text × Nat) :=
  sessions.filterMap fun x =>
    if sessionId ≠ [] ∧ x.sessionId.map Char.toLower ≠ sessionId.map Char.toLower then none
    else x.internalIpAddress.map (name, ·)

/-- The loop of `handleDNSRequest`, with the instances for which `ListSessions` is called. It
answers in the order after the random swap. `ctx` is what the slot points to: the pointer itself
is never nil. -/
def handleDNSRequest (ctx : Option Int) (listSessions : Int → Text → Option (List Listed)) :
    List Question → List (Text × Nat) → Reply × List Int
  | [], answers => (if answers = [] then .failed else .answer answers, [])
  | q :: rest, answers =>
    if q.isA then
      match parseSessionDnsName q.name with
      | none => handleDNSRequest ctx listSessions rest answers
      | some (sessionId, svcName) =>
        match ctx with
        | none => (.panicked, [])
        | some instanceId =>
          match listSessions instanceId svcName with
          | none => (.failed, [instanceId])
          | some sessions =>
            let (reply, asked) := handleDNSRequest ctx listSessions rest
              (answers ++ records q.name sessionId sessions)
            (reply, instanceId :: asked)
    else handleDNSRequest ctx listSessions rest answers

/-- `Run` has called `SetContext`; the sandbox runs; it has ended and `Reset` is still to be
called. -/
inductive Phase
  | starting | running | ending
  deriving DecidableEq

structure Session where
  instanceId : Int
  phase : Phase
  deriving DecidableEq

structure Runner where
  ctx : Option Int := none
  sessions : List Session := []
  deriving DecidableEq

inductive Action
  | setContext (instanceId : Int)
  | start (i : Nat) (succeeds : Bool)
  | exit (i : Nat)
  | reset (i : Nat)
  deriving DecidableEq

/-- A start that fails leaves its context in the slot. -/
def step (r : Runner) : Action → Option Runner
  | .setContext instanceId =>
    some ⟨some instanceId, r.sessions ++ [⟨instanceId, .starting⟩]⟩
  | .start i succeeds => r.sessions[i]?.bind fun x =>
    if x.phase = .starting then
      some { r with
        sessions := if succeeds then r.sessions.set i { x with phase := .running }
          else r.sessions.eraseIdx i }
    else none
  | .exit i => r.sessions[i]?.bind fun x =>
    if x.phase = .running then
      some { r with sessions := r.sessions.set i { x with phase := .ending } }
    else none
  | .reset i => r.sessions[i]?.bind fun x =>
    if x.phase = .ending then some ⟨none, r.sessions.eraseIdx i⟩ else none

/-- A session is started when there is no other one, not even one that still has to call `Reset`. -/
def Alone (r : Runner) : Action → Prop
  | .setContext _ => r.sessions = []
  | _ => True

instance (r : Runner) (act : Action) : Decidable (Alone r act) := by
  induction act using Action.casesOn <;> unfold Alone <;> infer_instance

def Own (r : Runner) : Prop := r.sessions = [] ∨ ∃ x, r.sessions = [x] ∧ r.ctx = some x.instanceId

lemma own_step (O : Own r) (alone : Alone r act) (h : step r act = some t) : Own t := by
  rcases O with none | ⟨x, one, slot⟩
  · cases act with
    | setContext => cases h; exact .inr ⟨_, by rw [none]; rfl, rfl⟩
    | _ => simp [step, none] at h
  · cases act with
    | setContext => rw [Alone, one] at alone; cases alone
    | start i succeeds | exit i | reset i =>
      simp only [step, one, Option.bind_eq_some_iff, Option.ite_none_right_eq_some,
        Option.some.injEq] at h
      obtain ⟨y, found, -, rfl⟩ := h
      obtain ⟨rfl, rfl⟩ : i = 0 ∧ x = y := by cases i <;> simp_all
      first
      | exact .inl rfl
      | exact .inr ⟨_, rfl, slot⟩
      | cases succeeds
        · exact .inl rfl
        · exact .inr ⟨_, rfl, slot⟩

lemma asked_own {instanceId : Int} {listSessions : Int → Text → Option (List Listed)}
    (questions : List Question) (answers : List (Text × Nat)) :
    (handleDNSRequest (some instanceId) listSessions questions answers).1 ≠ .panicked ∧
      ∀ i ∈ (handleDNSRequest (some instanceId) listSessions questions answers).2,
        i = instanceId := by
  induction questions generalizing answers with
  | nil =>
    unfold handleDNSRequest
    split <;> simp
  | cons q rest ih =>
    rw [handleDNSRequest]
    split
    · split
      · exact ih answers
      · dsimp only
        split
        · simp
        · simpa using ih _
    · exact ih answers

/-- While a session runs, every query is answered, and as it is with the context of the session. -/
theorem names_resolved {r : Runner} {x : Session}
    (listSessions : Int → Text → Option (List Listed)) (questions : List Question)
    (h : Reachable step Alone {} r) (mem : x ∈ r.sessions) (running : x.phase = .running) :
    (handleDNSRequest r.ctx listSessions questions []).1 ≠ .panicked ∧
      (∀ i ∈ (handleDNSRequest r.ctx listSessions questions []).2,
        ∃ y ∈ r.sessions, y.phase = .running ∧ y.instanceId = i) ∧
      handleDNSRequest r.ctx listSessions questions [] =
        handleDNSRequest (some x.instanceId) listSessions questions [] := by
  have own : Own r := h.invariant (.inl rfl) fun _ _ _ O alone taken => own_step O alone taken
  rcases own with none | ⟨y, one, slot⟩
  · rw [none] at mem
    cases mem
  · rw [one, List.mem_singleton] at mem
    subst mem
    obtain ⟨calm, asked⟩ := @asked_own x.instanceId listSessions questions []
    rw [slot]
    exact ⟨calm, fun i mem => ⟨x, by simp [one], running, (asked i mem).symm⟩, rfl⟩

def lookup : List Question := [⟨true, "web.local.velda.".toList⟩]

def known : Int → Text → Option (List Listed) := fun _ _ => some [⟨['1'], some 10⟩]

theorem names_resolved_again : ∃ r, Reachable step Alone {} r ∧ ⟨2, .running⟩ ∈ r.sessions ∧
    (handleDNSRequest r.ctx known lookup []).1 ≠ .panicked := by
  obtain ⟨r, reached, mem⟩ := exists_of_run step Alone {}
    [.setContext 1, .start 0 true, .exit 0, .reset 0, .setContext 2, .start 0 true]
    (⟨2, .running⟩ ∈ ·.sessions) (by decide)
  exact ⟨r, reached, mem, (names_resolved known lookup reached mem rfl).1⟩

/-- The handler panics when no session runs, and when one of two sessions has ended; it asks for
the instance of a session that did not start. -/
theorem names_lost : (handleDNSRequest ({} : Runner).ctx known lookup []).1 = .panicked ∧
    (∃ r, Reachable step Any {} r ∧ ⟨1, .running⟩ ∈ r.sessions ∧
      (handleDNSRequest r.ctx known lookup []).1 = .panicked) ∧
    ∃ r, Reachable step Any {} r ∧ r.sessions = [⟨1, .running⟩] ∧
      (handleDNSRequest r.ctx known lookup []).2 = [2] := by
  refine ⟨by decide, ?_, ?_⟩
  · exact exists_of_run step Any {} [.setContext 1, .start 0 true, .setContext 2,
      .start 1 true, .exit 1, .reset 1] (fun r => ⟨1, .running⟩ ∈ r.sessions ∧
        (handleDNSRequest r.ctx known lookup []).1 = .panicked) (by decide)
  · exact exists_of_run step Any {} [.setContext 1, .start 0 true, .setContext 2,
      .start 1 false] (fun r => r.sessions = [⟨1, .running⟩] ∧
        (handleDNSRequest r.ctx known lookup []).2 = [2]) (by decide)

end Velda.Agentd.Dns
