import Velda.Lib.Run

/-! The sessions of one instance, in `session_db.go`: a map from ids to sessions, and for each
name of a service the ids of its sessions. The maps are changed by the requests of the sessions
that come and go, so they agree as long as an id keeps its service. -/
namespace Velda.Broker.SessionDatabase
open Lib Function Option

structure SessionRequest where
  sessionId : String
  serviceName : String
  forceNewSession : Bool := false
  disallowNewSession : Bool := false
  deriving DecidableEq

/-- Of a session only its request counts. -/
structure Instance where
  sessions : String → Option SessionRequest := fun _ => none
  services : String → Option (Finset String) := fun _ => none

inductive Answer
  | session (x : SessionRequest)
  | alreadyExists (x : SessionRequest)
  | error (message : String)
  deriving DecidableEq

variable {i i' : Instance} {req x : SessionRequest} {name : String}

namespace Instance

def ids (i : Instance) (name : String) : Finset String := (i.services name).getD ∅

def registerSession (i : Instance) (req : SessionRequest) : Instance where
  sessions := update i.sessions req.sessionId (some req)
  services :=
    if req.serviceName = "" then i.services
    else update i.services req.serviceName (some (insert req.sessionId (i.ids req.serviceName)))

def removeSession (i : Instance) (x : SessionRequest) : Instance where
  sessions := update i.sessions x.sessionId none
  services :=
    if x.serviceName = "" then i.services
    else
      let rest := (i.ids x.serviceName).erase x.sessionId
      update i.services x.serviceName (if rest = ∅ then none else some rest)

end Instance

def registerSession (i : Instance) (req : SessionRequest) : Instance × Answer :=
  if req.sessionId = "" then (i, .error "session id is required")
  else (i.registerSession req, .session req)

/-- `order` is the order in which the loop comes to the ids of the service, and `newSessionId`
the first id of those generated that is not in use. -/
def addSession (i : Instance) (req : SessionRequest) (scheduler : Bool) (order : List String)
    (newSessionId : String) : Instance × Answer :=
  if req.sessionId ≠ "" then
    match i.sessions req.sessionId with
    | some x => (i, .alreadyExists x)
    | none => (i, .error (if req.disallowNewSession then
        "session not found and new session creation is disallowed" else "session not found"))
  else
    let reuses := req.serviceName ≠ "" ∧ !req.forceNewSession
    match if reuses then order.findSome? i.sessions else none with
    | some x => (i, .alreadyExists x)
    | none =>
      if reuses ∧ req.disallowNewSession then (i, .error ("no session found with service name '" ++
        req.serviceName ++ "' and new session creation is disallowed"))
      else if !scheduler then (i, .error "No session exists and scheduler is not provided")
      else if req.disallowNewSession then
        (i, .error "no existing session found and new session creation is disallowed")
      else
        let x := { req with sessionId := newSessionId }
        (i.registerSession x, .session x)

inductive Action
  | addSession (req : SessionRequest) (scheduler : Bool) (order : List String)
      (newSessionId : String)
  | registerSession (req : SessionRequest)
  | removeSession (x : SessionRequest)

def step (i : Instance) : Action → Option Instance
  | .addSession req scheduler order newSessionId =>
    if order.toFinset = i.ids req.serviceName ∧ (i.sessions newSessionId).isNone then
      some (addSession i req scheduler order newSessionId).1
    else none
  | .registerSession req => some (registerSession i req).1
  | .removeSession x => some (i.removeSession x)

/-- A session is registered or removed under an id that is free or has the same service. -/
def Steady (i : Instance) : Action → Prop
  | .addSession .. => True
  | .registerSession x | .removeSession x =>
    ∀ y ∈ i.sessions x.sessionId, y.serviceName = x.serviceName

instance (act : Action) : Decidable (Steady i act) := by
  induction act using Action.casesOn <;> unfold Steady <;> infer_instance

structure Indexed (i : Instance) : Prop where
  ids : ∀ name id, id ∈ i.ids name ↔
    name ≠ "" ∧ ∃ x, i.sessions id = some x ∧ x.serviceName = name
  inhabited : ∀ name, i.services name ≠ some ∅

lemma mem_ids_registerSession {id : String} : id ∈ (i.registerSession x).ids name ↔
    id ∈ i.ids name ∨ id = x.sessionId ∧ name = x.serviceName ∧ name ≠ "" := by
  unfold Instance.ids Instance.registerSession
  by_cases service : x.serviceName = ""
  · simp +contextual [service]
  · by_cases named : name = x.serviceName <;>
      simp [Instance.ids, service, named, or_comm]

lemma mem_ids_removeSession {id : String} : id ∈ (i.removeSession x).ids name ↔
    id ∈ i.ids name ∧ ¬ (id = x.sessionId ∧ name = x.serviceName ∧ name ≠ "") := by
  unfold Instance.ids Instance.removeSession
  by_cases service : x.serviceName = ""
  · simp +contextual [service]
  · by_cases named : name = x.serviceName
    · subst named
      dsimp only
      rw [if_neg service, update_self]
      have rest : id ∈ (i.ids x.serviceName).erase x.sessionId ↔
          id ∈ (i.services x.serviceName).getD ∅ ∧ id ≠ x.sessionId := by
        rw [Finset.mem_erase, and_comm]
        rfl
      split
      · next none => simpa [none, service] using rest
      · simpa [service] using rest
    · simp [service, named]

namespace Indexed

lemma registerSession (I : Indexed i)
    (steady : ∀ y ∈ i.sessions x.sessionId, y.serviceName = x.serviceName) :
    Indexed (i.registerSession x) where
  ids name id := by
    rw [mem_ids_registerSession, I.ids]
    by_cases same : id = x.sessionId
    · simp only [Instance.registerSession]
      grind
    · simp [Instance.registerSession, same]
  inhabited name := by
    unfold Instance.registerSession
    dsimp only
    split
    · exact I.inhabited name
    · rw [update_apply]
      split
      · simp
      · exact I.inhabited name

lemma removeSession (I : Indexed i)
    (steady : ∀ y ∈ i.sessions x.sessionId, y.serviceName = x.serviceName) :
    Indexed (i.removeSession x) where
  ids name id := by
    rw [mem_ids_removeSession, I.ids]
    by_cases same : id = x.sessionId
    · simp only [Instance.removeSession]
      grind
    · simp [Instance.removeSession, same]
  inhabited name := by
    unfold Instance.removeSession
    dsimp only
    split
    · exact I.inhabited name
    · rw [update_apply]
      split
      · split
        · simp
        · next some => simpa using some
      · exact I.inhabited name

lemma step (I : Indexed i) (steady : Steady i act) (taken : step i act = some i') : Indexed i' := by
  cases act with
  | addSession req scheduler order newSessionId =>
    simp only [SessionDatabase.step] at taken
    split at taken
    · next free =>
      cases taken
      unfold addSession
      split
      · split <;> exact I
      · dsimp only
        split
        · exact I
        · split_ifs
          · exact I
          · exact I
          · exact I
          · refine I.registerSession fun y held => ?_
            simp [show i.sessions newSessionId = some y from held] at free
    · cases taken
  | registerSession req =>
    cases taken
    unfold SessionDatabase.registerSession
    split
    · exact I
    · exact I.registerSession steady
  | removeSession x =>
    cases taken
    exact I.removeSession steady

end Indexed

/-- A request for a service is answered with one of its sessions when there is one. -/
theorem service_index (h : Reachable step Steady {} i) : Indexed i ∧
    ∀ req scheduler order newSessionId, order.toFinset = i.ids req.serviceName →
      req.sessionId = "" → req.serviceName ≠ "" → req.forceNewSession = false →
      (∃ id x, i.sessions id = some x ∧ x.serviceName = req.serviceName) →
      ∃ x, (addSession i req scheduler order newSessionId).2 = .alreadyExists x ∧
        x.serviceName = req.serviceName := by
  have I : Indexed i := h.invariant ⟨by simp [Instance.ids], by simp⟩
    fun _ _ _ I steady taken => I.step steady taken
  refine ⟨I, fun req scheduler order newSessionId all unnamed service reuse known => ?_⟩
  have listed (id) : id ∈ order ↔
      ∃ x, i.sessions id = some x ∧ x.serviceName = req.serviceName := by
    rw [← List.mem_toFinset, all, I.ids]
    simp [service]
  obtain ⟨id, x, held, named⟩ := known
  have some : (order.findSome? i.sessions).isSome := by
    rw [List.findSome?_isSome_iff]
    exact ⟨id, (listed id).mpr ⟨x, held, named⟩, by rw [held]; rfl⟩
  obtain ⟨y, first⟩ := Option.isSome_iff_exists.mp some
  refine ⟨y, by simp [addSession, unnamed, service, reuse, first], ?_⟩
  obtain ⟨id', mem, found⟩ := List.exists_of_findSome?_eq_some first
  obtain ⟨z, held', named'⟩ := (listed id').mp mem
  cases held'.symm.trans found
  exact named'

/-- A session of a service is registered again and removed, and another one is added. -/
theorem service_index_again : ∃ i : Instance, i.services "s" = some {"b"} ∧ Indexed i := by
  obtain ⟨i, reached, kept⟩ := exists_of_run step Steady {}
    [.registerSession ⟨"a", "s", false, false⟩, .registerSession ⟨"a", "s", true, false⟩,
      .removeSession ⟨"a", "s", false, false⟩, .addSession ⟨"", "s", false, false⟩ true [] "b"]
    (fun i => i.services "s" = some {"b"}) (by decide +kernel)
  exact ⟨i, kept, (service_index reached).1⟩

/-- A session is registered under the id of a session of another service: the first service keeps
the id. When the first session is removed, the second service keeps the id of no session. -/
theorem service_index_stale :
    (∃ i, Reachable step Any {} i ∧ "a" ∈ i.ids "s" ∧
      i.sessions "a" = some ⟨"a", "t", false, false⟩) ∧
    ∃ i, Reachable step Any {} i ∧ "a" ∈ i.ids "t" ∧ i.sessions "a" = none :=
  ⟨exists_of_run step Any {}
    [.registerSession ⟨"a", "s", false, false⟩, .registerSession ⟨"a", "t", false, false⟩]
    (fun i => "a" ∈ i.ids "s" ∧ i.sessions "a" = some ⟨"a", "t", false, false⟩)
    (by decide +kernel), exists_of_run step Any {}
    [.registerSession ⟨"a", "s", false, false⟩, .registerSession ⟨"a", "t", false, false⟩,
      .removeSession ⟨"a", "s", false, false⟩]
    (fun i => "a" ∈ i.ids "t" ∧ i.sessions "a" = none) (by decide +kernel)⟩

end Velda.Broker.SessionDatabase
