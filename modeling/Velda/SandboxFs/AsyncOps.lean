import Velda.FileServer.RoundTrip
import Velda.Lib.Run
import Velda.SandboxFs.Responses

/-! The requests of an `RWFile` that are sent by `enqueueAsyncOp`: what their callbacks are
told of the responses, and what `Fsync` and `Flush` know of the writes before them. -/
namespace Velda.SandboxFs
open Lib FileServer.Wire

inductive AsyncError
  | errno (code : BitVec 32)
  | decode (message : String)
  | stopped
  deriving DecidableEq

def decodeError (res : MessageType) (data : Bytes) : Option AsyncError :=
  match res.deserialize data with
  | .ok _ => none
  | .error message => some (.decode message)

/-- What the callback of an operation gets. The error is an interface with a number in it,
which is not nil when the number is zero. -/
def newCallback (res : MessageType) (resp : Response) : Option AsyncError :=
  let err : Option AsyncError := some (.errno resp.errno)
  if err.isSome then decodeError res resp.data else err

inductive WriteError
  | async (err : AsyncError)
  | short (got want : BitVec 32)
  deriving DecidableEq

/-- The callback of `Write` for that many bytes: the error it records, if any. -/
def writeCallback (want : BitVec 32) (resp : Response) : Option WriteError :=
  match newCallback .writeResponse resp, WriteResponse.deserialize resp.data with
  | some err, _ => some (.async err)
  | none, .ok (res, _) => if res.size ≠ want then some (.short res.size want) else none
  | none, .error _ => none

/-- The server has written all of it. -/
def Written (want : BitVec 32) (resp : Response) : Prop :=
  resp.errno = 0 ∧ ∃ rest, WriteResponse.deserialize resp.data = .ok (⟨want⟩, rest)

structure Truthful (res : MessageType) (want : BitVec 32) (resp : Response) : Prop where
  nil_iff : newCallback res resp = none ↔ resp.errno = 0 ∧ (res.deserialize resp.data).isOk
  errno : resp.errno ≠ 0 → newCallback res resp = some (.errno resp.errno)
  recorded : ¬ Written want resp → (writeCallback want resp).isSome

variable {res : MessageType} {want : BitVec 32} {resp : Response}

lemma newCallback_eq_none : newCallback res resp = none ↔ (res.deserialize resp.data).isOk := by
  unfold newCallback decodeError
  cases res.deserialize resp.data <;> simp [Except.toBool]

lemma newCallback_ne_errno (code : BitVec 32) : newCallback res resp ≠ some (.errno code) := by
  unfold newCallback decodeError
  cases res.deserialize resp.data <;> simp

lemma writeCallback_eq_none : writeCallback want resp = none ↔
    ∃ rest, WriteResponse.deserialize resp.data = .ok (⟨want⟩, rest) := by
  unfold writeCallback newCallback decodeError
  cases decoded : WriteResponse.deserialize resp.data with
  | error message => simp [MessageType.deserialize, decoded]
  | ok read =>
    obtain ⟨⟨size⟩, rest⟩ := read
    simp [MessageType.deserialize, decoded]

/-- The error of a response is lost: only one without an error is reported as it is. -/
theorem truthful_iff (res : MessageType) (want : BitVec 32) (resp : Response) :
    Truthful res want resp ↔ resp.errno = 0 := by
  constructor
  · intro truthful
    by_contra failed
    exact newCallback_ne_errno _ (truthful.errno failed)
  · intro ok
    refine ⟨by simp [newCallback_eq_none, ok], fun failed => absurd ok failed, fun lost => ?_⟩
    rw [Option.isSome_iff_ne_none]
    exact fun nothing => lost ⟨ok, writeCallback_eq_none.mp nothing⟩

/-- The server has no space for a write. The callback gets the error of reading the empty
response; had the server sent a size along, it would get none. -/
theorem truthful_no_space : newCallback .writeResponse ⟨28, []⟩ = some (.decode "EOF") ∧
    newCallback .writeResponse ⟨28, [3, 0, 0, 0]⟩ = none ∧
    writeCallback 3 ⟨28, [3, 0, 0, 0]⟩ = none := by
  decide +kernel

namespace Async

inductive Op
  | write (length : BitVec 32)
  | flush
  deriving DecidableEq

/-- The callback is called with a response, or because the client was stopped. -/
def Op.callback : Op → Option Response → Option WriteError
  | .write length, some resp => writeCallback length resp
  | .flush, some resp => (newCallback .flushResponse resp).map .async
  | _, none => some (.async .stopped)

/-- The requests of an `RWFile` that is open for writing: those whose callback was not called
yet, and the others with what it was first called with. -/
structure Handle where
  writeErr : Option WriteError := none
  pendingWG : Nat := 0
  waiting : List Op := []
  answered : List (Op × Option Response) := []

inductive Action
  | write (length : BitVec 32)
  | complete (i : Nat) (resp : Option Response)
  /-- A send that fails completes a request that the reader has completed before. -/
  | again (i : Nat) (errno : BitVec 32)
  | fsync
  | flush
  /-- `Flush` returns. -/
  | flushed

namespace Handle

def enqueue (s : Handle) (op : Op) : Handle :=
  { s with pendingWG := s.pendingWG + 1, waiting := op :: s.waiting }

/-- A `Done` too many is a panic. -/
def done (s : Handle) (op : Op) (resp : Option Response) : Option Handle :=
  if s.pendingWG = 0 then none
  else some { s with
    writeErr := s.writeErr.or (op.callback resp)
    pendingWG := s.pendingWG - 1 }

/-- A `Write` after an error returns that error. -/
def step (s : Handle) : Action → Option Handle
  | .write length => if s.writeErr.isSome then some s else some (s.enqueue (.write length))
  | .complete i resp => s.waiting[i]?.bind fun op =>
    { s with
      waiting := s.waiting.eraseIdx i
      answered := (op, resp) :: s.answered }.done op resp
  | .again i errno => if errno = 0 then none else
    s.answered[i]?.bind fun call => s.done call.1 (some ⟨errno, []⟩)
  | .fsync | .flushed => if s.pendingWG = 0 then some s else none
  | .flush => some (s.enqueue .flush)

/-- The step is the return of an `Fsync` or of a `Flush`, without an error. -/
def returnsOk (s : Handle) : Action → Bool
  | .fsync => true
  | .flushed => s.writeErr.isNone
  | _ => false

/-- An `Fsync` returns only while no error is recorded, and a response with an error has no
payload that reads as the response to a write. -/
def heeded (s : Handle) : Action → Bool
  | .fsync => s.writeErr.isNone
  | .complete _ (some resp) => resp.errno = 0 || !(WriteResponse.deserialize resp.data).isOk
  | _ => true

def AllWritten (s : Handle) : Prop :=
  ∀ length resp, (.write length, resp) ∈ s.answered → ∃ r, resp = some r ∧ Written length r

/-- Every write that returned was answered, and the answer is that all of it is written. -/
def Durable (s : Handle) : Prop := (∀ length, .write length ∉ s.waiting) ∧ s.AllWritten

def Tracked (s : Handle) : Prop :=
  s.writeErr = none → s.pendingWG = s.waiting.length ∧ s.AllWritten

variable {s t : Handle}

lemma Tracked.enqueue (T : s.Tracked) (op : Op) : (s.enqueue op).Tracked := fun fine =>
  (T fine).imp_left fun counted => by simp [Handle.enqueue, counted]

lemma done_eq_some {resp : Option Response} (done : s.done op resp = some t) :
    t = { s with
      writeErr := s.writeErr.or (op.callback resp), pendingWG := s.pendingWG - 1 } := by
  unfold Handle.done at done
  split at done
  · cases done
  · exact (Option.some.inj done).symm

lemma Tracked.complete {resp : Option Response} (T : s.Tracked)
    (heeded : s.heeded (.complete i resp)) (taken : s.step (.complete i resp) = some t) :
    t.Tracked := by
  obtain ⟨op, found, done⟩ := Option.bind_eq_some_iff.mp taken
  obtain rfl := done_eq_some done
  intro fine
  obtain ⟨before, called⟩ := Option.or_eq_none_iff.mp fine
  obtain ⟨counted, written⟩ := T before
  have bound := (List.getElem?_eq_some_iff.mp found).1
  refine ⟨by simp [List.length_eraseIdx_of_lt bound, counted], fun length r mem => ?_⟩
  rcases List.mem_cons.mp mem with same | old
  · cases same
    cases resp with
    | none => cases called
    | some resp =>
      obtain ⟨rest, decoded⟩ := writeCallback_eq_none.mp called
      refine ⟨resp, rfl, ?_, rest, decoded⟩
      simpa [Handle.heeded, decoded, Except.toBool] using heeded
  · exact written length r old

lemma callback_ne_none (op : Op) (errno : BitVec 32) :
    op.callback (some ⟨errno, []⟩) ≠ none := by
  cases op <;> exact Option.some_ne_none _

lemma Tracked.step (T : s.Tracked) (heeded : s.heeded act) (taken : s.step act = some t) :
    t.Tracked := by
  cases act with
  | write length =>
    simp only [Handle.step] at taken
    split at taken <;> cases taken
    · exact T
    · exact T.enqueue _
  | complete i resp => exact T.complete heeded taken
  | again i errno =>
    simp only [Handle.step] at taken
    split at taken
    · cases taken
    · obtain ⟨call, -, done⟩ := Option.bind_eq_some_iff.mp taken
      obtain rfl := done_eq_some done
      exact fun fine => absurd (Option.or_eq_none_iff.mp fine).2 (callback_ne_none _ _)
  | flush =>
    cases taken
    exact T.enqueue _
  | fsync | flushed =>
    simp only [Handle.step] at taken
    split at taken <;> cases taken
    exact T

/-- When `Fsync` or `Flush` returns without an error, all writes before it are durable. -/
theorem durable_of_returnsOk {act : Action} (reached : Reachable step (heeded · ·) {} s)
    (heeded : s.heeded act) (taken : s.step act = some t) (ok : s.returnsOk act) :
    s.Durable := by
  have T : s.Tracked := reached.invariant (I := Tracked) (fun _ => ⟨rfl, by simp [AllWritten]⟩)
    fun _ _ _ T heeded taken => T.step heeded taken
  have barrier (fine : s.writeErr = none) (idle : s.pendingWG = 0) : s.Durable := by
    obtain ⟨counted, written⟩ := T fine
    have empty : s.waiting = [] := List.eq_nil_of_length_eq_zero (counted ▸ idle)
    exact ⟨by simp [empty], written⟩
  cases act with
  | fsync | flushed =>
    simp only [Handle.step] at taken
    split at taken
    · next idle => exact barrier (Option.isNone_iff_eq_none.mp (by assumption)) idle
    · cases taken
  | _ => cases ok

theorem durable_of_returnsOk_fsync : ∃ s, Reachable step (heeded · ·) {} s ∧
    s.answered = [(.write 3, some ⟨0, [3, 0, 0, 0]⟩)] ∧ s.Durable := by
  obtain ⟨s, reached, answered, heeded, idle⟩ := exists_of_run step (heeded · ·) {}
    [.write 3, .complete 0 (some ⟨0, [3, 0, 0, 0]⟩)]
    (fun s => s.answered = [(.write 3, some ⟨0, [3, 0, 0, 0]⟩)] ∧ s.heeded .fsync ∧
      s.pendingWG = 0) (by decide +kernel)
  exact ⟨s, reached, answered, durable_of_returnsOk reached heeded (if_pos idle) rfl⟩

/-- `Fsync` returns without an error although the server had no space for the write. -/
theorem durable_not_fsync : ∃ s t, Reachable step Any {} s ∧ s.step .fsync = some t ∧
    s.answered = [(.write 3, some ⟨28, []⟩)] := by
  obtain ⟨s, reached, idle, answered⟩ := exists_of_run step Any {}
    [.write 3, .complete 0 (some ⟨28, []⟩)]
    (fun s => s.pendingWG = 0 ∧ s.answered = [(.write 3, some ⟨28, []⟩)]) (by decide +kernel)
  exact ⟨s, s, reached, if_pos idle, answered⟩

end Handle

end Async

end Velda.SandboxFs
