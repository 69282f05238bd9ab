import Velda.Lib.Run
import Velda.SandboxFs.Cache

/-! The write side of `RWFile` in `directfs_rwfile.go`, with the file of the server it
writes to. While the writes of a handle are sequential they also go to a temporary
file of the client's cache, and `Flush` publishes the hash of that file.

The requests of a handle reach the server in the order they are sent and succeed
there, so each takes its effect where it is sent. The reads of a handle and its locks
are left out. -/
namespace Velda.SandboxFs
open Lib (Reachable Any)

inductive Errno
  | EBADF | EBUSY
  deriving DecidableEq

structure RWFile where
  fd : Nat
  isWrite : Bool
  flushInFlight : Bool := false
  nextSeqOffset : Nat := 0
  seqEnabled : Bool
  seqWriter : Option CacheWriter := none
  deriving DecidableEq

def newRWFile (fd : Nat) (isWrite : Bool) : RWFile where
  fd := fd
  isWrite := isWrite
  seqEnabled := isWrite

structure FlushRequest (Hash : Type) where
  /-- The field `Sha256` if `HasSha256` is one. -/
  sha256 : Option Hash
  deriving DecidableEq

variable {Hash : Type}

/-- A write through a descriptor that was opened to append goes to the end. -/
def handleWriteFd (file : File Hash) (append : Bool) (off : Nat) (data : List UInt8) (now : Nat) :
    File Hash :=
  file.pwrite (if append then file.content.length else off) data now

def handleWrite (file : File Hash) (off : Nat) (data : List UInt8) (now : Nat) : File Hash :=
  file.pwrite off data now

def handleFlush (file : File Hash) (req : FlushRequest Hash) : File Hash :=
  match req.sha256 with
  | some sha256 => file.setCacheKey sha256
  | none => file

/-- What `Write` does with the copy for the cache: `temp` and `stored` are whether the
temporary file can be made and takes the data. -/
def RWFile.track (f : RWFile) (data : List UInt8) (off : Nat) (temp stored : Bool) : RWFile :=
  if f.seqEnabled then
    if off ≠ f.nextSeqOffset then { f with seqEnabled := false, seqWriter := none }
    else
      let f := { f with nextSeqOffset := off + data.length }
      match f.seqWriter, temp, stored with
      | none, false, _ => { f with seqEnabled := false }
      | _, _, false => { f with seqEnabled := false, seqWriter := none }
      | writer, _, true => { f with seqWriter := some ((writer.getD ⟨[]⟩).write data) }
  else f

variable {sha : List UInt8 → Hash}

/-- A handle of one client, and the server's file with the flag its descriptor has. -/
structure Remote (sha : List UInt8 → Hash) where
  file : File Hash
  append : Bool
  cache : DirectoryCacheManager sha
  handle : RWFile

namespace Remote

/-- `RWNode.Open`: the server opens the file with the flags of the caller. -/
def openFile (file : File Hash) (cache : DirectoryCacheManager sha) (flags : OpenFlags)
    (fd now : Nat) : Remote sha where
  file := if flags.trunc then file.ftruncate 0 now else file
  append := flags.append
  cache := cache
  handle := newRWFile fd flags.isWrite

/-- `RWNode.Create`: a file that exists is opened, and the handle is one for writing. -/
def create (file : Option (File Hash)) (cache : DirectoryCacheManager sha) (flags : OpenFlags)
    (fd now : Nat) : Remote sha where
  file :=
    match file with
    | none => ⟨[], now, none⟩
    | some file => if flags.trunc then file.ftruncate 0 now else file
  append := flags.append
  cache := cache
  handle := newRWFile fd true

inductive Opened : Remote sha → Prop
  | openFile (file : File Hash) (cache : DirectoryCacheManager sha) (flags : OpenFlags)
      (fd now : Nat) : Opened (openFile file cache flags fd now)
  | create (file : Option (File Hash)) (cache : DirectoryCacheManager sha) (flags : OpenFlags)
      (fd now : Nat) : Opened (create file cache flags fd now)

def received (s : Remote sha) (data : List UInt8) (off now : Nat) : File Hash :=
  if s.handle.fd ≠ 0 then handleWriteFd s.file s.append off data now
  else handleWrite s.file off data now

def write (s : Remote sha) (data : List UInt8) (off : Nat) (temp stored : Bool) (now : Nat) :
    Except Errno (Remote sha) :=
  if !s.handle.isWrite then .error .EBADF
  else if s.handle.flushInFlight then .error .EBUSY
  else .ok { s with
    handle := s.handle.track data off temp stored
    file := s.received data off now }

def setattr (s : Remote sha) (size now : Nat) : Remote sha :=
  { s with file := s.file.ftruncate size now }

variable [DecidableEq Hash]

/-- The hash of the copy and the cache after `Commit`, which may fail. -/
def commitCopy (s : Remote sha) (commits : Bool) : DirectoryCacheManager sha × Option Hash :=
  match s.handle.seqEnabled, s.handle.seqWriter, commits with
  | true, some writer, true => ((s.cache.commit writer).1, some (s.cache.commit writer).2)
  | _, _, _ => (s.cache, none)

/-- `Flush` up to its wait, with the request it sends; `none` when it sends none. -/
def flush (s : Remote sha) (commits : Bool) : Option (Remote sha × FlushRequest Hash) :=
  if s.handle.isWrite && !s.handle.flushInFlight then
    let req : FlushRequest Hash := ⟨(s.commitCopy commits).2⟩
    some ({ s with
      cache := (s.commitCopy commits).1
      handle := { s.handle with flushInFlight := true, seqWriter := none }
      file := handleFlush s.file req }, req)
  else none

inductive Action
  | write (data : List UInt8) (off : Nat) (temp stored : Bool) (now : Nat)
  | setattr (size now : Nat)
  | flush (commits : Bool)
  /-- The server has answered, and `Flush` returns. -/
  | flushed
  deriving DecidableEq

def step (s : Remote sha) : Action → Option (Remote sha)
  | .write data off temp stored now => (s.write data off temp stored now).toOption
  | .setattr size now => some (s.setattr size now)
  | .flush commits => (s.flush commits).map (·.1)
  | .flushed =>
    if s.handle.flushInFlight then
      some { s with handle := { s.handle with flushInFlight := false } }
    else none

def copy (s : Remote sha) : Option CacheWriter :=
  if s.handle.seqEnabled then s.handle.seqWriter else none

def Begins (s : Remote sha) (off : Nat) : Prop :=
  s.handle.seqEnabled = true ∧ s.handle.seqWriter = none ∧ off = s.handle.nextSeqOffset

/-- A write from the start leaves nothing of the file as it was. -/
def Covers (s : Remote sha) (data : List UInt8) : Prop :=
  if s.append then s.file.content = [] else s.file.content.length ≤ data.length

/-- A copy begins at the start of a file that its first write replaces as a whole,
and the file keeps its size while a copy is made. -/
def Copying (s : Remote sha) : Action → Prop
  | .write data off _ _ _ => s.Begins off → off = 0 ∧ s.Covers data
  | .setattr size _ => s.copy.isSome → size = s.file.content.length
  | _ => True

instance (s : Remote sha) (off : Nat) : Decidable (s.Begins off) :=
  inferInstanceAs (Decidable (_ ∧ _ ∧ _))

instance (s : Remote sha) (data : List UInt8) : Decidable (s.Covers data) := by
  unfold Covers
  infer_instance

instance (s : Remote sha) (act : Action) : Decidable (s.Copying act) := by
  induction act using Action.casesOn <;> unfold Copying <;> infer_instance

/-- The copy is the file of the server, and the next write that continues it is one at
the end. -/
def Mirrored (s : Remote sha) : Prop :=
  ∀ writer, s.copy = some writer →
    s.file.content = writer.bytes ∧ s.handle.nextSeqOffset = writer.bytes.length

end Remote

lemma RWFile.track_cases (f : RWFile) (data : List UInt8) (off : Nat) (temp stored : Bool) :
    ((f.track data off temp stored).seqEnabled = false ∨
      (f.track data off temp stored).seqWriter = none) ∨
    f.seqEnabled = true ∧ off = f.nextSeqOffset ∧
      f.track data off temp stored =
        { f with
          nextSeqOffset := off + data.length
          seqWriter := some ((f.seqWriter.getD ⟨[]⟩).write data) } := by
  unfold track
  split
  · next enabled =>
    split
    · exact .inl (.inl rfl)
    · next same =>
      dsimp only
      split
      · exact .inl (.inl rfl)
      · exact .inl (.inl rfl)
      · exact .inr ⟨enabled, not_not.mp same, rfl⟩
  · next disabled => exact .inl (.inl (by simpa using disabled))

namespace Remote
variable {s t : Remote sha}

lemma content_received_start {data : List UInt8} (now : Nat) (covers : s.Covers data) :
    (s.received data 0 now).content = data := by
  have shorter : s.file.content.length ≤ data.length := by
    unfold Covers at covers
    split at covers
    · simp [covers]
    · exact covers
  unfold received handleWriteFd handleWrite
  split
  · split
    · next appends =>
      have empty : s.file.content = [] := by simpa [Covers, appends] using covers
      rw [s.file.content_pwrite_end, empty, List.nil_append]
    · exact File.content_pwrite_zero now shorter
  · exact File.content_pwrite_zero now shorter

lemma content_received_end (data : List UInt8) (now : Nat) :
    (s.received data s.file.content.length now).content = s.file.content ++ data := by
  unfold received handleWriteFd handleWrite
  split
  · rw [ite_self, s.file.content_pwrite_end]
  · exact s.file.content_pwrite_end data now

lemma mirrored_of_write {data : List UInt8} (M : s.Mirrored)
    (copying : s.Copying (.write data off temp stored now))
    (written : s.write data off temp stored now = .ok t) : t.Mirrored := by
  unfold write at written
  split at written
  · cases written
  split at written
  · cases written
  cases written
  intro writer hcopy
  rcases s.handle.track_cases data off temp stored with (gone | gone) | ⟨enabled, next, tracked⟩
  · simp [copy, gone] at hcopy
  · simp [copy, gone] at hcopy
  · simp only [copy, tracked, enabled, if_true, Option.some.injEq] at hcopy ⊢
    subst hcopy
    cases before : s.handle.seqWriter with
    | none =>
      obtain ⟨rfl, covers⟩ := copying ⟨enabled, before, next⟩
      simpa [CacheWriter.write] using content_received_start now covers
    | some old =>
      obtain ⟨same, atEnd⟩ := M old (by simp [copy, enabled, before])
      rw [next, atEnd, ← same, content_received_end]
      simp [CacheWriter.write, same]

lemma mirrored_of_setattr {size now : Nat} (M : s.Mirrored)
    (copying : s.Copying (.setattr size now)) : (s.setattr size now).Mirrored := by
  intro writer hcopy
  have same : size = s.file.content.length := copying (by rw [show s.copy = _ from hcopy]; rfl)
  simpa [setattr, File.ftruncate, same] using M writer hcopy

variable [DecidableEq Hash]

lemma flush_eq_some (flushed : s.flush commits = some (t, req)) :
    t.file = handleFlush s.file req ∧ t.handle.seqWriter = none ∧
      ∀ h, req.sha256 = some h → ∃ writer, s.copy = some writer ∧ h = sha writer.bytes := by
  unfold flush at flushed
  split at flushed
  · cases flushed
    refine ⟨rfl, rfl, fun h sends => ?_⟩
    dsimp only [commitCopy] at sends
    split at sends
    · next writer enabled made =>
      cases sends
      exact ⟨writer, by simp [copy, enabled, made], rfl⟩
    · cases sends
  · cases flushed

lemma mirrored_of_step (M : s.Mirrored) (copying : s.Copying act) (taken : s.step act = some t) :
    t.Mirrored := by
  cases act with
  | write data off temp stored now =>
    cases written : s.write data off temp stored now with
    | error _ => simp [step, written, Except.toOption] at taken
    | ok u =>
      have own : u = t := by simpa [step, written, Except.toOption] using taken
      exact own ▸ mirrored_of_write M copying written
  | setattr size now =>
    cases taken
    exact mirrored_of_setattr M copying
  | flush commits =>
    obtain ⟨⟨u, req⟩, flushed, rfl⟩ := Option.map_eq_some_iff.mp taken
    intro writer hcopy
    simp [copy, (flush_eq_some flushed).2.1] at hcopy
  | flushed =>
    simp only [step] at taken
    split at taken
    · cases taken
      exact M
    · cases taken

lemma mirrored_of_reachable {init : Remote sha} (opened : Opened init)
    (reached : Reachable step Copying init s) : s.Mirrored := by
  refine reached.invariant (I := Mirrored) ?_ fun _ _ _ M copying taken =>
    mirrored_of_step M copying taken
  intro writer hcopy
  have none : init.copy = none := by
    cases opened <;> exact ite_self _
  rw [none] at hcopy
  cases hcopy

/-- A hash that `Flush` sends is the hash of the whole file, and the server keeps it as
the key of the file. -/
theorem published_hash {init : Remote sha} (opened : Opened init)
    (reached : Reachable step Copying init s) {commits : Bool} {req : FlushRequest Hash}
    (flushed : s.flush commits = some (t, req)) {h : Hash} (sends : req.sha256 = some h) :
    h = sha s.file.content ∧ t.file = s.file.setCacheKey (sha s.file.content) := by
  obtain ⟨after, -, sent⟩ := flush_eq_some flushed
  obtain ⟨writer, hcopy, rfl⟩ := sent h sends
  have same := (mirrored_of_reachable opened reached writer hcopy).1
  rw [same, after, handleFlush, sends]
  exact ⟨rfl, rfl⟩

def newFile : Remote (id : List UInt8 → List UInt8) :=
  create none .empty { wronly := true } 1 0

theorem published_hash_new_file :
    ∃ s, Reachable step Copying newFile s ∧ ∃ t req, s.flush true = some (t, req) ∧
      req.sha256 = some [97, 98] ∧ [97, 98] = id s.file.content ∧
      t.file = s.file.setCacheKey (id s.file.content) := by
  obtain ⟨s, reached, sends⟩ := Lib.exists_of_run step Copying newFile
    [.write [97] 0 true true 1, .write [98] 1 true true 2]
    (fun s => ∃ sent ∈ s.flush true, sent.2.sha256 = some [97, 98]) (by decide)
  obtain ⟨⟨t, req⟩, flushed, hash⟩ := sends
  exact ⟨s, reached, t, req, flushed, hash, published_hash (.create ..) reached flushed hash⟩

/-- The second `Flush` of a handle publishes the hash of what was written since the first. -/
theorem published_hash_partial : ∃ s, Reachable step Any newFile s ∧ s.file.content = [97, 98] ∧
      ∃ sent ∈ s.flush true, sent.2.sha256 = some (id [98]) ∧
        sent.1.file.key = some ⟨id [98], 2, 2⟩ :=
  Lib.exists_of_run _ _ _
    [.write [97] 0 true true 1, .flush true, .flushed, .write [98] 1 true true 2] _ (by decide)

end Remote

end Velda.SandboxFs
