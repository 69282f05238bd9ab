import Velda.Lib.Run
import Velda.SandboxFs.Cache

/-! `CachedFileHandle` of `cached_file_handle.go` on a file opened for writing, and the
check of a read-only `Open` in `cached_loopback.go`. Sequential writes are copied to the
cache; the first `Flush` commits the copy and stores its hash as the key of the file,
for which a later `Open` returns the bytes in the cache instead of the file. -/
namespace Velda.SandboxFs
open Lib (Reachable Any)

structure CachedFileHandle where
  cacheWrite : Option CacheWriter := none
  bytesWritten : Nat := 0
  isWrite : Bool
  cacheOps : Bool
  deriving DecidableEq

def CachedFileHandle.abortCaching (f : CachedFileHandle) : CachedFileHandle :=
  { f with cacheWrite := none, cacheOps := false }

/-- A write that does not continue the last one ends the copy. -/
def CachedFileHandle.sequential (f : CachedFileHandle) (off : Nat) : CachedFileHandle :=
  if f.cacheOps && off ≠ f.bytesWritten then f.abortCaching else f

/-- Copy what was written: `temp` and `stored` are whether the temporary file can be made
and takes the data. -/
def CachedFileHandle.copyData (f : CachedFileHandle) (data : List UInt8) (temp stored : Bool) :
    CachedFileHandle :=
  if f.cacheOps && f.isWrite then
    match f.cacheWrite, temp, stored with
    | none, false, _ => f.abortCaching
    | _, _, false => f.abortCaching
    | writer, _, true =>
      { f with
        cacheWrite := some ((writer.getD ⟨[]⟩).write data)
        bytesWritten := f.bytesWritten + data.length }
  else f

/-- Which of the calls that `Flush` makes succeed. -/
structure FlushCalls where
  flushes : Bool := true
  commits : Bool := true
  stats : Bool := true
  setsXattr : Bool := true
  deriving DecidableEq

variable {Hash : Type} {sha : List UInt8 → Hash}

structure Loopback (sha : List UInt8 → Hash) where
  file : File Hash
  cache : DirectoryCacheManager sha
  handle : CachedFileHandle

inductive Backing
  | cache (bytes : List UInt8)
  | real
  deriving DecidableEq

/-- A read-only `Open`: the file of the cache that a valid key names, if it can be opened. -/
def openReadOnly (file : File Hash) (cache : DirectoryCacheManager sha) (opens : Bool) : Backing :=
  match file.validKey.bind fun key => cache.lookup key.sha256, opens with
  | some bytes, true => .cache bytes
  | _, _ => .real

namespace Loopback

/-- An `Open` for writing; the flag to append is dropped. -/
def openFile (file : File Hash) (cache : DirectoryCacheManager sha) (flags : OpenFlags)
    (now : Nat) : Loopback sha where
  file := if flags.trunc then file.ftruncate 0 now else file
  cache := cache
  handle := { isWrite := true, cacheOps := true }

def create (file : Option (File Hash)) (cache : DirectoryCacheManager sha) (flags : OpenFlags)
    (now : Nat) : Loopback sha where
  file :=
    match file with
    | none => ⟨[], now, none⟩
    | some file => if flags.trunc then file.ftruncate 0 now else file
  cache := cache
  handle := { isWrite := true, cacheOps := true }

inductive Opened : Loopback sha → Prop
  | openFile (file : File Hash) (cache : DirectoryCacheManager sha) (flags : OpenFlags) (now : Nat)
      (writes : flags.isWrite = true) : Opened (openFile file cache flags now)
  | create (file : Option (File Hash)) (cache : DirectoryCacheManager sha) (flags : OpenFlags)
      (now : Nat) : Opened (create file cache flags now)

/-- `n` is how many bytes the file took, `none` for a write that fails. -/
def write (s : Loopback sha) (data : List UInt8) (off : Nat) (n : Option Nat) (temp stored : Bool)
    (now : Nat) : Loopback sha :=
  let handle := s.handle.sequential off
  match n with
  | none => { s with handle := handle }
  | some n =>
    { s with
      file := s.file.pwrite off (data.take n) now
      handle := handle.copyData (data.take n) temp stored }

def setattr (s : Loopback sha) (size now : Nat) : Loopback sha :=
  { s with file := s.file.ftruncate size now }

def lseek (s : Loopback sha) : Loopback sha := { s with handle := s.handle.abortCaching }

variable [DecidableEq Hash]

def commitCopy (s : Loopback sha) (writer : CacheWriter) (calls : FlushCalls) :
    Loopback sha × Option (CacheKey Hash) :=
  if calls.commits then
    let s := { s with cache := (s.cache.commit writer).1 }
    if calls.stats && calls.setsXattr then
      let file := s.file.setCacheKey (s.cache.commit writer).2
      ({ s with file := file }, file.key)
    else (s, none)
  else (s, none)

/-- The key is the one this `Flush` stored. -/
def flush (s : Loopback sha) (calls : FlushCalls) : Loopback sha × Option (CacheKey Hash) :=
  if calls.flushes then
    match s.handle.cacheWrite with
    | none => (s, none)
    | some writer =>
      if s.handle.cacheOps && s.handle.isWrite then
        let committed := s.commitCopy writer calls
        ({ committed.1 with handle := s.handle.abortCaching }, committed.2)
      else if s.handle.cacheOps && s.handle.bytesWritten > 0 then
        -- a handle for reading, which has the whole file if it has read as much
        let committed :=
          if calls.stats && s.handle.bytesWritten = s.file.content.length then
            s.commitCopy writer calls
          else (s, none)
        ({ committed.1 with handle := { s.handle with cacheOps := false } }, committed.2)
      else ({ s with handle := s.handle.abortCaching }, none)
  else (s, none)

inductive Action
  | write (data : List UInt8) (off : Nat) (n : Option Nat) (temp stored : Bool) (now : Nat)
  | setattr (size now : Nat)
  | lseek
  | flush (calls : FlushCalls)
  deriving DecidableEq

def step (s : Loopback sha) : Action → Option (Loopback sha)
  | .write data off n temp stored now => some (s.write data off n temp stored now)
  | .setattr size now => some (s.setattr size now)
  | .lseek => some s.lseek
  | .flush calls => some (s.flush calls).1

def copy (s : Loopback sha) : Option CacheWriter :=
  if s.handle.cacheOps then s.handle.cacheWrite else none

/-- The first write of a copy replaces the file as a whole, and the file keeps its size
while a copy is made. -/
def Copying (s : Loopback sha) : Action → Prop
  | .write data off (some n) _ _ _ =>
    s.handle.cacheOps = true → s.handle.cacheWrite = none → off = 0 →
      s.file.content.length ≤ (data.take n).length
  | .setattr size _ => s.copy.isSome → size = s.file.content.length
  | _ => True

instance (s : Loopback sha) (act : Action) : Decidable (s.Copying act) := by
  induction act using Action.casesOn with
  | write data off n temp stored now =>
    induction n using Option.casesOn <;> unfold Copying <;> infer_instance
  | _ => unfold Copying; infer_instance

def Dated (s : Loopback sha) : Action → Prop
  | .write _ _ _ _ _ now | .setattr _ now => s.file.mtime < now
  | _ => True

/-- The copy is the file, and nothing was written before there is one. -/
structure Mirrored (s : Loopback sha) : Prop where
  writes : s.handle.isWrite = true
  unwritten : s.handle.cacheOps = true → s.handle.cacheWrite = none → s.handle.bytesWritten = 0
  same : ∀ writer, s.copy = some writer →
    s.file.content = writer.bytes ∧ s.handle.bytesWritten = writer.bytes.length

/-- The file still has the key `k`, of the bytes `content`, or was changed after it. -/
structure Keeps (k : CacheKey Hash) (content : List UInt8) (s : Loopback sha) : Prop where
  key : s.file.key = some k
  ended : s.handle.cacheOps = false
  dated : k.mtime ≤ s.file.mtime
  same : s.file.mtime = k.mtime → s.file.content = content

end Loopback

namespace CachedFileHandle

lemma sequential_cases (f : CachedFileHandle) (off : Nat) : (f.sequential off).cacheOps = false ∨
      f.cacheOps = true ∧ off = f.bytesWritten ∧ f.sequential off = f := by
  unfold sequential
  cases ops : f.cacheOps with
  | false => exact .inl (by simp [ops])
  | true =>
    by_cases next : off = f.bytesWritten
    · exact .inr ⟨rfl, next, by simp [next]⟩
    · exact .inl (by simp [next, abortCaching])

lemma copyData_cases (f : CachedFileHandle) (data : List UInt8) (temp stored : Bool)
    (writes : f.isWrite = true) :
    (f.copyData data temp stored).cacheOps = false ∨
      f.copyData data temp stored =
        { f with
          cacheWrite := some ((f.cacheWrite.getD ⟨[]⟩).write data)
          bytesWritten := f.bytesWritten + data.length } := by
  unfold copyData
  cases ops : f.cacheOps with
  | false => exact .inl (by simp [ops])
  | true =>
    simp only [writes, Bool.and_self, if_true]
    split
    · exact .inl rfl
    · exact .inl rfl
    · exact .inr (by simp)

@[simp] lemma isWrite_sequential (f : CachedFileHandle) (off : Nat) :
    (f.sequential off).isWrite = f.isWrite := by
  unfold sequential
  split <;> rfl

@[simp] lemma isWrite_copyData (f : CachedFileHandle) (data : List UInt8) (temp stored : Bool) :
    (f.copyData data temp stored).isWrite = f.isWrite := by
  unfold copyData
  split
  · split <;> rfl
  · rfl

lemma cacheOps_sequential {f : CachedFileHandle} (ended : f.cacheOps = false) (off : Nat) :
    (f.sequential off).cacheOps = false := by
  simp [sequential, ended]

lemma cacheOps_copyData {f : CachedFileHandle} (ended : f.cacheOps = false) (data : List UInt8)
    (temp stored : Bool) : (f.copyData data temp stored).cacheOps = false := by
  simp [copyData, ended]

end CachedFileHandle

namespace Loopback
variable {s t : Loopback sha}

lemma copy_of_ended (ended : s.handle.cacheOps = false) : s.copy = none := by
  simp [copy, ended]

lemma Mirrored.of_ended (writes : s.handle.isWrite = true) (ended : s.handle.cacheOps = false) :
    s.Mirrored where
  writes := writes
  unwritten ops := by simp [ended] at ops
  same writer made := by simp [copy_of_ended ended] at made

lemma Mirrored.write {data : List UInt8} (M : s.Mirrored)
    (copying : s.Copying (.write data off n temp stored now)) :
    (s.write data off n temp stored now).Mirrored := by
  rcases s.handle.sequential_cases off with ended | ⟨ops, next, kept⟩
  · cases n with
    | none => exact .of_ended (by simpa [Loopback.write] using M.writes) ended
    | some n =>
      exact .of_ended (by simpa [Loopback.write] using M.writes)
        (CachedFileHandle.cacheOps_copyData ended _ _ _)
  · cases n with
    | none =>
      simp only [Loopback.write, kept]
      exact M
    | some n =>
      simp only [Loopback.write, kept]
      rcases s.handle.copyData_cases (data.take n) temp stored M.writes with ended | copied
      · exact .of_ended (by simpa using M.writes) ended
      · rw [copied]
        refine ⟨M.writes, fun _ gone => (by cases gone), fun writer made => ?_⟩
        simp only [copy, ops, if_true, Option.some.injEq] at made
        subst made
        cases before : s.handle.cacheWrite with
        | none =>
          have start : off = 0 := next.trans (M.unwritten ops before)
          have covers := copying ops before start
          simp [start, ← next, CacheWriter.write, File.content_pwrite_zero now covers]
        | some old =>
          obtain ⟨same, length⟩ := M.same old (by simp [copy, ops, before])
          have atEnd : off = s.file.content.length := by rw [next, length, same]
          rw [atEnd, File.content_pwrite_end]
          simp [CacheWriter.write, same, length]

lemma Mirrored.setattr {size now : Nat} (M : s.Mirrored)
    (copying : s.Copying (.setattr size now)) : (s.setattr size now).Mirrored where
  writes := M.writes
  unwritten := M.unwritten
  same writer made := by
    have kept : size = s.file.content.length := copying (by rw [show s.copy = _ from made]; rfl)
    simpa [Loopback.setattr, File.ftruncate, kept] using M.same writer made

variable [DecidableEq Hash]

lemma commitCopy_cases (s : Loopback sha) (writer : CacheWriter) (calls : FlushCalls) :
    ((s.commitCopy writer calls).1.file = s.file ∧ (s.commitCopy writer calls).2 = none) ∨
    ((s.commitCopy writer calls).1.file = s.file.setCacheKey (sha writer.bytes) ∧
      (s.commitCopy writer calls).2 =
        some ⟨sha writer.bytes, s.file.mtime, s.file.content.length⟩) := by
  unfold commitCopy
  split
  · split
    · exact .inr ⟨rfl, rfl⟩
    · exact .inl ⟨rfl, rfl⟩
  · exact .inl ⟨rfl, rfl⟩

lemma flush_cases (writes : s.handle.isWrite = true) (calls : FlushCalls) :
    s.flush calls = (s, none) ∨
    ((s.flush calls).1.handle.isWrite = true ∧ (s.flush calls).1.handle.cacheOps = false ∧
      ((s.flush calls).1.file = s.file ∧ (s.flush calls).2 = none ∨ ∃ writer, s.copy = some writer ∧
          (s.flush calls).1.file = s.file.setCacheKey (sha writer.bytes) ∧
          (s.flush calls).2 = some ⟨sha writer.bytes, s.file.mtime, s.file.content.length⟩)) := by
  unfold flush
  split
  · split
    · exact .inl rfl
    · next writer made =>
      refine .inr ?_
      by_cases ops : s.handle.cacheOps = true
      · rw [if_pos (by simp [ops, writes])]
        refine ⟨writes, rfl, (s.commitCopy_cases writer calls).imp id fun stored => ?_⟩
        exact ⟨writer, by simp [copy, ops, made], stored⟩
      · rw [if_neg (by simp [ops]), if_neg (by simp [ops])]
        exact ⟨writes, rfl, .inl ⟨rfl, rfl⟩⟩
  · exact .inl rfl

lemma flush_ended (ended : s.handle.cacheOps = false) (calls : FlushCalls) :
    (s.flush calls).1.file = s.file ∧ (s.flush calls).1.handle.cacheOps = false := by
  unfold flush
  split
  · split
    · exact ⟨rfl, ended⟩
    · rw [if_neg (by simp [ended]), if_neg (by simp [ended])]
      exact ⟨rfl, rfl⟩
  · exact ⟨rfl, ended⟩

lemma Mirrored.step (M : s.Mirrored) (copying : s.Copying act) (taken : s.step act = some t) :
    t.Mirrored := by
  cases act with
  | write data off n temp stored now =>
    cases taken
    exact M.write copying
  | setattr size now =>
    cases taken
    exact M.setattr copying
  | lseek =>
    cases taken
    exact .of_ended M.writes rfl
  | flush calls =>
    cases taken
    rcases flush_cases M.writes calls with same | ⟨writes, ended, -⟩
    · rw [same]
      exact M
    · exact .of_ended writes ended

lemma mirrored_of_reachable {init : Loopback sha} (opened : Opened init)
    (reached : Reachable step Copying init s) : s.Mirrored := by
  refine reached.invariant (I := Mirrored) ?_ fun _ _ _ M copying taken => M.step copying taken
  cases opened <;>
    exact ⟨rfl, fun _ _ => rfl, fun _ made => nomatch made⟩

omit [DecidableEq Hash] in
lemma Keeps.of_file (K : Keeps k content s) (file : t.file = s.file)
    (ended : t.handle.cacheOps = false) : Keeps k content t := by
  obtain ⟨key, -, dated, same⟩ := K
  exact ⟨file ▸ key, ended, file ▸ dated, file ▸ same⟩

lemma Keeps.step (K : Keeps k content s) (dated : s.Dated act) (taken : s.step act = some t) :
    Keeps k content t := by
  cases act with
  | write data off n temp stored now =>
    cases taken
    have ended := CachedFileHandle.cacheOps_sequential K.ended off
    cases n with
    | none => exact K.of_file rfl ended
    | some n =>
      have ended := CachedFileHandle.cacheOps_copyData ended (data.take n) temp stored
      by_cases empty : data.take n = []
      · exact K.of_file (by simp [Loopback.write, File.pwrite, empty]) ended
      · have later : k.mtime < now := Nat.lt_of_le_of_lt K.dated dated
        refine ⟨by simpa [Loopback.write] using K.key, ended, ?_, ?_⟩
        · simpa [Loopback.write, File.pwrite, empty] using Nat.le_of_lt later
        · simp only [Loopback.write, File.pwrite, empty]
          exact fun same => absurd same (Nat.ne_of_gt later)
  | setattr size now =>
    cases taken
    have later : k.mtime < now := Nat.lt_of_le_of_lt K.dated dated
    exact ⟨K.key, K.ended, Nat.le_of_lt later, fun same => absurd same (Nat.ne_of_gt later)⟩
  | lseek =>
    cases taken
    exact K.of_file rfl rfl
  | flush calls =>
    cases taken
    obtain ⟨file, ended⟩ := flush_ended K.ended calls
    exact K.of_file file ended

omit [DecidableEq Hash] in
lemma Keeps.openReadOnly (injective : Function.Injective sha)
    (K : Keeps ⟨sha content, mtime, content.length⟩ content s) {cache : DirectoryCacheManager sha}
    {bytes : List UInt8} (found : openReadOnly s.file cache opens = .cache bytes) :
    bytes = s.file.content := by
  unfold SandboxFs.openReadOnly at found
  split at found
  · next lookup =>
    cases found
    obtain ⟨key, valid, named⟩ := Option.bind_eq_some_iff.mp lookup
    obtain ⟨stored, mtime, -⟩ := File.validKey_eq_some.mp valid
    obtain rfl := Option.some.inj (K.key.symm.trans stored)
    rw [K.same mtime.symm]
    exact cache.lookup_sha injective named
  · cases found

def newFile : Loopback (id : List UInt8 → List UInt8) := create none .empty { wronly := true } 0

def oldFile : Loopback (id : List UInt8 → List UInt8) :=
  openFile ⟨[97, 98, 99], 0, none⟩ .empty { wronly := true } 1

end Loopback

end Velda.SandboxFs
