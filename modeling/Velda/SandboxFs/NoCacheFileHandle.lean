import Velda.SandboxFs.CachedFileHandle

/-! `NoCacheFileHandle` of `nocache_file_handle.go`. In no-cache mode a file opened for
writing is only hashed: sequential writes go through the hasher and the first `Flush` stores
the sum as the key of the file. -/
namespace Velda.SandboxFs
open Lib (Reachable Any)

/-- `hasher` holds the bytes that were written to it. -/
structure NoCacheFileHandle where
  isWrite : Bool
  hasher : Option (List UInt8)
  bytesWritten : Nat := 0
  deriving DecidableEq

structure NoCache (Hash : Type) where
  file : File Hash
  handle : NoCacheFileHandle
  deriving DecidableEq

variable {Hash : Type}

namespace NoCacheFileHandle

/-- A write that does not continue the last one ends the sum. -/
def sequential (f : NoCacheFileHandle) (off : Nat) : NoCacheFileHandle :=
  if f.isWrite && off ≠ f.bytesWritten then { f with hasher := none } else f

def hash (f : NoCacheFileHandle) (data : List UInt8) (off : Nat) : NoCacheFileHandle :=
  match f.hasher with
  | some stream =>
    if f.isWrite && off = f.bytesWritten then
      { f with hasher := some (stream ++ data), bytesWritten := f.bytesWritten + data.length }
    else f
  | none => f

end NoCacheFileHandle

namespace NoCache

def openFile (file : File Hash) (flags : OpenFlags) (now : Nat) : NoCache Hash where
  file := if flags.trunc then file.ftruncate 0 now else file
  handle := { isWrite := flags.isWrite, hasher := if flags.isWrite then some [] else none }

/-- `n` is how many bytes the file took, `none` for a write that fails. -/
def write (s : NoCache Hash) (data : List UInt8) (off : Nat) (n : Option Nat) (now : Nat) :
    NoCache Hash :=
  let handle := s.handle.sequential off
  match n with
  | none => { s with handle := handle }
  | some n => ⟨s.file.pwrite off (data.take n) now, handle.hash (data.take n) off⟩

def setattr (s : NoCache Hash) (size now : Nat) : NoCache Hash :=
  { s with file := s.file.ftruncate size now }

/-- The key is the one this `Flush` stored. -/
def flush (sha : List UInt8 → Hash) (s : NoCache Hash) (calls : FlushCalls) :
    NoCache Hash × Option (CacheKey Hash) :=
  if calls.flushes && s.handle.isWrite then
    match s.handle.hasher with
    | some stream =>
      let handle := { s.handle with hasher := none }
      if calls.stats && calls.setsXattr then
        let file := s.file.setCacheKey (sha stream)
        (⟨file, handle⟩, file.key)
      else ({ s with handle := handle }, none)
    | none => (s, none)
  else (s, none)

inductive Action
  | write (data : List UInt8) (off : Nat) (n : Option Nat) (now : Nat)
  | setattr (size now : Nat)
  | flush (calls : FlushCalls)
  deriving DecidableEq

def step (sha : List UInt8 → Hash) (s : NoCache Hash) : Action → Option (NoCache Hash)
  | .write data off n now => some (s.write data off n now)
  | .setattr size now => some (s.setattr size now)
  | .flush calls => some (s.flush sha calls).1

/-- While the file is hashed no byte that was written is cut off, and at a `Flush` the file
ends with the last of them. -/
def Covered (s : NoCache Hash) : Action → Prop
  | .write .. => True
  | .setattr size _ => s.handle.hasher.isSome → s.handle.bytesWritten ≤ size
  | .flush _ => s.handle.hasher.isSome → s.file.content.length = s.handle.bytesWritten

instance (s : NoCache Hash) (act : Action) : Decidable (s.Covered act) := by
  induction act using Action.casesOn <;> unfold Covered <;> infer_instance

def Hashed (s : NoCache Hash) : Prop :=
  ∀ stream, s.handle.hasher = some stream → s.handle.isWrite = true ∧
    s.handle.bytesWritten = stream.length ∧ stream <+: s.file.content

variable {sha : List UInt8 → Hash} {s t : NoCache Hash}

lemma Hashed.write (H : s.Hashed) (data : List UInt8) (off : Nat) (n : Option Nat) (now : Nat) :
    (s.write data off n now).Hashed := by
  unfold NoCache.write NoCacheFileHandle.sequential NoCacheFileHandle.hash
  cases before : s.handle.hasher with
  | none =>
    intro stream found
    cases n <;> grind
  | some old =>
    obtain ⟨writes, count, start⟩ := H old before
    by_cases next : off = s.handle.bytesWritten
    · subst next
      cases n with
      | none => simpa using H
      | some n =>
        have longer : old ++ data.take n <+:
            (s.file.pwrite s.handle.bytesWritten (data.take n) now).content := by
          unfold File.pwrite
          split
          · next empty => simpa [empty] using start
          · simpa only [count] using Lib.prefix_writeAt 0 start _
        simpa [Hashed, before, writes, count] using longer
    · intro stream found
      cases n <;> simp [writes, next] at found

lemma Hashed.step (H : s.Hashed) (covered : s.Covered act) (taken : s.step sha act = some t) :
    t.Hashed := by
  cases act with
  | write data off n now =>
    cases taken
    exact H.write data off n now
  | setattr size now =>
    cases taken
    intro stream found
    obtain ⟨writes, count, start⟩ := H stream found
    have fits := covered (Option.isSome_of_eq_some found)
    exact ⟨writes, count, Lib.prefix_resize 0 start (count ▸ fits)⟩
  | flush calls =>
    cases taken
    unfold NoCache.flush Hashed
    grind [Hashed]

/-- A key that `Flush` stores in no-cache mode has the hash of the whole file. -/
theorem flush_stores_hash (file : File Hash) (flags : OpenFlags) (now : Nat)
    (run : Reachable (step sha) Covered (openFile file flags now) s)
    {calls : FlushCalls} (covered : s.Covered (.flush calls)) {k : CacheKey Hash}
    (stored : s.flush sha calls = (t, some k)) : k.sha256 = sha t.file.content := by
  have H : s.Hashed := run.invariant (I := Hashed) (by simp [Hashed, openFile])
    fun _ _ _ H covered taken => H.step covered taken
  unfold NoCache.flush at stored
  cases before : s.handle.hasher with
  | none => simp [before] at stored
  | some stream =>
    obtain ⟨-, count, start⟩ := H stream before
    have whole : stream = s.file.content :=
      start.eq_of_length (by rw [← count, covered (Option.isSome_of_eq_some before)])
    simp only [File.setCacheKey] at stored
    grind

def truncated : NoCache (List UInt8) :=
  openFile ⟨[97], 0, none⟩ { wronly := true, trunc := true } 1

theorem flush_stores_hash_truncated : ∃ s, Reachable (step id) Covered truncated s ∧
    ∃ t k, s.flush id {} = (t, some k) ∧ k.sha256 = id t.file.content := by
  obtain ⟨s, run, covered, t, k, stored⟩ := Lib.exists_of_run (step id) Covered
    truncated [.write [98, 99] 0 (some 1) 2, .setattr 3 3, .write [100, 101] 1 (some 2) 4]
    (fun s => s.Covered (.flush {}) ∧ ∃ t k, s.flush id {} = (t, some k))
    ⟨_, rfl, by decide, _, _, rfl⟩
  exact ⟨s, run, t, k, stored, flush_stores_hash _ _ _ run covered stored⟩

/-- A file that is opened without truncation gets the hash of what was written over its
start. -/
theorem flush_stores_hash_of_start :
    ∃ s, Reachable (step id) Any (openFile ⟨[97, 98], 0, none⟩ { wronly := true } 1) s ∧
      (s.flush id {}).2 = some ⟨[99], 2, 2⟩ ∧ (s.flush id {}).1.file.content = [99, 98] :=
  Lib.exists_of_run _ _ _ [.write [99] 0 (some 1) 2] _ (by decide)

end NoCache

end Velda.SandboxFs
