import Velda.SandboxFs.CachedFileHandle

/-! The directory of `cache.go` with its writers as they are on disk: the temporary file of a
writer has every byte that a write left there, and its hasher those of the writes that
succeeded. File handles and fetchers share the directory and meet there only, in the
`Link` of a `Commit`. -/
namespace Velda.SandboxFs.OnDisk
open Lib (Reachable Any)

abbrev CacheDir (Hash : Type) := Hash → Option (List UInt8)

structure DirCacheWriter where
  file : List UInt8 := []
  hasher : List UInt8 := []
  closed : Bool := false
  deriving DecidableEq

/-- Which of the calls that `Commit` makes succeed. -/
structure CommitCalls where
  closes : Bool := true
  mkdirs : Bool := true
  links : Bool := true
  deriving DecidableEq

variable {Hash : Type} [DecidableEq Hash] (sha : List UInt8 → Hash)

def CacheDir.link (d : CacheDir Hash) (h : Hash) (bytes : List UInt8) : CacheDir Hash :=
  fun name => if name = h ∧ d name = none then some bytes else d name

namespace DirCacheWriter

/-- `kept` is how much of the data a write leaves in the file that fails. -/
def write (w : DirCacheWriter) (p : List UInt8) (kept : Option Nat) : DirCacheWriter × Bool :=
  if w.closed then (w, false)
  else
    match kept with
    | some kept => ({ w with file := w.file ++ p.take kept }, false)
    | none => ({ w with file := w.file ++ p, hasher := w.hasher ++ p }, true)

def abort (w : DirCacheWriter) : DirCacheWriter := { w with closed := true }

def commit (w : DirCacheWriter) (d : CacheDir Hash) (calls : CommitCalls) :
    CacheDir Hash × DirCacheWriter × Option Hash :=
  if w.closed then (d, w, none)
  else if calls.closes && calls.mkdirs && calls.links then
    (d.link (sha w.hasher) w.file, { w with closed := true }, some (sha w.hasher))
  else (d, { w with closed := true }, none)

end DirCacheWriter

structure CachedFileHandle where
  cacheWrite : Option DirCacheWriter := none
  bytesWritten : Nat := 0
  isWrite : Bool
  cacheOps : Bool
  released : Bool := false
  deriving DecidableEq

namespace CachedFileHandle

def abortCaching (f : CachedFileHandle) : CachedFileHandle :=
  { f with cacheWrite := none, cacheOps := false }

/-- `data` is what `Pread` returns. Nothing stands for the panic of a `Read` that could not make
a temporary file and writes to it. The result of the write is not looked at. -/
def read (f : CachedFileHandle) (off : Nat) (data : Option (List UInt8)) (temp : Bool)
    (kept : Option Nat) : Option CachedFileHandle :=
  match data with
  | none => some f
  | some data =>
    if f.cacheOps && !f.isWrite && off = f.bytesWritten then
      match f.cacheWrite, temp with
      | none, false => none
      | writer, _ =>
        some { f with
          cacheWrite := some ((writer.getD {}).write data kept).1
          bytesWritten := f.bytesWritten + data.length }
    else some f

/-- A write that does not continue the last one ends the copy. -/
def sequential (f : CachedFileHandle) (off : Nat) : CachedFileHandle :=
  if f.cacheOps && off ≠ f.bytesWritten then f.abortCaching else f

def copyData (f : CachedFileHandle) (data : List UInt8) (temp : Bool) (kept : Option Nat) :
    CachedFileHandle :=
  if f.cacheOps && f.isWrite then
    match f.cacheWrite, temp with
    | none, false => f.abortCaching
    | writer, _ =>
      match (writer.getD {}).write data kept with
      | (_, false) => f.abortCaching
      | (w, true) => { f with cacheWrite := some w, bytesWritten := f.bytesWritten + data.length }
  else f

/-- `n` is how many bytes the file took, `none` for a write that fails. -/
def write (f : CachedFileHandle) (data : List UInt8) (off : Nat) (n : Option Nat) (temp : Bool)
    (kept : Option Nat) : CachedFileHandle :=
  match n with
  | none => f.sequential off
  | some n => (f.sequential off).copyData (data.take n) temp kept

/-- `size` is what `Fstat` says of the file, on a handle for reading. -/
def flush (f : CachedFileHandle) (d : CacheDir Hash) (flushes : Bool) (size : Option Nat)
    (calls : CommitCalls) : CacheDir Hash × CachedFileHandle :=
  if flushes then
    match f.cacheWrite with
    | none => (d, f)
    | some writer =>
      if f.cacheOps && f.isWrite then ((writer.commit sha d calls).1, f.abortCaching)
      else if f.cacheOps && f.bytesWritten > 0 then
        if size = some f.bytesWritten then
          let (d, writer, _) := writer.commit sha d calls
          (d, { f with cacheWrite := some writer, cacheOps := false })
        else (d, { f with cacheOps := false })
      else (d, f.abortCaching)
  else (d, f)

def switchToCachedFd (f : CachedFileHandle) : CachedFileHandle :=
  if f.isWrite || f.released then f
  else { f with cacheWrite := f.cacheWrite.map .abort, cacheOps := false }

inductive Op
  | read (off : Nat) (data : Option (List UInt8)) (temp : Bool) (kept : Option Nat)
  | write (data : List UInt8) (off : Nat) (n : Option Nat) (temp : Bool) (kept : Option Nat)
  | lseek
  | flush (flushes : Bool) (size : Option Nat) (calls : CommitCalls)
  | release
  | switchToCachedFd
  deriving DecidableEq

/-- The kernel makes no call on a handle after its release; a fetcher may. -/
def step (f : CachedFileHandle) (d : CacheDir Hash) (op : Op) :
    Option (CacheDir Hash × CachedFileHandle) :=
  if f.released && op ≠ .switchToCachedFd then none
  else
    match op with
    | .read off data temp kept => (f.read off data temp kept).map (d, ·)
    | .write data off n temp kept => some (d, f.write data off n temp kept)
    | .lseek => some (d, f.abortCaching)
    | .flush flushes size calls => some (f.flush sha d flushes size calls)
    | .release => some (d, { f with released := true })
    | .switchToCachedFd => some (d, f.switchToCachedFd)

end CachedFileHandle

/-- Where a fetcher takes the bytes from: the cache sources, then the file server
(`eagerFetchAndCache`, `performEagerFetch`, the prefetch of small files, and the copy that an
`RWFile` makes of what is written to it), or the file itself (`eagerFetchAndCacheSync`). -/
inductive Phase
  | sources | server | loopback | ended
  deriving DecidableEq

structure Fetcher (Hash : Type) where
  phase : Phase
  expected : Option Hash
  writer : DirCacheWriter := {}
  deriving DecidableEq

namespace Fetcher

inductive Op
  | copy (data : List UInt8) (kept : Option Nat)
  /-- The bytes cannot be read, or are not as many as the source said. -/
  | fail
  /-- `opens` is whether the file in the cache can be opened afterwards. -/
  | commit (calls : CommitCalls) (opens : Bool)
  /-- No source is left. -/
  | fallBack
  deriving DecidableEq

def copy (f : Fetcher Hash) (data : List UInt8) (kept : Option Nat) : Fetcher Hash :=
  match f.writer.write data kept with
  | (w, true) => { f with writer := w }
  | (w, false) =>
    match f.phase with
    -- the next source is tried with the writer closed
    | .sources => { f with writer := w.abort }
    | .server => { f with writer := w.abort, phase := .ended }
    -- the temporary file stays behind
    | .loopback | .ended => { f with writer := w, phase := .ended }

def fail (f : Fetcher Hash) : Fetcher Hash :=
  match f.phase with
  | .sources => { f with writer := f.writer.abort }
  | .server => { f with writer := f.writer.abort, phase := .ended }
  | .loopback | .ended => { f with phase := .ended }

def commit (f : Fetcher Hash) (d : CacheDir Hash) (calls : CommitCalls) (opens : Bool) :
    CacheDir Hash × Fetcher Hash :=
  let (d, writer, computed) := f.writer.commit sha d calls
  let hit := computed.isSome && computed = f.expected && opens
  (d, { f with writer, phase := if f.phase = .sources && !hit then .sources else .ended })

def step (f : Fetcher Hash) (d : CacheDir Hash) (op : Op) : Option (CacheDir Hash × Fetcher Hash) :=
  if f.phase = .ended then none
  else
    match op with
    | .copy data kept => some (d, f.copy data kept)
    | .fail => some (d, f.fail)
    | .commit calls opens => some (f.commit sha d calls opens)
    | .fallBack => if f.phase = .sources then some (d, { f with phase := .server }) else none

end Fetcher

structure Caching (Hash : Type) where
  dir : CacheDir Hash
  handles : List CachedFileHandle := []
  fetchers : List (Fetcher Hash) := []

inductive Action (Hash : Type)
  | openFile (isWrite cacheOps : Bool)
  | fetch (phase : Phase) (expected : Option Hash)
  | handle (i : Nat) (op : CachedFileHandle.Op)
  | fetcher (i : Nat) (op : Fetcher.Op)
  | remove (h : Hash)
  deriving DecidableEq

namespace Caching

def step (s : Caching Hash) : Action Hash → Option (Caching Hash)
  | .openFile isWrite cacheOps =>
    some { s with handles := s.handles ++ [{ isWrite, cacheOps }] }
  | .fetch phase expected => some { s with fetchers := s.fetchers ++ [{ phase, expected }] }
  | .handle i op => do
    let (dir, f) ← (← s.handles[i]?).step sha s.dir op
    some { s with dir, handles := s.handles.set i f }
  | .fetcher i op => do
    let (dir, f) ← (← s.fetchers[i]?).step sha s.dir op
    some { s with dir, fetchers := s.fetchers.set i f }
  | .remove h => some { s with dir := fun name => if name = h then none else s.dir name }

/-- A `Read` whose write to the cache fails has left nothing of the data there. -/
def Intact (s : Caching Hash) : Action Hash → Prop
  | .handle i (.read off (some data) _ (some kept)) =>
    ∀ f ∈ s.handles[i]?, f.cacheOps = true → f.isWrite = false → off = f.bytesWritten →
      data.take kept = []
  | _ => True

instance (s : Caching Hash) (act : Action Hash) : Decidable (s.Intact act) := by
  unfold Intact
  split <;> infer_instance

end Caching

def CacheDir.Named (d : CacheDir Hash) : Prop := ∀ h bytes, d h = some bytes → sha bytes = h

def DirCacheWriter.Whole (w : DirCacheWriter) : Prop := w.closed = true ∨ w.file = w.hasher

namespace DirCacheWriter
variable {sha} {w : DirCacheWriter}

lemma Whole.write {kept : Option Nat} (W : w.Whole) (intact : ∀ k, kept = some k → p.take k = []) :
    (w.write p kept).1.Whole := by
  unfold DirCacheWriter.write
  split
  · exact W
  · next opened =>
    have same := W.resolve_left opened
    split
    · next k => exact .inr (by simp [same, intact k rfl])
    · exact .inr (by simp [same])

lemma commit_coarse (c : DirectoryCacheManager sha) (opened : w.closed = false)
    (same : w.file = w.hasher) : (w.commit sha c.files {}).1 = (c.commit ⟨w.file⟩).1.files ∧
      (w.commit sha c.files {}).2.2 = some (c.commit ⟨w.file⟩).2 := by
  unfold commit
  rw [if_neg (by simp [opened]), ← same]
  exact ⟨rfl, rfl⟩

lemma Whole.write_ok {kept : Option Nat} (W : w.Whole) (done : (w.write p kept).2 = true) :
    (w.write p kept).1.Whole := by
  cases kept with
  | none => exact W.write nofun
  | some k =>
    unfold DirCacheWriter.write at done
    split at done <;> cases done

lemma commit_cases (w : DirCacheWriter) (d : CacheDir Hash) (calls : CommitCalls) :
    (w.commit sha d calls).2.1.closed = true ∧ ((w.commit sha d calls).1 = d ∨
        w.closed = false ∧ (w.commit sha d calls).1 = d.link (sha w.hasher) w.file) := by
  unfold commit
  split
  · next closed => exact ⟨closed, .inl rfl⟩
  · next opened =>
    split
    · exact ⟨rfl, .inr ⟨by simpa using opened, rfl⟩⟩
    · exact ⟨rfl, .inl rfl⟩

lemma Whole.commit (W : w.Whole) (named : d.Named sha) (calls : CommitCalls) :
    (w.commit sha d calls).1.Named sha := by
  obtain ⟨-, same | ⟨opened, linked⟩⟩ := @commit_cases _ _ sha w d calls
  · rw [same]
    exact named
  · rw [linked]
    intro h bytes found
    unfold CacheDir.link at found
    split at found
    · next fresh =>
      cases found
      rw [W.resolve_left (by simp [opened]), fresh.1]
    · exact named h bytes found

end DirCacheWriter

namespace CachedFileHandle
variable {sha} {f g : CachedFileHandle} {d e : CacheDir Hash}

def Copies (f : CachedFileHandle) : Prop := ∀ w, f.cacheWrite = some w → w.Whole

lemma Copies.getD (C : f.Copies) : (f.cacheWrite.getD {}).Whole := by
  cases made : f.cacheWrite with
  | none => exact .inr rfl
  | some w => exact C w made

lemma copies_abortCaching (f : CachedFileHandle) : f.abortCaching.Copies := nofun

lemma Copies.read {data : Option (List UInt8)} {kept : Option Nat} (C : f.Copies) (intact : ∀ p k,
      data = some p → kept = some k → f.cacheOps = true → f.isWrite = false → off = f.bytesWritten →
      p.take k = []) (taken : f.read off data temp kept = some g) : g.Copies := by
  unfold CachedFileHandle.read at taken
  split at taken
  · cases taken
    exact C
  · next p =>
    split at taken
    · next copying =>
      simp only [Bool.and_eq_true, Bool.not_eq_true', decide_eq_true_eq] at copying
      obtain ⟨⟨ops, reads⟩, next⟩ := copying
      split at taken
      · cases taken
      · cases taken
        intro w made
        cases made
        exact C.getD.write fun k failed => intact p k rfl failed ops reads next
    · cases taken
      exact C

lemma Copies.sequential (C : f.Copies) (off : Nat) : (f.sequential off).Copies := by
  unfold CachedFileHandle.sequential
  split
  · exact copies_abortCaching f
  · exact C

lemma Copies.copyData (C : f.Copies) (data : List UInt8) (temp : Bool) (kept : Option Nat) :
    (f.copyData data temp kept).Copies := by
  unfold CachedFileHandle.copyData
  split
  · split
    · exact copies_abortCaching f
    · split
      · exact copies_abortCaching f
      · next done =>
        intro w made
        cases made
        have W := C.getD.write_ok (congrArg Prod.snd done)
        rwa [done] at W
  · exact C

lemma Copies.write (C : f.Copies) (data : List UInt8) (off : Nat) (n : Option Nat) (temp : Bool)
    (kept : Option Nat) : (f.write data off n temp kept).Copies := by
  unfold CachedFileHandle.write
  split
  · exact C.sequential off
  · exact (C.sequential off).copyData _ temp kept

def coarse (f : CachedFileHandle) : SandboxFs.CachedFileHandle where
  cacheWrite := f.cacheWrite.map fun w => ⟨w.file⟩
  bytesWritten := f.bytesWritten
  isWrite := f.isWrite
  cacheOps := f.cacheOps

lemma coarse_sequential (f : CachedFileHandle) (off : Nat) :
    (f.sequential off).coarse = f.coarse.sequential off := by
  unfold CachedFileHandle.sequential SandboxFs.CachedFileHandle.sequential
  by_cases apart : (f.cacheOps && off ≠ f.bytesWritten) = true
  · rw [if_pos apart]
    exact (if_pos apart).symm
  · rw [if_neg apart]
    exact (if_neg apart).symm

lemma coarse_copyData (opened : ∀ w, f.cacheWrite = some w → w.closed = false)
    (data : List UInt8) (temp : Bool) (kept : Option Nat) :
    (f.copyData data temp kept).coarse = f.coarse.copyData data temp kept.isNone := by
  unfold CachedFileHandle.copyData SandboxFs.CachedFileHandle.copyData
  by_cases copying : (f.cacheOps && f.isWrite) = true
  · rw [if_pos copying, if_pos (show (f.coarse.cacheOps && f.coarse.isWrite) = true from copying)]
    cases made : f.cacheWrite with
    | none =>
      cases temp <;> cases kept <;> simp [coarse, made, DirCacheWriter.write, abortCaching,
        SandboxFs.CachedFileHandle.abortCaching, CacheWriter.write]
    | some w =>
      cases kept <;> simp [coarse, made, DirCacheWriter.write, opened w made, abortCaching,
        SandboxFs.CachedFileHandle.abortCaching, CacheWriter.write]
  · rw [if_neg copying]
    exact (if_neg copying).symm

lemma Copies.flush (C : f.Copies) (named : d.Named sha) (flushes : Bool) (size : Option Nat)
    (calls : CommitCalls) : (f.flush sha d flushes size calls).1.Named sha ∧
      (f.flush sha d flushes size calls).2.Copies := by
  unfold CachedFileHandle.flush
  split
  · split
    · exact ⟨named, C⟩
    · next writer made =>
      have W := C writer made
      split
      · exact ⟨W.commit named calls, copies_abortCaching f⟩
      · split
        · split
          · refine ⟨W.commit named calls, fun w kept => ?_⟩
            cases kept
            exact .inl (writer.commit_cases d calls).1
          · exact ⟨named, C⟩
        · exact ⟨named, copies_abortCaching f⟩
  · exact ⟨named, C⟩

lemma Copies.switchToCachedFd (C : f.Copies) : f.switchToCachedFd.Copies := by
  unfold CachedFileHandle.switchToCachedFd
  split
  · exact C
  · intro w made
    obtain ⟨old, -, rfl⟩ := Option.map_eq_some_iff.mp made
    exact .inl rfl

lemma Copies.step (C : f.Copies) (named : d.Named sha) (intact : ∀ off p temp k, op = .read off
      (some p) temp (some k) → f.cacheOps = true → f.isWrite = false → off = f.bytesWritten → p.take
      k = []) (taken : f.step sha d op = some (e, g)) : e.Named sha ∧ g.Copies := by
  unfold CachedFileHandle.step at taken
  split at taken
  · cases taken
  · cases op with
    | read off data temp kept =>
      obtain ⟨f', read, same⟩ := Option.map_eq_some_iff.mp taken
      cases same
      refine ⟨named, C.read (fun p k isData failed => ?_) read⟩
      exact intact off p temp k (by rw [isData, failed])
    | write data off n temp kept =>
      cases taken
      exact ⟨named, C.write data off n temp kept⟩
    | lseek =>
      cases taken
      exact ⟨named, copies_abortCaching f⟩
    | flush flushes size calls =>
      obtain ⟨rfl, rfl⟩ := Prod.mk.inj (Option.some.inj taken)
      exact C.flush named flushes size calls
    | release =>
      cases taken
      exact ⟨named, C⟩
    | switchToCachedFd =>
      cases taken
      exact ⟨named, C.switchToCachedFd⟩

end CachedFileHandle

namespace Fetcher
variable {sha} {f g : Fetcher Hash} {d e : CacheDir Hash}

def Copies (f : Fetcher Hash) : Prop := f.phase ≠ .ended → f.writer.Whole

omit [DecidableEq Hash] in
lemma Copies.copy (C : f.Copies) (running : f.phase ≠ .ended) (data : List UInt8)
    (kept : Option Nat) : (f.copy data kept).Copies := by
  unfold Fetcher.copy
  split
  · next done =>
    intro _
    have W := (C running).write_ok (congrArg Prod.snd done)
    rwa [done] at W
  · cases f.phase with
    | sources => exact fun _ => .inl rfl
    | server => exact fun ended => absurd rfl ended
    | loopback => exact fun ended => absurd rfl ended
    | ended => exact fun ended => absurd rfl ended

lemma Copies.step (C : f.Copies) (named : d.Named sha) (taken : f.step sha d op = some (e, g)) :
    e.Named sha ∧ g.Copies := by
  unfold Fetcher.step at taken
  split at taken
  · cases taken
  · next running =>
    cases op with
    | copy data kept =>
      cases taken
      exact ⟨named, C.copy running data kept⟩
    | fail =>
      cases taken
      refine ⟨named, ?_⟩
      unfold fail
      cases phase : f.phase with
      | sources => exact fun _ => .inl rfl
      | server => exact fun ended => absurd rfl ended
      | loopback => exact fun ended => absurd rfl ended
      | ended => exact absurd phase running
    | commit calls opens =>
      obtain ⟨rfl, rfl⟩ := Prod.mk.inj (Option.some.inj taken)
      exact ⟨(C running).commit named calls, fun _ => .inl (f.writer.commit_cases d calls).1⟩
    | fallBack =>
      simp only at taken
      split at taken <;> cases taken
      exact ⟨named, fun _ => C running⟩

end Fetcher

namespace Caching
variable {sha} {s t : Caching Hash}

structure Sound (sha : List UInt8 → Hash) (s : Caching Hash) : Prop where
  named : s.dir.Named sha
  handles : ∀ f ∈ s.handles, f.Copies
  fetchers : ∀ f ∈ s.fetchers, f.Copies

lemma Sound.step (S : s.Sound sha) (intact : s.Intact act) (taken : s.step sha act = some t) :
    t.Sound sha := by
  cases act with
  | openFile isWrite cacheOps =>
    cases taken
    refine ⟨S.named, fun f mem => ?_, S.fetchers⟩
    rcases List.mem_append.mp mem with old | new
    · exact S.handles f old
    · rw [List.mem_singleton.mp new]
      exact nofun
  | fetch phase expected =>
    cases taken
    refine ⟨S.named, S.handles, fun f mem => ?_⟩
    rcases List.mem_append.mp mem with old | new
    · exact S.fetchers f old
    · rw [List.mem_singleton.mp new]
      exact fun _ => .inr rfl
  | handle i op =>
    obtain ⟨f, found, taken⟩ := Option.bind_eq_some_iff.mp taken
    obtain ⟨⟨d, g⟩, stepped, taken⟩ := Option.bind_eq_some_iff.mp taken
    cases taken
    obtain ⟨named, copies⟩ := (S.handles f (List.mem_of_getElem? found)).step S.named
      (fun off p temp k is => by subst is; exact intact f found) stepped
    refine ⟨named, fun x mem => ?_, S.fetchers⟩
    rcases List.mem_or_eq_of_mem_set mem with old | rfl
    · exact S.handles x old
    · exact copies
  | fetcher i op =>
    obtain ⟨f, found, taken⟩ := Option.bind_eq_some_iff.mp taken
    obtain ⟨⟨d, g⟩, stepped, taken⟩ := Option.bind_eq_some_iff.mp taken
    cases taken
    obtain ⟨named, copies⟩ := (S.fetchers f (List.mem_of_getElem? found)).step S.named stepped
    refine ⟨named, S.handles, fun x mem => ?_⟩
    rcases List.mem_or_eq_of_mem_set mem with old | rfl
    · exact S.fetchers x old
    · exact copies
  | remove h =>
    cases taken
    refine ⟨fun name bytes found => ?_, S.handles, S.fetchers⟩
    simp only at found
    split at found
    · cases found
    · exact S.named name bytes found

/-- Every file of the cache has the hash that is its name, while no `Read` leaves part of its data
in the cache by a write that fails. -/
theorem cache_named {dir : CacheDir Hash} (named : ∀ h bytes, dir h = some bytes → sha bytes = h)
    (reached : Reachable (step sha) Intact { dir } s) :
    ∀ h bytes, s.dir h = some bytes → sha bytes = h := by
  have start : Sound sha { dir } := ⟨named, by simp, by simp⟩
  exact (reached.invariant start fun _ _ _ S intact taken => S.step intact taken).named

theorem cache_named_copied :
    ∃ s, Reachable (step id) Intact { dir := fun _ => none } s ∧ s.dir [97, 98] = some [97, 98] ∧
      ∀ h bytes, s.dir h = some bytes → id bytes = h := by
  obtain ⟨s, reached, found⟩ := Lib.exists_of_run (step id) Intact
    { dir := fun _ => none }
    [.openFile false true, .openFile true true, .fetch .loopback none,
      .handle 0 (.read 0 (some [97]) true none), .handle 1 (.write [99] 0 (some 1) true (some 0)),
      .fetcher 0 (.copy [99, 99] (some 1)), .handle 0 (.read 1 (some [98]) true none),
      .handle 0 (.flush true (some 2) {}), .handle 1 (.flush true none {})]
    (fun s => s.dir [97, 98] = some [97, 98]) ⟨_, rfl, rfl⟩
  exact ⟨s, reached, found, cache_named (by simp) reached⟩

/-- A file of four bytes is read in one go and the disk of the cache is full after two of them:
they are found under the hash of nothing. -/
theorem cache_misnamed : ∃ s, Reachable (step id) Any { dir := fun _ => none } s ∧
      s.dir [] = some [97, 98] ∧ id [97, 98] ≠ ([] : List UInt8) :=
  Lib.exists_of_run (step id) Any { dir := fun _ => none }
    [.openFile false true, .handle 0 (.read 0 (some [97, 98, 99, 100]) true (some 2)),
      .handle 0 (.flush true (some 4) {})] _ (by decide)

end Caching

end Velda.SandboxFs.OnDisk
