import Velda.Lib.Run
import Velda.SandboxFs.Cache

/-! The keys of files in `cached_loopback.go` and `cache_backfill.go`. `Setattr` moves a key
along when it sets the mtime. The background jobs look a file up by its path to stat, open and
label it, while others change the file or put another one under the path. -/
namespace Velda.SandboxFs
open Lib (Reachable Any)

variable {Hash : Type} (sha : List UInt8 → Hash)

def File.SoundKey (f : File Hash) : Prop := ∀ k, f.validKey = some k → k.sha256 = sha f.content

instance [DecidableEq Hash] (f : File Hash) : Decidable (f.SoundKey sha) :=
  decidable_of_iff (∀ k ∈ f.validKey, k.sha256 = sha f.content) Iff.rfl

variable {sha}

lemma File.SoundKey.of_key {f g : File Hash} (sound : f.SoundKey sha) (key : g.key = f.key)
    (same : ∀ k ∈ f.key, k.mtime = g.mtime → k.size = g.content.length →
      k.mtime = f.mtime ∧ g.content = f.content ∨ k.sha256 = sha g.content) : g.SoundKey sha := by
  intro k valid
  obtain ⟨stored, mtime, size⟩ := File.validKey_eq_some.mp valid
  rw [key] at stored
  rcases same k stored mtime size with ⟨still, content⟩ | hash
  · rw [content] at size ⊢
    exact sound k (File.validKey_eq_some.mpr ⟨stored, still, size⟩)
  · exact hash

/-- The attributes a `Setattr` is to change; mode and owner do not matter here. -/
structure SetAttrIn where
  size : Option Nat := none
  mtime : Option Nat := none
  deriving DecidableEq

/-- `LoopbackNode.Setattr`: first the times, then the size. -/
def File.setattr (f : File Hash) (input : SetAttrIn) (now : Nat) : File Hash :=
  let f := { f with mtime := input.mtime.getD f.mtime }
  match input.size with
  | some size => f.ftruncate size now
  | none => f

/-- Which of the calls that `Setattr` makes succeed. -/
structure SetattrCalls where
  getattr : Bool := true
  setattr : Bool := true
  setsXattr : Bool := true
  deriving DecidableEq

namespace CachedLoopbackNode

/-- `opened` is whether the call comes with a file handle that has a `Setattr`. -/
def setattr (f : File Hash) (opened : Bool) (input : SetAttrIn) (calls : SetattrCalls) (now : Nat) :
    File Hash :=
  if !opened && input.mtime.isSome && input.size.isNone then
    if calls.getattr && calls.setattr then
      let g := f.setattr input now
      match f.validKey, calls.setsXattr with
      | some k, true => { g with key := some { k with mtime := g.mtime } }
      | _, _ => g
    else f
  else if calls.setattr then f.setattr input now
  else f

inductive Action
  | write (off : Nat) (data : List UInt8) (now : Nat)
  | setattr (opened : Bool) (input : SetAttrIn) (calls : SetattrCalls) (now : Nat)
  deriving DecidableEq

def step (f : File Hash) : Action → Option (File Hash)
  | .write off data now => some (f.pwrite off data now)
  | .setattr opened input calls now => some (setattr f opened input calls now)

def Action.plain (f : File Hash) : Action → File Hash
  | .write off data now => f.pwrite off data now
  | .setattr _ input _ now => f.setattr input now

variable (sha) in
/-- The file gets the mtime of its key only if it has it already and keeps its content, or if
the hash is the right one. -/
def Unrevived (f : File Hash) (act : Action) : Prop :=
  ∀ k ∈ f.key, k.mtime = (act.plain f).mtime →
    k.mtime = f.mtime ∧ (act.plain f).content = f.content ∨ k.sha256 = sha (act.plain f).content

instance [DecidableEq Hash] (f : File Hash) (act : Action) : Decidable (Unrevived sha f act) := by
  unfold Unrevived
  infer_instance

lemma soundKey_step {f g : File Hash} (sound : f.SoundKey sha) (unrevived : Unrevived sha f act)
    (taken : step f act = some g) : g.SoundKey sha := by
  have plain : (act.plain f).key = f.key → (act.plain f).SoundKey sha := fun key =>
    sound.of_key key fun k stored mtime _ => unrevived k stored mtime
  cases act with
  | write off data now =>
    cases taken
    exact plain (f.key_pwrite off data now)
  | setattr opened input calls now =>
    cases taken
    have plain := plain (by cases input with | mk size _ => cases size <;> rfl)
    unfold setattr
    split
    · next updates =>
      split
      · split
        · next k valid _ =>
          have keeps : (f.setattr input now).content = f.content := by
            simp only [Bool.and_eq_true, Option.isNone_iff_eq_none] at updates
            simp [File.setattr, updates.2]
          intro k' valid'
          obtain ⟨stored, -⟩ := File.validKey_eq_some.mp valid'
          cases stored
          simpa [keeps] using sound k valid
        · exact plain
      · exact sound
    · split
      · exact plain
      · exact sound

def labelled : File (List UInt8) := ⟨[97], 0, some ⟨[97], 0, 1⟩⟩

end CachedLoopbackNode

/-- Where a job is: about to compare the key with what it has noted, to open the file, in the
middle of reading it, or about to store a key, which `processEagerFetch` does twice. -/
inductive Phase (Hash : Type)
  | checking
  | opening
  | reading (fd : Nat) (data : List UInt8)
  | setting (sha256 : Hash) (again : Bool)
  deriving DecidableEq

/-- A run of `processEagerFetch` or, if not `eager`, of `backfillCacheKeyForFile`, with the mtime
and the size that `stat` gave. -/
structure Job (Hash : Type) where
  eager : Bool
  skipIfNoKey : Bool
  mtime : Nat
  size : Nat
  phase : Phase Hash
  deriving DecidableEq

/-- The files, the one under the path, and the contents that stood there with their mtimes. -/
structure Hashing (Hash : Type) where
  files : Nat → File Hash
  path : Nat
  stood : List (Nat × List UInt8)
  jobs : List (Job Hash)

namespace Hashing

inductive Action
  | change (content : List UInt8) (mtime : Nat)
  | rename (i : Nat)
  | begin (eager skipIfNoKey : Bool)
  | advance (i : Nat) (succeeds : Bool) (n : Nat)
  deriving DecidableEq

def file (s : Hashing Hash) : File Hash := s.files s.path

def put (s : Hashing Hash) (f : File Hash) : Hashing Hash :=
  { s with files := Function.update s.files s.path f }

def note (s : Hashing Hash) : Hashing Hash :=
  { s with stood := (s.file.mtime, s.file.content) :: s.stood }

def label (s : Hashing Hash) (j : Job Hash) (sha256 : Hash) : Hashing Hash :=
  s.put { s.file with key := some ⟨sha256, j.mtime, j.size⟩ }

variable (sha) in
/-- The next phase of a job, if there is one. A read asks for `n + 1` bytes. -/
def phase (s : Hashing Hash) (j : Job Hash) (succeeds : Bool) (n : Nat) : Option (Phase Hash) :=
  match j.phase with
  | .checking =>
    match s.file.key.filter fun k => k.mtime = j.mtime && k.size = j.size with
    | some k =>
      if !j.eager then none
      else if succeeds then some (.setting k.sha256 false)
      else if j.skipIfNoKey then none else some .opening
    | none => if j.eager && j.skipIfNoKey then none else some .opening
  | .opening => if succeeds then some (.reading s.path []) else none
  | .reading fd data =>
    let chunk := ((s.files fd).content.drop data.length).take (n + 1)
    if !succeeds then none
    else if chunk = [] then some (.setting (sha data) j.eager)
    else some (.reading fd (data ++ chunk))
  | .setting sha256 again => if again then some (.setting sha256 false) else none

variable (sha) in
def step (s : Hashing Hash) : Action → Option (Hashing Hash)
  | .change content mtime => some (s.put { s.file with content := content, mtime := mtime }).note
  | .rename i => some { s with path := i }.note
  | .begin eager skipIfNoKey =>
    some { s with
      jobs := ⟨eager, skipIfNoKey, s.file.mtime, s.file.content.length, .checking⟩ :: s.jobs }
  | .advance i succeeds n => do
    let j ← s.jobs[i]?
    let jobs := match s.phase sha j succeeds n with
      | some phase => s.jobs.set i { j with phase := phase }
      | none => s.jobs.eraseIdx i
    match j.phase, succeeds with
    | .setting sha256 _, true => some { s.label j sha256 with jobs := jobs }
    | _, _ => some { s with jobs := jobs }

/-- No two contents stand under the path with one mtime. -/
def Dated (s : Hashing Hash) : Action → Prop
  | .change content mtime => ∀ p ∈ s.stood, p.1 = mtime → p.2 = content
  | .rename i => ∀ p ∈ s.stood, p.1 = (s.files i).mtime → p.2 = (s.files i).content
  | _ => True

/-- What comes under the path has an mtime that nothing there had before. -/
def Fresh (s : Hashing Hash) : Action → Prop
  | .change _ mtime => (∀ p ∈ s.stood, p.1 ≠ mtime) ∧ ∀ k ∈ s.file.key, k.mtime ≠ mtime
  | .rename i => ∀ p ∈ s.stood, p.1 ≠ (s.files i).mtime
  | _ => True

instance (s : Hashing Hash) (act : Action) : Decidable (s.Dated act) := by
  induction act using Action.casesOn <;> unfold Dated <;> infer_instance

instance (s : Hashing Hash) (act : Action) : Decidable (s.Fresh act) := by
  induction act using Action.casesOn <;> unfold Fresh <;> infer_instance

def initial (files : Nat → File Hash) (path : Nat) : Hashing Hash :=
  note { files := files, path := path, stood := [], jobs := [] }

variable (sha) in
def Agrees (s : Hashing Hash) (j : Job Hash) : Prop :=
  j.size = s.file.content.length ∧
    match j.phase with
    | .reading fd data => fd = s.path ∧ data <+: s.file.content
    | .setting sha256 _ => sha256 = sha s.file.content
    | _ => True

variable (sha) in
/-- A job whose mtime stands under the path has seen nothing else. -/
structure Sound (s : Hashing Hash) : Prop where
  keys : ∀ i, (s.files i).SoundKey sha
  now : ∃ p ∈ s.stood, p.1 = s.file.mtime
  jobs : ∀ j ∈ s.jobs, (∃ p ∈ s.stood, p.1 = j.mtime) ∧ (s.file.mtime = j.mtime → s.Agrees sha j)

variable {s t : Hashing Hash}

lemma keys_put (keys : ∀ i, (s.files i).SoundKey sha) (sound : f.SoundKey sha) :
    ∀ i, ((s.put f).files i).SoundKey sha := by
  intro i
  by_cases here : i = s.path
  · simpa [put, here] using sound
  · simpa [put, Function.update_of_ne here] using keys i

lemma Sound.note (S : s.Sound sha) (keys : ∀ i, (t.files i).SoundKey sha)
    (stood : t.stood = s.stood) (jobs : t.jobs = s.jobs)
    (fresh : ∀ p ∈ s.stood, p.1 ≠ t.file.mtime) : t.note.Sound sha where
  keys := keys
  now := ⟨_, List.mem_cons_self, rfl⟩
  jobs j mem := by
    obtain ⟨⟨p, noted, same⟩, -⟩ := S.jobs j (jobs ▸ mem)
    exact ⟨⟨p, List.mem_cons_of_mem _ (stood ▸ noted), same⟩,
      fun now => absurd (same.trans now.symm) (fresh p noted)⟩

lemma Sound.phase (S : s.Sound sha) (agrees : s.Agrees sha j) (now : s.file.mtime = j.mtime)
    {succeeds : Bool} {phase : Phase Hash} (goes : s.phase sha j succeeds n = some phase) :
    s.Agrees sha { j with phase := phase } := by
  obtain ⟨size, seen⟩ := agrees
  refine ⟨size, ?_⟩
  unfold Hashing.phase at goes
  cases at_ : j.phase with
  | checking =>
    simp only [at_] at goes
    split at goes
    · next k found =>
      have valid : s.file.validKey = some k := by
        simpa only [File.validKey, now, ← size] using found
      have hash : k.sha256 = sha s.file.content := S.keys s.path k valid
      grind
    · grind
  | opening =>
    simp only [at_] at goes
    split at goes <;> cases goes
    exact ⟨rfl, List.nil_prefix⟩
  | reading fd data =>
    simp only [at_] at goes seen
    obtain ⟨rfl, rest, whole⟩ := seen
    have left : (s.files s.path).content.drop data.length = rest := by
      simp [show (s.files s.path).content = _ from whole.symm]
    rw [left] at goes
    split at goes
    · cases goes
    · split at goes
      · next ends =>
        cases goes
        obtain rfl : rest = [] := by simpa using ends
        simpa using congrArg sha whole
      · cases goes
        refine ⟨rfl, ?_⟩
        rw [← whole]
        exact (List.prefix_append_right_inj _).mpr (List.take_prefix _ _)
  | setting sha256 again =>
    simp only [at_] at goes seen
    split at goes <;> cases goes
    exact seen

lemma Sound.step {act : Action} (S : s.Sound sha) (fresh : s.Fresh act)
    (taken : s.step sha act = some t) : t.Sound sha := by
  cases act with
  | change content mtime =>
    cases taken
    refine S.note (keys_put S.keys ((S.keys s.path).of_key rfl ?_)) rfl rfl ?_
    · exact fun k stored same _ => absurd same (fresh.2 k stored)
    · simpa [put, file] using fresh.1
  | rename i =>
    cases taken
    exact S.note S.keys rfl rfl fresh
  | begin eager skipIfNoKey =>
    cases taken
    exact ⟨S.keys, S.now, List.forall_mem_cons.mpr ⟨⟨S.now, fun _ => ⟨rfl, trivial⟩⟩, S.jobs⟩⟩
  | advance i succeeds n =>
    obtain ⟨j, found, taken⟩ := Option.bind_eq_some_iff.mp taken
    obtain ⟨noted, agrees⟩ := S.jobs j (List.mem_of_getElem? found)
    generalize next : (match s.phase sha j succeeds n with
      | some phase => s.jobs.set i { j with phase := phase }
      | none => s.jobs.eraseIdx i) = jobs at taken
    have still : ∀ j' ∈ jobs, (∃ p ∈ s.stood, p.1 = j'.mtime) ∧
        (s.file.mtime = j'.mtime → s.Agrees sha j') := by
      subst next
      intro j' mem
      split at mem
      · next goes =>
        rcases List.mem_or_eq_of_mem_set mem with old | rfl
        · exact S.jobs j' old
        · exact ⟨noted, fun now => S.phase (agrees now) now goes⟩
      · exact S.jobs j' (List.mem_of_mem_eraseIdx mem)
    split at taken
    · next setting _ =>
      cases taken
      refine ⟨keys_put S.keys fun k valid => ?_, ?_, ?_⟩
      · obtain ⟨stored, mtime, -⟩ := File.validKey_eq_some.mp valid
        cases stored
        have seen := (agrees mtime.symm).2
        rwa [setting] at seen
      · simpa [file, label, put] using S.now
      · simpa [Agrees, file, label, put] using still
    · cases taken
      exact ⟨S.keys, S.now, still⟩

/-- Every key stays sound, whatever the jobs have seen. -/
theorem keys_sound {files : Nat → File Hash} (path : Nat) (sound : ∀ i, (files i).SoundKey sha)
    (run : Reachable (step sha) Fresh (initial files path) s) (i : Nat) :
    (s.files i).SoundKey sha :=
  (run.invariant (I := Sound sha)
    ⟨sound, ⟨_, List.mem_cons_self, rfl⟩, by simp [initial, note]⟩
    fun _ _ _ S fresh taken => S.step fresh taken).keys i

def one : Nat → File (List UInt8) := fun _ => ⟨[97], 0, none⟩

theorem keys_sound_labelled : ∃ s, Reachable (step id) Fresh (initial one 0) s ∧
    s.file.validKey = some ⟨[97], 0, 1⟩ ∧ s.file.SoundKey id := by
  obtain ⟨s, run, valid⟩ := Lib.exists_of_run (step id) Fresh (initial one 0)
    [.begin false false, .advance 0 true 0, .advance 0 true 0, .advance 0 true 0,
      .advance 0 true 0, .advance 0 true 0]
    (fun s => s.file.validKey = some ⟨[97], 0, 1⟩) (by decide)
  exact ⟨s, run, valid, keys_sound 0 (by simp [one, File.SoundKey, File.validKey]) run s.path⟩

/-- While a job reads, another file stands under the path and gives way again. -/
theorem keys_sound_renamed :
    ∃ s, Reachable (step id) Dated (initial (fun i => ⟨[i.toUInt8], i, none⟩) 0) s ∧
      s.file.content = [0] ∧ s.file.validKey = some ⟨[1], 0, 1⟩ :=
  Lib.exists_of_run _ _ _
    [.begin false false, .advance 0 true 0, .rename 1, .advance 0 true 0, .advance 0 true 0,
      .advance 0 true 0, .rename 0, .advance 0 true 0] _ (by decide)

end Hashing

end Velda.SandboxFs
