import Velda.Jobs.Requests
import Velda.Posix.Lexical

/-! What the agent mounts for a session, after `mounter.go`: the current disk, or an overlay of a
snapshot with the writable directories of the current disk bound over it. The session of a
job has the whole disk whenever the name of the snapshot was lost on the way to it, and also
when one of its directories is another spelling of the root. Nothing checks the directories on their
way: one that goes above where it starts binds something else than a part of the disk. -/
namespace Velda.Jobs
open Posix List

structure Bind where
  source : List Name
  target : List Name
  deriving DecidableEq

/-- What is at the workspace after a `Mount` without error. -/
inductive Mounted
  | current
  | overlay (binds : List Bind)
  deriving DecidableEq

section
variable (agentDir : List Name)

def workspaceDir : List Name := agentDir ++ ["workspace".toList]

def curDir : List Name := agentDir ++ ["mount".toList, "cur".toList]

/-- The entries of `WritableDirs` that bind nothing. -/
def sentinels : List Name := [['/'], "/dev/null".toList]

def bindWritableDirs (dirs : List Name) : List Bind :=
  (dirs.filter (· ∉ sentinels)).map fun dir =>
    ⟨follow (curDir agentDir) (components dir), follow (workspaceDir agentDir) (components dir)⟩

inductive MountCall
  | mkdirAll (base path : List Name)
  | mount (b : Bind)

/-- The calls of `bindWritableDirs` in their order. A run makes them up to the first that fails. -/
def mountCalls (dirs : List Name) : List MountCall :=
  (bindWritableDirs agentDir dirs).flatMap fun b =>
    [.mkdirAll (curDir agentDir) b.source, .mkdirAll (workspaceDir agentDir) b.target, .mount b]

/-- What a call makes or binds is inside the disk and the workspace; the directories on the way to
these two are there before. -/
def MountCall.Inside : MountCall → Prop
  | .mkdirAll base path => ∀ dir, dir <+: path → dir <+: base ∨ base <+: dir
  | .mount b => curDir agentDir <+: b.source ∧ workspaceDir agentDir <+: b.target

def mount (session : SessionRequest) : Mounted :=
  if session.snapshotName ≠ [] then .overlay (bindWritableDirs agentDir session.writableDirs)
  else .current

def Mounted.Writable (file : List Name) : Mounted → Prop
  | .current => True
  | .overlay binds =>
    ∃ b ∈ binds, workspaceDir agentDir <+: b.target ∧ b.source <+: curDir agentDir ++ file

/-- The session of a request has the snapshot and the directories of its job, and of the current
disk it can write what is in these directories and not everything. -/
structure Isolated (req : SessionRequest) (calls : Calls) (session : SessionRequest) : Prop where
  snapshot : session.snapshotName = (req.withSnapshot false calls).snapshotName
  named : session.snapshotName ≠ []
  dirs : session.writableDirs = req.writableDirs
  listed : ∀ file, (mount agentDir session).Writable agentDir file →
    ∃ dir ∈ req.writableDirs, locate dir <+: file
  partly : ¬ ∀ file, (mount agentDir session).Writable agentDir file

def SpellsRoot (dir : Name) : Prop := descend [] (components dir) = some []

instance (dir : Name) : Decidable (SpellsRoot dir) := inferInstanceAs (Decidable (_ = _))

variable {agentDir}

lemma not_workspace_and_disk {dir file : List Name} (work : workspaceDir agentDir <+: dir) :
    ¬ dir <+: curDir agentDir ++ file := by
  intro disk
  have both := work.trans disk
  rw [workspaceDir, curDir, append_assoc, prefix_append_right_inj] at both
  simp at both

/-- Two directories, one of which has a name more above the rest, and this name is on the way to the
disk: they are not at once one in the workspace and one that leads to the disk. -/
lemma not_both_of_step {above rest file : List Name} {name : Name}
    (step : above ++ [name] <+: agentDir ++ ["mount".toList])
    (work : workspaceDir agentDir <+: above ++ rest) :
    ¬ above ++ name :: rest <+: curDir agentDir ++ file := by
  have short : above.length ≤ agentDir.length := by simpa using step.length_le
  obtain ⟨inside, same⟩ := work
  -- The name `workspace` is in the rest, so it comes one place later in the longer directory,
  -- where the disk has the name `cur`.
  have here : rest[agentDir.length - above.length]? = some "workspace".toList := by
    rw [← List.getElem?_append_right short, ← same]
    simp [workspaceDir]
  have within : agentDir.length - above.length < rest.length :=
    (List.getElem?_eq_some_iff.mp here).1
  rintro ⟨after, disk⟩
  have there := congrArg (·[agentDir.length + 1]?) disk
  have later : agentDir.length + 1 - above.length = agentDir.length - above.length + 1 := by omega
  simp only [curDir, append_assoc, cons_append] at there
  rw [List.getElem?_append_right (by omega), later, List.getElem?_cons_succ,
    List.getElem?_append_left within, here] at there
  simp at there

lemma not_both {above rest file : List Name} {name : Name} {path : List Name}
    (step : above ++ [name] <+: agentDir ++ ["mount".toList])
    (work : workspaceDir agentDir <+: follow (above ++ rest) path) :
    ¬ follow (above ++ name :: rest) path <+: curDir agentDir ++ file := by
  induction path generalizing above rest name with
  | nil => exact not_both_of_step step work
  | cons first path ih =>
    rw [follow] at work ⊢
    split at work
    · next here =>
      rw [if_pos here]
      exact ih step work
    · next other =>
      rw [if_neg other]
      split at work
      · next up =>
        rw [if_pos up, dropLast_append_of_ne_nil (cons_ne_nil _ _)]
        rcases eq_nil_or_concat rest with rfl | ⟨rest, last, rfl⟩
        · rw [append_nil] at work
          -- Both go above the rest, and the shorter one is at the root already or a name behind.
          rcases eq_nil_or_concat above with rfl | ⟨above, second, rfl⟩
          · exact not_workspace_and_disk work
          · rw [concat_eq_append, dropLast_concat] at work
            have before : above ++ [second] <+: agentDir ++ ["mount".toList] := by
              refine List.IsPrefix.trans ?_ step
              rw [concat_eq_append]
              exact prefix_append _ _
            have shown := @ih above [] second before (by rwa [append_nil])
            simpa using shown
        · rw [concat_eq_append] at work ⊢
          rw [← append_assoc, dropLast_concat] at work
          rw [← cons_append, dropLast_concat]
          exact ih step work
      · next down =>
        rw [if_neg down, append_assoc, cons_append]
        rw [append_assoc] at work
        exact ih step work

lemma not_both_of_climbs {file : List Name} {dir : Name}
    (climbs : descend [] (components dir) = none)
    (work : workspaceDir agentDir <+: follow (workspaceDir agentDir) (components dir)) :
    ¬ follow (curDir agentDir) (components dir) <+: curDir agentDir ++ file := by
  obtain ⟨rest, same⟩ := exists_follow_of_descend climbs
  have target : follow (workspaceDir agentDir) (components dir) = follow (agentDir ++ []) rest := by
    rw [← append_nil (workspaceDir agentDir), same, workspaceDir, dropLast_concat, append_nil]
  have source : follow (curDir agentDir) (components dir) =
      follow (agentDir ++ ["mount".toList]) rest := by
    rw [← append_nil (curDir agentDir), same, curDir, dropLast_append_of_ne_nil (by simp)]
    rfl
  rw [source]
  exact not_both prefix_rfl (target ▸ work)

lemma writable_bindWritableDirs {dirs file : List Name} :
    (Mounted.overlay (bindWritableDirs agentDir dirs)).Writable agentDir file ↔
      ∃ dir ∈ dirs, dir ∉ sentinels ∧ ∃ left, descend [] (components dir) = some left ∧
        left <+: file := by
  simp only [Mounted.Writable, bindWritableDirs, mem_map, mem_filter, decide_eq_true_eq]
  constructor
  · rintro ⟨_, ⟨dir, ⟨mem, bound⟩, rfl⟩, work, disk⟩
    refine ⟨dir, mem, bound, ?_⟩
    cases left : descend [] (components dir) with
    | some left =>
      have source := follow_of_descend left (curDir agentDir)
      rw [append_nil] at source
      rw [source, prefix_append_right_inj] at disk
      exact ⟨_, rfl, disk⟩
    | none => exact absurd disk (not_both_of_climbs left work)
  · rintro ⟨dir, mem, bound, left, found, below⟩
    refine ⟨_, ⟨dir, ⟨mem, bound⟩, rfl⟩, prefix_follow_of_descend found _, ?_⟩
    have source := follow_of_descend found (curDir agentDir)
    rw [append_nil] at source
    rw [source, prefix_append_right_inj]
    exact below

/-- For every list of directories that a session may carry, all that is made or bound for it, up to
whatever call fails, is inside the disk and the workspace exactly when no directory but the
two that are skipped goes above where it starts. -/
theorem mounts_inside_iff (agentDir : List Name) (session : SessionRequest) :
    (∀ made, made <+: mountCalls agentDir session.writableDirs → ∀ c ∈ made, c.Inside agentDir) ↔
      ∀ dir ∈ session.writableDirs, dir ∈ sentinels ∨ (descend [] (components dir)).isSome := by
  constructor
  · intro inside dir mem
    by_contra! outside
    obtain ⟨bound, climbs⟩ := outside
    have called : .mount ⟨follow (curDir agentDir) (components dir),
        follow (workspaceDir agentDir) (components dir)⟩ ∈
          mountCalls agentDir session.writableDirs :=
      mem_flatMap.mpr
        ⟨_, mem_map.mpr ⟨dir, mem_filter.mpr ⟨mem, by simpa using bound⟩, rfl⟩, by simp⟩
    obtain ⟨⟨file, disk⟩, work⟩ := inside _ prefix_rfl _ called
    exact not_both_of_climbs (by simpa using climbs) work ⟨[], (append_nil _).trans disk.symm⟩
  · intro below made begins c mem
    obtain ⟨_, bind, mem⟩ := mem_flatMap.mp (begins.mem mem)
    obtain ⟨dir, mem', rfl⟩ := mem_map.mp bind
    obtain ⟨listed, bound⟩ := mem_filter.mp mem'
    obtain ⟨left, found⟩ := Option.isSome_iff_exists.mp
      ((below dir listed).resolve_left (by simpa using bound))
    have inside (base : List Name) := prefix_follow_of_descend found base
    simp only [mem_cons, not_mem_nil, or_false] at mem
    rcases mem with rfl | rfl | rfl
    · exact fun _ way => prefix_or_prefix_of_prefix way (inside _)
    · exact fun _ way => prefix_or_prefix_of_prefix way (inside _)
    · exact ⟨inside _, inside _⟩

theorem mount_escapes : .mount ⟨["mount".toList], []⟩ ∈ mountCalls [] ["..".toList] ∧
    ¬ (MountCall.mount ⟨["mount".toList], []⟩).Inside [] := by
  refine ⟨?_, fun inside => ?_⟩
  · exact mem_cons_of_mem _ (mem_cons_of_mem _ mem_cons_self)
  · exact absurd inside.1 (by decide)

lemma withSnapshot_ne_nil {req : SessionRequest} {calls : Calls} (some : req.writableDirs ≠ [])
    (noRoot : ['/'] ∉ req.writableDirs) : (req.withSnapshot false calls).snapshotName ≠ [] ↔
      req.snapshotName ≠ [] ∨ calls.storage = true ∧ calls.createSnapshot = true := by
  rw [withSnapshot_snapshotName]
  split
  · next made => exact iff_of_true (newSnapshot_ne_nil req calls) (.inr made.2.2.2.2)
  · next not =>
    constructor
    · exact .inl
    · rintro (given | made) none
      · exact given none
      · exact not ⟨none, rfl, some, noRoot, made⟩

lemma not_spellsRoot_devNull : ¬ SpellsRoot "/dev/null".toList := by
  decide

theorem isolated_iff {req session : SessionRequest} {calls : Calls} {route : Route}
    (agentDir : List Name) (some : req.writableDirs ≠ []) (noRoot : ['/'] ∉ req.writableDirs)
    (comes : route.request req false calls = .some session) : Isolated agentDir req calls session ↔
      route.copies = true ∧
        (req.snapshotName ≠ [] ∨ calls.storage = true ∧ calls.createSnapshot = true) ∧
        ∀ dir ∈ req.writableDirs, ¬ SpellsRoot dir := by
  obtain ⟨dirs, snapshot⟩ := Route.request_eq comes
  rw [← withSnapshot_ne_nil some noRoot]
  constructor
  · intro isolated
    have copies : route.copies = true := by
      by_contra lost
      rw [if_neg lost] at snapshot
      exact isolated.named snapshot
    refine ⟨copies, isolated.snapshot ▸ isolated.named, fun dir mem spells => ?_⟩
    refine isolated.partly fun file => ?_
    rw [mount, if_pos isolated.named, isolated.dirs, writable_bindWritableDirs]
    refine ⟨dir, mem, ?_, [], spells, nil_prefix⟩
    simp only [sentinels, mem_cons, not_mem_nil, or_false, not_or]
    exact ⟨fun root => noRoot (root ▸ mem), fun null => not_spellsRoot_devNull (null ▸ spells)⟩
  · rintro ⟨copies, named, plain⟩
    rw [if_pos copies] at dirs snapshot
    rw [← snapshot] at named
    have writable : ∀ file, (mount agentDir session).Writable agentDir file ↔ _ := fun file => by
      rw [mount, if_pos named, dirs, writable_bindWritableDirs]
    refine ⟨snapshot, named, dirs, fun file within => ?_, fun whole => ?_⟩
    · obtain ⟨dir, mem, -, left, found, below⟩ := (writable file).mp within
      have same : locate dir = left := follow_of_descend found []
      exact ⟨dir, mem, same ▸ below⟩
    · obtain ⟨dir, mem, -, left, found, below⟩ := (writable []).mp (whole [])
      rw [prefix_nil.mp below] at found
      exact plain dir mem found

end

def oneDirectory : SessionRequest :=
  { instanceId := 1, writableDirs := [['/', 'd']], workload := some {} }

def taken (createSnapshot : Bool) : Calls :=
  { createSnapshot, snapshotId := ['s'], jobId := ['j'], slashless := by decide }

theorem isolated_root :
    ∃ session, Route.root.request oneDirectory false (taken true) = some session ∧
      Isolated [] oneDirectory (taken true) session := by
  refine ⟨_, rfl, ?_⟩
  rw [@isolated_iff _ _ _ .root [] (by decide) (by decide) rfl]
  exact ⟨rfl, .inr ⟨rfl, rfl⟩, by decide⟩

theorem whole_disk_writable :
    ∃ session, Route.root.request oneDirectory false (taken false) = some session ∧
      session.writableDirs ≠ [] ∧ ['/'] ∉ session.writableDirs ∧
      ∀ file, (mount [] session).Writable [] file :=
  ⟨_, rfl, by decide, by decide, fun _ => trivial⟩

end Velda.Jobs
