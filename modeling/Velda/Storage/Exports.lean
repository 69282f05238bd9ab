import Velda.Export.Layers
import Velda.Jobs.Requests
import Velda.Lib.Exports
import Velda.Posix.Lexical

/-! `GrantAccess` of `nfs_auth.go` on the disks of `btrfs.go`: the table of exports that is written
for a session. A snapshot name goes into a path and a line as it comes from the client, so
a session sees its own storage only when the name stands for itself and does not lead out
of the snapshots of the instance. -/
namespace Velda.Storage
open Posix Jobs Lib.Exports List
open Export (decimal)

structure Btrfs where
  rootPath : Name
  absolute : rootPath.head? = some '/'

namespace Btrfs
variable (b : Btrfs) (instanceId : Int)

def getRoot : Name := b.rootPath ++ '/' :: (decimal instanceId ++ '/' :: "current".toList)

def snapshots : Name := b.rootPath ++ '/' :: (decimal instanceId ++ '/' :: "snapshots".toList)

def getSnapshotRoot (snapshotName : Name) : Name :=
  b.rootPath ++ '/' :: (decimal instanceId ++ '/' :: ("snapshots".toList ++ '/' :: snapshotName))

end Btrfs

/-- The address of an agent, as `net.IP` writes it. -/
structure Host where
  text : Name
  nonempty : text ≠ []
  chars : ∀ c ∈ text, c.isAlphanum = true ∨ c ∈ ['.', ':', '?']

def Host.client (host : Host) : Name :=
  host.text ++ "(rw,async,no_root_squash,no_subtree_check)".toList

def exportPaths (b : Btrfs) (req : SessionRequest) : List Name :=
  b.getRoot req.instanceId ::
    if req.snapshotName ≠ [] then [b.getSnapshotRoot req.instanceId req.snapshotName] else []

def exportData (b : Btrfs) (req : SessionRequest) (host : Host) : Name :=
  table ((exportPaths b req).map fun p => (p, host.client))

def Btrfs.Owns (b : Btrfs) (instanceId : Int) (dir : List Name) : Prop :=
  dir = locate (b.getRoot instanceId) ∨
    ∃ below, below ≠ [] ∧ dir = locate (b.snapshots instanceId) ++ below

/-- Each path is the instance's own, and the table has one line for each, for this host alone. -/
structure OwnOnly (b : Btrfs) (req : SessionRequest) (host : Host) : Prop where
  lines : read (exportData b req host) = (exportPaths b req).map fun p => [p, host.client]
  own : ∀ p ∈ exportPaths b req, b.Owns req.instanceId (locate p)

def Btrfs.snapshotDir (b : Btrfs) (instanceId : Int) (name : Name) : List Name :=
  follow (locate (b.snapshots instanceId)) (components name)

lemma ordinary_alphanum (h : c.isAlphanum = true) : isSpace c = false ∧ c ≠ '"' ∧ c ≠ '\\' := by
  refine ⟨?_, ?_, ?_⟩
  · cases space : isSpace c with
    | false => rfl
    | true =>
      simp only [isSpace, decide_eq_true_eq] at space
      fin_cases space <;> exact absurd h (by decide)
  · rintro rfl
    exact absurd h (by decide)
  · rintro rfl
    exact absurd h (by decide)

lemma plain_decimal (n : Int) : Plain (decimal n) := by
  refine plain_of_chars fun c mem => ?_
  rcases Export.mem_decimal mem with digit | rfl
  · exact ordinary_alphanum (by simp [Char.isAlphanum, digit])
  · decide

lemma isEntry_decimal (n : Int) : IsEntry (decimal n) := by
  have chars : ∀ c ∈ decimal n, c ≠ '/' ∧ c ≠ '.' := by
    intro c mem
    rcases Export.mem_decimal mem with digit | rfl
    · constructor <;> rintro rfl <;> exact absurd digit (by decide)
    · decide
  refine ⟨?_, fun mem => (chars _ mem).1 rfl, ?_, ?_⟩
  · cases n with
    | ofNat m => exact Nat.toDigits_ne_nil
    | negSucc m => nofun
  · intro same
    exact (chars '.' (by simp [same])).2 rfl
  · intro same
    exact (chars '.' (by simp [same])).2 rfl

lemma Host.plain_client (host : Host) : Plain host.client := by
  refine plain_of_chars fun c mem => ?_
  rcases mem_append.mp mem with address | options
  · rcases host.chars c address with letter | sign
    · exact ordinary_alphanum letter
    · fin_cases sign <;> decide
  · have ordinary : ∀ c ∈ "(rw,async,no_root_squash,no_subtree_check)".toList,
        isSpace c = false ∧ c ≠ '"' ∧ c ≠ '\\' := by simp [isSpace]
    exact ordinary c options

section
variable (b : Btrfs) (instanceId : Int)

lemma plain_getRoot : Plain (b.getRoot instanceId) ↔ Plain b.rootPath := by
  have current : Plain "current".toList := plain_of_chars (by simp [isSpace])
  rw [Btrfs.getRoot, plain_slash, plain_slash]
  simp only [plain_decimal, current, and_true]

lemma plain_getSnapshotRoot {name : Name} :
    Plain (b.getSnapshotRoot instanceId name) ↔ Plain b.rootPath ∧ Plain name := by
  have snapshots : Plain "snapshots".toList := plain_of_chars (by simp [isSpace])
  rw [Btrfs.getSnapshotRoot, plain_slash, plain_slash, plain_slash]
  simp only [plain_decimal, snapshots, true_and]

lemma exported_ne_comment (mem : p ∈ exportPaths b req) : p ≠ [] ∧ p.head? ≠ some '#' := by
  have start : ∀ rest : Name, (b.rootPath ++ rest).head? = some '/' := by
    intro rest
    rw [List.head?_append, b.absolute]
    rfl
  have slash : p.head? = some '/' := by
    rcases mem_cons.mp mem with rfl | snapshot
    · exact start _
    · split at snapshot
      · rw [mem_singleton.mp snapshot]
        exact start _
      · cases snapshot
  refine ⟨?_, by simp [slash]⟩
  rintro rfl
  cases slash

lemma read_exportData_iff (req : SessionRequest) (host : Host) :
    read (exportData b req host) = ((exportPaths b req).map fun p => [p, host.client]) ↔
      ∀ p ∈ exportPaths b req, Plain p := by
  have shape : ((exportPaths b req).map fun p => [p, host.client]) =
      ((exportPaths b req).map fun p => (p, host.client)).map fun e => [e.1, e.2] := by simp
  rw [shape]
  constructor
  · intro back p mem
    exact (plain_of_read back (p, host.client) (mem_map.mpr ⟨p, mem, rfl⟩)).1
  · intro plain
    refine read_table fun e mem f field => ?_
    obtain ⟨p, exported, rfl⟩ := mem_map.mp mem
    rcases mem_cons.mp field with rfl | last
    · exact ⟨plain f exported, exported_ne_comment b exported⟩
    · rw [mem_singleton.mp last]
      refine ⟨host.plain_client, by simp [Host.client], ?_⟩
      cases address : host.text with
      | nil => exact absurd address host.nonempty
      | cons c rest =>
        have ordinary := host.chars c (by simp [address])
        rw [Host.client, address]
        rintro same
        obtain rfl : c = '#' := by simpa using same
        exact absurd ordinary (by decide)

lemma locate_getRoot : locate (b.getRoot instanceId) =
    locate b.rootPath ++ [decimal instanceId, "current".toList] := by
  rw [Btrfs.getRoot, locate_slash, components_slash, components_entry (isEntry_decimal _),
    components_entry (by decide), singleton_append, follow_entry (isEntry_decimal _),
    follow_entry (by decide)]
  simp [follow]

lemma locate_snapshots : locate (b.snapshots instanceId) =
    locate b.rootPath ++ [decimal instanceId, "snapshots".toList] := by
  rw [Btrfs.snapshots, locate_slash, components_slash, components_entry (isEntry_decimal _),
    components_entry (by decide), singleton_append, follow_entry (isEntry_decimal _),
    follow_entry (by decide)]
  simp [follow]

lemma locate_getSnapshotRoot (name : Name) :
    locate (b.getSnapshotRoot instanceId name) = b.snapshotDir instanceId name := by
  have path : b.getSnapshotRoot instanceId name = b.snapshots instanceId ++ '/' :: name := by
    simp [Btrfs.getSnapshotRoot, Btrfs.snapshots]
  rw [path, locate_slash, Btrfs.snapshotDir]

lemma ownOnly_iff (req : SessionRequest) (host : Host) :
    OwnOnly b req host ↔ Plain b.rootPath ∧ (req.snapshotName ≠ [] → Plain req.snapshotName ∧
        b.Owns req.instanceId (b.snapshotDir req.instanceId req.snapshotName)) := by
  have split : OwnOnly b req host ↔ (∀ p ∈ exportPaths b req, Plain p) ∧
      ∀ p ∈ exportPaths b req, b.Owns req.instanceId (locate p) := by
    rw [← read_exportData_iff b req host]
    exact ⟨fun own => ⟨own.lines, own.own⟩, fun both => ⟨both.1, both.2⟩⟩
  have root : b.Owns req.instanceId (locate (b.getRoot req.instanceId)) := .inl rfl
  rw [split, exportPaths]
  by_cases none : req.snapshotName = []
  · simp [none, plain_getRoot, root]
  · simp [none, plain_getRoot, plain_getSnapshotRoot, locate_getSnapshotRoot]
    tauto

end

/-- Only the instance's own storage is exported for a session exactly when the pool has a plain path
and the snapshot that the request names or has made, where it reaches the session, has a plain name
that leads below the snapshots of the instance or to its root. -/
theorem exports_own_iff (b : Btrfs) (host : Host) {req r : SessionRequest} {inBatch : Bool}
    {calls : Calls} {route : Route} (session : route.request req inBatch calls = some r) :
    OwnOnly b r host ↔ Plain b.rootPath ∧ (route.copies = true → ∀ name,
      req.Supplies inBatch calls name →
        Plain name ∧ b.Owns r.instanceId (b.snapshotDir r.instanceId name)) := by
  obtain ⟨-, snapshot⟩ := Route.request_eq session
  rw [ownOnly_iff, snapshot]
  simp only [supplies_iff]
  cases route.copies with
  | true => simp
  | false => simp

def pool : Btrfs := ⟨['/', 'p'], rfl⟩

def agent : Host := ⟨[':', ':', '1'], by simp, by simp⟩

lemma slash_notMem_job : '/' ∉ ['j'] := by decide

def calls : Calls := { snapshotId := ['s'], jobId := ['j'], slashless := slash_notMem_job }

theorem exports_own_named : OwnOnly pool { instanceId := 1, snapshotName := ['a'] } agent := by
  have session : Route.interactive.request { instanceId := 1, snapshotName := ['a'] } false calls =
      some { instanceId := 1, snapshotName := ['a'] } := rfl
  refine (exports_own_iff pool agent session).mpr
      ⟨plain_of_chars (by simp [isSpace, pool]), fun _ name supplied => ?_⟩
  obtain ⟨rfl, -⟩ : ['a'] = name ∧ _ := supplied.resolve_right fun made => by cases made.1
  refine ⟨plain_of_chars (by simp [isSpace]), .inr ⟨[['a']], by simp, ?_⟩⟩
  rfl

/-- The name of a snapshot leads to the disk of another instance. -/
theorem exports_foreign : ∃ (b : Btrfs) (host : Host) (req r : SessionRequest) (calls : Calls),
      Route.interactive.request req false calls = some r ∧ r.instanceId = 1 ∧
      (∃ p ∈ exportPaths b r, locate p = locate (b.getRoot 2)) ∧ ¬ OwnOnly b r host := by
  let name : Name := ['.', '.', '/', '.', '.', '/', '2', '/', 'c', 'u', 'r', 'r', 'e', 'n', 't']
  have led : pool.snapshotDir 1 name = locate (pool.getRoot 2) := by
    decide
  let req : SessionRequest := { instanceId := 1, snapshotName := name }
  refine ⟨pool, agent, req, req, calls, rfl, rfl,
    ⟨pool.getSnapshotRoot 1 name, by simp [exportPaths, req], ?_⟩, fun own => ?_⟩
  · rw [locate_getSnapshotRoot, led]
  · have owns := (((ownOnly_iff pool req agent).mp own).2 (by simp)).2
    rw [show pool.snapshotDir req.instanceId req.snapshotName = _ from led, locate_getRoot] at owns
    rcases owns with same | ⟨below, -, same⟩
    · exact absurd same (by decide)
    · rw [locate_snapshots] at same
      simp at same

end Velda.Storage
