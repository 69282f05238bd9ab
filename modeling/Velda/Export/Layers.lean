import Velda.Export.Tree

/-! `instance_export_layers.go`, `instance_export_cache.go` and `matchesAnyExclude`: how an
export cuts a file tree into layers, what it hashes of each layer and what it writes for
it. `path.Match` and the text of a SHA-256 sum are parameters. -/
namespace Velda.Export
open Posix

/-- `glob` is `path.Match`, where a bad pattern matches nothing, and `sha256` the hexadecimal
text of a SHA-256 sum. -/
structure Platform where
  glob : Name → Name → Bool
  sha256 : Name → Name

structure Settings where
  platform : Platform
  excludePatterns : List Name := []
  stripTimes : Bool := false
  sizeThreshold : Int64 := 0

/-- `strings.TrimSuffix` of a slash. -/
def trimSlash (p : Name) : Name := if p.getLast? = some '/' then p.dropLast else p

/-- What stands behind each slash of a path. -/
def behindSlashes : Name → List Name
  | [] => []
  | c :: rest => if c = '/' then rest :: behindSlashes rest else behindSlashes rest

namespace Settings

def matchGlobAndSubtree (s : Settings) (pat p : Name) : Bool :=
  s.platform.glob pat p || (pat ++ ['/']).isPrefixOf p

def matchesAnyExclude (s : Settings) (tarPath : Name) : Bool :=
  let p := trimSlash tarPath
  s.excludePatterns.any fun pattern =>
    match trimSlash pattern with
    | '/' :: pat => s.matchGlobAndSubtree pat p
    | pat => (p :: behindSlashes p).any (s.matchGlobAndSubtree pat)

/-- The check that both passes make; the mount point itself is never left out. -/
def excludes (s : Settings) (path : Path) : Bool :=
  path ≠ [] && s.matchesAnyExclude ((path.flatMap ('/' :: ·)).drop 1)

end Settings

/-- `%d`. -/
def decimal : Int → Name
  | .ofNat n => Nat.toDigits 10 n
  | .negSucc n => '-' :: Nat.toDigits 10 (n + 1)

lemma mem_decimal (mem : c ∈ decimal n) : c.isDigit = true ∨ c = '-' := by
  cases n with
  | ofNat m => exact .inl (Nat.isDigit_of_mem_toDigits (by omega) (by omega) mem)
  | negSucc m =>
    rcases List.mem_cons.mp mem with sign | digit
    · exact .inr sign
    · exact .inl (Nat.isDigit_of_mem_toDigits (by omega) (by omega) digit)

def Mode.bits (m : Mode) : Nat :=
  m.perm + 2 ^ 20 * m.sticky.toNat + 2 ^ 22 * m.setgid.toNat + 2 ^ 23 * m.setuid.toNat

def FileType.bits : FileType → Nat
  | .regular => 0
  | .symlink => 2 ^ 27
  | .namedPipe => 2 ^ 25
  | .socket => 2 ^ 24
  | .device => 2 ^ 26
  | .charDevice => 2 ^ 26 + 2 ^ 21

def dirBit : Nat := 2 ^ 31

def Stat.nanos (st : Stat) : Int := (st.sec * 1000000000 + st.nsec).bmod (2 ^ 64)

/-- `linkTarget` in both passes. -/
def Leaf.target (f : Leaf) : Name := if f.type = .symlink then f.data else []

def fields : List Name → Name
  | [] => []
  | [last] => last
  | field :: rest => field ++ '\x00' :: fields rest

def merkleHashLeaf (f : Leaf) : Name :=
  fields ["leaf".toList, decimal (f.stat.mode.bits + f.type.bits : Nat), decimal f.stat.uid,
    decimal f.stat.gid, decimal f.size, decimal f.stat.nanos, decimal f.stat.nlink, f.target] ++
    ['\n']

/-- What `analyzeDir` writes for a directory of this layer. -/
def childRecord (name merkle : Name) : Name := fields [name, merkle] ++ ['\n']

/-- The modification time of a directory that goes into the hash. -/
def Settings.dirTime (s : Settings) (stat : Stat) : Int := if s.stripTimes then 0 else stat.nanos

/-- What `analyzeDir` writes for the directory itself. -/
def dirRecord (s : Settings) (dir : Path) (stat : Stat) : Name :=
  fields ["dir".toList, (dir.flatMap ('/' :: ·)).drop 1, decimal (stat.mode.bits + dirBit : Nat),
    decimal stat.uid, decimal stat.gid, decimal (s.dirTime stat)] ++ ['\n']

structure Layer where
  rootDir : Path
  subLayerDirs : List Path
  merkleHash : Name
  deriving DecidableEq

structure Gathered where
  size : Int64
  skipSet : List Path
  written : Name
  out : List Layer

structure Analysis where
  unallocated : Int64
  skipDirsForParent : List Path
  merkleHash : Name
  out : List Layer

def Gathered.conclude (s : Settings) (threshold : Int64) (dir : Path) (stat : Stat)
    (g : Gathered) : Analysis :=
  let merkleHash := s.platform.sha256 (g.written ++ dirRecord s dir stat)
  if threshold ≤ g.size then ⟨0, [dir], [], g.out ++ [⟨dir, g.skipSet, merkleHash⟩]⟩
  else ⟨g.size, g.skipSet, merkleHash, g.out⟩

def gather (s : Settings) (threshold : Int64) (dir : Path) : Forest → Gathered
  | .nil => ⟨0, [], [], []⟩
  | .file name f rest =>
    let r := gather s threshold dir rest
    if s.excludes (dir ++ [name]) then r
    else ⟨Int64.ofNat f.size + r.size, r.skipSet, merkleHashLeaf f ++ r.written, r.out⟩
  | .dir name stat entries rest =>
    let r := gather s threshold dir rest
    let child := dir ++ [name]
    if s.excludes child then r
    else
      let sub := (gather s threshold child entries).conclude s threshold child stat
      ⟨sub.unallocated + r.size, sub.skipDirsForParent ++ r.skipSet,
        (if sub.merkleHash = [] then [] else childRecord name sub.merkleHash) ++ r.written,
        sub.out ++ r.out⟩

def analyzeDir (s : Settings) (threshold : Int64) (dir : Path) (stat : Stat) (entries : Forest) :
    Analysis :=
  (gather s threshold dir entries).conclude s threshold dir stat

/-- A threshold that is not positive stands for one that is never reached. -/
def Settings.effectiveThreshold (s : Settings) : Int64 :=
  if s.sizeThreshold ≤ 0 then Int64.maxValue else s.sizeThreshold

def computeLayers (s : Settings) (t : Tree) : List Layer :=
  let a := analyzeDir s s.effectiveThreshold [] t.stat t.entries
  let rootAlreadyCovered := a.out.any (·.rootDir = [])
  (if rootAlreadyCovered = false ∨ 0 < a.unallocated then
    a.out ++ [⟨[], a.skipDirsForParent, a.merkleHash⟩]
  else a.out).reverse

inductive TarType
  | regular | symlink | directory | link
  deriving DecidableEq

structure TarEntry where
  name : Name
  type : TarType
  mode : Mode
  uid : Nat
  gid : Nat
  size : Nat := 0
  modTime : Int
  linkname : Name := []
  body : Name := []
  deriving DecidableEq

/-- The time in a header: whole seconds, rounded, or nothing. -/
def Settings.modTime (s : Settings) (st : Stat) : Int :=
  if s.stripTimes then 0 else st.sec + if 500000000 ≤ st.nsec then 1 else 0

/-- `hardLinks`: the name under which each file with several names was written. -/
abbrev HardLinks := List ((Nat × Nat) × Name)

def Leaf.shared (f : Leaf) : Bool := f.type = .regular && 1 < f.stat.nlink

def dirEntry (s : Settings) (path : Path) (stat : Stat) : TarEntry where
  name := (Item.dir path stat).name
  type := .directory
  mode := stat.mode
  uid := stat.uid
  gid := stat.gid
  modTime := s.modTime stat

def leafEntry (s : Settings) (path : Path) (f : Leaf) : TarEntry where
  name := (Item.file path f).name
  type := if f.type = .symlink then .symlink else .regular
  mode := f.stat.mode
  uid := f.stat.uid
  gid := f.stat.gid
  size := if f.type = .symlink then 0 else f.size
  modTime := s.modTime f.stat
  linkname := f.target
  body := if f.type = .symlink then [] else f.data

def fileEntry (s : Settings) (path : Path) (f : Leaf) (links : HardLinks) :
    TarEntry × HardLinks :=
  let entry := leafEntry s path f
  if f.shared then
    match links.lookup f.inode with
    | some first => ({ entry with type := .link, linkname := first, size := 0, body := [] }, links)
    | none => (entry, (f.inode, entry.name) :: links)
  else (entry, links)

def Layer.walk (s : Settings) (l : Layer) (dir : Path) :
    Forest → HardLinks → List TarEntry × HardLinks
  | .nil, links => ([], links)
  | .file name f rest, links =>
    if s.excludes (dir ++ [name]) ∨ f.type.special then l.walk s dir rest links
    else
      let (entry, links) := fileEntry s (dir ++ [name]) f links
      let (later, links) := l.walk s dir rest links
      (entry :: later, links)
  | .dir name stat entries rest, links =>
    let path := dir ++ [name]
    if path ≠ l.rootDir ∧ path ∈ l.subLayerDirs then l.walk s dir rest links
    else if s.excludes path then l.walk s dir rest links
    else
      let (below, links) := l.walk s path entries links
      let (later, links) := l.walk s dir rest links
      (dirEntry s path stat :: below ++ later, links)

/-- `none` is the error of `WalkDir` for a root that does not exist. -/
def Layer.stream (s : Settings) (l : Layer) (t : Tree) : Option (List TarEntry) :=
  (t.find l.rootDir).map fun (stat, entries) =>
    if s.excludes l.rootDir then []
    else dirEntry s l.rootDir stat :: (l.walk s l.rootDir entries []).1

end Velda.Export
