import Velda.Posix.Changes

/-! The kernel calls of the file server on a file tree, with names resolved as POSIX
describes: a name may be a path, `..` leads to the parent directory, an absolute path
starts at the root, and symbolic links are followed, up to a limit. A call that could fail
for another reason than the tree (permissions, quotas) is made to fail by its caller. -/
namespace Velda.Posix
open Lib

inductive Errno
  | EPERM | ENOENT | EACCES | EBADF | EBUSY | EEXIST | EXDEV | ENOTDIR | EISDIR | EINVAL
  | ENOTEMPTY | ELOOP | ESTALE | EIO | EPROTONOSUPPORT
  deriving DecidableEq

structure OpenFlags where
  write : Bool := false
  create : Bool := false
  excl : Bool := false
  trunc : Bool := false
  directory : Bool := false
  noFollow : Bool := false
  path : Bool := false
  deriving DecidableEq

def components (path : Name) : List Name := (path.splitOn '/').filter (· ≠ [])

def asDirectory (path : Name) : Bool := path.getLast? = some '/'

def maxLinks : Nat := 40

namespace Tree

def start (t : Tree) (cwd : Ino) (path : Name) : Ino :=
  if path.head? = some '/' then t.root else cwd

/-- Go through the parts of a path; `jump` goes on where a symbolic link leads. -/
def walk (t : Tree) (follow : Bool) (jump : Ino → List Name → Except Errno Ino) :
    Ino → List Name → Except Errno Ino
  | cur, [] => .ok cur
  | cur, n :: rest =>
    match t.dir cur with
    | none => .error .ENOTDIR
    | some x =>
      if n = ['.'] then walk t follow jump cur rest
      else if n = ['.', '.'] then
        walk t follow jump (if cur = t.root then cur else x.parent) rest
      else
        match x.lookup n with
        | none => .error .ENOENT
        | some i =>
          match t.target i with
          | none => walk t follow jump i rest
          | some target =>
            if rest = [] ∧ !follow then .ok i
            else jump (t.start cur target) (components target ++ rest)

def walkLinks (t : Tree) (follow : Bool) : Nat → Ino → List Name → Except Errno Ino
  | 0 => fun _ _ => .error .ELOOP
  | k + 1 => walk t follow (walkLinks t follow k)

def resolve (t : Tree) (cwd : Ino) (path : Name) (follow : Bool) : Except Errno Ino :=
  if path = [] then .error .ENOENT
  else do
    let i ← t.walkLinks (follow || asDirectory path) maxLinks (t.start cwd path) (components path)
    if asDirectory path ∧ (t.dir i).isNone then .error .ENOTDIR else .ok i

structure Place where
  dir : Ino
  name : Name

def parentOf (t : Tree) (cwd : Ino) (path : Name) : Except Errno Place :=
  if path = [] then .error .ENOENT
  else do
    let d ← t.walkLinks true maxLinks (t.start cwd path) (components path).dropLast
    if (t.dir d).isNone then .error .ENOTDIR
    else .ok ⟨d, (components path).getLast?.getD ['.']⟩

/-- As `parentOf`; where the name is that of a symbolic link, the link is followed. -/
def locate (t : Tree) : Nat → Ino → Name → Except Errno Place
  | 0, _, _ => .error .ELOOP
  | k + 1, cwd, path => do
    let p ← t.parentOf cwd path
    match (t.entry p.dir p.name).bind t.target with
    | some target => t.locate k p.dir target
    | none => .ok p

/-- A name can be given to a file in a directory that was not removed. -/
def freeName (t : Tree) (d : Ino) (n : Name) : Except Errno Unit :=
  match t.dir d with
  | none => .error .ENOTDIR
  | some x =>
    if ¬ IsEntry n ∨ (x.lookup n).isSome then .error .EEXIST
    else if x.removed then .error .ENOENT
    else .ok ()

def make (t : Tree) (d : Ino) (n : Name) (kind : Kind) : Tree :=
  (t.alloc ⟨kind, (t.mountId d).getD 0⟩).enter d n t.next

def makeAt (t : Tree) (cwd : Ino) (path : Name) (kind : Ino → Kind) :
    Except Errno (Ino × Tree) := do
  let p ← t.parentOf cwd path
  let _ ← t.freeName p.dir p.name
  if asDirectory path ∧ (kind p.dir).dir.isNone then .error .ENOENT
  else .ok (p.dir, t.make p.dir p.name (kind p.dir))

def mkdirat (t : Tree) (cwd : Ino) (path : Name) : Except Errno (Ino × Tree) :=
  t.makeAt cwd path fun d => .directory { entries := .empty, parent := d }

def symlinkat (t : Tree) (target : Name) (cwd : Ino) (path : Name) : Except Errno (Ino × Tree) :=
  if target = [] then .error .ENOENT else t.makeAt cwd path fun _ => .symlink target

def linkat (t : Tree) (i cwd : Ino) (path : Name) : Except Errno (Ino × Tree) := do
  let p ← t.parentOf cwd path
  let _ ← t.freeName p.dir p.name
  if asDirectory path then .error .ENOENT
  else if t.mountId p.dir ≠ t.mountId i then .error .EXDEV
  else if (t.dir i).isSome then .error .EPERM
  else .ok (p.dir, t.enter p.dir p.name i)

def openable (t : Tree) (flags : OpenFlags) (i : Ino) : Except Errno Unit :=
  if (t.nodes i).isNone then .error .ESTALE
  else if flags.directory ∧ (t.dir i).isNone then .error .ENOTDIR
  else if flags.path then .ok ()
  else if (t.target i).isSome then .error .ELOOP
  else if (flags.write ∨ flags.trunc ∨ flags.create) ∧ (t.dir i).isSome then .error .EISDIR
  else .ok ()

structure Opened where
  file : Ino
  tree : Tree
  /-- The directory the file was created in. -/
  created : Option Ino

def openExisting (t : Tree) (flags : OpenFlags) (i : Ino) : Except Errno Opened := do
  let _ ← t.openable flags i
  .ok ⟨i, t, none⟩

def openPlace (t : Tree) (flags : OpenFlags) (p : Place) : Except Errno Opened :=
  if ¬ IsEntry p.name then .error .EISDIR
  else
    match t.entry p.dir p.name with
    | some i => if flags.excl then .error .EEXIST else t.openExisting flags i
    | none => do
      let _ ← t.freeName p.dir p.name
      .ok ⟨t.next, t.make p.dir p.name .regular, some p.dir⟩

/-- With `O_PATH` the flags that create or truncate are ignored. -/
def openat (t : Tree) (cwd : Ino) (path : Name) (flags : OpenFlags) : Except Errno Opened :=
  if flags.path ∨ !flags.create then
    t.resolve cwd path (!flags.noFollow) >>= t.openExisting flags
  else if flags.directory then .error .EINVAL
  else if asDirectory path then .error .EISDIR
  else if flags.excl ∨ flags.noFollow then t.parentOf cwd path >>= t.openPlace flags
  else t.locate maxLinks cwd path >>= t.openPlace flags

structure Unlinked where
  place : Ino
  file : Ino
  tree : Tree

def unlinkPlace (t : Tree) (p : Place) (removeDir slash : Bool) (i : Ino) : Except Errno Unlinked :=
  match t.dir i, removeDir with
  | none, true => .error .ENOTDIR
  | some _, false => .error .EISDIR
  | none, false => if slash then .error .ENOTDIR else .ok ⟨p.dir, i, t.leave p.dir p.name⟩
  | some x, true =>
    if t.mountId i ≠ t.mountId p.dir then .error .EBUSY
    else if x.entries.entries ≠ [] then .error .ENOTEMPTY
    else .ok ⟨p.dir, i, (t.leave p.dir p.name).retire i⟩

def unlinkat (t : Tree) (cwd : Ino) (path : Name) (removeDir : Bool) : Except Errno Unlinked := do
  let p ← t.parentOf cwd path
  if ¬ IsEntry p.name then .error (if removeDir then .EINVAL else .EISDIR)
  else
    match t.entry p.dir p.name with
    | none => .error .ENOENT
    | some i => t.unlinkPlace p removeDir (asDirectory path) i

def up (t : Tree) (i : Ino) : Ino := ((t.dir i).map (·.parent)).getD i

def isAncestor (t : Tree) (c d : Ino) : Bool :=
  (List.range t.next).any fun k => t.up^[k] d = c

/-- What a rename may put in the place of `old`. -/
def replaceable (t : Tree) (c old : Ino) : Except Errno Unit :=
  match t.dir c, t.dir old with
  | none, some _ => .error .EISDIR
  | some _, none => .error .ENOTDIR
  | none, none => .ok ()
  | some _, some x => if x.entries.entries ≠ [] then .error .ENOTEMPTY else .ok ()

def move (t : Tree) (p q : Place) (c : Ino) : Tree :=
  let u := ((t.leave p.dir p.name).enter q.dir q.name c).reparent c q.dir
  match t.entry q.dir q.name with
  | some old => u.retire old
  | none => u

structure Renamed where
  source : Ino
  place : Ino
  file : Ino
  old : Option Ino
  tree : Tree

def renamePlace (t : Tree) (p q : Place) (c : Ino) : Except Errno Renamed :=
  match t.entry q.dir q.name with
  | none => do
    let _ ← t.freeName q.dir q.name
    .ok ⟨p.dir, q.dir, c, none, t.move p q c⟩
  | some old =>
    -- two names of one file: nothing is done
    if old = c then .ok ⟨p.dir, q.dir, c, none, t⟩
    else if t.mountId old ≠ t.mountId q.dir then .error .EBUSY
    else do
      let _ ← t.replaceable c old
      .ok ⟨p.dir, q.dir, c, some old, t.move p q c⟩

def renameat (t : Tree) (cwd : Ino) (path : Name) (cwd' : Ino) (path' : Name) :
    Except Errno Renamed := do
  let p ← t.parentOf cwd path
  let q ← t.parentOf cwd' path'
  if t.mountId p.dir ≠ t.mountId q.dir then .error .EXDEV
  else if ¬ IsEntry p.name ∨ ¬ IsEntry q.name then .error .EBUSY
  else
    match t.entry p.dir p.name with
    | none => .error .ENOENT
    | some c =>
      if (t.dir c).isNone ∧ (asDirectory path ∨ asDirectory path') then .error .ENOTDIR
      else if t.mountId c ≠ t.mountId p.dir then .error .EBUSY
      else if (t.dir c).isSome ∧ t.isAncestor c q.dir then .error .EINVAL
      else t.renamePlace p q c

end Tree

end Velda.Posix
