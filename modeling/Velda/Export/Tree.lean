import Mathlib
import Velda.Posix.Tree

/-! A file tree as the exporter reads it: the entries of a directory in the order of
`os.ReadDir`, with what `Lstat` says of each. A path is the list of names from the
mount point, outermost first. -/
namespace Velda.Export
open Posix

abbrev Path := List Name

/-- The bits of an `fs.FileMode` other than the type of the file. -/
structure Mode where
  perm : Fin 512
  setuid : Bool := false
  setgid : Bool := false
  sticky : Bool := false
  deriving DecidableEq

inductive FileType
  | regular | symlink | namedPipe | socket | device | charDevice
  deriving DecidableEq

def FileType.special : FileType → Bool
  | .regular | .symlink => false
  | _ => true

/-- What `Lstat` gives, without the type and the size. -/
structure Stat where
  mode : Mode
  uid : Nat := 0
  gid : Nat := 0
  sec : Int := 0
  nsec : Nat := 0
  nlink : Nat := 1
  dev : Nat := 0
  ino : Nat
  deriving DecidableEq

/-- Anything but a directory; `data` are the bytes of a regular file or the target of a symbolic
link. -/
structure Leaf where
  stat : Stat
  type : FileType
  data : Name := []
  deriving DecidableEq

/-- The type `inodeKey`. -/
def Leaf.inode (f : Leaf) : Nat × Nat := (f.stat.dev, f.stat.ino)

def Leaf.size (f : Leaf) : Nat :=
  match f.type with
  | .regular | .symlink => f.data.length
  | _ => 0

inductive Forest
  | nil
  | file (name : Name) (leaf : Leaf) (rest : Forest)
  | dir (name : Name) (stat : Stat) (entries rest : Forest)
  deriving DecidableEq

namespace Forest

def names : Forest → List Name
  | .nil => []
  | .file name _ rest => name :: rest.names
  | .dir name _ _ rest => name :: rest.names

def IsName (n : Name) : Prop := IsEntry n ∧ '\x00' ∉ n

instance (n : Name) : Decidable (IsName n) := inferInstanceAs (Decidable (_ ∧ _))

def Valid : Forest → Prop
  | .nil => True
  | .file name _ rest => IsName name ∧ name ∉ rest.names ∧ rest.Valid
  | .dir name _ entries rest => IsName name ∧ name ∉ rest.names ∧ entries.Valid ∧ rest.Valid

instance : (f : Forest) → Decidable f.Valid
  | .nil => inferInstanceAs (Decidable True)
  | .file _ _ rest =>
    have := instDecidableValid rest
    inferInstanceAs (Decidable (_ ∧ _ ∧ _))
  | .dir _ _ entries rest =>
    have := instDecidableValid entries
    have := instDecidableValid rest
    inferInstanceAs (Decidable (_ ∧ _ ∧ _ ∧ _))

def find : Forest → Name → Path → Option (Stat × Forest)
  | .nil, _, _ => none
  | .file _ _ rest, name, path => rest.find name path
  | .dir n stat entries rest, name, path =>
    if n = name then
      match path with
      | [] => some (stat, entries)
      | next :: path => entries.find next path
    else rest.find name path

end Forest

/-- A directory, a regular file or a symbolic link with its path, or a file that is not exported. -/
inductive Item
  | dir (path : Path) (stat : Stat)
  | file (path : Path) (leaf : Leaf)
  deriving DecidableEq

namespace Item

def path : Item → Path
  | .dir path _ | .file path _ => path

def special : Item → Bool
  | .dir _ _ => false
  | .file _ f => f.type.special

/-- The name of the entry in the archive: the path behind the mount point, and for a directory a
slash at the end. -/
def name : Item → Name
  | .dir [] _ => ['.', '/']
  | .dir path _ => path.flatMap ('/' :: ·) ++ ['/']
  | .file path _ => path.flatMap ('/' :: ·)

end Item

def Forest.items (base : Path) : Forest → List Item
  | .nil => []
  | .file name f rest => .file (base ++ [name]) f :: rest.items base
  | .dir name stat entries rest =>
    .dir (base ++ [name]) stat :: entries.items (base ++ [name]) ++ rest.items base

structure Tree where
  stat : Stat
  entries : Forest
  valid : entries.Valid

namespace Tree

def items (t : Tree) : List Item := .dir [] t.stat :: t.entries.items []

def find (t : Tree) : Path → Option (Stat × Forest)
  | [] => some (t.stat, t.entries)
  | name :: path => t.entries.find name path

end Tree

end Velda.Export
