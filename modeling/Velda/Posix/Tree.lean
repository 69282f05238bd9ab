import Mathlib
import Velda.Lib.Keyed
import Velda.Lib.NameGraph

/-! A file tree with hard links and symbolic links. A file stays when its last name is
dropped, as a file that is still open does, and a directory that was removed takes no new
names. `Sound` is what holds of every file tree without bind mounts. -/
variable {d i p : Ino} {n : Name}

namespace Velda.Posix
open Lib

abbrev Ino := Nat

abbrev Name := List Char

def IsEntry (n : Name) : Prop := n ≠ [] ∧ '/' ∉ n ∧ n ≠ ['.'] ∧ n ≠ ['.', '.']

instance (n : Name) : Decidable (IsEntry n) := inferInstanceAs (Decidable (_ ∧ _ ∧ _ ∧ _))

structure Directory where
  entries : Keyed (Prod.fst : Name × Ino → Name)
  parent : Ino
  removed : Bool := false

def Directory.lookup (x : Directory) (n : Name) : Option Ino := (x.entries.lookup n).map (·.2)

def Directory.enter (x : Directory) (n : Name) (i : Ino) : Directory :=
  { x with entries := x.entries.insert (n, i) }

def Directory.leave (x : Directory) (n : Name) : Directory :=
  { x with entries := x.entries.erase n }

lemma Directory.lookup_enter (x : Directory) (n : Name) (i : Ino) (m : Name) :
    (x.enter n i).lookup m = if m = n then some i else x.lookup m := by
  unfold lookup enter
  split
  · next same =>
    have found := x.entries.lookup_insert_self (n, i)
    rw [same, show (x.entries.insert (n, i)).lookup n = some (n, i) from found]
    rfl
  · next other => rw [Keyed.lookup_insert_of_ne other]

lemma Directory.lookup_leave (x : Directory) (n m : Name) :
    (x.leave n).lookup m = if m = n then none else x.lookup m := by
  unfold lookup leave
  rw [Keyed.lookup_erase]
  split <;> rfl

inductive Kind
  | regular
  | directory (d : Directory)
  | symlink (target : Name)

structure Node where
  kind : Kind
  mountId : Nat

structure Tree where
  nodes : Ino → Option Node
  root : Ino
  /-- No file has this number or a larger one. -/
  next : Ino

def Kind.dir : Kind → Option Directory
  | .directory d => some d
  | _ => none

def Kind.target : Kind → Option Name
  | .symlink target => some target
  | _ => none

def Kind.mapDir (f : Directory → Directory) : Kind → Kind
  | .directory d => .directory (f d)
  | kind => kind

@[simp] lemma Kind.dir_mapDir (f : Directory → Directory) (kind : Kind) :
    (kind.mapDir f).dir = kind.dir.map f := by
  cases kind <;> rfl

namespace Tree

def dir (t : Tree) (i : Ino) : Option Directory := (t.nodes i).bind (·.kind.dir)

def target (t : Tree) (i : Ino) : Option Name := (t.nodes i).bind (·.kind.target)

def mountId (t : Tree) (i : Ino) : Option Nat := (t.nodes i).map (·.mountId)

def entry (t : Tree) (d : Ino) (n : Name) : Option Ino :=
  (t.dir d).bind (·.lookup n)

def info (t : Tree) (i : Ino) : Option (Ino × Bool) := (t.dir i).map fun x => (x.parent, x.removed)

def setDir (t : Tree) (d : Ino) (f : Directory → Directory) : Tree :=
  { t with
    nodes := fun i =>
      if i = d then (t.nodes i).map fun node => { node with kind := node.kind.mapDir f }
      else t.nodes i }

def enter (t : Tree) (d : Ino) (n : Name) (i : Ino) : Tree :=
  t.setDir d (·.enter n i)

def leave (t : Tree) (d : Ino) (n : Name) : Tree :=
  t.setDir d (·.leave n)

def retire (t : Tree) (d : Ino) : Tree := t.setDir d fun x => { x with removed := true }

def reparent (t : Tree) (d parent : Ino) : Tree := t.setDir d fun x => { x with parent := parent }

def alloc (t : Tree) (node : Node) : Tree :=
  { t with nodes := fun i => if i = t.next then some node else t.nodes i, next := t.next + 1 }

variable (t : Tree)

lemma dir_setDir (d : Ino) (f : Directory → Directory) (i : Ino) :
    (t.setDir d f).dir i = if i = d then (t.dir i).map f else t.dir i := by
  unfold dir setDir
  by_cases own : i = d
  · simp only [own]
    cases t.nodes d <;> simp
  · simp [own]

@[simp] lemma nodes_setDir_isSome (d : Ino) (f : Directory → Directory) (i : Ino) :
    ((t.setDir d f).nodes i).isSome = (t.nodes i).isSome := by
  unfold setDir
  dsimp only
  split <;> simp

lemma entry_setDir (d : Ino) (f : Directory → Directory) (x : Ino) (m : Name) :
    (t.setDir d f).entry x m =
      if x = d then (t.dir x).bind fun y => (f y).lookup m else t.entry x m := by
  unfold entry
  rw [dir_setDir]
  split
  · cases t.dir x <;> rfl
  · rfl

lemma info_setDir (d : Ino) (f : Directory → Directory) (x : Ino) : (t.setDir d f).info x =
      if x = d then (t.dir x).map fun y => ((f y).parent, (f y).removed) else t.info x := by
  unfold info
  rw [dir_setDir]
  split
  · cases t.dir x <;> rfl
  · rfl

@[simp] lemma info_enter (d : Ino) (n : Name) (i : Ino) : (t.enter d n i).info = t.info := by
  funext x
  unfold enter
  rw [info_setDir]
  split <;> rfl

@[simp] lemma info_leave (d : Ino) (n : Name) : (t.leave d n).info = t.info := by
  funext x
  unfold leave
  rw [info_setDir]
  split <;> rfl

@[simp] lemma entry_retire (d : Ino) : (t.retire d).entry = t.entry := by
  funext x m
  unfold retire
  rw [entry_setDir]
  split <;> rfl

@[simp] lemma entry_reparent (d parent : Ino) : (t.reparent d parent).entry = t.entry := by
  funext x m
  unfold reparent
  rw [entry_setDir]
  split <;> rfl

lemma entry_enter (isDir : (t.info d).isSome) (n : Name) (i : Ino) :
    (t.enter d n i).entry = setName t.entry d n (some i) := by
  funext x m
  unfold enter setName
  rw [entry_setDir]
  by_cases own : x = d
  · obtain ⟨y, found⟩ := Option.isSome_iff_exists.mp (Option.isSome_map.symm.trans isDir)
    simp [own, entry, found, Directory.lookup_enter]
  · simp [own]

lemma entry_leave (d : Ino) (n : Name) : (t.leave d n).entry = setName t.entry d n none := by
  funext x m
  unfold leave setName
  rw [entry_setDir]
  by_cases own : x = d
  · cases found : t.dir d with
    | none => simp [own, entry, found]
    | some y => simp [own, entry, found, Directory.lookup_leave]
  · simp [own]

@[simp] lemma info_alloc (node : Node) (i : Ino) : (t.alloc node).info i =
      if i = t.next then node.kind.dir.map fun x => (x.parent, x.removed) else t.info i := by
  unfold info dir alloc
  dsimp only
  split <;> rfl

lemma entry_alloc (unused : t.nodes t.next = none)
    (bare : ∀ x, node.kind.dir = some x → ∀ n, x.lookup n = none) :
    (t.alloc node).entry = t.entry := by
  funext d n
  unfold entry dir alloc
  dsimp only
  split
  · next own =>
    rw [own, unused]
    cases found : node.kind.dir with
    | none => simp [found]
    | some x => simp [found, bare x found]
  · rfl

structure Sound (t : Tree) : Prop where
  plain : ∀ d n i, t.entry d n = some i → IsEntry n
  known : ∀ d n i, t.entry d n = some i → (t.nodes i).isSome
  unused : ∀ i, t.next ≤ i → t.nodes i = none
  rootDir : (t.info t.root).isSome
  topmost : ∀ d n, t.entry d n ≠ some t.root
  parent : ∀ d n c p r, t.entry d n = some c → t.info c = some (p, r) → p = d ∧ r = false
  single : ∀ d n m c, t.entry d n = some c → t.entry d m = some c → (t.info c).isSome → n = m
  emptied : ∀ d p n, t.info d = some (p, true) → t.entry d n = none

/-- In the subtree of `p`. -/
def Under (t : Tree) (p i : Ino) : Prop := Below t.entry p i

structure Detached (t : Tree) (i : Ino) : Prop where
  below : i ≠ t.root
  known : (t.nodes i).isSome
  nameless : ∀ d n, t.entry d n ≠ some i
  removed : ∀ p r, t.info i = some (p, r) → r = true

/-- In the subtree of `p` or nowhere in the tree. -/
def Held (t : Tree) (p i : Ino) : Prop := t.Under p i ∨ t.Detached i

/-- A file in the tree is in the subtree of `p`. -/
def Lies (t : Tree) (p i : Ino) : Prop := t.Under t.root i → t.Under p i

variable {t}

lemma Detached.not_under (D : t.Detached i) : ¬ t.Under t.root i := by
  intro under
  cases under with
  | refl => exact D.below rfl
  | tail _ held =>
    obtain ⟨n, named⟩ := held
    exact D.nameless _ n named

lemma Held.lies (H : t.Held p i) : t.Lies p i := by
  intro under
  exact H.resolve_right fun D => D.not_under under

lemma entry_eq_none (notDir : t.info d = none) (n : Name) : t.entry d n = none := by
  have none : t.dir d = none := Option.map_eq_none_iff.mp notDir
  simp [entry, none]

lemma Sound.isDir (named : t.entry d n = some i) : (t.info d).isSome := by
  by_contra notDir
  rw [entry_eq_none (Option.not_isSome_iff_eq_none.mp notDir)] at named
  cases named

lemma Held.holder (H : t.Held p d) (S : t.Sound) (named : t.entry d n = some i) :
    t.Under p d := by
  refine H.resolve_right fun D => ?_
  obtain ⟨⟨q, r⟩, found⟩ := Option.isSome_iff_exists.mp (Sound.isDir named)
  have gone := D.removed q r found
  subst gone
  rw [S.emptied d q n found] at named
  cases named

lemma Held.entry (H : t.Held p d) (S : t.Sound) (named : t.entry d n = some i) : t.Under p i :=
  (H.holder S named).step named

lemma Held.under (H : t.Held p d) (found : t.info d = some (q, false)) : t.Under p d := by
  refine H.resolve_right fun D => ?_
  cases D.removed q false found

end Tree

end Velda.Posix
