import Velda.Posix.Tree

/-! What the calls on a file tree do to it: give a file one more name, drop a name, or
move a file to another place. A change keeps a tree sound, and what was held stays held. -/
variable {x : Ino} {m : Name}

namespace Velda.Posix.Tree
open Lib Option

variable {t t' : Tree} {p d d' c i : Ino} {n n' : Name}

/-- A file `c` got the name `n` in `d`; if it is a directory it had none before. -/
structure Grown (t t' : Tree) (d : Ino) (n : Name) (c : Ino) : Prop where
  entry : t'.entry = setName t.entry d n (some c)
  free : t.entry d n = none
  plain : IsEntry n
  live : ∃ q, t.info d = some (q, false)
  info : ∀ i, i ≠ c → t'.info i = t.info i
  own : ∀ q r, t'.info c = some (q, r) → q = d ∧ r = false ∧ ∀ x m, t.entry x m ≠ some c
  other : c ≠ t.root
  known : (t'.nodes c).isSome
  nodes : ∀ i, (t.nodes i).isSome → (t'.nodes i).isSome
  unused : ∀ i, t'.next ≤ i → t'.nodes i = none
  root : t'.root = t.root

/-- The name `n` of `c` in `d` was dropped; if `c` is a directory it was removed. -/
structure Dropped (t t' : Tree) (d : Ino) (n : Name) (c : Ino) : Prop where
  entry : t'.entry = setName t.entry d n none
  named : t.entry d n = some c
  bare : ∀ m, t.entry c m = none
  info : ∀ i, i ≠ c → t'.info i = t.info i
  own : ∀ q r, t'.info c = some (q, r) → r = true ∧ (t.info c).isSome
  nodes : ∀ i, (t'.nodes i).isSome = (t.nodes i).isSome
  next : t'.next = t.next
  root : t'.root = t.root

/-- `c` has the name `n'` in `d'` in place of `n` in `d`; what had that name is dropped. -/
structure Moved (t t' : Tree) (d : Ino) (n : Name) (d' : Ino) (n' : Name) (c : Ino) : Prop where
  entry : t'.entry = setName (setName t.entry d n none) d' n' (some c)
  named : t.entry d n = some c
  bare : ∀ old, t.entry d' n' = some old → ∀ m, t.entry old m = none
  replaced : t.entry d' n' ≠ some c
  plain : IsEntry n'
  live : ∃ q, t.info d' = some (q, false)
  apart : ¬ t.Under c d'
  info : ∀ i, i ≠ c → t.entry d' n' ≠ some i → t'.info i = t.info i
  own : ∀ q r, t'.info c = some (q, r) → q = d' ∧ r = false ∧ (t.info c).isSome
  retired : ∀ old, t.entry d' n' = some old →
    ∀ q r, t'.info old = some (q, r) → r = true ∧ (t.info old).isSome
  nodes : ∀ i, (t'.nodes i).isSome = (t.nodes i).isSome
  next : t'.next = t.next
  root : t'.root = t.root

/-- What the three have in common: a file may have got a new name, and a file without entries
may have lost one. -/
structure Changed (t t' : Tree) (new : Ino → Name → Ino → Prop) (lost : Ino → Prop) : Prop where
  named : ∀ {x m i}, t'.entry x m = some i → new x m i ∨ t.entry x m = some i
  plain : ∀ {x m i}, new x m i → IsEntry m ∧ i ≠ t.root ∧ (t'.nodes i).isSome
  live : ∀ {x m i q}, new x m i → t'.info x ≠ some (q, true)
  own : ∀ {x m i q r}, new x m i → t'.info i = some (q, r) →
    q = x ∧ r = false ∧ ∀ y k, t'.entry y k = some i → new y k i
  single : ∀ {x m k i}, new x m i → new x k i → m = k
  bare : ∀ {i}, lost i → (∃ x m, t.entry x m = some i) ∧ ∀ m, t.entry i m = none
  gone : ∀ {i q r}, lost i → t'.info i = some (q, r) → r = true ∧ ∀ x m, t'.entry x m ≠ some i
  info : ∀ {i}, ¬ lost i → (∀ x m, ¬ new x m i) → t'.info i = t.info i
  nodes : ∀ i, (t.nodes i).isSome → (t'.nodes i).isSome
  unused : ∀ i, t'.next ≤ i → t'.nodes i = none
  root : t'.root = t.root

lemma unused_of_nodes (S : t.Sound) (nodes : ∀ i, (t'.nodes i).isSome = (t.nodes i).isSome)
    (next : t'.next = t.next) : ∀ i, t'.next ≤ i → t'.nodes i = none := by
  intro i le
  have same := nodes i
  rw [S.unused i (next ▸ le)] at same
  exact not_isSome_iff_eq_none.mp (by simp [same])

lemma Sound.name_unique (S : t.Sound) (here : t.entry x m = some c) (there : t.entry d n = some c)
    (isDir : (t.info c).isSome) : x = d ∧ m = n := by
  obtain ⟨⟨q, r⟩, info⟩ := isSome_iff_exists.mp isDir
  have same : x = d :=
    (S.parent x m c q r here info).1.symm.trans (S.parent d n c q r there info).1
  subst same
  exact ⟨rfl, S.single x m n c here there isDir⟩

namespace Changed
variable {new : Ino → Name → Ino → Prop} {lost : Ino → Prop} (C : Changed t t' new lost)
include C

lemma not_lost_root (S : t.Sound) : ¬ lost t.root := by
  intro root
  obtain ⟨x, m, named⟩ := (C.bare root).1
  exact S.topmost x m named

lemma entry_of_dir (named : t'.entry x m = some i) (info : t'.info i = some (q, r)) :
    new x m i ∨ t.entry x m = some i ∧ t.info i = some (q, r) ∧ ∀ y k, ¬ new y k i := by
  rcases C.named named with new | old
  · exact .inl new
  · by_cases other : ∀ y k, ¬ new y k i
    · have kept : ¬ lost i := fun lost => (C.gone lost info).2 x m named
      exact .inr ⟨old, (C.info kept other).symm.trans info, other⟩
    · push Not at other
      obtain ⟨y, k, new⟩ := other
      exact .inl ((C.own new info).2.2 x m named)

lemma sound (S : t.Sound) : t'.Sound where
  plain x m i named := by
    rcases C.named named with new | old
    · exact (C.plain new).1
    · exact S.plain x m i old
  known x m i named := by
    rcases C.named named with new | old
    · exact (C.plain new).2.2
    · exact C.nodes i (S.known x m i old)
  unused := C.unused
  rootDir := by
    rw [C.root, C.info (C.not_lost_root S) fun x m new => (C.plain new).2.1 rfl]
    exact S.rootDir
  topmost x m named := by
    rw [C.root] at named
    rcases C.named named with new | old
    · exact (C.plain new).2.1 rfl
    · exact S.topmost x m old
  parent x m y q r named info := by
    rcases C.entry_of_dir named info with new | ⟨old, before, -⟩
    · exact ⟨(C.own new info).1, (C.own new info).2.1⟩
    · exact S.parent x m y q r old before
  single x m k y named again isDir := by
    obtain ⟨⟨q, r⟩, info⟩ := isSome_iff_exists.mp isDir
    rcases C.entry_of_dir named info with first | ⟨old, before, other⟩
    · exact C.single first ((C.own first info).2.2 x k again)
    · have second := (C.entry_of_dir again info).resolve_left (other x k)
      exact S.single x m k y old second.1 (by rw [before]; rfl)
  emptied x q m info := by
    by_contra some
    obtain ⟨i, named⟩ := ne_none_iff_exists'.mp some
    rcases C.named named with new | old
    · exact C.live new info
    · have kept : ¬ lost x := fun lost => some_ne_none i (old.symm.trans ((C.bare lost).2 m))
      rw [C.info kept fun y k new => by cases (C.own new info).2.1] at info
      cases old.symm.trans (S.emptied x q m info)

lemma held (S : t.Sound) (under : ∀ i, t.Under p i → ¬ lost i → t'.Under p i)
    (inside : ∀ x m i, new x m i → t'.Under p i)
    (names : ∀ i, lost i → ∀ x m, t.entry x m = some i → t.Under p x) (H : t.Held p i) :
    t'.Held p i := by
  by_cases other : ∀ x m, ¬ new x m i
  · by_cases isLost : lost i
    · obtain ⟨⟨d, n, before⟩, bare⟩ := C.bare isLost
      by_cases nameless : ∀ x m, t'.entry x m ≠ some i
      · refine .inr ⟨fun same => ?_, C.nodes i (S.known d n i before), nameless,
          fun q r info => (C.gone isLost info).1⟩
        exact S.topmost d n (before.trans (congrArg some (same.trans C.root)))
      · push Not at nameless
        obtain ⟨x, m, named⟩ := nameless
        have old := (C.named named).resolve_left (other x m)
        have kept : ¬ lost x := fun lost => some_ne_none i (old.symm.trans ((C.bare lost).2 m))
        exact .inl ((under x (names i isLost x m old) kept).step named)
    · rcases H with below | D
      · exact .inl (under i below isLost)
      · refine .inr ⟨C.root ▸ D.below, C.nodes i D.known, fun x m named => ?_, fun q r info => ?_⟩
        · exact D.nameless x m ((C.named named).resolve_left (other x m))
        · exact D.removed q r (C.info isLost other ▸ info)
  · push Not at other
    obtain ⟨x, m, new⟩ := other
    exact .inl (inside x m i new)

end Changed

namespace Grown
variable (G : Grown t t' d n c)
include G

lemma entry_self : t'.entry d n = some c := by
  rw [G.entry, setName_self]

lemma entry_cases (named : t'.entry x m = some i) :
    (x = d ∧ m = n ∧ i = c) ∨ t.entry x m = some i := by
  rw [G.entry] at named
  by_cases own : x = d ∧ m = n
  · obtain ⟨rfl, rfl⟩ := own
    rw [setName_self] at named
    exact .inl ⟨rfl, rfl, (Option.some.inj named).symm⟩
  · exact .inr ((setName_of_ne own).symm.trans named)

lemma changed : Changed t t' (fun x m i => x = d ∧ m = n ∧ i = c) fun _ => False where
  named := G.entry_cases
  plain new := by
    obtain ⟨-, rfl, rfl⟩ := new
    exact ⟨G.plain, G.other, G.known⟩
  live {x m i q} new info := by
    obtain ⟨rfl, -, rfl⟩ := new
    by_cases same : x = i
    · subst same
      cases (G.own q true info).2.1
    · obtain ⟨q', live⟩ := G.live
      rw [G.info x same, live] at info
      cases info
  own {x m i q r} new info := by
    obtain ⟨rfl, rfl, rfl⟩ := new
    obtain ⟨parent, live, none⟩ := G.own q r info
    exact ⟨parent, live, fun y k named => (G.entry_cases named).resolve_right (none y k)⟩
  single first second := first.2.1.trans second.2.1.symm
  bare := False.elim
  gone := False.elim
  info _ other := G.info _ fun same => other d n ⟨rfl, rfl, same⟩
  nodes := G.nodes
  unused := G.unused
  root := G.root

lemma under (below : t.Under p i) : t'.Under p i := by
  unfold Under
  rw [G.entry]
  exact below_of_added G.free below

lemma under_self (inside : t.Under p d) : t'.Under p c :=
  (G.under inside).step G.entry_self

lemma held (S : t.Sound) (inside : t.Under p d) (H : t.Held p i) : t'.Held p i :=
  G.changed.held S (fun _ below _ => G.under below)
    (fun _ _ _ new => new.2.2 ▸ G.under_self inside) (fun _ => False.elim) H

end Grown

namespace Dropped
variable (D : Dropped t t' d n c)
include D

lemma entry_cases (named : t'.entry x m = some i) : ¬ (x = d ∧ m = n) ∧ t.entry x m = some i := by
  rw [D.entry] at named
  by_cases own : x = d ∧ m = n
  · obtain ⟨rfl, rfl⟩ := own
    rw [setName_self] at named
    cases named
  · rw [setName_of_ne own] at named
    exact ⟨own, named⟩

lemma changed (S : t.Sound) : Changed t t' (fun _ _ _ => False) (· = c) where
  named named := .inr (D.entry_cases named).2
  plain := False.elim
  live := False.elim
  own := False.elim
  single := False.elim
  bare := by
    rintro _ rfl
    exact ⟨⟨d, n, D.named⟩, D.bare⟩
  gone := by
    rintro _ q r rfl info
    obtain ⟨removed, isDir⟩ := D.own q r info
    refine ⟨removed, fun x m named => ?_⟩
    obtain ⟨other, old⟩ := D.entry_cases named
    exact other (S.name_unique old D.named isDir)
  info other _ := D.info _ other
  nodes i known := D.nodes i ▸ known
  unused := unused_of_nodes S D.nodes D.next
  root := D.root

lemma held (S : t.Sound) (inside : ∀ x m, t.entry x m = some c → t.Under p x)
    (H : t.Held p i) : t'.Held p i := by
  refine (D.changed S).held S (fun i below other => ?_) (fun _ _ _ => False.elim) ?_ H
  · unfold Under
    rw [D.entry]
    exact below_of_dropped D.named D.bare below other
  · rintro _ rfl
    exact inside

end Dropped

namespace Moved
variable (M : Moved t t' d n d' n' c)
include M

lemma entry_cases (named : t'.entry x m = some i) : (x = d' ∧ m = n' ∧ i = c) ∨
      ¬ (x = d' ∧ m = n') ∧ ¬ (x = d ∧ m = n) ∧ t.entry x m = some i := by
  rw [M.entry] at named
  by_cases new : x = d' ∧ m = n'
  · obtain ⟨rfl, rfl⟩ := new
    rw [setName_self] at named
    exact .inl ⟨rfl, rfl, (Option.some.inj named).symm⟩
  · rw [setName_of_ne new] at named
    by_cases own : x = d ∧ m = n
    · obtain ⟨rfl, rfl⟩ := own
      rw [setName_self] at named
      cases named
    · rw [setName_of_ne own] at named
      exact .inr ⟨new, own, named⟩

lemma changed (S : t.Sound) :
    Changed t t' (fun x m i => x = d' ∧ m = n' ∧ i = c) fun i => t.entry d' n' = some i where
  named named := (M.entry_cases named).imp_right fun old => old.2.2
  plain new := by
    obtain ⟨-, rfl, rfl⟩ := new
    refine ⟨M.plain, fun same => S.topmost d n (same ▸ M.named), ?_⟩
    rw [M.nodes]
    exact S.known d n _ M.named
  live {x m i q} new info := by
    obtain ⟨rfl, rfl, rfl⟩ := new
    by_cases same : x = i
    · subst same
      cases (M.own q true info).2.1
    · have kept : t.entry x m ≠ some x := fun self => by cases self.symm.trans (M.bare x self m)
      obtain ⟨q', live⟩ := M.live
      rw [M.info x same kept, live] at info
      cases info
  own {x m i q r} new info := by
    obtain ⟨rfl, rfl, rfl⟩ := new
    obtain ⟨parent, live, isDir⟩ := M.own q r info
    refine ⟨parent, live, fun y k named => (M.entry_cases named).resolve_right fun old => ?_⟩
    exact old.2.1 (S.name_unique old.2.2 M.named isDir)
  single first second := first.2.1.trans second.2.1.symm
  bare {i} replaced := ⟨⟨d', n', replaced⟩, M.bare i replaced⟩
  gone {i q r} replaced info := by
    obtain ⟨removed, isDir⟩ := M.retired i replaced q r info
    refine ⟨removed, fun x m named => ?_⟩
    rcases M.entry_cases named with ⟨-, -, rfl⟩ | ⟨elsewhere, -, old⟩
    · exact M.replaced replaced
    · exact elsewhere (S.name_unique old replaced isDir)
  info kept other := M.info _ (fun same => other d' n' ⟨rfl, rfl, same⟩) kept
  nodes i known := M.nodes i ▸ known
  unused := unused_of_nodes S M.nodes M.next
  root := M.root

lemma held (S : t.Sound) (inside : t.Under p d')
    (names : ∀ old, t.entry d' n' = some old → ∀ x m, t.entry x m = some old → t.Under p x)
    (H : t.Held p i) : t'.Held p i := by
  refine (M.changed S).held S (fun i below kept => ?_) (fun x m i new => ?_) names H
  · unfold Under
    rw [M.entry]
    exact below_of_moved M.named M.bare M.apart inside below kept
  · unfold Under
    rw [M.entry, new.2.2]
    exact below_moved M.named M.bare M.apart inside

end Moved

end Velda.Posix.Tree
