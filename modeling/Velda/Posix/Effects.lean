import Velda.Lib.Outcome
import Velda.Posix.Calls

/-! What a call does that is given a confined name: it reads or changes the directory it is
given, or the entry of that name, and the tree by one of the three changes. -/
variable {flags : OpenFlags} {o : Opened} {p : Place}

namespace Velda.Posix
open Lib List Option

def Confined (n : Name) : Prop := '/' ∉ n ∧ n ≠ ['.', '.']

instance (n : Name) : Decidable (Confined n) := inferInstanceAs (Decidable (_ ∧ _))

lemma IsEntry.confined (plain : IsEntry n) : Confined n := ⟨plain.2.1, plain.2.2.2⟩

variable {t t' : Tree} {d d' i c : Ino} {n n' : Name}

namespace Confined

lemma components (h : Confined n) (nonempty : n ≠ []) : components n = [n] := by
  simp [Posix.components, splitOn_eq_singleton h.1, nonempty]

lemma not_asDirectory (h : Confined n) : asDirectory n = false := by
  have ne : n.getLast? ≠ some '/' := fun last => h.1 (mem_of_getLast? last)
  simpa [asDirectory] using ne

lemma start (h : Confined n) : t.start d n = d := by
  refine if_neg fun first => h.1 (mem_of_head? first)

end Confined

namespace Tree

lemma walkLinks_single {follow : Bool} (up : n ≠ ['.', '.'])
    (still : ∀ j, t.entry d n = some j → follow = true → t.target j = none)
    (found : t.walkLinks follow k d [n] = .ok i) : (i = d ∧ n = ['.']) ∨ t.entry d n = some i := by
  cases k with
  | zero => cases found
  | succ k =>
    unfold walkLinks walk at found
    cases isDir : t.dir d with
    | none => simp [isDir] at found
    | some x =>
      simp only [isDir, if_neg up] at found
      by_cases here : n = ['.']
      · rw [if_pos here] at found
        exact .inl ⟨(Except.ok.inj found).symm, here⟩
      · rw [if_neg here] at found
        have named : t.entry d n = x.lookup n := by simp [entry, isDir]
        cases child : x.lookup n with
        | none => simp [child] at found
        | some j =>
          rw [named, child]
          have stop := still j (named.trans child)
          rw [child] at found
          cases link : t.target j with
          | none =>
            simp only [link] at found
            exact .inr (congrArg some (Except.ok.inj found))
          | some target =>
            have nofollow : follow = false := by
              by_contra follows
              rw [stop (by simpa using follows)] at link
              cases link
            simp only [link, nofollow] at found
            exact .inr (congrArg some (Except.ok.inj found))

lemma resolve_confined {follow : Bool} (plain : Confined n)
    (still : ∀ j, t.entry d n = some j → follow = true → t.target j = none)
    (found : t.resolve d n follow = .ok i) : (i = d ∧ n = ['.']) ∨ t.entry d n = some i := by
  unfold resolve at found
  split at found
  · cases found
  · next nonempty =>
    rw [plain.not_asDirectory, plain.start, plain.components nonempty, Bool.or_false] at found
    obtain ⟨j, walked, ended⟩ := exists_of_bind_ok found
    have same : j = i := by simpa using ended
    exact walkLinks_single plain.2 still (same ▸ walked)

lemma resolve_unfollowed (plain : Confined n) (found : t.resolve d n false = .ok i) :
    (i = d ∧ n = ['.']) ∨ t.entry d n = some i := by
  refine resolve_confined plain (fun j _ follows => ?_) found
  cases follows

/-- Where the last part of a path is the directory itself, it makes no difference whether a
link at the end is followed. -/
lemma walkLinks_dot (follow : Bool) (k : Nat) (l : List Name) :
    t.walkLinks follow k d (l ++ [['.']]) = t.walkLinks true k d (l ++ [['.']]) := by
  induction k generalizing d l with
  | zero => rfl
  | succ k ih =>
    unfold walkLinks
    induction l generalizing d with
    | nil => rfl
    | cons n rest inner =>
      rw [cons_append]
      unfold walk
      simp only [inner, append_eq_nil_iff, reduceCtorEq, and_false, false_and,
        ← append_assoc, ih]

lemma components_dot (path : Name) :
    components (path ++ ['/', '.']) = components path ++ [['.']] := by
  unfold components
  rw [splitOn_append_cons_self, filter_append]
  rfl

lemma resolve_dot (path : Name) (follow : Bool) :
    t.resolve d (path ++ ['/', '.']) follow = t.resolve d (path ++ ['/', '.']) true := by
  unfold resolve
  rw [components_dot, walkLinks_dot, walkLinks_dot (true || _)]

lemma parentOf_confined (plain : Confined n) (found : t.parentOf d n = .ok p) : p = ⟨d, n⟩ := by
  unfold parentOf at found
  split at found
  · cases found
  · next nonempty =>
    rw [plain.start, plain.components nonempty] at found
    obtain ⟨e, walked, ended⟩ := exists_of_bind_ok found
    have here : d = e := Except.ok.inj walked
    split at ended
    · cases ended
    · rw [here]
      exact (Except.ok.inj ended).symm

lemma parentOf_isDir (found : t.parentOf d n = .ok p) : (t.info p.dir).isSome := by
  unfold parentOf at found
  split at found
  · cases found
  · obtain ⟨e, -, ended⟩ := exists_of_bind_ok found
    split at ended
    · cases ended
    · next isDir =>
      cases ended
      rw [info, isSome_map]
      simpa [isSome_iff_ne_none] using isDir

lemma freeName_ok (free : t.freeName d n = .ok ()) :
    IsEntry n ∧ t.entry d n = none ∧ ∃ q, t.info d = some (q, false) := by
  unfold freeName at free
  cases isDir : t.dir d with
  | none => simp [isDir] at free
  | some x =>
    simp only [isDir] at free
    split at free
    · cases free
    next plain =>
    split at free
    · cases free
    next live =>
    push Not at plain
    refine ⟨plain.1, ?_, x.parent, ?_⟩
    · simpa [entry, isDir] using plain.2
    · simp [info, isDir, live]

lemma isSome_of_info (found : t.info d = some x) : (t.info d).isSome := by
  rw [found]
  rfl

lemma grown_make (S : t.Sound) (free : t.freeName d n = .ok ())
    (bare : ∀ x, kind.dir = some x → x = { entries := .empty, parent := d }) :
    Grown t (t.make d n kind) d n t.next := by
  obtain ⟨plain, none, q, live⟩ := freeName_ok free
  have unused := S.unused t.next le_rfl
  have entries (node : Node) (same : node.kind = kind) : (t.alloc node).entry = t.entry :=
    t.entry_alloc unused fun x found m => by
      rw [bare x (same ▸ found)]
      rfl
  have other : d ≠ t.next := fun same => by
    subst same
    simp [info, dir, unused] at live
  have isDir : ((t.alloc ⟨kind, (t.mountId d).getD 0⟩).info d).isSome := by
    rw [info_alloc, if_neg other, live]
    rfl
  refine
    { entry := by rw [make, entry_enter _ isDir, entries _ rfl]
      free := none, plain := plain, live := ⟨q, live⟩
      info := fun i ne => by rw [make, info_enter, info_alloc, if_neg ne]
      own := fun q r found => ?_
      other := fun same => by
        have := S.rootDir
        rw [← same] at this
        simp [info, dir, unused] at this
      known := by
        rw [make, enter, nodes_setDir_isSome]
        simp [alloc]
      nodes := fun i known => ?_
      unused := fun i le => ?_
      root := rfl }
  · rw [make, info_enter, info_alloc, if_pos rfl] at found
    obtain ⟨x, isDirectory, same⟩ := map_eq_some_iff.mp found
    rw [bare x isDirectory] at same
    cases same
    refine ⟨rfl, rfl, fun y m named => ?_⟩
    have known := S.known y m t.next named
    rw [unused] at known
    cases known
  · rw [make, enter, nodes_setDir_isSome]
    unfold alloc
    dsimp only
    split
    · rfl
    · exact known
  · have later : t.next + 1 ≤ i := le
    have none : ((t.make d n kind).nodes i).isSome = false := by
      rw [make, enter, nodes_setDir_isSome]
      simp [alloc, S.unused i (Nat.le_of_succ_le later), Nat.ne_of_gt later]
    exact not_isSome_iff_eq_none.mp (by simp [none])

lemma grown_link (S : t.Sound) (free : t.freeName d n = .ok ()) (known : (t.nodes i).isSome)
    (file : t.dir i = none) : Grown t (t.enter d n i) d n i := by
  obtain ⟨plain, none, q, live⟩ := freeName_ok free
  have notDir : t.info i = .none := by simp [info, file]
  exact
    { entry := t.entry_enter (isSome_of_info live) n i
      free := none, plain := plain, live := ⟨q, live⟩
      info := fun j _ => by rw [info_enter]
      own := fun q r found => by
        rw [info_enter, notDir] at found
        cases found
      other := fun same => by
        have := S.rootDir
        rw [← same, notDir] at this
        cases this
      known := by rw [enter, nodes_setDir_isSome, known]
      nodes := fun j known => by rw [enter, nodes_setDir_isSome, known]
      unused := fun j le => unused_of_nodes S (fun j => nodes_setDir_isSome ..) rfl j le
      root := rfl }

section

variable (S : t.Sound) (plain : Confined n)
include S plain

lemma makeAt_ok {kind : Ino → Kind}
    (bare : ∀ x, (kind d).dir = some x → x = { entries := .empty, parent := d })
    (made : t.makeAt d n kind = .ok (d', t')) : d' = d ∧ Grown t t' d n t.next := by
  obtain ⟨p, place, made⟩ := exists_of_bind_ok made
  obtain rfl := parentOf_confined plain place
  obtain ⟨_, free, made⟩ := exists_of_bind_ok made
  split at made
  · cases made
  · cases made
    exact ⟨rfl, grown_make S free bare⟩

lemma mkdirat_ok (made : t.mkdirat d n = .ok (d', t')) : d' = d ∧ Grown t t' d n t.next := by
  refine makeAt_ok S plain (fun x found => ?_) made
  exact (Option.some.inj found).symm

lemma symlinkat_ok {target : Name}
    (made : t.symlinkat target d n = .ok (d', t')) : d' = d ∧ Grown t t' d n t.next := by
  unfold symlinkat at made
  split at made
  · cases made
  · refine makeAt_ok S plain (fun x found => ?_) made
    cases found

lemma linkat_ok (known : (t.nodes i).isSome)
    (linked : t.linkat i d n = .ok (d', t')) : d' = d ∧ Grown t t' d n i := by
  obtain ⟨p, place, linked⟩ := exists_of_bind_ok linked
  obtain rfl := parentOf_confined plain place
  obtain ⟨_, free, linked⟩ := exists_of_bind_ok linked
  split at linked
  · cases linked
  split at linked
  · cases linked
  split at linked
  · cases linked
  next file =>
  cases linked
  exact ⟨rfl, grown_link S free known (not_isSome_iff_eq_none.mp file)⟩

end

lemma openExisting_ok (opened : t.openExisting flags i = .ok o) : o = ⟨i, t, none⟩ := by
  obtain ⟨_, -, opened⟩ := exists_of_bind_ok opened
  exact (Except.ok.inj opened).symm

lemma openat_plain (existing : flags.create = false) (opened : t.openat d n flags = .ok o) :
    t.resolve d n (!flags.noFollow) = .ok o.file := by
  unfold openat at opened
  rw [if_pos (by simp [existing])] at opened
  obtain ⟨i, found, opened⟩ := exists_of_bind_ok opened
  obtain rfl := openExisting_ok opened
  exact found

/-- What `openat` opens for a confined name: the directory itself or its entry of that name,
with nothing changed, or a new file that got the name. -/
def OpensAt (t : Tree) (d : Ino) (n : Name) (o : Opened) : Prop :=
  (o.tree = t ∧ o.created = none ∧ (o.file = d ∨ t.entry d n = some o.file)) ∨
    (o.created = some d ∧ Grown t o.tree d n o.file)

lemma openPlace_ok (S : t.Sound) (opened : t.openPlace flags ⟨d, n⟩ = .ok o) :
    OpensAt t d n o := by
  unfold openPlace at opened
  split at opened
  · cases opened
  cases named : t.entry d n with
  | some j =>
    simp only [named] at opened
    split at opened
    · cases opened
    · obtain rfl := openExisting_ok opened
      exact .inl ⟨rfl, rfl, .inr named⟩
  | none =>
    simp only [named] at opened
    obtain ⟨_, free, opened⟩ := exists_of_bind_ok opened
    cases opened
    refine .inr ⟨rfl, grown_make S free fun x found => ?_⟩
    cases found

/-- A symbolic link is not followed if the name is no link, or the flags forbid it. -/
def Still (t : Tree) (d : Ino) (n : Name) (flags : OpenFlags) : Prop :=
  ∀ j, t.entry d n = some j → t.target j = none ∨ flags.noFollow = true ∨
    (flags.excl = true ∧ flags.create = true ∧ flags.path = false)

lemma openat_ok (S : t.Sound) (plain : Confined n) (still : t.Still d n flags)
    (opened : t.openat d n flags = .ok o) : OpensAt t d n o := by
  unfold openat at opened
  split at opened
  · next plainOpen =>
    obtain ⟨j, found, opened⟩ := exists_of_bind_ok opened
    obtain rfl := openExisting_ok opened
    have unfollowed (j) (named : t.entry d n = some j) (follows : (!flags.noFollow) = true) :
        t.target j = none := by
      rcases still j named with file | nofollow | ⟨-, create, noPath⟩
      · exact file
      · simp [nofollow] at follows
      · simp [create, noPath] at plainOpen
    exact .inl ⟨rfl, rfl, (resolve_confined plain unfollowed found).imp_left And.left⟩
  split at opened
  · cases opened
  split at opened
  · cases opened
  split at opened
  · obtain ⟨p, place, opened⟩ := exists_of_bind_ok opened
    obtain rfl := parentOf_confined plain place
    exact openPlace_ok S opened
  · next follows =>
    obtain ⟨p, place, opened⟩ := exists_of_bind_ok opened
    obtain ⟨q, first, place⟩ := exists_of_bind_ok place
    obtain rfl := parentOf_confined plain first
    have file : (t.entry d n).bind t.target = none := by
      cases named : t.entry d n with
      | none => rfl
      | some j =>
        rcases still j named with file | nofollow | ⟨excl, -⟩
        · exact file
        · exact absurd (.inr nofollow) follows
        · exact absurd (.inl excl) follows
    simp only [file] at place
    cases place
    exact openPlace_ok S opened

lemma info_retire (i j : Ino) :
    (t.retire i).info j = if j = i then (t.info j).map fun x => (x.1, true) else t.info j := by
  unfold retire
  rw [info_setDir, info, Option.map_map]
  rfl

lemma info_reparent (i q j : Ino) :
    (t.reparent i q).info j = if j = i then (t.info j).map fun x => (q, x.2) else t.info j := by
  unfold reparent
  rw [info_setDir, info, Option.map_map]
  rfl

lemma entry_of_empty (found : t.dir i = some x) (empty : x.entries.entries = []) (m : Name) :
    t.entry i m = none := by
  simp [entry, found, Directory.lookup, Keyed.lookup, empty]

lemma unlinkat_ok (plain : Confined n) (removed : t.unlinkat d n removeDir = .ok u) :
    u.place = d ∧ Dropped t u.tree d n u.file ∧ (removeDir = true → (t.info u.file).isSome) := by
  obtain ⟨p, place, removed⟩ := exists_of_bind_ok removed
  obtain rfl := parentOf_confined plain place
  split at removed
  · cases removed
  cases named : t.entry d n with
  | none => simp [named] at removed
  | some i =>
    simp only [named] at removed
    unfold unlinkPlace at removed
    split at removed
    · cases removed
    · cases removed
    · next isFile _ =>
      split at removed
      · cases removed
      cases removed
      have notDir : t.info i = none := by simp [info, isFile]
      refine ⟨rfl, ?_, fun isDir => nomatch isDir⟩
      exact
        { entry := t.entry_leave d n, named := named, bare := entry_eq_none notDir
          info := fun j _ => by rw [info_leave]
          own := fun q r found => by
            rw [info_leave, notDir] at found
            cases found
          nodes := fun j => nodes_setDir_isSome .., next := rfl, root := rfl }
    · next x isDir _ =>
      split at removed
      · cases removed
      split at removed
      · cases removed
      next empty =>
      cases removed
      refine ⟨rfl, ?_, fun _ => by simp [info, isDir]⟩
      refine
        { entry := by rw [entry_retire, entry_leave]
          named := named, bare := entry_of_empty isDir (not_not.mp empty)
          info := fun j ne => by rw [info_retire, if_neg ne, info_leave]
          own := fun q r found => ?_
          nodes := fun j => ?_, next := rfl, root := rfl }
      · rw [info_retire, if_pos rfl, info_leave] at found
        obtain ⟨y, old, same⟩ := map_eq_some_iff.mp found
        cases same
        exact ⟨rfl, isSome_of_info old⟩
      · rw [retire, nodes_setDir_isSome, leave, nodes_setDir_isSome]

lemma Sound.lt_next (S : t.Sound) (isDir : (t.info i).isSome) : i < t.next := by
  by_contra ge
  have none := S.unused i (Nat.le_of_not_lt ge)
  simp [info, dir, none] at isDir

lemma isAncestor_of_under (S : t.Sound) (below : t.Under c d) (isDir : (t.info d).isSome) :
    t.isAncestor c d = true := by
  have back (d n c) (named : t.entry d n = some c) (isDir : (t.info c).isSome) : t.up c = d := by
    obtain ⟨⟨q, r⟩, found⟩ := isSome_iff_exists.mp isDir
    obtain ⟨x, node, same⟩ := map_eq_some_iff.mp found
    rw [up, node, ← (S.parent d n c q r named found).1]
    exact congrArg Prod.fst same
  have holder (d n c) (named : t.entry d n = some c) := Sound.isDir named
  obtain ⟨k, top, along⟩ := Below.exists_iterate back holder below isDir
  obtain ⟨j, lt, reached⟩ := exists_iterate_lt top fun j le => S.lt_next (along j le)
  exact any_eq_true.mpr ⟨j, mem_range.mpr lt, by simpa using reached⟩

lemma not_under_of_check (S : t.Sound) (isDir : (t.info d).isSome)
    (checked : ¬ ((t.dir c).isSome ∧ t.isAncestor c d = true)) : ¬ t.Under c d := by
  intro below
  have apart : ¬ (t.dir c).isSome := fun found =>
    checked ⟨found, isAncestor_of_under S below isDir⟩
  have notDir : t.info c = none := by
    simpa [info] using apart
  have same := Below.eq_of_bare (entry_eq_none notDir) below
  rw [same, notDir] at isDir
  cases isDir

lemma moved_move (S : t.Sound) (named : t.entry p.dir p.name = some c)
    (bare : ∀ old, t.entry q.dir q.name = some old → ∀ m, t.entry old m = none)
    (replaced : t.entry q.dir q.name ≠ some c) (plain : IsEntry q.name)
    (live : ∃ x, t.info q.dir = some (x, false)) (apart : ¬ t.Under c q.dir) :
    Moved t (t.move p q c) p.dir p.name q.dir q.name c := by
  obtain ⟨x, isDir⟩ := live
  set u := ((t.leave p.dir p.name).enter q.dir q.name c).reparent c q.dir with hu
  have entries : u.entry = setName (setName t.entry p.dir p.name none) q.dir q.name (some c) := by
    have known : ((t.leave p.dir p.name).info q.dir).isSome := by
      rw [info_leave]
      exact isSome_of_info isDir
    rw [hu, entry_reparent, entry_enter _ known, entry_leave]
  have infos (j : Ino) :
      u.info j = if j = c then (t.info j).map fun x => (q.dir, x.2) else t.info j := by
    rw [hu, info_reparent, info_enter, info_leave]
  have nodes (j : Ino) : (u.nodes j).isSome = (t.nodes j).isSome := by
    rw [hu, reparent, nodes_setDir_isSome, enter, nodes_setDir_isSome, leave, nodes_setDir_isSome]
  have own (y : Ino) (r : Bool) (found : u.info c = some (y, r)) :
      y = q.dir ∧ r = false ∧ (t.info c).isSome := by
    rw [infos, if_pos rfl] at found
    obtain ⟨z, old, same⟩ := map_eq_some_iff.mp found
    cases same
    exact ⟨rfl, (S.parent _ _ c z.1 z.2 named old).2, isSome_of_info old⟩
  cases place : t.entry q.dir q.name with
  | none =>
    have same : t.move p q c = u := by simp [move, place, hu]
    rw [same]
    exact
      { entry := entries, named := named, bare := bare, replaced := replaced, plain := plain
        live := ⟨x, isDir⟩, apart := apart, own := own, nodes := nodes
        info := fun j ne _ => by rw [infos, if_neg ne]
        retired := fun old found => by simp [place] at found
        next := rfl, root := rfl }
  | some old =>
    have same : t.move p q c = u.retire old := by simp [move, place, hu]
    have other : c ≠ old := fun eq => replaced (eq ▸ place)
    rw [same]
    refine
      { entry := by rw [entry_retire, entries]
        named := named, bare := bare, replaced := replaced, plain := plain
        live := ⟨x, isDir⟩, apart := apart
        own := fun y r found => own y r (by rwa [info_retire, if_neg other] at found)
        nodes := fun j => by rw [retire, nodes_setDir_isSome, nodes]
        info := fun j ne kept => ?_
        retired := fun old' found y r removed => ?_
        next := rfl, root := rfl }
    · have stays : j ≠ old := fun eq => kept (eq ▸ place)
      rw [info_retire, if_neg stays, infos, if_neg ne]
    · rw [place] at found
      cases found
      rw [info_retire, if_pos rfl, infos, if_neg other.symm] at removed
      obtain ⟨z, before, same⟩ := map_eq_some_iff.mp removed
      cases same
      exact ⟨rfl, isSome_of_info before⟩

lemma replaceable_ok (checked : t.replaceable c i = .ok ()) (m : Name) : t.entry i m = none := by
  unfold replaceable at checked
  split at checked
  · cases checked
  · cases checked
  · next isFile => exact entry_eq_none (by simp [info, isFile]) m
  · next x isDir =>
    split at checked
    · cases checked
    · next empty => exact entry_of_empty isDir (not_not.mp empty) m

lemma renameat_ok (S : t.Sound) (plain : Confined n) (plain' : Confined n')
    (renamed : t.renameat d n d' n' = .ok r) :
    r.source = d ∧ r.place = d' ∧ t.entry d n = some r.file ∧ (t.info d').isSome ∧
      (∀ old, r.old = some old → t.entry d' n' = some old) ∧
      (r.tree = t ∨ Moved t r.tree d n d' n' r.file) := by
  obtain ⟨p, source, renamed⟩ := exists_of_bind_ok renamed
  obtain rfl := parentOf_confined plain source
  obtain ⟨q, place, renamed⟩ := exists_of_bind_ok renamed
  have isDir := parentOf_isDir place
  obtain rfl := parentOf_confined plain' place
  split at renamed
  · cases renamed
  split at renamed
  · cases renamed
  next entries =>
  push Not at entries
  cases named : t.entry d n with
  | none => simp [named] at renamed
  | some c =>
    simp only [named] at renamed
    split at renamed
    · cases renamed
    split at renamed
    · cases renamed
    split at renamed
    · cases renamed
    next checked =>
    have apart := not_under_of_check S isDir checked
    unfold renamePlace at renamed
    cases there : t.entry d' n' with
    | none =>
      simp only [there] at renamed
      obtain ⟨_, free, renamed⟩ := exists_of_bind_ok renamed
      cases renamed
      refine ⟨rfl, rfl, rfl, isDir, (fun old found => nomatch found), .inr ?_⟩
      refine moved_move S named ?_ ?_ entries.2 (freeName_ok free).2.2 apart
      · intro old found
        cases there.symm.trans found
      · intro found
        cases there.symm.trans found
    | some old =>
      simp only [there] at renamed
      split at renamed
      · cases renamed
        exact ⟨rfl, rfl, rfl, isDir, (fun old found => nomatch found), .inl rfl⟩
      next other =>
      split at renamed
      · cases renamed
      obtain ⟨_, checked, renamed⟩ := exists_of_bind_ok renamed
      cases renamed
      refine ⟨rfl, rfl, rfl, isDir, fun old' found => found, .inr ?_⟩
      refine moved_move S named ?_ ?_ entries.2 ?_ apart
      · intro old' found
        cases there.symm.trans found
        exact replaceable_ok checked
      · intro found
        cases there.symm.trans found
        exact other rfl
      · -- a directory that was removed has no entries
        obtain ⟨⟨y, gone⟩, info⟩ := isSome_iff_exists.mp isDir
        cases gone with
        | false => exact ⟨y, info⟩
        | true => cases there.symm.trans (S.emptied d' y n' info)

end Tree

end Velda.Posix
