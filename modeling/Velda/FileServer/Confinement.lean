import Velda.Lib.Run
import Velda.FileServer.Kept

/-! What a session reaches. As long as its requests use names that lead from a directory to
itself or to an entry of it, and a file that loses a name has none outside, everything the
server opens, changes or returns a handle of lies in the subtree the session has mounted.
The server checks neither: a lookup of `..` leaves the subtree. -/
variable {x : Exports} {flags : OpenFlags} {hasOwner hasSha256 : Bool} {req : Request}

namespace Velda.FileServer
open Lib Posix List

variable {p d d' fd i : Ino} {n n' : Name} {s s' : Server}

/-- Every name of the file `n` in `d` is in the subtree. -/
def NamesInside (t : Tree) (p d : Ino) (n : Name) : Prop :=
  ∀ i, t.entry d n = some i → ∀ x m, t.entry x m = some i → t.Under p x

lemma leads_change (changed : ∀ i ∈ l, s.tree.Held p i) (sound : t.Sound)
    (held : ∀ i, s.tree.Held p i → t.Held p i) :
    Leads (Kept p) s (do recordAll .changed l; setTree t) fun _ => Inside p [] := by
  refine (leads_recordAll .changed changed).bind fun _ s₁ _ tree₁ => ?_
  exact (leads_setTree sound fun i => tree₁ ▸ held i).mono fun _ _ _ _ => .nil

lemma leads_enterAt {call : Tree → Except Errno (Ino × Tree)} (I : Inv p s)
    (inside : s.tree.Held p d)
    (made : ∀ r, call s.tree = .ok r → r.1 = d ∧ ∃ i, Tree.Grown s.tree r.2 d n i) :
    Leads (Kept p) s (enterAt call) fun _ => Inside p [] := by
  refine (leads_query call).bind fun r s₁ _ found => ?_
  obtain ⟨tree₁, done⟩ := found
  obtain ⟨place, i, G⟩ := made r done
  refine leads_change ?_ (G.changed.sound I.sound) ?_
  · intro j mem
    rw [mem_singleton.mp mem, place, tree₁]
    exact inside
  · rw [tree₁]
    exact fun j => G.held I.sound (under_of_grown G inside)

lemma leads_unlinkat (I : Inv p s) (inside : s.tree.Held p d) (plain : Confined n)
    (names : removeDir = false → NamesInside s.tree p d n) :
    Leads (Kept p) s (unlinkat d n removeDir) fun _ => Inside p [] := by
  refine (leads_query _).bind fun u s₁ _ found => ?_
  obtain ⟨tree₁, done⟩ := found
  obtain ⟨place, D, isDir⟩ := Tree.unlinkat_ok plain done
  have within (x m) (named : s.tree.entry x m = some u.file) : s.tree.Under p x := by
    cases removeDir with
    | false => exact names rfl u.file D.named x m named
    | true =>
      -- a directory has no second name
      rw [(I.sound.name_unique named D.named (isDir rfl)).1]
      exact inside.holder I.sound D.named
  refine leads_change (fun j mem => ?_) ((D.changed I.sound).sound I.sound) ?_
  · rw [tree₁]
    rcases mem_cons.mp mem with rfl | file
    · exact place ▸ inside
    · rw [mem_singleton.mp file]
      exact .inl (inside.entry I.sound D.named)
  · rw [tree₁]
    exact fun j => D.held I.sound within

lemma leads_renameat (I : Inv p s) (inside : s.tree.Held p d) (inside' : s.tree.Held p d')
    (plain : Confined n) (plain' : Confined n') (names : NamesInside s.tree p d' n') :
    Leads (Kept p) s (renameat d n d' n') fun _ => Inside p [] := by
  refine (leads_query _).bind fun r s₁ _ found => ?_
  obtain ⟨tree₁, done⟩ := found
  obtain ⟨source, place, named, -, replaced, change⟩ :=
    Tree.renameat_ok I.sound plain plain' done
  refine leads_change (fun j mem => ?_) ?_ ?_
  · rw [tree₁]
    simp only [mem_cons, Option.mem_toList] at mem
    rcases mem with rfl | rfl | rfl | old
    · exact source ▸ inside
    · exact place ▸ inside'
    · exact .inl (inside.entry I.sound named)
    · exact .inl (inside'.entry I.sound (replaced j old))
  · rcases change with same | M
    · exact same ▸ I.sound
    · exact (M.changed I.sound).sound I.sound
  · rw [tree₁]
    rcases change with same | M
    · exact fun j H => same ▸ H
    · obtain ⟨q, live⟩ := M.live
      exact fun j => M.held I.sound (inside'.under live) names

lemma leads_opened {rest : Ino → Handler Response} {Q : Response → List Ino} (I : Inv p s)
    (inside : Inside p l s) (mem : i ∈ l) (next : ∀ s', Inv p s' → Inside p l s' → s'.tree = s.tree
      → (s.tree.nodes i).isSome ∧ s.rootFd = some p → Leads (Kept p) s' (rest i) fun a => Inside p
      (Q a)) : Leads (Kept p) s (openByHandleAt i flags >>= rest) fun a => Inside p (Q a) := by
  refine (leads_openByHandleAt (inside i mem)).bind fun fd s₁ ext₁ opened => ?_
  obtain ⟨rfl, tree₁, known, isMounted⟩ := opened
  obtain ⟨q, mounted⟩ := Option.isSome_iff_exists.mp isMounted
  cases I.root q mounted
  exact next s₁ (ext₁.inv I) (inside.kept I ext₁) tree₁ ⟨known, mounted⟩

section Handlers
variable {l : List Ino}

lemma stays_done {x : Handler Unit} (h : Stays p l x fun _ => []) :
    Stays p l (do x; pure .done) Response.handles :=
  h.bind fun _ => .pure (nil_subset _)

lemma stays_useToken (use : Use) (token : UInt32) :
    Stays p l (do let fd ← resolveFd token; (do fault; record use fd); pure .done)
      Response.handles :=
  (stays_resolveFd token).bind fun _ => stays_done (stays_use use mem_cons_self)

lemma stays_useHandle (use : Use) (mem : i ∈ l) :
    Stays p l (do let fd ← openByHandleAt i flags; (do fault; record use fd); pure .done)
      Response.handles :=
  (stays_openByHandleAt mem).bind fun _ => stays_done (stays_use use mem_cons_self)

lemma stays_answerEntry (mem : d ∈ l) (plain : Confined n) :
    Stays p l (do let e ← entryOf d n; pure (.file e.fh e.attr)) Response.handles :=
  (stays_entryOf mem plain).bind fun _ => .pure (by simp [Response.handles])

lemma stays_handleLookup (mem : d ∈ l) (plain : Confined n) :
    Stays p l (handleLookup d n) Response.handles := by
  refine (stays_openByHandleAt mem).bind fun fd => ?_
  refine (stays_entryOf mem_cons_self plain).bind fun e => ?_
  exact (stays_enqueuePreload mem_cons_self).bind fun _ => .pure (by simp [Response.handles])

lemma stays_listEntry (mem : d ∈ l) (plain : Confined n) (preload : Bool) :
    Stays p l (listEntry d n preload) fun r => r.elim [] fun e : DirEntry => [e.fh] := by
  refine Stays.attempt (Q := fun e : DirEntry => [e.fh]) ?_
  refine (stays_entryOf mem plain).bind fun e => ?_
  exact (Stays.onlyIf fun _ => stays_enqueuePreload mem_cons_self).bind fun _ => .pure (by simp)

lemma stays_readDir {α : Type} {rest : List (Name × Ino) → Handler α} {Q : α → List Ino}
    (next : ∀ es, (∀ e ∈ es, Confined e.1) → Stays p l (rest es) Q) :
    Stays p l (readDir fd >>= rest) Q := by
  intro s I inside
  refine (leads_query _).bind fun es s₁ ext₁ found => ?_
  refine next es (fun e mem => ?_) s₁ (ext₁.inv I) (inside.kept I ext₁)
  have listed := found.2
  cases isDir : s.tree.dir fd with
  | none => simp [isDir] at listed
  | some x =>
    simp only [isDir, Except.ok.injEq] at listed
    rw [← listed] at mem
    have stored : x.entries.lookup e.1 = some e := Keyed.lookup_eq_some_iff.mpr ⟨mem, rfl⟩
    refine (I.sound.plain fd e.1 e.2 ?_).confined
    simp [Tree.entry, isDir, Directory.lookup, stored]

lemma stays_entries {es : List (Name × Ino)} (mem : d ∈ l) (plain : ∀ e ∈ es, Confined e.1)
    (preload : Bool) :
    Stays p l (collect (fun e => listEntry d e.1 preload) es) fun es => es.map (·.fh) := by
  simp only [map_eq_flatMap]
  exact .collect fun e listed => stays_listEntry mem (plain e listed) preload

lemma stays_handleReadDir (mem : d ∈ l) : Stays p l (handleReadDir d) Response.handles := by
  refine (stays_openByHandleAt mem).bind fun fd => stays_readDir fun es plain => ?_
  exact (stays_entries mem_cons_self plain true).bind fun es => .pure (subset_append_left _ _)

lemma stays_handleReadlink (mem : i ∈ l) : Stays p l (handleReadlink i) Response.handles := by
  refine (stays_openByHandleAt mem).bind fun fd => ?_
  refine (Stays.query (Q := fun _ => []) fun _ _ _ _ _ => forall_mem_nil _).bind fun _ => ?_
  exact .pure (nil_subset _)

lemma stays_changeIf {c : Prop} [Decidable c] (mem : fd ∈ l) :
    Stays p l (onlyIf c (changeFd fd)) fun _ => [] :=
  .onlyIf fun _ => stays_use .changed mem

lemma leads_handleCreate (I : Inv p s) (inside : Inside p l s) (mem : d ∈ l)
    (plain : Confined n) (still : s.tree.Still d n { flags with create := true }) :
    Leads (Kept p) s (handleCreate d n flags hasOwner) fun a => Inside p a.handles := by
  refine leads_opened I inside mem fun s₁ I₁ inside₁ tree₁ _ => ?_
  have opened := leads_openat I₁ (inside₁ d mem) plain (tree₁ ▸ still)
  refine leads_stays I₁ inside₁ opened fun fd => ?_
  refine (stays_changeIf mem_cons_self).bind fun _ => ?_
  refine (stays_entryOf (mem_cons_of_mem _ mem) plain).bind fun e => ?_
  refine (stays_trackFd (mem_cons_of_mem _ mem_cons_self)).bind fun _ => .pure ?_
  simp [Response.handles]

lemma stays_handleOpen (mem : i ∈ l) :
    Stays p l (handleOpen i flags hasOwner) Response.handles := by
  refine (stays_openByHandleAt mem).bind fun fd => ?_
  refine (stays_changeIf mem_cons_self).bind fun _ => (stays_fstat fd).bind fun attr => ?_
  exact (stays_trackFd mem_cons_self).bind fun _ => .pure (nil_subset _)

lemma stays_handleMake {call : Tree → Ino → Name → Except Errno (Ino × Tree)} (mem : d ∈ l)
    (plain : Confined n) (made : ∀ t r, t.Sound → call t d n = .ok r →
      r.1 = d ∧ Tree.Grown t r.2 d n t.next) :
    Stays p l (handleMake call d n hasOwner) Response.handles := by
  intro s I inside
  refine leads_opened I inside mem fun s₁ I₁ inside₁ _ _ => ?_
  refine leads_stays I₁ inside₁ (leads_enterAt (n := n) I₁ (inside₁ d mem) fun r done => ?_)
    fun _ => ?_
  · exact (made s₁.tree r I₁.sound done).imp_right fun G => ⟨_, G⟩
  have owner : Stays p l (fchownat d n) fun _ => [] := by
    refine (Stays.query (Q := fun i => [i]) fun t i S found inside j own => ?_).bind fun i =>
      stays_recordAll .changed (by simp)
    rw [mem_singleton.mp own]
    exact held_resolve S (inside d mem) plain found
  refine (Stays.onlyIf fun _ => owner).bind fun _ => ?_
  exact stays_answerEntry mem plain

lemma stays_handleLink (target : i ∈ l) (mem : d ∈ l) (plain : Confined n) :
    Stays p l (handleLink i d n) Response.handles := by
  intro s I inside
  refine leads_opened I inside target fun s₁ I₁ inside₁ tree₁ known => ?_
  refine leads_opened I₁ inside₁ mem fun s₂ I₂ inside₂ tree₂ _ => ?_
  have known₂ : (s₂.tree.nodes i).isSome := tree₂ ▸ tree₁ ▸ known.1
  refine leads_stays I₂ inside₂ (leads_enterAt (n := n) I₂ (inside₂ d mem) fun r done => ?_)
    fun _ => stays_answerEntry mem plain
  exact (Tree.linkat_ok I₂.sound plain known₂ done).imp_right fun G => ⟨i, G⟩

lemma leads_handleRemove (I : Inv p s) (inside : Inside p l s) (mem : d ∈ l) (plain : Confined n)
    (names : removeDir = false → ∀ p, s.rootFd = some p → NamesInside s.tree p d n) :
    Leads (Kept p) s (handleRemove removeDir d n) fun a => Inside p a.handles := by
  refine leads_opened I inside mem fun s₁ I₁ inside₁ tree₁ mounted => ?_
  rw [← tree₁] at names
  have removed := leads_unlinkat I₁ (inside₁ d mem) plain fun isFile => names isFile p mounted.2
  exact leads_stays I₁ inside₁ removed fun _ => .pure (nil_subset _)

lemma leads_handleRename (I : Inv p s) (inside : Inside p l s) (mem : d ∈ l) (mem' : d' ∈ l)
    (plain : Confined n) (plain' : Confined n')
    (names : ∀ p, s.rootFd = some p → NamesInside s.tree p d' n') :
    Leads (Kept p) s (handleRename d n d' n') fun a => Inside p a.handles := by
  refine leads_opened I inside mem fun s₁ I₁ inside₁ tree₁ mounted => ?_
  refine leads_opened I₁ inside₁ mem' fun s₂ I₂ inside₂ tree₂ _ => ?_
  rw [← tree₁, ← tree₂] at names
  have renamed := leads_renameat I₂ (inside₂ d mem) (inside₂ d' mem') plain plain'
    (names p mounted.2)
  exact leads_stays I₂ inside₂ renamed fun _ => .pure (nil_subset _)

lemma stays_handleSetattr (mem : i ∈ l) : Stays p l (handleSetattr i valid) Response.handles := by
  refine (stays_openByHandleAt mem).bind fun fd => ?_
  refine (stays_changeIf mem_cons_self).bind fun _ => ?_
  refine (stays_changeIf mem_cons_self).bind fun _ => ?_
  refine (Stays.onlyIf fun _ => ?_).bind fun _ => ?_
  · exact (stays_openByHandleAt (mem_cons_of_mem _ mem)).bind fun _ =>
      stays_use .changed mem_cons_self
  refine (stays_changeIf mem_cons_self).bind fun _ => ?_
  exact (stays_fstat fd).bind fun _ => .pure (nil_subset _)

lemma stays_flushFile (mem : i ∈ l) :
    Stays p l (flushFile i hasSha256) Response.handles := by
  refine (stays_use .used mem).bind fun _ => (stays_fstat i).bind fun attr => ?_
  refine (Stays.onlyIf fun _ => (stays_use .changed mem).tolerate).bind fun _ => ?_
  exact .pure (nil_subset _)

lemma stays_handleReleaseFd (token : UInt32) :
    Stays p l (handleReleaseFd token) Response.handles := by
  intro s I inside
  refine (leads_modify ?_).bind fun _ _ _ _ => .pure .nil
  refine .of_tree rfl rfl (fun _ a mem => .inl mem) (fun I k i found => ?_) fun I => I.queue
  rw [FdTable.lookupFd_closeFd] at found
  split at found
  · cases found
  · exact I.fds k i found

lemma stays_handleGetattr (mem : i ∈ l) :
    Stays p l (handleGetattr i) Response.handles := by
  refine (stays_openByHandleAt mem).bind fun fd => (stays_fstat fd).bind fun attr => ?_
  refine (Stays.onlyIf fun _ => (stays_use .used mem_cons_self).tolerate).bind fun _ => ?_
  exact .pure (nil_subset _)

lemma stays_walkAndSendDirectory (depth : Nat) (mem : i ∈ l) :
    Stays p l (walkAndSendDirectory depth i) fun _ => [] := by
  induction depth generalizing l i with
  | zero => exact .pure (nil_subset _)
  | succ depth ih =>
    refine (stays_openByHandleAt mem).bind fun fd => stays_readDir fun es plain => ?_
    refine .onlyIf fun _ => (stays_entries mem_cons_self plain false).bind fun es => ?_
    refine (stays_recordAll .returned (subset_append_left _ _)).bind fun _ => ?_
    refine (Stays.collect (P := fun _ => []) fun e own => ?_).bind fun _ => .pure (nil_subset _)
    have listed : e.fh ∈ es.map (·.fh) := mem_map_of_mem (mem_filter.mp own).1
    exact (ih (mem_append_left _ listed)).attempt

end Handlers

/-- The names of a request are confined, a link that leads elsewhere is not followed, and a
file that loses a name has none outside the subtree. A session is mounted once. -/
def Careful (s : Server) : Action → Prop
  | .request req _ =>
    match req with
    | .mount .. => s.rootFd = none
    | .lookup _ name | .mkdir _ name _ | .symlink _ name .. | .link _ _ name | .rmdir _ name =>
      Confined name
    | .create fh name flags _ => Confined name ∧ s.tree.Still fh name { flags with create := true }
    | .unlink fh name => Confined name ∧ ∀ p, s.rootFd = some p → NamesInside s.tree p fh name
    | .rename _ name fh' name' => Confined name ∧ Confined name' ∧
        ∀ p, s.rootFd = some p → NamesInside s.tree p fh' name'
    | _ => True
  | .preload _ => True

lemma leads_dispatch {faults : List (Option Errno)} (I : Inv p s)
    (own : Inside p req.handles s) (careful : Careful s (.request req faults))
    (mounted : ∀ version path, req ≠ .mount version path) :
    Leads (Kept p) s (dispatch x req) fun a => Inside p a.handles := by
  cases req with
  | mount version path => exact absurd rfl (mounted version path)
  | lookup fh name => exact stays_handleLookup mem_cons_self careful s I own
  | openFile fh flags hasOwner => exact stays_handleOpen mem_cons_self s I own
  | read fh => exact stays_useHandle .used mem_cons_self s I own
  | readFd token | lock token => exact stays_useToken .used token s I own
  | readDir fh => exact stays_handleReadDir mem_cons_self s I own
  | readlink fh => exact stays_handleReadlink mem_cons_self s I own
  | create fh name flags hasOwner =>
    exact leads_handleCreate I own mem_cons_self careful.1 careful.2
  | write fh => exact stays_useHandle .changed mem_cons_self s I own
  | writeFd token => exact stays_useToken .changed token s I own
  | mkdir fh name hasOwner =>
    refine stays_handleMake mem_cons_self careful (fun t r S made => ?_) s I own
    exact Tree.mkdirat_ok S careful made
  | unlink fh name =>
    exact leads_handleRemove I own mem_cons_self careful.1 fun _ => careful.2
  | rmdir fh name =>
    refine leads_handleRemove I own mem_cons_self careful fun isFile => ?_
    cases isFile
  | rename fh name fh' name' =>
    exact leads_handleRename I own mem_cons_self (mem_cons_of_mem fh mem_cons_self) careful.1
      careful.2.1 careful.2.2
  | setattr fh valid => exact stays_handleSetattr mem_cons_self s I own
  | symlink fh name target hasOwner =>
    refine stays_handleMake mem_cons_self careful (fun t r S made => ?_) s I own
    exact Tree.symlinkat_ok S careful made
  | link targetFh parentFh name =>
    exact stays_handleLink mem_cons_self (mem_cons_of_mem targetFh mem_cons_self) careful s I own
  | flush fh hasSha256 =>
    refine ((stays_openByHandleAt mem_cons_self).bind fun fd => ?_) s I own
    exact stays_flushFile mem_cons_self
  | flushFd token hasSha256 =>
    exact ((stays_resolveFd token).bind fun fd => stays_flushFile mem_cons_self) s I own
  | releaseFd token => exact stays_handleReleaseFd token s I own
  | getattr fh => exact stays_handleGetattr mem_cons_self s I own

lemma leads_handleRequest {faults : List (Option Errno)} (I : Inv p s)
    (own : Inside p req.handles s) (careful : Careful s (.request req faults))
    (mounted : ∀ version path, req ≠ .mount version path) :
    Leads (Kept p) s (handleRequest x req) fun _ => Inside p [] :=
  leads_stays I own (leads_dispatch I own careful mounted) fun _ =>
    stays_recordAll .returned (subset_append_left _ _)

/-- What a session has got at lies below the file it is mounted at, whichever that will be. -/
def Safe (s : Server) : Prop := ∀ p, (∀ q, s.rootFd = some q → q = p) → Inv p s

lemma Inv.faults (I : Inv p s) (l : List (Option Errno)) : Inv p { s with faults := l } :=
  (Kept.faults l).inv I

lemma Safe.kept (safe : Safe s) (kept : ∀ p, Inv p s → Kept p s s') : Safe s' := by
  intro p root
  cases mounted : s.rootFd with
  | none =>
    have I : Inv p s := safe p fun q named => by cases mounted.symm.trans named
    exact (kept p I).inv I
  | some q =>
    have I : Inv q s := safe q fun r named => Option.some.inj (named.symm.trans mounted)
    exact root q ((kept q I).root.trans mounted) ▸ (kept q I).inv I

lemma Inv.safe (I : Inv p s) (mounted : s.rootFd = some p) : Safe s :=
  fun _ root => root p mounted ▸ I

def Unmounted (s : Server) : Prop := s.rootFd = none ∧ ∀ p, Inv p s

def KeepsSafe (s s' : Server) : Prop := Safe s → Safe s'

instance : Std.Refl KeepsSafe := ⟨fun _ => id⟩

instance : IsTrans Server KeepsSafe := ⟨fun _ _ _ first second safe => second (first safe)⟩

lemma leads_query_unmounted {α : Type} (U : Unmounted s) (call : Tree → Except Errno α) :
    Leads KeepsSafe s (query call) fun a s' =>
      Unmounted s' ∧ s'.tree = s.tree ∧ call s.tree = .ok a := by
  refine (leads_query_of (fun l safe => safe.kept fun _ _ => .faults l) call).mono
    fun a s' _ found => ?_
  obtain ⟨⟨l, rfl⟩, ok⟩ := found
  exact ⟨⟨U.1, fun p => (U.2 p).faults l⟩, rfl, ok⟩

lemma leads_handleMount {path : Name} (U : Unmounted s) :
    Leads KeepsSafe s (handleMount x version path) fun resp s' =>
      ∃ p, Inv p s' ∧ s'.rootFd = some p ∧ resp.handles = [p] := by
  refine (Leads.ensure (Q := fun _ s' => s' = s) fun _ => rfl).bind fun _ s₁ _ same => ?_
  subst same
  refine (Leads.ensure (Q := fun _ s' => s' = s₁) fun _ => rfl).bind fun _ s₂ _ same => ?_
  subst same
  refine (Leads.ensure (Q := fun _ s' => s' = s₂) fun _ => rfl).bind fun _ s₃ _ same => ?_
  subst same
  refine (leads_query_unmounted U _).bind fun h s₄ _ found => ?_
  obtain ⟨U₄, tree₄, named⟩ := found
  refine (leads_query_unmounted U₄ _).bind fun rootFd s₅ _ opened => ?_
  obtain ⟨U₅, -, opened⟩ := opened
  refine (leads_query_unmounted U₅ _).bind fun attr s₆ _ found => ?_
  obtain ⟨U₆, -, -⟩ := found
  -- the handle and the descriptor are of one directory
  have same : h.fh = rootFd := by
    rw [tree₄] at opened
    obtain ⟨i, resolved, rfl⟩ := exists_of_map_ok named
    obtain ⟨o, opens, rfl⟩ := exists_of_map_ok opened
    rw [Tree.resolve_dot] at resolved
    exact Except.ok.inj (resolved.symm.trans (Tree.openat_plain rfl opens))
  refine Leads.bind (Q := fun _ s' => Inv rootFd s' ∧ s'.rootFd = some rootFd)
    ⟨fun _ s' done => ?_, fun e s' done => ?_⟩
    fun _ s₇ _ I => .pure ⟨rootFd, I.1, I.2, congrArg ([·]) same⟩
  · cases done
    have I : Inv rootFd { s₆ with rootFd := some rootFd, mountID := h.mountID } :=
      { U₆.2 rootFd with root := fun q named => (Option.some.inj named).symm }
    exact ⟨fun _ => I.safe rfl, I, rfl⟩
  · cases done

lemma leads_mount {path : Name} (U : Unmounted s) :
    Leads KeepsSafe s (handleRequest x (.mount version path)) fun _ _ => True := by
  refine (leads_handleMount U).bind fun resp s₁ _ mounted => ?_
  obtain ⟨p, I, mounted, handles⟩ := mounted
  have inside : Inside p resp.handles s₁ := by
    intro i mem
    rw [handles, mem_singleton] at mem
    exact .inl (mem ▸ Below.refl p)
  have answers := stays_recordAll .returned (Subset.refl resp.handles) s₁ I inside
  have safe (s') (K : Kept p s₁ s') : KeepsSafe s₁ s' :=
    fun _ => (K.inv I).safe (K.root.trans mounted)
  exact ⟨fun a s' done => ⟨safe s' (answers.ok a s' done).1, trivial⟩, fun e s' done =>
    safe s' (answers.error e s' done)⟩

def Permitted (s : Server) (a : Action) : Prop := OwnHandles s a ∧ Careful s a

lemma safe_step (safe : Safe s) (own : OwnHandles s a) (careful : Careful s a)
    (taken : step x s a = some s') : Safe s' := by
  cases a with
  | request req faults =>
    cases taken
    have start : Safe { s with faults } := safe.kept fun _ _ => .faults faults
    by_cases mounts : ∃ version path, req = .mount version path
    · obtain ⟨version, path, rfl⟩ := mounts
      have unmounted : Unmounted { s with faults } :=
        ⟨careful, fun p => start p fun q named => by cases named.symm.trans careful⟩
      exact (leads_mount unmounted).endState start
    · push Not at mounts
      have careful' : Careful { s with faults } (.request req faults) := careful
      refine start.kept fun p I =>
        (leads_handleRequest I (fun fh mem => ?_) careful' mounts).endState
      obtain ⟨a, logged, -, same⟩ := own fh mem
      exact same ▸ I.held a logged
  | preload faults =>
    unfold step at taken
    cases queue : s.preloadQueue with
    | nil => simp [queue] at taken
    | cons item rest =>
      simp only [queue, Option.some.injEq] at taken
      subst taken
      refine safe.kept fun p I => ?_
      have fewer : Kept p s { s with preloadQueue := rest, faults } :=
        .of_tree rfl rfl (fun _ a mem => .inl mem) (fun I => I.fds) fun I item mem =>
          I.queue item (queue ▸ mem_cons_of_mem _ mem)
      have held := I.queue item (queue ▸ mem_cons_self)
      have walked := stays_walkAndSendDirectory 2 mem_cons_self _ (fewer.inv I) (l := [item.fh])
      exact IsTrans.trans _ _ _ fewer (walked (by simpa [Inside] using held)).endState

/-- In a run of a session that is careful and uses its own handles, whatever the server
opens, uses, changes or returns a handle of lies in the subtree that was mounted. -/
theorem access_confined {x : Exports} {t : Tree} (S : t.Sound)
    (h : Reachable (step x) Permitted { tree := t } s) (mounted : s.rootFd = some p) :
    ∀ a ∈ s.log, a.tree.Lies p a.ino := by
  have safe : Safe s := by
    refine h.invariant (fun p _ => ?_) fun s a s' safe ok taken => safe_step safe ok.1 ok.2 taken
    refine ⟨fun q named => ?_, S, forall_mem_nil _, forall_mem_nil _, fun token i found => ?_,
      forall_mem_nil _⟩
    · cases named
    · cases found
  exact (safe p fun q named => Option.some.inj (named.symm.trans mounted)).lies

section Tenants

def bareTree : Tree where
  nodes i := if i = 0 then some ⟨.directory { entries := .empty, parent := 0 }, 0⟩ else none
  root := 0
  next := 1

lemma entry_bareTree (d : Ino) (n : Name) : bareTree.entry d n = none := by
  unfold Tree.entry Tree.dir bareTree
  dsimp only
  split <;> rfl

lemma sound_bareTree : bareTree.Sound where
  plain d n i named := by simp [entry_bareTree] at named
  known d n i named := by simp [entry_bareTree] at named
  unused i le := if_neg (Nat.ne_of_gt le)
  rootDir := rfl
  topmost d n named := by simp [entry_bareTree] at named
  parent d n c p r named := by simp [entry_bareTree] at named
  single d n m c named := by simp [entry_bareTree] at named
  emptied d p n _ := entry_bareTree d n

def newDirectory (parent : Ino) : Kind := .directory { entries := .empty, parent := parent }

def tenants : Tree :=
  ((bareTree.make 0 "srv".toList (newDirectory 0)).make 1 "a".toList (newDirectory 1)).make
    1 "b".toList (newDirectory 1)

lemma sound_newDirectory {t : Tree} (S : t.Sound) (free : t.freeName d n = .ok ()) :
    (t.make d n (newDirectory d)).Sound := by
  refine (Tree.grown_make S free fun x found => ?_).changed.sound S
  exact (Option.some.inj found).symm

lemma sound_tenants : tenants.Sound := by
  have srv := sound_newDirectory (d := 0) (n := "srv".toList) sound_bareTree (by decide)
  have a := sound_newDirectory (d := 1) (n := "a".toList) srv (by decide)
  exact sound_newDirectory a (by decide)

def tenantExports : Exports := ⟨"/srv".toList, 0, fun _ => true⟩

/-- A client that has mounted `/srv/a` gets a handle of `/srv`. -/
theorem lookup_leaves_export :
    ∃ s p, tenants.Sound ∧ Reachable (step tenantExports) OwnHandles { tree := tenants } s ∧
      s.rootFd = some p ∧ ∃ a ∈ s.log, a.use = .returned ∧ ¬ a.tree.Lies p a.ino := by
  obtain ⟨s, taken, root, answer⟩ : ∃ s, runChecked (step tenantExports) OwnHandles
      { tree := tenants } [.request (.mount 1 "/srv/a".toList) [],
        .request (.lookup 2 "..".toList) []] = some s ∧
      s.rootFd = some 2 ∧ s.log[2]? = some ⟨.returned, 1, tenants⟩ := ⟨_, rfl, rfl, rfl⟩
  refine ⟨s, 2, sound_tenants, reachable_of_runChecked taken, root, _,
    mem_of_getElem? answer, rfl, fun lies => ?_⟩
  have inTree : tenants.Under 0 1 := (Below.refl 0).step (n := "srv".toList) rfl
  have outside := Below.eq_of_bare (fun n => rfl) (lies inTree)
  cases outside

theorem access_confined_create :
    ∃ s, Reachable (step tenantExports) Permitted { tree := tenants } s ∧ s.log.length = 11 ∧
      ∀ a ∈ s.log, a.tree.Lies 2 a.ino := by
  obtain ⟨s, reached, root, accesses⟩ : ∃ s, Reachable (step tenantExports) Permitted
      { tree := tenants } s ∧ s.rootFd = some 2 ∧ s.log.length = 11 := by
    have plain : Confined "f".toList := by decide
    refine ⟨_, .next (a := .request (.lookup 2 "f".toList) []) (.next
      (a := .request (.create 2 "f".toList { write := true } false) []) (.next
      (a := .request (.mount 1 "/srv/a".toList) []) .start ⟨by decide, rfl⟩ rfl)
      ⟨by decide, plain, fun j named => ?_⟩ rfl) ⟨by decide, plain⟩ rfl, rfl, rfl⟩
    cases named
  exact ⟨s, reached, accesses, access_confined sound_tenants reached root⟩

end Tenants

end Velda.FileServer
