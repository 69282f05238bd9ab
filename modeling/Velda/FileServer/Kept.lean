import Velda.Posix.Effects
import Velda.FileServer.Handlers

/-! What the parts of a handler keep. `Inv` holds of a session that is mounted at `p`, or not
mounted yet: all it can get at is in the subtree of `p`, or nowhere in the tree any more. Every
call a handler makes keeps that, if its names are confined. -/
namespace Velda.FileServer
open Lib Posix

structure Inv (p : Ino) (s : Server) : Prop where
  root : ∀ q, s.rootFd = some q → q = p
  sound : s.tree.Sound
  lies : ∀ a ∈ s.log, a.tree.Lies p a.ino
  held : ∀ a ∈ s.log, s.tree.Held p a.ino
  fds : ∀ token i, s.fdTable.lookupFd token = some i → s.tree.Held p i
  queue : ∀ item ∈ s.preloadQueue, s.tree.Held p item.fh

structure Kept (p : Ino) (s s' : Server) : Prop where
  root : s'.rootFd = s.rootFd
  inv : Inv p s → Inv p s'
  held : Inv p s → ∀ i, s.tree.Held p i → s'.tree.Held p i

instance (p : Ino) : Std.Refl (Kept p) := ⟨fun _ => ⟨rfl, id, fun _ _ => id⟩⟩

instance (p : Ino) : IsTrans Server (Kept p) :=
  ⟨fun _ _ _ first second =>
    ⟨second.root.trans first.root, fun I => second.inv (first.inv I),
      fun I i H => second.held (first.inv I) i (first.held I i H)⟩⟩

variable {p d fd i : Ino} {n : Name} {s s' : Server}

lemma Kept.of_tree (root : s'.rootFd = s.rootFd) (tree : s'.tree = s.tree)
    (log : Inv p s → ∀ a ∈ s'.log, a ∈ s.log ∨ (a.tree = s.tree ∧ s.tree.Held p a.ino))
    (fds : Inv p s → ∀ token i, s'.fdTable.lookupFd token = some i → s.tree.Held p i)
    (queue : Inv p s → ∀ item ∈ s'.preloadQueue, s.tree.Held p item.fh) : Kept p s s' where
  root := root
  held _ i H := tree ▸ H
  inv I :=
    { root := fun q mounted => I.root q (root.symm.trans mounted)
      sound := tree ▸ I.sound
      lies := fun a mem => by
        rcases log I a mem with old | ⟨now, H⟩
        · exact I.lies a old
        · exact now ▸ H.lies
      held := fun a mem => by
        rw [tree]
        rcases log I a mem with old | ⟨-, H⟩
        · exact I.held a old
        · exact H
      fds := fun token i found => tree ▸ fds I token i found
      queue := fun item mem => tree ▸ queue I item mem }

lemma leads_modify {f : Server → Server} (kept : Kept p s (f s)) :
    Leads (Kept p) s (modify f : Handler Unit) fun _ s' => s' = f s where
  ok a s' done := by
    cases done
    exact ⟨kept, rfl⟩
  error e s' done := nomatch done

section Calls
variable {R : Server → Server → Prop} [Std.Refl R]

lemma leads_fault_of (free : ∀ l, R s { s with faults := l }) :
    Leads R s fault fun _ s' => ∃ l, s' = { s with faults := l } := by
  constructor
  · intro a s' done
    unfold fault at done
    split at done <;> cases done
    · exact ⟨free _, _, rfl⟩
    · exact ⟨Std.Refl.refl _, s.faults, rfl⟩
  · intro e s' done
    unfold fault at done
    split at done <;> cases done
    exact free _

lemma leads_orThrow {α : Type} (x : Except Errno α) :
    Leads R s (orThrow x) fun a s' => s' = s ∧ x = .ok a := by
  cases x with
  | error e => exact .throw e
  | ok a => exact .pure ⟨rfl, rfl⟩

lemma leads_query_of [IsTrans Server R] {α : Type} (free : ∀ l, R s { s with faults := l })
    (call : Tree → Except Errno α) :
    Leads R s (query call) fun a s' =>
      (∃ l, s' = { s with faults := l }) ∧ call s.tree = .ok a := by
  refine (leads_fault_of free).bind fun _ s₁ _ taken => ?_
  obtain ⟨l, rfl⟩ := taken
  refine (Leads.get (Q := fun r s' => r = { s with faults := l } ∧ s' = r) ⟨rfl, rfl⟩).bind
    fun r s₂ _ same => ?_
  obtain ⟨rfl, rfl⟩ := same
  exact (leads_orThrow _).mono fun _ s' _ found => ⟨⟨l, found.1⟩, found.2⟩

end Calls

lemma Kept.faults (l : List (Option Errno)) : Kept p s { s with faults := l } :=
  .of_tree rfl rfl (fun _ _ mem => .inl mem) (fun I => I.fds) fun I => I.queue

lemma leads_fault : Leads (Kept p) s fault fun _ s' => s'.tree = s.tree := by
  refine (leads_fault_of Kept.faults).mono fun _ s' _ taken => ?_
  obtain ⟨l, rfl⟩ := taken
  rfl

lemma leads_query {α : Type} (call : Tree → Except Errno α) :
    Leads (Kept p) s (query call) fun a s' => s'.tree = s.tree ∧ call s.tree = .ok a := by
  refine (leads_query_of Kept.faults call).mono fun a s' _ found => ?_
  obtain ⟨⟨l, rfl⟩, ok⟩ := found
  exact ⟨rfl, ok⟩

lemma leads_recordAll (use : Use) (inside : ∀ i ∈ l, s.tree.Held p i) :
    Leads (Kept p) s (recordAll use l) fun _ s' => s'.tree = s.tree := by
  refine (leads_modify ?_).mono fun _ s' _ same => by rw [same]
  refine .of_tree rfl rfl (fun _ a mem => ?_) (fun I => I.fds) fun I => I.queue
  rcases List.mem_append.mp mem with old | new
  · exact .inl old
  · obtain ⟨i, own, rfl⟩ := List.mem_map.mp new
    exact .inr ⟨rfl, inside i own⟩

lemma leads_record (use : Use) (inside : s.tree.Held p i) :
    Leads (Kept p) s (record use i) fun _ s' => s'.tree = s.tree :=
  leads_recordAll use fun j mem => by rwa [List.mem_singleton.mp mem]

lemma leads_setTree (sound : t.Sound) (held : ∀ i, s.tree.Held p i → t.Held p i) :
    Leads (Kept p) s (setTree t) fun _ s' => s'.tree = t := by
  refine (leads_modify ?_).mono fun _ s' _ same => by rw [same]
  exact
    { root := rfl
      held := fun _ => held
      inv := fun I =>
        { root := I.root, sound := sound, lies := I.lies
          held := fun a mem => held a.ino (I.held a mem)
          fds := fun token i found => held i (I.fds token i found)
          queue := fun item mem => held item.fh (I.queue item mem) } }

lemma leads_openByHandleAt (inside : s.tree.Held p i) :
    Leads (Kept p) s (openByHandleAt i flags) fun j s' =>
      j = i ∧ s'.tree = s.tree ∧ (s.tree.nodes i).isSome ∧ s.rootFd.isSome = true := by
  refine (Leads.get (Q := fun r s' => r = s ∧ s' = s) ⟨rfl, rfl⟩).bind fun r s₁ _ same => ?_
  obtain ⟨rfl, rfl⟩ := same
  refine (Leads.ensure (Q := fun _ s' => s' = s₁ ∧ s₁.rootFd.isSome = true) fun mounted =>
    ⟨rfl, mounted⟩).bind fun _ s₂ _ same => ?_
  obtain ⟨rfl, mounted⟩ := same
  refine (leads_query _).bind fun _ s₃ _ checked => ?_
  have known : (s₂.tree.nodes i).isSome := by
    have ok := checked.2
    unfold Tree.openable at ok
    split at ok
    · cases ok
    · next some => simpa [Option.isSome_iff_ne_none] using some
  have there : s₃.tree.Held p i := checked.1 ▸ inside
  refine (leads_record .opened there).bind fun _ s₄ _ tree₄ => ?_
  have still : s₄.tree.Held p i := tree₄ ▸ there
  refine (Leads.onlyIf (Q := fun _ s' => s'.tree = s₄.tree) (fun _ => leads_record .changed still)
    fun _ => rfl).bind fun _ s₅ _ tree₅ => ?_
  exact .pure ⟨rfl, tree₅.trans (tree₄.trans checked.1), known, mounted⟩

lemma held_resolve {t : Tree} (S : t.Sound) (inside : t.Held p d) (plain : Confined n)
    (found : t.resolve d n false = .ok i) : t.Held p i := by
  rcases Tree.resolve_unfollowed plain found with ⟨rfl, -⟩ | named
  · exact inside
  · exact .inl (inside.entry S named)

lemma under_of_grown (G : Tree.Grown s.tree t' d n i) (inside : s.tree.Held p d) :
    s.tree.Under p d := by
  obtain ⟨q, live⟩ := G.live
  exact inside.under live

def Inside (p : Ino) (l : List Ino) (s : Server) : Prop := ∀ i ∈ l, s.tree.Held p i

lemma leads_openat (I : Inv p s) (inside : s.tree.Held p d) (plain : Confined n)
    (still : s.tree.Still d n flags) :
    Leads (Kept p) s (openat d n flags) fun i => Inside p [i] := by
  refine (leads_query _).bind fun o s₁ ext₁ found => ?_
  obtain ⟨tree₁, opened⟩ := found
  have inside₁ : s₁.tree.Held p d := tree₁ ▸ inside
  have opens : s₁.tree.OpensAt d n o := tree₁ ▸ Tree.openat_ok I.sound plain still opened
  have I₁ := ext₁.inv I
  have places : ∀ j ∈ o.created.toList, s₁.tree.Held p j := by
    intro j mem
    rcases opens with ⟨-, none, -⟩ | ⟨created, -⟩
    · simp [none] at mem
    · simp only [created, Option.toList_some, List.mem_singleton] at mem
      rwa [mem]
  refine (leads_recordAll .changed places).bind fun _ s₂ ext₂ tree₂ => ?_
  have I₂ := ext₂.inv I₁
  have opens₂ : s₂.tree.OpensAt d n o := tree₂.symm ▸ opens
  have inside₂ : s₂.tree.Held p d := tree₂.symm ▸ inside₁
  have sound : o.tree.Sound := by
    rcases opens₂ with ⟨same, -⟩ | ⟨-, G⟩
    · exact same ▸ I₂.sound
    · exact G.changed.sound I₂.sound
  have held (j) (H : s₂.tree.Held p j) : o.tree.Held p j := by
    rcases opens₂ with ⟨same, -⟩ | ⟨-, G⟩
    · exact same ▸ H
    · exact G.held I₂.sound (under_of_grown G inside₂) H
  have file : o.tree.Held p o.file := by
    rcases opens₂ with ⟨same, -, rfl | named⟩ | ⟨-, G⟩
    · exact held _ inside₂
    · exact held _ (.inl (inside₂.entry I₂.sound named))
    · exact .inl (G.under_self (under_of_grown G inside₂))
  refine (leads_setTree sound held).bind fun _ s₃ _ tree₃ => ?_
  have file₃ : s₃.tree.Held p o.file := tree₃ ▸ file
  refine (leads_record .opened file₃).bind fun _ s₄ _ tree₄ => ?_
  have file₄ : s₄.tree.Held p o.file := tree₄ ▸ file₃
  refine (Leads.onlyIf (Q := fun _ s' => s'.tree = s₄.tree) (fun _ => leads_record .changed file₄)
    fun _ => rfl).bind fun _ s₅ _ tree₅ => ?_
  exact .pure (by simpa [Inside, tree₅] using file₄)

lemma leads_fstatat (d : Ino) (n : Name) :
    Leads (Kept p) s (fstatat d n) fun attr s' => s'.tree = s.tree ∧
      s.tree.resolve d n false = .ok attr.ino ∧ attr.type = fileType s.tree attr.ino := by
  refine (leads_query _).mono fun attr s' _ found => ⟨found.1, ?_⟩
  obtain ⟨i, resolved, rfl⟩ := exists_of_map_ok found.2
  exact ⟨resolved, rfl⟩

/-- A part of a handler that gets at nothing but the files it has got from others and those
that it gives to others. -/
def Stays {α : Type} (p : Ino) (l : List Ino) (x : Handler α) (Q : α → List Ino) : Prop :=
  ∀ s, Inv p s → Inside p l s → Leads (Kept p) s x fun a => Inside p (Q a)

section Rules
variable {α β : Type} {x : Handler α} {f : α → Handler β} {Q : α → List Ino} {P : β → List Ino}
  {l : List Ino}

lemma Inside.nil : Inside p [] s := List.forall_mem_nil _

lemma Inside.kept (h : Inside p l s) (I : Inv p s) (ext : Kept p s s') : Inside p l s' :=
  fun i mem => ext.held I i (h i mem)

lemma leads_stays (I : Inv p s) (h : Inside p l s)
    (first : Leads (Kept p) s x fun a => Inside p (Q a))
    (rest : ∀ a, Stays p (Q a ++ l) (f a) P) :
    Leads (Kept p) s (x >>= f) fun b => Inside p (P b) :=
  first.bind fun a s' ext now =>
    rest a s' (ext.inv I) (List.forall_mem_append.mpr ⟨now, h.kept I ext⟩)

namespace Stays

lemma bind (h : Stays p l x Q) (rest : ∀ a, Stays p (Q a ++ l) (f a) P) :
    Stays p l (x >>= f) P :=
  fun s I inside => leads_stays I inside (h s I inside) rest

lemma weaken (h : Stays p l x Q) (sub : l ⊆ l') : Stays p l' x Q :=
  fun s I inside => h s I fun i mem => inside i (sub mem)

lemma pure (sub : Q a ⊆ l) : Stays p l (Pure.pure a) Q :=
  fun _ _ inside => .pure fun i mem => inside i (sub mem)

lemma get {f : Server → Handler β} (rest : ∀ r, Stays p l (f r) P) :
    Stays p l (MonadState.get >>= f) P :=
  fun _ I inside => (Leads.get (Q := fun r s' => s' = r) rfl).bind fun r _ ext same =>
    same ▸ rest r _ (ext.inv I) (inside.kept I ext)

lemma ensure {c : Prop} [Decidable c] : Stays p l (Lib.ensure c e) fun _ => [] :=
  fun _ _ _ => .ensure fun _ => .nil

lemma onlyIf {c : Prop} [Decidable c] {x : Handler Unit} (h : c → Stays p l x fun _ => []) :
    Stays p l (Lib.onlyIf c x) fun _ => [] :=
  fun s I inside => .onlyIf (fun meets => h meets s I inside) fun _ => .nil

lemma attempt (h : Stays p l x Q) : Stays p l (Lib.attempt x) fun r => r.elim [] Q :=
  fun s I inside => (h s I inside).attempt.mono fun r _ _ found => by
    cases r with
    | none => exact .nil
    | some a => exact found a rfl

lemma tolerate {x : Handler Unit} (h : Stays p l x fun _ => []) :
    Stays p l (tolerate x) fun _ => [] :=
  h.attempt.bind fun _ => .pure (List.nil_subset _)

lemma collect {f : α → Handler (Option β)}
    (round : ∀ a ∈ as, Stays p l (f a) fun r => r.elim [] P) :
    Stays p l (Lib.collect f as) fun bs => bs.flatMap P := by
  induction as with
  | nil => exact .pure (List.nil_subset _)
  | cons a rest ih =>
    refine (round a List.mem_cons_self).bind fun b => ?_
    have tail := ih fun c mem => round c (List.mem_cons_of_mem a mem)
    refine (tail.weaken (List.subset_append_right _ _)).bind fun bs => .pure ?_
    cases b <;> simp

lemma query {call : Tree → Except Errno α}
    (found : ∀ t a, t.Sound → call t = .ok a → (∀ i ∈ l, t.Held p i) → ∀ i ∈ Q a, t.Held p i) :
    Stays p l (query call) Q :=
  fun s I inside => (leads_query call).mono fun a s' _ done => by
    unfold Inside
    rw [done.1]
    exact found s.tree a I.sound done.2 inside

end Stays

end Rules

section Parts
variable {l : List Ino}

lemma stays_recordAll (use : Use) (sub : is ⊆ l) : Stays p l (recordAll use is) fun _ => [] :=
  fun _ _ inside => (leads_recordAll use fun i mem => inside i (sub mem)).mono fun _ _ _ _ => .nil

lemma stays_use (use : Use) (mem : fd ∈ l) :
    Stays p l (do fault; record use fd) fun _ => [] := by
  refine Stays.bind (Q := fun _ => []) (fun _ _ _ => leads_fault.mono fun _ _ _ _ => .nil) ?_
  exact fun _ => stays_recordAll use (by simpa using mem)

lemma stays_openByHandleAt (mem : i ∈ l) : Stays p l (openByHandleAt i flags) fun j => [j] :=
  fun _ _ inside => (leads_openByHandleAt (inside i mem)).mono fun j s' _ opened => by
    obtain ⟨rfl, same, -⟩ := opened
    simpa [Inside, same] using inside j mem

lemma stays_resolve {α : Type} {g : Tree → Ino → α} {f : α → Ino} (mem : d ∈ l)
    (plain : Confined n) (own : ∀ t i, f (g t i) = i) :
    Stays p l (query fun t => (t.resolve d n false).map (g t)) fun a => [f a] :=
  .query fun t a S found inside j => by
    obtain ⟨i, resolved, rfl⟩ := exists_of_map_ok found
    rw [own, List.mem_singleton]
    rintro rfl
    exact held_resolve S (inside d mem) plain resolved

lemma stays_fstat (fd : Ino) : Stays p l (fstat fd) fun _ => [] :=
  .query fun _ _ _ _ _ => List.forall_mem_nil _

lemma stays_makeFileAttrWithPath (mem : d ∈ l) (plain : Confined n) :
    Stays p l (makeFileAttrWithPath d n) fun _ => [] := by
  intro s I inside
  refine (leads_fstatat d n).bind fun attr s₁ ext₁ found => ?_
  obtain ⟨tree₁, resolved, type⟩ := found
  have I₁ := ext₁.inv I
  have inside₁ := inside.kept I ext₁
  refine leads_stays (Q := fun _ => []) I₁ inside₁ (.onlyIf (fun regular => ?_) fun _ => .nil)
    fun _ => .pure (List.nil_subset _)
  have still : s₁.tree.Still d n {} := by
    intro j named
    rw [tree₁] at named ⊢
    have own : attr.ino = j := by
      rcases Tree.resolve_unfollowed plain resolved with ⟨-, dot⟩ | named'
      · exact absurd dot (I.sound.plain d n j named).2.2.1
      · exact Option.some.inj (named'.symm.trans named)
    subst own
    rw [type] at regular
    unfold fileType at regular
    split at regular
    · cases regular
    · cases regular
    · next _ none => exact .inl none
  refine leads_stays I₁ inside₁ (leads_openat I₁ (inside₁ d mem) plain still) fun fd => ?_
  exact (stays_use .used List.mem_cons_self).tolerate

lemma stays_entryOf (mem : d ∈ l) (plain : Confined n) :
    Stays p l (entryOf d n) fun e => [e.fh] := by
  refine (stays_resolve (f := NameHandle.fh) mem plain fun _ _ => rfl).bind fun h => ?_
  refine .get fun r => Stays.ensure.bind fun _ => ?_
  refine (stays_makeFileAttrWithPath (List.mem_cons_of_mem _ mem) plain).bind fun attr => ?_
  exact .pure (by simp)

lemma stays_enqueuePreload (mem : e.fh ∈ l) : Stays p l (enqueuePreload e) fun _ => [] := by
  refine .get fun r => .onlyIf fun _ s I inside => ?_
  refine (leads_modify ?_).mono fun _ _ _ _ => .nil
  refine .of_tree rfl rfl (fun _ a mem => .inl mem) (fun I => I.fds) fun I item queued => ?_
  rcases List.mem_append.mp queued with old | new
  · exact I.queue item old
  · rw [List.mem_singleton.mp new]
    exact inside e.fh mem

lemma stays_trackFd (mem : fd ∈ l) : Stays p l (trackFd fd) fun _ => [] := by
  intro s I inside
  refine (Leads.get (Q := fun r s' => r = s ∧ s' = s) ⟨rfl, rfl⟩).bind fun r s₁ _ same => ?_
  obtain ⟨rfl, rfl⟩ := same
  refine (leads_modify ?_).bind fun _ _ _ _ => .pure .nil
  refine .of_tree rfl rfl (fun _ a mem => .inl mem) (fun I token i found => ?_) fun I => I.queue
  rw [FdTable.lookupFd_trackFd] at found
  split at found
  · cases found
    exact inside fd mem
  · exact I.fds token i found

lemma stays_resolveFd (token : UInt32) : Stays p l (resolveFd token) fun i => [i] := by
  intro s I inside
  refine (Leads.get (Q := fun r s' => r = s ∧ s' = s) ⟨rfl, rfl⟩).bind fun r s₁ _ same => ?_
  obtain ⟨rfl, rfl⟩ := same
  refine (leads_orThrow _).mono fun i s' _ found => ?_
  obtain ⟨rfl, found⟩ := found
  cases known : s'.fdTable.lookupFd token with
  | none => simp [known] at found
  | some j =>
    simp only [known, Option.elim_some, Except.ok.injEq] at found
    simpa [Inside, ← found] using I.fds token j known

end Parts

end Velda.FileServer
