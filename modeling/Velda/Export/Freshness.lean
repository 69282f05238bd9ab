import Velda.Export.Digest
import Velda.Export.Partition

/-! When a cached layer is what the export would write. Two layers with the same hash have the
same attributes in the same order, so their streams are the same exactly when the
paths, the times that are written, the hard links and the bytes agree too. -/
variable {j : Item} {items : List Item} {f : Forest}

namespace Velda.Export
open Posix Lib List Option

def Stat.time (st : Stat) : Int × Nat := (st.sec, st.nsec)

namespace Item

def stat : Item → Stat
  | .dir _ stat => stat
  | .file _ f => f.stat

def data : Item → Name
  | .dir _ _ => []
  | .file _ f => f.data

def inode? : Item → Option (Nat × Nat)
  | .dir _ _ => none
  | .file _ f => if f.shared then some f.inode else none

def linked (i j : Item) : Bool := i.inode?.isSome && i.inode? = j.inode?

def entry (s : Settings) : Item → TarEntry
  | .dir path stat => dirEntry s path stat
  | .file path f => leafEntry s path f

def Alike (s s' : Settings) : Item → Item → Prop
  | .dir _ stat, .dir _ stat' => DirAlike s s' stat stat'
  | .file _ f, .file _ g => f.Alike g
  | _, _ => False

variable {i : Item}

lemma linked_iff : i.linked j = true ↔ ∃ k, i.inode? = some k ∧ j.inode? = some k := by
  unfold linked
  cases i.inode? with
  | none => simp
  | some k => simp [eq_comm]

lemma linked_symm (h : i.linked j = true) : j.linked i = true := by
  obtain ⟨k, hi, hj⟩ := linked_iff.mp h
  exact linked_iff.mpr ⟨k, hj, hi⟩

lemma linked_trans (h : i.linked j = true) (h' : j.linked l = true) : i.linked l = true := by
  obtain ⟨k, hi, hj⟩ := linked_iff.mp h
  obtain ⟨k', hj', hl⟩ := linked_iff.mp h'
  obtain rfl : k = k' := Option.some.inj (hj.symm.trans hj')
  exact linked_iff.mpr ⟨k, hi, hl⟩

end Item

def lead (items : List Item) (i : Item) : Item := (items.find? i.linked).getD i

lemma lead_of_unshared (h : i.inode? = none) : lead items i = i := by
  have alone : items.find? i.linked = none := by simp [Item.linked, h]
  rw [lead, alone, getD_none]

lemma linked_lead (mem : i ∈ items) (shared : i.inode?.isSome = true) :
    i.linked (lead items i) = true := by
  obtain ⟨k, hk⟩ := isSome_iff_exists.mp shared
  have self : i.linked i = true := Item.linked_iff.mpr ⟨k, hk, hk⟩
  cases found : items.find? i.linked with
  | none => exact absurd self (List.find?_eq_none.mp found i mem)
  | some first =>
    rw [lead, found]
    exact List.find?_some found

lemma linked_of_lead (hi : i ∈ items) (hj : j ∈ items) (si : i.inode?.isSome = true)
    (sj : j.inode?.isSome = true) (same : lead items i = lead items j) : i.linked j = true :=
  Item.linked_trans (linked_lead hi si) (same ▸ Item.linked_symm (linked_lead hj sj))

lemma lead_mem (mem : i ∈ items) : lead items i ∈ items := by
  unfold lead
  cases found : items.find? i.linked with
  | none => exact mem
  | some first => exact mem_of_find?_eq_some found

lemma lead_of_linked (mem : j ∈ items) (h : i.linked j = true) : lead items i = lead items j := by
  have same : i.linked = j.linked := by
    obtain ⟨k, hi, hj⟩ := Item.linked_iff.mp h
    unfold Item.linked
    rw [hi, hj]
  unfold lead
  rw [same]
  cases found : items.find? j.linked with
  | none =>
    exact absurd (Item.linked_trans (Item.linked_symm h) h) (List.find?_eq_none.mp found j mem)
  | some first => rfl

def written (s : Settings) (items : List Item) (i : Item) : TarEntry :=
  if lead items i = i then i.entry s
  else { i.entry s with type := .link, linkname := (lead items i).name, size := 0, body := [] }

lemma emit_eq_map {before after : List Item} (nodup : (before ++ after).Nodup)
    (known : ∀ k, links.lookup k = (before.find? (·.inode? = some k)).map Item.name) :
    (emit s after links).1 = after.map (written s (before ++ after)) := by
  induction after generalizing before links with
  | nil => rfl
  | cons i rest ih =>
    have fresh : i ∉ before := fun mem =>
      (nodup_append.mp nodup).2.2 i mem i mem_cons_self rfl
    have shift : before ++ i :: rest = (before ++ [i]) ++ rest := by simp
    -- an item that is no other name of a file changes nothing for the later ones
    have unshared : i.inode? = none →
        (emit s rest links).1 = rest.map (written s (before ++ i :: rest)) ∧
        written s (before ++ i :: rest) i = i.entry s := by
      intro none
      constructor
      · rw [shift]
        refine ih (shift ▸ nodup) fun k => ?_
        rw [known k, List.find?_append]
        simp [none]
      · exact if_pos (lead_of_unshared none)
    cases i with
    | dir path stat =>
      obtain ⟨later, own⟩ := unshared rfl
      rw [map_cons, own, ← later]
      rfl
    | file path f =>
      by_cases shared : f.shared = true
      · have key : (Item.file path f).inode? = some f.inode := if_pos shared
        have same : (Item.file path f).linked = fun j => decide (j.inode? = some f.inode) := by
          funext j
          simp [Item.linked, key, eq_comm]
        rw [emit, fileEntry]
        simp only [shared]
        cases earlier : before.find? (·.inode? = some f.inode) with
        | some first =>
          have here : lead (before ++ .file path f :: rest) (.file path f) = first := by
            simp [lead, same, earlier]
          have other : first ≠ .file path f := fun eq =>
            fresh (eq ▸ mem_of_find?_eq_some earlier)
          rw [known, earlier, map_cons, written, here, if_neg other]
          congr 1
          rw [shift]
          refine ih (shift ▸ nodup) fun k => ?_
          change links.lookup k = _
          rw [known k, List.find?_append]
          by_cases at_key : k = f.inode
          · subst at_key
            simp [earlier]
          · simp [key, Ne.symm at_key]
        | none =>
          have here : lead (before ++ .file path f :: rest) (.file path f) = .file path f := by
            simp [lead, same, earlier, key]
          rw [known, earlier, map_cons, written, if_pos here]
          congr 1
          rw [shift]
          refine ih (shift ▸ nodup) fun k => ?_
          change ((f.inode, (Item.file path f).name) :: links).lookup k = _
          rw [List.find?_append, lookup_cons]
          by_cases at_key : k = f.inode
          · subst at_key
            simp [earlier, key]
          · simp [beq_false_of_ne at_key, key, Ne.symm at_key, known k]
      · have none : (Item.file path f).inode? = none := if_neg shared
        obtain ⟨later, own⟩ := unshared none
        rw [map_cons, own, ← later, emit, fileEntry]
        simp [shared, Item.entry]

section
variable {s s' : Settings} {i i' : Item} (alike : i.Alike s s' i')
include alike

lemma Item.Alike.entry_iff : i.entry s = i'.entry s' ↔
    i.name = i'.name ∧ s.modTime i.stat = s'.modTime i'.stat ∧ i.data = i'.data := by
  cases i with
  | dir path stat =>
    cases i' with
    | file => exact alike.elim
    | dir path' stat' =>
      simp [entry, dirEntry, Item.stat, data, alike.mode, alike.uid, alike.gid]
  | file path f =>
    cases i' with
    | dir => exact alike.elim
    | file path' g =>
      have targets := alike.target
      by_cases symlink : g.type = .symlink
      · simp only [Leaf.target, alike.type, symlink, if_true] at targets
        simp [entry, leafEntry, Item.stat, data, alike.mode, alike.uid, alike.gid, alike.type,
          symlink, alike.target, targets]
      · simp [entry, leafEntry, Item.stat, data, alike.mode, alike.uid, alike.gid, alike.type,
          symlink, alike.target, alike.size]

lemma Item.Alike.link_iff :
    { i.entry s with type := .link, linkname := n, size := 0, body := [] } =
      ({ i'.entry s' with type := .link, linkname := n', size := 0, body := [] } : TarEntry) ↔
    i.name = i'.name ∧ s.modTime i.stat = s'.modTime i'.stat ∧ n = n' := by
  cases i with
  | dir path stat =>
    cases i' with
    | file => exact alike.elim
    | dir path' stat' => simp [entry, dirEntry, Item.stat, alike.mode, alike.uid, alike.gid]
  | file path f =>
    cases i' with
    | dir => exact alike.elim
    | file path' g => simp [entry, leafEntry, Item.stat, alike.mode, alike.uid, alike.gid]

lemma Item.Alike.name_eq (path : i.path = i'.path) : i.name = i'.name := by
  cases i with
  | dir p stat =>
    cases i' with
    | file => exact alike.elim
    | dir q stat' =>
      obtain rfl : p = q := path
      cases p <;> rfl
  | file p f =>
    cases i' with
    | dir => exact alike.elim
    | file => exact congrArg (List.flatMap ('/' :: ·)) path

lemma Item.Alike.shared : i.inode?.isSome = i'.inode?.isSome := by
  cases i with
  | dir path stat =>
    cases i' with
    | file => exact alike.elim
    | dir => rfl
  | file path f =>
    cases i' with
    | dir => exact alike.elim
    | file path' g =>
      have same : f.shared = g.shared := by rw [Leaf.shared, alike.type, alike.nlink]; rfl
      cases h : g.shared <;> simp [inode?, same, h]

end

lemma entry_ne_link (s : Settings) (i : Item) : (i.entry s).type ≠ .link := by
  cases i with
  | dir => nofun
  | file path f =>
    unfold Item.entry leafEntry
    simp only
    split <;> nofun

lemma Item.Alike.written_iff (alike : i.Alike s s' i') (items items' : List Item) :
    written s items i = written s' items' i' ↔
      i.name = i'.name ∧ s.modTime i.stat = s'.modTime i'.stat ∧
      (lead items i).name = (lead items' i').name ∧ (lead items i = i ↔ lead items' i' = i') ∧
      (lead items i = i → i.data = i'.data) := by
  unfold written
  by_cases whole : lead items i = i
  · by_cases whole' : lead items' i' = i'
    · rw [if_pos whole, if_pos whole', alike.entry_iff, whole, whole']
      tauto
    · rw [if_pos whole, if_neg whole']
      refine ⟨fun same => absurd (congrArg TarEntry.type same) (entry_ne_link s i), fun agree => ?_⟩
      exact absurd (agree.2.2.2.1.mp whole) whole'
  · by_cases whole' : lead items' i' = i'
    · rw [if_neg whole, if_pos whole']
      refine ⟨fun same => absurd (congrArg TarEntry.type same).symm (entry_ne_link s' i'),
        fun agree => ?_⟩
      exact absurd (agree.2.2.2.1.mpr whole') whole
    · rw [if_neg whole, if_neg whole', alike.link_iff]
      simp [whole, whole']

/-- What the hash does not see, for the items of two layers side by side. -/
structure Agree (s s' : Settings) (pairs : List (Item × Item)) : Prop where
  paths : ∀ z ∈ pairs, z.1.path = z.2.path
  times : ∀ z ∈ pairs, s.modTime z.1.stat = s'.modTime z.2.stat
  links : ∀ y ∈ pairs, ∀ z ∈ pairs, y.1.linked z.1 = y.2.linked z.2
  bytes : ∀ z ∈ pairs, lead (pairs.map Prod.fst) z.1 = z.1 →
    z.1.stat.time = z.2.stat.time ∨ z.1.data = z.2.data

lemma lead_pair {pairs : List (Item × Item)} (mem : z ∈ pairs)
    (links : ∀ y ∈ pairs, z.1.linked y.1 = z.2.linked y.2) :
    ∃ y ∈ pairs, lead (pairs.map Prod.fst) z.1 = y.1 ∧ lead (pairs.map Prod.snd) z.2 = y.2 := by
  have same : pairs.find? (z.1.linked ∘ Prod.fst) = pairs.find? (z.2.linked ∘ Prod.snd) :=
    List.find?_congr links
  unfold lead
  rw [List.find?_map, List.find?_map, same]
  cases found : pairs.find? (z.2.linked ∘ Prod.snd) with
  | none => exact ⟨z, mem, rfl, rfl⟩
  | some y => exact ⟨y, mem_of_find?_eq_some found, rfl, rfl⟩

section
variable {s s' : Settings} {pairs : List (Item × Item)}
  (alike : ∀ z ∈ pairs, z.1.Alike s s' z.2)
  (apart : ∀ a ∈ pairs.map Prod.fst, ∀ b ∈ pairs.map Prod.fst, a.name = b.name → a = b)
  (apart' : ∀ a ∈ pairs.map Prod.snd, ∀ b ∈ pairs.map Prod.snd, a.name = b.name → a = b)
include alike apart apart'

lemma Agree.same_written (agree : Agree s s' pairs)
    (named : ∀ z ∈ pairs, z.1.path = z.2.path → z.1.name = z.2.name)
    (bytes : ∀ z ∈ pairs, z.1.stat.time = z.2.stat.time → z.1.data = z.2.data) :
    ∀ z ∈ pairs, written s (pairs.map Prod.fst) z.1 = written s' (pairs.map Prod.snd) z.2 := by
  intro z mem
  obtain ⟨y, inside, first, second⟩ := lead_pair mem fun y inside => agree.links z mem y inside
  have names := named z mem (agree.paths z mem)
  have leads := named y inside (agree.paths y inside)
  refine ((alike z mem).written_iff _ _).mpr ⟨names, agree.times z mem, ?_, ?_, fun whole => ?_⟩
  · rw [first, second, leads]
  · rw [first, second]
    constructor
    · intro same
      exact apart' _ (mem_map_of_mem inside) _ (mem_map_of_mem mem)
        (by rw [← leads, same, names])
    · intro same
      exact apart _ (mem_map_of_mem inside) _ (mem_map_of_mem mem)
        (by rw [leads, same, names])
  · exact (agree.bytes z mem whole).elim (bytes z mem) id

lemma agree_of_written (placed : ∀ z ∈ pairs, z.1.name = z.2.name → z.1.path = z.2.path)
    (same : ∀ z ∈ pairs, written s (pairs.map Prod.fst) z.1 = written s' (pairs.map Prod.snd) z.2) :
    Agree s s' pairs := by
  have facts := fun z mem => ((alike z mem).written_iff _ _).mp (same z mem)
  refine ⟨fun z mem => placed z mem (facts z mem).1, fun z mem => (facts z mem).2.1, ?_,
    fun z mem whole => .inr ((facts z mem).2.2.2.2 whole)⟩
  intro y hy z hz
  have leads := (facts y hy).2.2.1
  have leads' := (facts z hz).2.2.1
  have shared := (alike y hy).shared
  have shared' := (alike z hz).shared
  rw [Bool.eq_iff_iff]
  constructor
  · intro linked
    obtain ⟨k, ky, kz⟩ := Item.linked_iff.mp linked
    have first := lead_of_linked (mem_map_of_mem hz) linked
    refine linked_of_lead (mem_map_of_mem hy) (mem_map_of_mem hz)
      (by rw [← shared, ky]; rfl) (by rw [← shared', kz]; rfl)
      (apart' _ (lead_mem (mem_map_of_mem hy)) _ (lead_mem (mem_map_of_mem hz)) ?_)
    rw [← leads, ← leads', first]
  · intro linked
    obtain ⟨k, ky, kz⟩ := Item.linked_iff.mp linked
    have first := lead_of_linked (mem_map_of_mem hz) linked
    refine linked_of_lead (mem_map_of_mem hy) (mem_map_of_mem hz)
      (by rw [shared, ky]; rfl) (by rw [shared', kz]; rfl)
      (apart _ (lead_mem (mem_map_of_mem hy)) _ (lead_mem (mem_map_of_mem hz)) ?_)
    rw [leads, leads', first]

end

lemma Alike.exported (A : Alike s s' f g) (dir dir' : Path) :
    List.Forall₂ (Item.Alike s s') (f.exported dir) (g.exported dir') := by
  induction A generalizing dir dir' with
  | nil => exact .nil
  | file leaf _ ih =>
    rw [Forest.exported_file, Forest.exported_file, leaf.type]
    split
    · exact ih dir dir'
    · exact .cons leaf (ih dir dir')
  | dir same _ _ below ih =>
    rw [Forest.exported_dir, Forest.exported_dir]
    refine rel_append ?_ (ih dir dir')
    exact .cons same (below _ _)

lemma names_kept {dir : Path} (h : n ∈ (f.kept s threshold dir).names) : n ∈ f.names := by
  induction f with
  | nil => exact h
  | file name leaf rest ih =>
    rw [Forest.kept] at h
    split at h
    · exact mem_cons_of_mem _ (ih h)
    · exact (mem_cons.mp h).elim (· ▸ mem_cons_self) fun later =>
        mem_cons_of_mem _ (ih later)
  | dir name stat entries rest _ ih =>
    rw [Forest.kept] at h
    split at h
    · exact mem_cons_of_mem _ (ih h)
    · exact (mem_cons.mp h).elim (· ▸ mem_cons_self) fun later =>
        mem_cons_of_mem _ (ih later)

lemma Forest.Valid.kept (valid : f.Valid) (s : Settings) (threshold : Int64) (dir : Path) :
    (f.kept s threshold dir).Valid := by
  induction f generalizing dir with
  | nil => exact valid
  | file name leaf rest ih =>
    obtain ⟨ok, fresh, later⟩ := valid
    rw [Forest.kept]
    split
    · exact ih later dir
    · exact ⟨ok, fun mem => fresh (names_kept mem), ih later dir⟩
  | dir name stat entries rest inner ih =>
    obtain ⟨ok, fresh, within, later⟩ := valid
    rw [Forest.kept]
    split
    · exact ih later dir
    · exact ⟨ok, fun mem => fresh (names_kept mem), inner within _, ih later dir⟩

namespace Tree

lemma mem_of_exported {t : Tree} (mem : p ∈ t.parts s)
    (here : i ∈ p.exported s s.effectiveThreshold) : i ∈ t.items ∧ i.special = false := by
  have shown := (t.exported_perm s).mem_iff.mp
    (mem_flatMap.mpr ⟨p, mem_reverse.mpr mem, here⟩)
  exact ⟨(mem_shown.mp shown).1, (mem_shown.mp shown).2.1⟩

lemma nodup_exported {t : Tree} (mem : p ∈ t.parts s) :
    (p.exported s s.effectiveThreshold).Nodup := by
  have nodup := ((t.exported_perm s).nodup_iff).mpr (t.nodup_shown s)
  exact (nodup_flatMap.mp nodup).1 p (mem_reverse.mpr mem)

end Tree

/-- The bytes of a regular file are given by its attributes. -/
def Tree.Determined (t : Tree) (contents : Mode → Nat → Nat → Nat → Int × Nat → Name) : Prop :=
  ∀ path f, .file path f ∈ t.items → f.type = .regular →
    f.data = contents f.stat.mode f.stat.uid f.stat.gid f.size f.stat.time

section
variable {s s' : Settings} {t t' : Tree} {contents : Mode → Nat → Nat → Nat → Int × Nat → Name}
  (known : t.Determined contents) (known' : t'.Determined contents) {p p' : Part}
  (mem : p ∈ t.parts s) (mem' : p' ∈ t'.parts s')

lemma stream_part (mem : p ∈ t.parts s) : (p.layer s s.effectiveThreshold).stream s t =
      some ((p.exported s s.effectiveThreshold).map
        (written s (p.exported s s.effectiveThreshold))) := by
  obtain ⟨found, shown, valid⟩ := Tree.mem_parts mem
  rw [Part.stream_layer s _ valid found (shown _ prefix_rfl)]
  congr 1
  have nodup := Tree.nodup_exported mem
  rw [← nil_append (p.exported _ _)] at nodup
  exact emit_eq_map nodup fun _ => rfl

include known known' in
lemma data_eq_of_time (hi : i ∈ t.items) (hi' : i' ∈ t'.items) (plain : i.special = false)
    (alike : i.Alike s s' i') (time : i.stat.time = i'.stat.time) : i.data = i'.data := by
  cases i with
  | dir path stat =>
    cases i' with
    | file => exact alike.elim
    | dir => rfl
  | file path f =>
    cases i' with
    | dir => exact alike.elim
    | file path' g =>
      cases type : f.type with
      | regular =>
        have first := known path f hi type
        have second := known' path' g hi' (alike.type ▸ type)
        rw [alike.mode, alike.uid, alike.gid, alike.size, show f.stat.time = g.stat.time from time,
          ← second] at first
        exact first
      | symlink =>
        have targets := alike.target
        rw [Leaf.target, Leaf.target, ← alike.type, if_pos type, if_pos type] at targets
        exact targets
      | _ => simp [Item.special, type, FileType.special] at plain

include known known' mem mem' in
lemma Part.stream_iff (dir : DirAlike s s' p.stat p'.stat)
    (below : Alike s s' (p.kept s s.effectiveThreshold) (p'.kept s' s'.effectiveThreshold)) :
    (p.layer s s.effectiveThreshold).stream s t = (p'.layer s' s'.effectiveThreshold).stream s' t' ↔
      Agree s s'
        ((p.exported s s.effectiveThreshold).zip (p'.exported s' s'.effectiveThreshold)) := by
  have alike : List.Forall₂ (Item.Alike s s') (p.exported s s.effectiveThreshold)
      (p'.exported s' s'.effectiveThreshold) :=
    .cons (R := Item.Alike s s') dir (below.exported _ _)
  obtain ⟨lengths, each⟩ := List.forall₂_iff_zip.mp alike
  have inside := fun i here => Tree.mem_of_exported (i := i) mem here
  have inside' := fun i here => Tree.mem_of_exported (i := i) mem' here
  rw [stream_part mem, stream_part mem', some_inj]
  generalize p.exported s s.effectiveThreshold = items at *
  generalize p'.exported s' s'.effectiveThreshold = items' at *
  have first : (items.zip items').map Prod.fst = items := map_fst_zip (by omega)
  have second : (items.zip items').map Prod.snd = items' := map_snd_zip (by omega)
  generalize items.zip items' = pairs at *
  subst first
  subst second
  rw [List.map_map, List.map_map, List.map_inj_left]
  have left : ∀ z ∈ pairs, z.1 ∈ t.items ∧ z.1.special = false :=
    fun z here => inside z.1 (mem_map_of_mem here)
  have right : ∀ z ∈ pairs, z.2 ∈ t'.items ∧ z.2.special = false :=
    fun z here => inside' z.2 (mem_map_of_mem here)
  have apart := fun a ha b hb => Tree.eq_of_name (inside a ha).1 (inside b hb).1
  have apart' := fun a ha b hb => Tree.eq_of_name (inside' a ha).1 (inside' b hb).1
  constructor
  · refine agree_of_written (fun z here => each here) apart apart' fun z here same => ?_
    refine Item.path_eq_of_name (Tree.isName_of_mem (left z here).1)
      (Tree.isName_of_mem (right z here).1) ?_ same
    rintro k (rfl | rfl)
    · exact Tree.rooted (left z here).1
    · exact Tree.rooted (right z here).1
  · intro agree
    exact agree.same_written (fun z here => each here) apart apart'
      (fun z here path => (each here).name_eq path) fun z here => data_eq_of_time known known'
        (left z here).1 (right z here).1 (left z here).2 (each here)

end

/-- A cached layer is never stale, except for what the hash does not see. Two layers of the same
directory with the same hash are written as the same bytes exactly when, for directories whose
contents look alike, the paths, the times, the hard links and the bytes agree. -/
theorem layers_fresh_iff {β : Type} (tar : List TarEntry → β) (faithful : Function.Injective tar)
    {s s' : Settings} (platform : s'.platform = s.platform) (ideal : s.platform.Ideal)
    {t t' : Tree} {contents : Mode → Nat → Nat → Nat → Int × Nat → Name}
    (known : t.Determined contents) (known' : t'.Determined contents) :
    (∀ l ∈ computeLayers s t, ∀ l' ∈ computeLayers s' t', l.rootDir = l'.rootDir →
      l.merkleHash = l'.merkleHash → (l.stream s t).map tar = (l'.stream s' t').map tar) ↔
    ∀ p ∈ t.parts s, ∀ p' ∈ t'.parts s', p.path = p'.path → DirAlike s s' p.stat p'.stat →
      Alike s s' (p.kept s s.effectiveThreshold) (p'.kept s' s'.effectiveThreshold) → Agree s s'
        ((p.exported s s.effectiveThreshold).zip (p'.exported s' s'.effectiveThreshold)) := by
  have ideal' : s'.platform.Ideal := platform ▸ ideal
  have layers : ∀ (s : Settings) (t : Tree) (l : Layer), l ∈ computeLayers s t ↔
      ∃ p ∈ t.parts s, p.layer s s.effectiveThreshold = l := by
    intro s t l
    rw [computeLayers_eq, List.mem_reverse, List.mem_map]
  have bytes := fun {a b : Option (List TarEntry)} =>
    (map_injective faithful).eq_iff (a := a) (b := b)
  constructor
  · intro fresh p mem p' mem' path dir below
    refine (Part.stream_iff known known' mem mem' dir below).mp (bytes.mp ?_)
    refine fresh _ ((layers s t _).mpr ⟨p, mem, rfl⟩) _ ((layers s' t' _).mpr ⟨p', mem', rfl⟩)
      path ?_
    rw [Part.merkleHash_layer ideal, Part.merkleHash_layer ideal', platform, path, dir.hash,
      below.hashed platform]
  · intro agree l hl l' hl' path hash
    obtain ⟨p, mem, rfl⟩ := (layers s t l).mp hl
    obtain ⟨p', mem', rfl⟩ := (layers s' t' l').mp hl'
    have path : p.path = p'.path := path
    rw [Part.merkleHash_layer ideal, Part.merkleHash_layer ideal', platform, path] at hash
    obtain ⟨dir, hashed⟩ := dirAlike_of_hash (ideal.injective hash)
    have below := alike_of_hashed ideal platform ((Tree.mem_parts mem).2.2.kept s _ _)
      ((Tree.mem_parts mem').2.2.kept s' _ _) hashed
    exact bytes.mpr ((Part.stream_iff known known' mem mem' dir below).mpr
      (agree p mem p' mem' path dir below))

/-- A hash that is ideal: every character is written as its number of zeros and a one. -/
def Platform.unary : Platform where
  glob _ _ := false
  sha256 text := 'f' :: text.flatMap fun c => List.replicate c.toNat '0' ++ ['1']

lemma Platform.unary_ideal : Platform.unary.Ideal where
  injective := by
    intro a b same
    replace same := (List.cons.inj same).2
    have free : ∀ n, '1' ∉ List.replicate n '0' := fun n mem =>
      absurd (eq_of_mem_replicate mem) (by decide)
    induction a generalizing b with
    | nil =>
      cases b with
      | nil => rfl
      | cons => simp at same
    | cons c a ih =>
      cases b with
      | nil => simp at same
      | cons d b =>
        rw [flatMap_cons, flatMap_cons, append_assoc, append_assoc,
          singleton_append, singleton_append] at same
        obtain ⟨zeros, rest⟩ := eq_of_append_sep (free _) (free _) same
        have codes : c.toNat = d.toNat := by simpa using congrArg List.length zeros
        rw [Char.toNat_inj.mp codes, ih rest]
  hex text c mem := by
    rcases mem_cons.mp mem with rfl | later
    · decide
    · obtain ⟨d, -, here⟩ := mem_flatMap.mp later
      rcases mem_append.mp here with zero | one
      · rw [eq_of_mem_replicate zero]
        decide
      · rw [mem_singleton.mp one]
        decide
  nonempty _ := by nofun

def Tree.holding (name : Name) (isName : Forest.IsName name) : Tree where
  stat := { mode := ⟨0o755, false, false, false⟩, ino := 1 }
  entries := .file name
    { stat := { mode := ⟨0o644, false, false, false⟩, ino := 2 }, type := .regular } .nil
  valid := ⟨isName, by simp [Forest.names], trivial⟩

lemma Tree.holding_determined (name : Name) (isName : Forest.IsName name) :
    (Tree.holding name isName).Determined fun _ _ _ _ _ => [] := by
  intro path f mem _
  simp only [Tree.items, holding, Forest.items, mem_cons, not_mem_nil, or_false] at mem
  rcases mem with same | same
  · cases same
  · cases same
    rfl

theorem layers_fresh_thresholds : Platform.unary.Ideal ∧
    ∀ l ∈ computeLayers { platform := .unary } (.holding ['a'] (by decide)),
    ∀ l' ∈ computeLayers { platform := .unary, sizeThreshold := 5 } (.holding ['a'] (by decide)),
      l.rootDir = l'.rootDir → l.merkleHash = l'.merkleHash →
      (l.stream { platform := .unary } (.holding ['a'] (by decide))).map id =
        (l'.stream { platform := .unary, sizeThreshold := 5 }
          (.holding ['a'] (by decide))).map id := by
  refine ⟨Platform.unary_ideal, (@layers_fresh_iff _ id Function.injective_id
    { platform := .unary } { platform := .unary, sizeThreshold := 5 } rfl Platform.unary_ideal _ _ _
    (Tree.holding_determined _ _) (Tree.holding_determined _ _)).mpr ?_⟩
  intro p mem p' mem' _ _ _
  obtain rfl := mem_singleton.mp mem
  obtain rfl := mem_singleton.mp mem'
  exact ⟨by decide, by decide, by decide, by decide⟩

/-- The layer is the same to the cache after a file was renamed, and the archive is not. -/
theorem layer_stale : ∃ (s : Settings) (t t' : Tree)
    (contents : Mode → Nat → Nat → Nat → Int × Nat → Name), s.platform.Ideal ∧
    t.Determined contents ∧ t'.Determined contents ∧
    ∃ l ∈ computeLayers s t, ∃ l' ∈ computeLayers s t', l.rootDir = l'.rootDir ∧
      l.merkleHash = l'.merkleHash ∧ l.stream s t ≠ l'.stream s t' := by
  refine ⟨{ platform := .unary }, .holding ['a'] (by decide), .holding ['b'] (by decide), _,
    Platform.unary_ideal, Tree.holding_determined _ _, Tree.holding_determined _ _, ?_⟩
  refine ⟨_, mem_singleton.mpr rfl, _, mem_singleton.mpr rfl, rfl, ?_, by decide⟩
  rfl

end Velda.Export
