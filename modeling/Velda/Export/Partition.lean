import Velda.Export.Visible

/-! The layers of an export partition the exported tree. -/
namespace Velda.Export
open Posix List

/-- The directories with a layer: those below the mount point, then the mount point. -/
def Tree.parts (s : Settings) (t : Tree) : List Part :=
  t.entries.parts s s.effectiveThreshold [] ++ [⟨[], t.stat, t.entries⟩]

variable {s : Settings} {dir : Path} {f : Forest} {t : Tree} {i : Item}

lemma mem_parts (above : s.Shows dir) (valid : f.Valid) (h : p ∈ f.parts s threshold dir) :
    (∃ name path, p.path = dir ++ name :: path ∧ name ∈ f.names ∧
      f.find name path = some (p.stat, p.entries)) ∧ s.Shows p.path ∧ p.entries.Valid := by
  induction f generalizing dir with
  | nil => cases h
  | file name leaf rest ih =>
    obtain ⟨-, fresh, later⟩ := valid
    obtain ⟨⟨n, path, eq, mem, found⟩, rest⟩ := ih above later h
    exact ⟨⟨n, path, eq, mem_cons_of_mem _ mem, found⟩, rest⟩
  | dir name stat entries rest inner ih =>
    obtain ⟨-, fresh, within, later⟩ := valid
    have onward : p ∈ rest.parts s threshold dir →
        (∃ n path, p.path = dir ++ n :: path ∧ n ∈ (Forest.dir name stat entries rest).names ∧
          (Forest.dir name stat entries rest).find n path = some (p.stat, p.entries)) ∧
        s.Shows p.path ∧ p.entries.Valid := by
      intro mem
      obtain ⟨⟨n, path, eq, inside, found⟩, rest⟩ := ih above later mem
      refine ⟨⟨n, path, eq, mem_cons_of_mem _ inside, ?_⟩, rest⟩
      unfold Forest.find
      rw [if_neg fun same : name = n => fresh (same ▸ inside)]
      exact found
    rw [Forest.parts] at h
    split at h
    · exact onward h
    · next shown =>
      have child : s.Shows (dir ++ [name]) :=
        (Settings.shows_append above).mpr (by simpa using shown)
      rcases mem_append.mp h with here | after
      · rcases mem_append.mp here with deeper | own
        · obtain ⟨⟨n, path, eq, inside, found⟩, rest⟩ := inner child within deeper
          exact ⟨⟨name, n :: path, by simp [eq], mem_cons_self, by simp [Forest.find, found]⟩,
            rest⟩
        · split at own
          · rw [mem_singleton.mp own]
            exact ⟨⟨name, [], rfl, mem_cons_self, by simp [Forest.find]⟩, child, within⟩
          · cases own
      · exact onward after

lemma Tree.mem_parts (h : p ∈ t.parts s) :
    t.find p.path = some (p.stat, p.entries) ∧ s.Shows p.path ∧ p.entries.Valid := by
  rcases mem_append.mp h with below | root
  · obtain ⟨⟨n, path, eq, -, found⟩, rest⟩ := Export.mem_parts s.shows_nil t.valid below
    exact ⟨by rw [eq]; exact found, rest⟩
  · rw [mem_singleton.mp root]
    exact ⟨rfl, s.shows_nil, t.valid⟩

lemma computeLayers_eq (s : Settings) (t : Tree) :
    computeLayers s t = ((t.parts s).map (Part.layer s s.effectiveThreshold)).reverse := by
  have out := gather_out s s.effectiveThreshold [] t.entries
  have below : ∀ l ∈ (gather s s.effectiveThreshold [] t.entries).out, l.rootDir ≠ [] := by
    intro l mem root
    rw [out] at mem
    obtain ⟨p, inside, rfl⟩ := mem_map.mp mem
    obtain ⟨⟨n, path, eq, -⟩, -⟩ := mem_parts s.shows_nil t.valid inside
    rw [show (p.layer s s.effectiveThreshold).rootDir = p.path from rfl, eq] at root
    cases root
  unfold computeLayers analyzeDir Gathered.conclude
  split
  · have covered : (List.any ((gather s s.effectiveThreshold [] t.entries).out ++
        [⟨[], (gather s s.effectiveThreshold [] t.entries).skipSet,
          s.platform.sha256 ((gather s s.effectiveThreshold [] t.entries).written ++
            dirRecord s [] t.stat)⟩]) (·.rootDir = [])) = true := by simp
    simp only [covered]
    rw [if_neg (by decide), Tree.parts, map_append, out]
    rfl
  · have uncovered :
        (gather s s.effectiveThreshold [] t.entries).out.any (·.rootDir = []) = false := by
      simpa using below
    simp only [uncovered]
    rw [Tree.parts, map_append, out]
    rfl

lemma parts_ordered (above : s.Shows dir) (valid : f.Valid) :
    (f.parts s threshold dir).Pairwise fun a b => ¬ a.path <+: b.path := by
  induction f generalizing dir with
  | nil => exact .nil
  | file name leaf rest ih => exact ih above valid.2.2
  | dir name stat entries rest inner ih =>
    obtain ⟨-, fresh, within, later⟩ := valid
    rw [Forest.parts]
    split
    · exact ih above later
    · next shown =>
      have child : s.Shows (dir ++ [name]) :=
        (Settings.shows_append above).mpr (by simpa using shown)
      have own : ∀ a ∈ entries.parts s threshold (dir ++ [name]) ++
          (if cuts s threshold (dir ++ [name]) entries then [⟨dir ++ [name], stat, entries⟩]
            else []),
          dir ++ [name] <+: a.path := by
        intro a mem
        rcases mem_append.mp mem with deeper | here
        · obtain ⟨⟨n, path, eq, -⟩, -⟩ := mem_parts child within deeper
          rw [eq]
          exact prefix_append _ _
        · split at here
          · rw [mem_singleton.mp here]
          · cases here
      refine pairwise_append.mpr ⟨pairwise_append.mpr ⟨inner child within, ?_, ?_⟩,
        ih above later, fun a first b second higher => ?_⟩
      · split
        · exact pairwise_singleton _ _
        · exact .nil
      · intro a deeper b here higher
        obtain ⟨⟨n, path, eq, -⟩, -⟩ := mem_parts child within deeper
        split at here
        · rw [mem_singleton.mp here, eq] at higher
          have longer := higher.length_le
          simp at longer
        · cases here
      · obtain ⟨⟨n, path, eq, mem, -⟩, -⟩ := mem_parts above later second
        have below : dir ++ [n] <+: b.path := by
          rw [eq]
          exact ⟨path, by simp⟩
        exact fresh (eq_of_below ((own a first).trans higher) below ▸ mem)

lemma Tree.parts_ordered (s : Settings) (t : Tree) :
    (t.parts s).Pairwise fun a b => ¬ a.path <+: b.path := by
  refine pairwise_append.mpr ⟨Export.parts_ordered s.shows_nil t.valid,
    pairwise_singleton _ _, fun a mem b root higher => ?_⟩
  obtain ⟨⟨n, path, eq, -⟩, -⟩ := Export.mem_parts s.shows_nil t.valid mem
  rw [mem_singleton.mp root, eq] at higher
  simp at higher

lemma emit_names (s : Settings) (items : List Item) (links : HardLinks) :
    (emit s items links).1.map TarEntry.name = items.map Item.name := by
  induction items generalizing links with
  | nil => rfl
  | cons item rest ih =>
    cases item with
    | dir path stat => simp [emit, ih, dirEntry]
    | file path f =>
      have named : (fileEntry s path f links).1.name = (Item.file path f).name := by
        unfold fileEntry
        split
        · split <;> rfl
        · rfl
      simp [emit, ih, named]

lemma emit_link {items : List Item} {n : Nat} (h : (emit s items links).1[n]? = some e)
    (link : e.type = .link) :
    (∃ m < n, ∃ first, (emit s items links).1[m]? = some first ∧ first.name = e.linkname) ∨
      e.linkname ∈ links.map Prod.snd := by
  induction items generalizing links n with
  | nil => simp [emit] at h
  | cons item rest ih =>
    have later : ∀ {entry : TarEntry} {links' : HardLinks} {n : Nat},
        (emit s rest links').1[n]? = some e →
        (∀ name ∈ links'.map Prod.snd, name = entry.name ∨ name ∈ links.map Prod.snd) →
        (∃ m < n + 1, ∃ first, (entry :: (emit s rest links').1)[m]? = some first ∧
          first.name = e.linkname) ∨ e.linkname ∈ links.map Prod.snd := by
      intro entry links' n found known
      rcases ih found with ⟨m, before, first, here, same⟩ | start
      · exact .inl ⟨m + 1, by omega, first, by simpa using here, same⟩
      · rcases known _ start with own | old
        · exact .inl ⟨0, by omega, entry, rfl, own.symm⟩
        · exact .inr old
    cases item with
    | dir path stat =>
      cases n with
      | zero =>
        obtain rfl : dirEntry s path stat = e := by simpa [emit] using h
        cases link
      | succ n => exact later (by simpa [emit] using h) fun name old => .inr old
    | file path f =>
      unfold emit at h ⊢
      simp only [fileEntry] at h ⊢
      split at h
      · next shared =>
        simp only [shared] at h ⊢
        cases found : links.lookup f.inode with
        | some first =>
          simp only [found] at h ⊢
          cases n with
          | zero =>
            obtain rfl := Option.some.inj h
            obtain ⟨l₁, l₂, rfl, -⟩ := lookup_eq_some_iff.mp found
            simp
          | succ n => exact later (by simpa using h) fun name old => .inr old
        | none =>
          simp only [found] at h ⊢
          cases n with
          | zero =>
            obtain rfl := Option.some.inj h
            unfold leafEntry at link
            split at link <;> cases link
          | succ n =>
            refine later (by simpa using h) fun name mem => ?_
            simpa using mem
      · next single =>
        simp only [single] at h ⊢
        cases n with
        | zero =>
          obtain rfl := Option.some.inj h
          unfold leafEntry at link
          split at link <;> cases link
        | succ n => exact later (by simpa using h) fun name old => .inr old

lemma dir_of_exported (h : i ∈ f.exported dir) (below : dir <+: q) (proper : q ≠ dir)
    (above : q <+: i.path) (other : q ≠ i.path) : ∃ stat, .dir q stat ∈ f.exported dir := by
  induction f generalizing dir with
  | nil => cases h
  | file name leaf rest ih =>
    rw [Forest.exported_file] at h ⊢
    rcases mem_append.mp h with here | later
    · split at here
      · cases here
      · rw [mem_singleton.mp here] at above other
        rcases prefix_concat_iff.mp above with same | higher
        · exact absurd same other
        · exact absurd (higher.eq_of_length_le below.length_le) proper
    · obtain ⟨stat, mem⟩ := ih later below proper
      exact ⟨stat, mem_append_right _ mem⟩
  | dir name stat entries rest inner ih =>
    rw [Forest.exported_dir] at h ⊢
    rcases mem_append.mp h with here | later
    · rcases mem_cons.mp here with rfl | deeper
      · rcases prefix_concat_iff.mp above with same | higher
        · exact absurd same other
        · exact absurd (higher.eq_of_length_le below.length_le) proper
      · by_cases own : q = dir ++ [name]
        · exact ⟨stat, by simp [own]⟩
        · have under : dir ++ [name] <+: i.path := by
            obtain ⟨n, -, under⟩ := mem_items_below (mem_filter.mp deeper).1
            exact (prefix_append _ _).trans under
          have reached : dir ++ [name] <+: q := by
            refine prefix_of_prefix_length_le under above ?_
            have longer : dir.length < q.length := by
              refine lt_of_le_of_ne below.length_le fun same => proper ?_
              exact (below.eq_of_length same).symm
            simpa using longer
          obtain ⟨st, mem⟩ := inner deeper reached own
          exact ⟨st, mem_append_left _ (mem_cons_of_mem _ mem)⟩
    · obtain ⟨st, mem⟩ := ih later below proper
      exact ⟨st, mem_append_right _ mem⟩

lemma visible_sublist (s : Settings) (dir : Path) (f : Forest) :
    ((f.visible s dir).items dir).Sublist (f.items dir) := by
  induction f generalizing dir with
  | nil => exact .slnil
  | file name leaf rest ih =>
    rw [Forest.visible]
    split
    · exact (ih dir).cons _
    · exact (ih dir).cons_cons _
  | dir name stat entries rest inner ih =>
    rw [Forest.visible]
    split
    · exact (ih dir).trans (sublist_append_right _ _)
    · exact ((inner _).cons_cons _).append (ih dir)

namespace Tree

def shown (s : Settings) (t : Tree) : List Item :=
  .dir [] t.stat :: (t.entries.visible s []).exported []

lemma mem_shown : i ∈ t.shown s ↔ i ∈ t.items ∧ i.special = false ∧ s.Shows i.path := by
  unfold shown items
  rw [mem_cons, mem_cons, Forest.exported, mem_filter, mem_visible s.shows_nil]
  constructor
  · rintro (rfl | ⟨⟨below, shown⟩, plain⟩)
    · exact ⟨.inl rfl, rfl, s.shows_nil⟩
    · exact ⟨.inr below, by simpa using plain, shown⟩
  · rintro ⟨rfl | below, plain, shown⟩
    · exact .inl rfl
    · exact .inr ⟨⟨below, shown⟩, by simpa using plain⟩

lemma nodup_shown (s : Settings) (t : Tree) : (t.shown s).Nodup := by
  refine List.Nodup.sublist ?_ (List.Nodup.of_map _ t.nodup_paths)
  exact (filter_sublist.trans (visible_sublist s [] t.entries)).cons_cons _

lemma exported_perm (s : Settings) (t : Tree) :
    ((t.parts s).reverse.flatMap (Part.exported s s.effectiveThreshold)).Perm (t.shown s) := by
  refine ((reverse_perm (t.parts s)).flatMap_right _).trans
    (perm_iff_count.mpr fun i => ?_)
  have split := count_visible s s.effectiveThreshold [] t.entries i
  simp only [parts, shown, flatMap_append, flatMap_cons, flatMap_nil,
    append_nil, count_append, count_cons, Part.exported, Part.kept]
  omega

def streams (s : Settings) (t : Tree) : List (List TarEntry) :=
  (t.parts s).reverse.map fun p => (emit s (p.exported s s.effectiveThreshold) []).1

lemma stream_eq (s : Settings) (t : Tree) :
    (computeLayers s t).map (Layer.stream s · t) = (t.streams s).map some := by
  rw [computeLayers_eq, streams, ← map_reverse, map_map, map_map]
  refine map_congr_left fun p mem => ?_
  obtain ⟨found, shown, valid⟩ := mem_parts (mem_reverse.mp mem)
  exact Part.stream_layer s _ valid found (shown _ prefix_rfl)

lemma streams_names (s : Settings) (t : Tree) : (t.streams s).flatten.map TarEntry.name =
      ((t.parts s).reverse.flatMap (Part.exported s s.effectiveThreshold)).map Item.name := by
  unfold streams
  induction (t.parts s).reverse with
  | nil => rfl
  | cons p rest ih => simp [ih, emit_names]

lemma streams_ordered {m n : Nat} (ha : (t.parts s).reverse[m]? = some a)
    (hb : (t.parts s).reverse[n]? = some b) (holds : d ∈ a.exported s s.effectiveThreshold)
    (has : i ∈ b.exported s s.effectiveThreshold) (below : d.path <+: i.path) : m ≤ n := by
  by_contra after
  have nodup := ((t.exported_perm s).nodup_iff).mpr (t.nodup_shown s)
  obtain ⟨-, apart⟩ := nodup_flatMap.mp nodup
  have inside : ∀ p ∈ (t.parts s).reverse, ∀ x ∈ p.exported s s.effectiveThreshold, x ∈ t.items :=
    fun p mem x here =>
      (mem_shown.mp ((t.exported_perm s).mem_iff.mp (mem_flatMap.mpr ⟨p, mem, here⟩))).1
  have hereA := mem_of_getElem? ha
  have hereB := mem_of_getElem? hb
  obtain ⟨hm, rfl⟩ := List.getElem?_eq_some_iff.mp ha
  obtain ⟨hn, rfl⟩ := List.getElem?_eq_some_iff.mp hb
  have ordered := pairwise_iff_getElem.mp (pairwise_reverse.mpr (t.parts_ordered s)) n m
    hn hm (by omega)
  have disjoint := pairwise_iff_getElem.mp apart n m hn hm (by omega)
  generalize (t.parts s).reverse[m] = a at *
  generalize (t.parts s).reverse[n] = b at *
  have reach : ∀ (p : Part) (x : Item), x ∈ p.exported s s.effectiveThreshold →
      p.path <+: x.path := by
    intro p x mem
    rcases mem_cons.mp mem with rfl | deeper
    · exact prefix_rfl
    · obtain ⟨name, -, under⟩ := mem_items_below (mem_filter.mp deeper).1
      exact (prefix_append _ _).trans under
  have above : a.path <+: i.path := (reach a d holds).trans below
  have shorter : ¬ a.path.length ≤ b.path.length := fun short =>
    ordered (prefix_of_prefix_length_le above (reach b i has) short)
  -- the root of the one layer would be in the other layer as well
  obtain ⟨x, its, same⟩ : ∃ x ∈ b.exported s s.effectiveThreshold, x.path = a.path := by
    rcases mem_cons.mp has with rfl | deeper
    · exact absurd above.length_le shorter
    · by_cases own : a.path = i.path
      · exact ⟨i, has, own.symm⟩
      · have onWay : b.path <+: a.path :=
          prefix_of_prefix_length_le (reach b i has) above (by omega)
        obtain ⟨stat, mem⟩ := dir_of_exported deeper onWay (fun same => shorter (by rw [same]))
          above own
        exact ⟨_, mem_cons_of_mem _ mem, rfl⟩
  have mine : Item.dir a.path a.stat ∈ a.exported s s.effectiveThreshold := mem_cons_self
  have unique := inj_on_of_nodup_map t.nodup_paths (inside b hereB x its)
    (inside a hereA _ mine) same
  exact disjoint its (unique ▸ mine)

end Tree

/-- The layers partition what the export shows. Every directory, regular file and symbolic link
that is not excluded and not below something excluded stands once in all the streams together,
and nothing else does; the layer of the mount point is the first one; no directory is in a later
layer than something below it; and every hard link names an entry before it in its stream. -/
theorem layers_partition (s : Settings) (t : Tree) : ∃ streams : List (List TarEntry),
      (computeLayers s t).map (Layer.stream s · t) = streams.map some ∧
      (∀ i ∈ t.items, i.special = false → (∀ q, q <+: i.path → s.excludes q = false) →
        (streams.flatten.map TarEntry.name).count i.name = 1) ∧
      (∀ e ∈ streams.flatten, ∃ i ∈ t.items, i.special = false ∧
        (∀ q, q <+: i.path → s.excludes q = false) ∧ e.name = i.name) ∧
      (computeLayers s t).head?.map Layer.rootDir = some [] ∧
      (∀ (m n : Nat) (v w : List TarEntry), streams[m]? = some v → streams[n]? = some w →
        ∀ path stat, .dir path stat ∈ t.items → ∀ i ∈ t.items, path <+: i.path →
        (Item.dir path stat).name ∈ v.map TarEntry.name → i.name ∈ w.map TarEntry.name → m ≤ n) ∧
      ∀ w ∈ streams, ∀ (n : Nat) (e : TarEntry), w[n]? = some e → e.type = .link →
        ∃ m < n, ∃ first, w[m]? = some first ∧ first.name = e.linkname := by
  have perm := t.exported_perm s
  have inside : ∀ p ∈ (t.parts s).reverse, ∀ x ∈ p.exported s s.effectiveThreshold, x ∈ t.shown s :=
    fun p mem x here => perm.mem_iff.mp (mem_flatMap.mpr ⟨p, mem, here⟩)
  refine ⟨t.streams s, t.stream_eq s, ?_, ?_, ?_, ?_, ?_⟩
  · intro i mem plain shown
    rw [t.streams_names s]
    refine count_eq_one_of_mem (List.Nodup.map_on ?_ (perm.nodup_iff.mpr (t.nodup_shown s))) ?_
    · intro x hx y hy same
      exact Tree.eq_of_name (Tree.mem_shown.mp (perm.mem_iff.mp hx)).1
        (Tree.mem_shown.mp (perm.mem_iff.mp hy)).1 same
    · exact mem_map.mpr ⟨i, perm.mem_iff.mpr (Tree.mem_shown.mpr ⟨mem, plain, shown⟩), rfl⟩
  · intro e mem
    have named := mem_map_of_mem (f := TarEntry.name) mem
    rw [t.streams_names s] at named
    obtain ⟨i, here, same⟩ := mem_map.mp named
    obtain ⟨known, plain, shown⟩ := Tree.mem_shown.mp (perm.mem_iff.mp here)
    exact ⟨i, known, plain, shown, same.symm⟩
  · rw [computeLayers_eq, Tree.parts]
    simp [Part.layer]
  · intro m n v w hv hw path stat mem i known below holds has
    obtain ⟨a, ha, rfl⟩ := Option.map_eq_some_iff.mp (List.getElem?_map ▸ hv)
    obtain ⟨b, hb, rfl⟩ := Option.map_eq_some_iff.mp (List.getElem?_map ▸ hw)
    have listed : ∀ (p : Part) (x : Item), p ∈ (t.parts s).reverse → x ∈ t.items →
        x.name ∈ (emit s (p.exported s s.effectiveThreshold) []).1.map TarEntry.name →
        x ∈ p.exported s s.effectiveThreshold := by
      intro p x place known mem
      rw [emit_names] at mem
      obtain ⟨y, here, same⟩ := mem_map.mp mem
      rw [← Tree.eq_of_name (Tree.mem_shown.mp (inside p place y here)).1 known same]
      exact here
    exact Tree.streams_ordered ha hb (listed a _ (mem_of_getElem? ha) mem holds)
      (listed b i (mem_of_getElem? hb) known has) below
  · intro w mem n e here link
    obtain ⟨p, -, rfl⟩ := mem_map.mp mem
    rcases emit_link here link with earlier | none
    · exact earlier
    · cases none

end Velda.Export
