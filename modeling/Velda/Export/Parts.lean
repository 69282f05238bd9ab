import Velda.Export.Layers

/-! What a layer consists of. Whether a directory gets a layer of its own depends on nothing
but what is below it, so the tree that a layer writes and hashes is the tree below its
root without the excluded entries and without the directories that have a layer. -/
namespace Velda.Export
open Posix List

structure Part where
  path : Path
  stat : Stat
  entries : Forest
  deriving DecidableEq

variable {dir : Path} {f : Forest}

section
variable (s : Settings) (threshold : Int64)

/-- `analyzeDir` appends a layer for the directory. -/
def cuts (dir : Path) (entries : Forest) : Bool := threshold ≤ (gather s threshold dir entries).size

def Forest.kept (dir : Path) : Forest → Forest
  | .nil => .nil
  | .file name f rest =>
    if s.excludes (dir ++ [name]) then rest.kept dir else .file name f (rest.kept dir)
  | .dir name stat entries rest =>
    if s.excludes (dir ++ [name]) ∨ cuts s threshold (dir ++ [name]) entries then rest.kept dir
    else .dir name stat (entries.kept (dir ++ [name])) (rest.kept dir)

def Forest.parts (dir : Path) : Forest → List Part
  | .nil => []
  | .file _ _ rest => rest.parts dir
  | .dir name stat entries rest =>
    if s.excludes (dir ++ [name]) then rest.parts dir
    else
      entries.parts (dir ++ [name]) ++
        (if cuts s threshold (dir ++ [name]) entries then [⟨dir ++ [name], stat, entries⟩]
          else []) ++
        rest.parts dir

def Part.kept (p : Part) : Forest := p.entries.kept s threshold p.path

def Part.layer (p : Part) : Layer :=
  let g := gather s threshold p.path p.entries
  ⟨p.path, g.skipSet, s.platform.sha256 (g.written ++ dirRecord s p.path p.stat)⟩

lemma gather_out (dir : Path) (f : Forest) :
    (gather s threshold dir f).out = (f.parts s threshold dir).map (Part.layer s threshold) := by
  induction f generalizing dir with
  | nil => rfl
  | file name leaf rest ih =>
    unfold gather Forest.parts
    split <;> exact ih dir
  | dir name stat entries rest below ih =>
    unfold gather Forest.parts
    simp only
    split
    · exact ih dir
    · unfold Gathered.conclude cuts
      split
      · next reached =>
        simp [below, ih, reached, Part.layer]
      · next small =>
        simp [below, ih, small]

lemma skipSet_dir (dir : Path) (name : Name) (stat : Stat) (entries rest : Forest) :
    (gather s threshold dir (.dir name stat entries rest)).skipSet =
      (if s.excludes (dir ++ [name]) then []
      else if cuts s threshold (dir ++ [name]) entries then [dir ++ [name]]
      else (gather s threshold (dir ++ [name]) entries).skipSet) ++
        (gather s threshold dir rest).skipSet := by
  rw [gather]
  split
  · rfl
  · unfold Gathered.conclude cuts
    split
    · next reached => simp [reached]
    · next small => simp [small]

lemma skipSet_file (dir : Path) (name : Name) (leaf : Leaf) (rest : Forest) :
    (gather s threshold dir (.file name leaf rest)).skipSet =
      (gather s threshold dir rest).skipSet := by
  rw [gather]
  split <;> rfl

lemma skipSet_below {path : Path} (h : path ∈ (gather s threshold dir f).skipSet) :
    ∃ name ∈ f.names, dir ++ [name] <+: path := by
  induction f generalizing dir with
  | nil => cases h
  | file name leaf rest ih =>
    rw [skipSet_file] at h
    obtain ⟨other, mem, under⟩ := ih h
    exact ⟨other, mem_cons_of_mem _ mem, under⟩
  | dir name stat entries rest below ih =>
    rw [skipSet_dir] at h
    rcases mem_append.mp h with inside | later
    · refine ⟨name, mem_cons_self, ?_⟩
      split at inside
      · cases inside
      · split at inside
        · rw [mem_singleton.mp inside]
        · obtain ⟨other, -, under⟩ := below inside
          exact (prefix_append _ _).trans under
    · obtain ⟨other, mem, under⟩ := ih later
      exact ⟨other, mem_cons_of_mem _ mem, under⟩

/-- A set of directories has, of those that a walk comes to, exactly the ones with a layer. -/
def Forest.Marks (skip : List Path) (dir : Path) : Forest → Prop
  | .nil => True
  | .file _ _ rest => rest.Marks skip dir
  | .dir name _ entries rest =>
    (s.excludes (dir ++ [name]) = false →
      (dir ++ [name] ∈ skip ↔ cuts s threshold (dir ++ [name]) entries = true) ∧
      (cuts s threshold (dir ++ [name]) entries = false → entries.Marks skip (dir ++ [name]))) ∧
    rest.Marks skip dir

end

lemma eq_of_below {path : Path} (first : dir ++ [m] <+: path) (second : dir ++ [n] <+: path) :
    m = n := by
  have same : dir ++ [m] = dir ++ [n] := by
    refine List.IsPrefix.eq_of_length ?_ (by simp)
    exact prefix_of_prefix_length_le first second (by simp)
  simpa using same

lemma marks_gathered (s : Settings) (threshold : Int64) (valid : f.Valid)
    (own : ∀ path ∈ (gather s threshold dir f).skipSet, path ∈ skip) (other : ∀ path ∈ skip, ∀ name
      ∈ f.names, dir ++ [name] <+: path → path ∈ (gather s threshold dir f).skipSet) :
    f.Marks s threshold skip dir := by
  induction f generalizing dir with
  | nil => trivial
  | file name leaf rest ih =>
    rw [skipSet_file] at own other
    exact ih valid.2.2 own fun path mem n inside =>
      other path mem n (mem_cons_of_mem _ inside)
  | dir name stat entries rest below ih =>
    obtain ⟨-, fresh, inner, later⟩ := valid
    rw [skipSet_dir] at own other
    -- what stands in the set for this entry, and what for the later ones
    have apart : ∀ path, dir ++ [name] <+: path → path ∉ (gather s threshold dir rest).skipSet := by
      intro path under mem
      obtain ⟨n, inside, here⟩ := skipSet_below s threshold mem
      exact fresh (eq_of_below under here ▸ inside)
    refine ⟨fun shown => ?_, ih later (fun path mem => own path (mem_append_right _ mem)) ?_⟩
    · rw [if_neg (by simp [shown])] at own other
      have known : ∀ path ∈ skip, dir ++ [name] <+: path →
          path ∈ (if cuts s threshold (dir ++ [name]) entries then [dir ++ [name]]
            else (gather s threshold (dir ++ [name]) entries).skipSet) := by
        intro path mem under
        rcases mem_append.mp (other path mem name mem_cons_self under) with here | there
        · exact here
        · exact absurd there (apart path under)
      cases cut : cuts s threshold (dir ++ [name]) entries with
      | true =>
        refine ⟨⟨fun _ => rfl, fun _ => own _ ?_⟩, nofun⟩
        simp [cut]
      | false =>
        simp only [cut] at own known
        refine ⟨⟨fun mem => ?_, nofun⟩, fun _ => below inner
          (fun path mem => own path (mem_append_left _ mem))
          fun path mem n _ under => known path mem ((prefix_append _ _).trans under)⟩
        obtain ⟨n, -, under⟩ := skipSet_below s threshold (known _ mem prefix_rfl)
        have longer := under.length_le
        simp at longer
    · intro path mem n inside under
      rcases mem_append.mp (other path mem n (mem_cons_of_mem _ inside) under) with
        here | there
      · have above : dir ++ [name] <+: path := by
          split at here
          · cases here
          · split at here
            · rw [mem_singleton.mp here]
            · obtain ⟨m, -, deeper⟩ := skipSet_below s threshold here
              exact (prefix_append _ _).trans deeper
        exact absurd (eq_of_below above under ▸ inside) fresh
      · exact there

def emit (s : Settings) : List Item → HardLinks → List TarEntry × HardLinks
  | [], links => ([], links)
  | .dir path stat :: rest, links =>
    let (later, links) := emit s rest links
    (dirEntry s path stat :: later, links)
  | .file path f :: rest, links =>
    let (entry, links) := fileEntry s path f links
    let (later, links) := emit s rest links
    (entry :: later, links)

lemma emit_append (s : Settings) (first second : List Item) (links : HardLinks) :
    emit s (first ++ second) links =
      ((emit s first links).1 ++ (emit s second (emit s first links).2).1,
        (emit s second (emit s first links).2).2) := by
  induction first generalizing links with
  | nil => rfl
  | cons item rest ih =>
    cases item with
    | dir path stat => simp [emit, ih]
    | file path f => simp [emit, ih]

/-- The directories, regular files and symbolic links below a directory. -/
def Forest.exported (dir : Path) (f : Forest) : List Item := (f.items dir).filter (!·.special)

@[simp] lemma Forest.exported_file (dir : Path) (name : Name) (leaf : Leaf) (rest : Forest) :
    (Forest.file name leaf rest).exported dir =
      (if leaf.type.special then [] else [.file (dir ++ [name]) leaf]) ++ rest.exported dir := by
  cases special : leaf.type.special <;> simp [exported, items, Item.special, special]

@[simp] lemma Forest.exported_dir (dir : Path) (name : Name) (stat : Stat)
    (entries rest : Forest) : (Forest.dir name stat entries rest).exported dir =
      .dir (dir ++ [name]) stat :: entries.exported (dir ++ [name]) ++ rest.exported dir := by
  simp [exported, items, Item.special]

lemma walk_eq {l : Layer} (below : l.rootDir <+: dir)
    (marks : f.Marks s threshold l.subLayerDirs dir) (links : HardLinks) :
    l.walk s dir f links = emit s ((f.kept s threshold dir).exported dir) links := by
  induction f generalizing dir links with
  | nil => rfl
  | file name leaf rest ih =>
    rw [Layer.walk, Forest.kept]
    have later := ih below marks
    by_cases excluded : s.excludes (dir ++ [name]) = true
    · rw [if_pos (.inl excluded), if_pos excluded, later]
    · rw [if_neg excluded, Forest.exported_file]
      by_cases special : leaf.type.special = true
      · rw [if_pos (.inr special), if_pos special, later]
        rfl
      · rw [if_neg (not_or.mpr ⟨excluded, special⟩), if_neg special]
        simp [emit, later]
  | dir name stat entries rest inner ih =>
    have deeper : dir ++ [name] ≠ l.rootDir := by
      intro same
      have shorter := below.length_le
      rw [← same] at shorter
      simp at shorter
    rw [Layer.walk]
    have later := ih below marks.2
    by_cases excluded : s.excludes (dir ++ [name]) = true
    · rw [show (Forest.dir name stat entries rest).kept s threshold dir =
        rest.kept s threshold dir from if_pos (.inl excluded)]
      simp [excluded, later]
    · have shown : s.excludes (dir ++ [name]) = false := by simpa using excluded
      obtain ⟨marked, within⟩ := marks.1 shown
      by_cases cut : cuts s threshold (dir ++ [name]) entries = true
      · rw [show (Forest.dir name stat entries rest).kept s threshold dir =
          rest.kept s threshold dir from if_pos (.inr cut), if_pos ⟨deeper, marked.mpr cut⟩, later]
      · rw [show (Forest.dir name stat entries rest).kept s threshold dir =
          .dir name stat (entries.kept s threshold (dir ++ [name])) (rest.kept s threshold dir) from
          if_neg (not_or.mpr ⟨excluded, cut⟩),
          if_neg (fun skipped => cut (marked.mp skipped.2)), if_neg excluded,
          inner (below.trans (prefix_append _ _)) (within (by simpa using cut))]
        simp [emit, emit_append, later]

namespace Part

variable (s : Settings) (threshold : Int64)

def exported (p : Part) : List Item := .dir p.path p.stat :: (p.kept s threshold).exported p.path

lemma walk_layer {p : Part} (valid : p.entries.Valid) (links : HardLinks) :
    (p.layer s threshold).walk s p.path p.entries links =
      emit s ((p.kept s threshold).exported p.path) links := by
  refine walk_eq prefix_rfl ?_ links
  exact marks_gathered s threshold valid (fun _ => id) fun _ mem _ _ _ => mem

lemma stream_layer {p : Part} (valid : p.entries.Valid)
    (found : t.find p.path = some (p.stat, p.entries)) (shown : s.excludes p.path = false) :
    (p.layer s threshold).stream s t = some (emit s (p.exported s threshold) []).1 := by
  unfold Layer.stream
  rw [show (p.layer s threshold).rootDir = p.path from rfl, found]
  simp [shown, walk_layer s threshold valid, emit, exported]

end Part

end Velda.Export
