import Velda.Export.Parts

/-! What an export shows of a tree: everything that is not excluded and not below something
excluded. It is told apart by the names in the archive, and everything visible below a
directory is kept there or belongs to a layer further down. -/
namespace Velda.Export
open Posix List

def Settings.Shows (s : Settings) (path : Path) : Prop := ∀ q, q <+: path → s.excludes q = false

lemma Settings.shows_nil (s : Settings) : s.Shows [] := by
  intro q above
  rw [prefix_nil.mp above]
  rfl

variable {i : Item} {dir : Path} {f : Forest} {s : Settings} {t : Tree}

lemma Settings.shows_append {name : Name} (above : s.Shows dir) :
    s.Shows (dir ++ [name]) ↔ s.excludes (dir ++ [name]) = false := by
  refine ⟨fun shown => shown _ prefix_rfl, fun shown q below => ?_⟩
  rcases prefix_concat_iff.mp below with rfl | higher
  · exact shown
  · exact above q higher

lemma Settings.Shows.of_below (shown : s.Shows p) (below : q <+: p) : s.Shows q :=
  fun r above => shown r (above.trans below)

def Forest.visible (s : Settings) (dir : Path) : Forest → Forest
  | .nil => .nil
  | .file name f rest =>
    if s.excludes (dir ++ [name]) then rest.visible s dir else .file name f (rest.visible s dir)
  | .dir name stat entries rest =>
    if s.excludes (dir ++ [name]) then rest.visible s dir
    else .dir name stat (entries.visible s (dir ++ [name])) (rest.visible s dir)

lemma mem_items_below (h : i ∈ f.items dir) : ∃ name ∈ f.names, dir ++ [name] <+: i.path := by
  induction f generalizing dir with
  | nil => cases h
  | file name leaf rest ih =>
    rcases mem_cons.mp h with rfl | later
    · exact ⟨name, mem_cons_self, prefix_rfl⟩
    · obtain ⟨n, mem, below⟩ := ih later
      exact ⟨n, mem_cons_of_mem _ mem, below⟩
  | dir name stat entries rest inner ih =>
    rcases mem_append.mp h with here | later
    · refine ⟨name, mem_cons_self, ?_⟩
      rcases mem_cons.mp here with rfl | inside
      · exact prefix_rfl
      · obtain ⟨n, -, below⟩ := inner inside
        exact (prefix_append _ _).trans below
    · obtain ⟨n, mem, below⟩ := ih later
      exact ⟨n, mem_cons_of_mem _ mem, below⟩

lemma mem_visible (above : s.Shows dir) :
    i ∈ (f.visible s dir).items dir ↔ i ∈ f.items dir ∧ s.Shows i.path := by
  induction f generalizing dir with
  | nil => simp [Forest.visible, Forest.items]
  | file name leaf rest ih =>
    have here : s.Shows (dir ++ [name]) ↔ _ := Settings.shows_append above
    rw [Forest.visible]
    split
    · next excluded =>
      rw [ih above, Forest.items, mem_cons]
      constructor
      · exact fun h => ⟨.inr h.1, h.2⟩
      · rintro ⟨rfl | later, shown⟩
        · rw [here.mp shown] at excluded
          cases excluded
        · exact ⟨later, shown⟩
    · next shown =>
      rw [Forest.items, Forest.items, mem_cons, mem_cons, ih above]
      constructor
      · rintro (rfl | ⟨later, rest⟩)
        · exact ⟨.inl rfl, here.mpr (by simpa using shown)⟩
        · exact ⟨.inr later, rest⟩
      · rintro ⟨rfl | later, rest⟩
        · exact .inl rfl
        · exact .inr ⟨later, rest⟩
  | dir name stat entries rest inner ih =>
    have here : s.Shows (dir ++ [name]) ↔ _ := Settings.shows_append above
    rw [Forest.visible]
    split
    · next excluded =>
      rw [ih above, Forest.items, mem_append]
      constructor
      · exact fun h => ⟨.inr h.1, h.2⟩
      · rintro ⟨inside | later, shown⟩
        · have below : dir ++ [name] <+: i.path := by
            rcases mem_cons.mp inside with rfl | deeper
            · exact prefix_rfl
            · obtain ⟨n, -, below⟩ := mem_items_below deeper
              exact (prefix_append _ _).trans below
          rw [here.mp (shown.of_below below)] at excluded
          cases excluded
        · exact ⟨later, shown⟩
    · next shown =>
      have child : s.Shows (dir ++ [name]) := here.mpr (by simpa using shown)
      rw [Forest.items, Forest.items, mem_append, mem_append, mem_cons,
        mem_cons, ih above, inner child]
      constructor
      · rintro ((rfl | ⟨deeper, rest⟩) | ⟨later, rest⟩)
        · exact ⟨.inl (.inl rfl), child⟩
        · exact ⟨.inl (.inr deeper), rest⟩
        · exact ⟨.inr later, rest⟩
      · rintro ⟨(rfl | deeper) | later, rest⟩
        · exact .inl (.inl rfl)
        · exact .inl (.inr ⟨deeper, rest⟩)
        · exact .inr ⟨later, rest⟩

lemma count_visible (s : Settings) (threshold : Int64) (dir : Path) (f : Forest) (i : Item) :
    ((f.visible s dir).exported dir).count i = ((f.kept s threshold dir).exported dir).count i +
        ((f.parts s threshold dir).flatMap (Part.exported s threshold)).count i := by
  induction f generalizing dir with
  | nil => rfl
  | file name leaf rest ih =>
    rw [Forest.visible, Forest.kept, Forest.parts]
    split
    · exact ih dir
    · rw [Forest.exported_file, Forest.exported_file, count_append, count_append, ih]
      omega
  | dir name stat entries rest inner ih =>
    rw [Forest.visible, Forest.kept, Forest.parts]
    by_cases excluded : s.excludes (dir ++ [name]) = true
    · rw [if_pos excluded, if_pos (.inl excluded), if_pos excluded]
      exact ih dir
    · rw [if_neg excluded, if_neg excluded]
      have below := inner (dir ++ [name])
      by_cases cut : cuts s threshold (dir ++ [name]) entries = true
      · rw [if_pos (.inr cut), if_pos cut]
        simp only [Forest.exported_dir, flatMap_append, count_append, count_cons,
          flatMap_cons, flatMap_nil, Part.exported, Part.kept, count_nil, ih]
        omega
      · rw [if_neg (not_or.mpr ⟨excluded, cut⟩), if_neg cut]
        simp only [Forest.exported_dir, flatMap_append, count_append, count_cons,
          flatMap_nil, count_nil, ih]
        omega

lemma nodup_paths (valid : f.Valid) (dir : Path) : ((f.items dir).map Item.path).Nodup := by
  induction f generalizing dir with
  | nil => exact nodup_nil
  | file name leaf rest ih =>
    obtain ⟨-, fresh, later⟩ := valid
    refine nodup_cons.mpr ⟨fun mem => ?_, ih later dir⟩
    obtain ⟨i, inside, same⟩ := mem_map.mp mem
    obtain ⟨n, other, below⟩ := mem_items_below inside
    exact fresh (eq_of_below prefix_rfl (same ▸ below) ▸ other)
  | dir name stat entries rest inner ih =>
    obtain ⟨-, fresh, within, later⟩ := valid
    have apart : ∀ i ∈ rest.items dir, ¬ dir ++ [name] <+: i.path := by
      intro i inside below
      obtain ⟨n, other, here⟩ := mem_items_below inside
      exact fresh (eq_of_below below here ▸ other)
    rw [Forest.items, map_append, map_cons]
    refine nodup_append.mpr ⟨nodup_cons.mpr ⟨fun mem => ?_, inner within _⟩, ih later dir,
      fun p here q there same => ?_⟩
    · obtain ⟨i, inside, same⟩ := mem_map.mp mem
      obtain ⟨n, -, below⟩ := mem_items_below inside
      have longer := below.length_le
      rw [same] at longer
      simp [Item.path] at longer
    · subst same
      obtain ⟨i, inside, same⟩ := mem_map.mp there
      refine apart i inside (same ▸ ?_)
      rcases mem_cons.mp here with rfl | deeper
      · exact prefix_rfl
      · obtain ⟨j, inside, same⟩ := mem_map.mp deeper
        obtain ⟨n, -, below⟩ := mem_items_below inside
        exact same ▸ (prefix_append _ _).trans below

lemma isName_of_mem_items (valid : f.Valid) (above : ∀ n ∈ dir, Forest.IsName n)
    (h : i ∈ f.items dir) : ∀ n ∈ i.path, Forest.IsName n := by
  have child : ∀ name, Forest.IsName name → ∀ n ∈ dir ++ [name], Forest.IsName n := by
    intro name ok n mem
    rcases mem_append.mp mem with up | here
    · exact above n up
    · rw [mem_singleton.mp here]
      exact ok
  induction f generalizing dir with
  | nil => cases h
  | file name leaf rest ih =>
    rcases mem_cons.mp h with rfl | later
    · exact child name valid.1
    · exact ih valid.2.2 above later child
  | dir name stat entries rest inner ih =>
    obtain ⟨ok, -, within, after⟩ := valid
    rcases mem_append.mp h with here | later
    · rcases mem_cons.mp here with rfl | inside
      · exact child name ok
      · refine inner within (child name ok) inside fun m known n mem => ?_
        rcases mem_append.mp mem with up | last
        · exact child name ok n up
        · rw [mem_singleton.mp last]
          exact known
    · exact ih after above later child

lemma slashed_inj {p q : Path} (hp : ∀ n ∈ p, '/' ∉ n) (hq : ∀ n ∈ q, '/' ∉ n)
    (same : p.flatMap ('/' :: ·) = q.flatMap ('/' :: ·)) : p = q := by
  induction p generalizing q with
  | nil =>
    cases q with
    | nil => rfl
    | cons n q => cases same
  | cons m p ih =>
    cases q with
    | nil => cases same
    | cons n q =>
      -- the first name ends where the next slash or the end of the text is
      have cut : ∀ (r : Path) (l : Name), '/' ∉ l →
          (l ++ r.flatMap ('/' :: ·)).takeWhile (· ≠ '/') = l := by
        intro r l free
        rw [takeWhile_append_of_pos
          (by intro c mem; simpa using fun h : c = '/' => free (h ▸ mem))]
        cases r <;> simp
      simp only [flatMap_cons, cons_append, List.cons.injEq, true_and] at same
      have first : m = n := by
        rw [← cut p m (hp m mem_cons_self), same, cut q n (hq n mem_cons_self)]
      subst first
      rw [ih (fun n mem => hp n (mem_cons_of_mem _ mem))
        (fun n mem => hq n (mem_cons_of_mem _ mem)) (append_cancel_left same)]

/-- The path with an empty name at the end for a directory, so that all names are alike. -/
def Item.segments : Item → Path
  | .dir path _ => path ++ [[]]
  | .file path _ => path

lemma Item.name_eq (below : i.path ≠ []) : i.name = i.segments.flatMap ('/' :: ·) := by
  cases i with
  | file => rfl
  | dir path stat =>
    cases path with
    | nil => exact absurd rfl below
    | cons n p => simp [name, segments]

lemma Item.path_eq_of_name {j : Item} (hi : ∀ n ∈ i.path, Forest.IsName n)
    (hj : ∀ n ∈ j.path, Forest.IsName n)
    (rooted : ∀ k : Item, k = i ∨ k = j → k.path = [] → ∃ stat, k = .dir [] stat)
    (same : i.name = j.name) : i.path = j.path := by
  have root : ∀ k l : Item, (k.path = [] → ∃ stat, k = .dir [] stat) → k.path = [] →
      k.name = l.name → l.path = [] := by
    intro k l isRoot empty names
    by_contra below
    obtain ⟨stat, rfl⟩ := isRoot empty
    cases l with
    | file path f =>
      cases path with
      | nil => exact below rfl
      | cons n p => simp [name] at names
    | dir path st =>
      cases path with
      | nil => exact below rfl
      | cons n p => simp [name] at names
  by_cases first : i.path = []
  · rw [first, root i j (rooted i (.inl rfl)) first same]
  by_cases second : j.path = []
  · exact absurd (root j i (rooted j (.inr rfl)) second same.symm) first
  rw [name_eq first, name_eq second] at same
  have slashless : ∀ k : Item, (∀ n ∈ k.path, Forest.IsName n) → ∀ n ∈ k.segments, '/' ∉ n := by
    intro k ok n mem
    cases k with
    | file path f => exact (ok n mem).1.2.1
    | dir path stat =>
      rcases mem_append.mp mem with inside | last
      · exact (ok n inside).1.2.1
      · rw [mem_singleton.mp last]
        exact not_mem_nil
  have segments := slashed_inj (slashless i hi) (slashless j hj) same
  -- a directory ends in the empty name and a file does not
  cases i with
  | file p f =>
    cases j with
    | file q g => exact segments
    | dir q stat =>
      exact absurd rfl (hi [] (by rw [path, show p = q ++ [[]] from segments]; simp)).1.1
  | dir p stat =>
    cases j with
    | file q g =>
      exact absurd rfl (hj [] (by rw [path, show q = p ++ [[]] from segments.symm]; simp)).1.1
    | dir q st => exact append_cancel_right segments

namespace Tree

lemma nodup_paths (t : Tree) : (t.items.map Item.path).Nodup := by
  refine nodup_cons.mpr ⟨fun mem => ?_, Export.nodup_paths t.valid []⟩
  obtain ⟨i, inside, same⟩ := mem_map.mp mem
  obtain ⟨n, -, below⟩ := mem_items_below inside
  have longer := below.length_le
  rw [same] at longer
  simp [Item.path] at longer

lemma isName_of_mem (h : i ∈ t.items) : ∀ n ∈ i.path, Forest.IsName n := by
  rcases mem_cons.mp h with rfl | below
  · exact fun n mem => by cases mem
  · exact isName_of_mem_items t.valid (fun n mem => by cases mem) below

lemma rooted (h : i ∈ t.items) (empty : i.path = []) : ∃ stat, i = .dir [] stat := by
  rcases mem_cons.mp h with rfl | inside
  · exact ⟨t.stat, rfl⟩
  · obtain ⟨n, -, below⟩ := mem_items_below inside
    rw [empty] at below
    simp at below

lemma eq_of_name (hi : i ∈ t.items) (hj : j ∈ t.items) (same : i.name = j.name) : i = j := by
  refine inj_on_of_nodup_map t.nodup_paths hi hj (Item.path_eq_of_name (isName_of_mem hi)
    (isName_of_mem hj) (fun k which => ?_) same)
  rcases which with rfl | rfl
  · exact rooted hi
  · exact rooted hj

end Tree

end Velda.Export
