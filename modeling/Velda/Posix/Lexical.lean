import Velda.Posix.Calls

/-! Where a path leads when no symbolic link is on the way: the names from the root. -/
namespace Velda.Posix

def follow (dir : List Name) : List Name → List Name
  | [] => dir
  | name :: rest =>
    follow
      (if name = ['.'] then dir else if name = ['.', '.'] then dir.dropLast else dir ++ [name]) rest

/-- The names that are left of a path, after others, when it never goes above where it starts. -/
def descend (names : List Name) : List Name → Option (List Name)
  | [] => some names
  | name :: rest =>
    if name = ['.'] then descend names rest
    else if name = ['.', '.'] then if names = [] then none else descend names.dropLast rest
    else descend (names ++ [name]) rest

def locate (path : Name) : List Name := follow [] (components path)

lemma follow_append (dir first second : List Name) :
    follow dir (first ++ second) = follow (follow dir first) second := by
  induction first generalizing dir with
  | nil => rfl
  | cons name first ih => exact ih _

lemma components_slash (first second : Name) :
    components (first ++ '/' :: second) = components first ++ components second := by
  unfold components
  rw [List.splitOn_append_cons_self, List.filter_append]

lemma locate_slash (first second : Name) :
    locate (first ++ '/' :: second) = follow (locate first) (components second) := by
  unfold locate
  rw [components_slash, follow_append]

lemma components_entry {name : Name} (entry : IsEntry name) : components name = [name] := by
  simp [components, List.splitOn_eq_singleton entry.2.1, entry.1]

lemma follow_entry {name : Name} (entry : IsEntry name) (dir rest : List Name) :
    follow dir (name :: rest) = follow (dir ++ [name]) rest := by
  rw [follow, if_neg entry.2.2.1, if_neg entry.2.2.2]

lemma follow_of_descend {names path left : List Name} (h : descend names path = some left)
    (dir : List Name) : follow (dir ++ names) path = dir ++ left := by
  induction path generalizing names with
  | nil =>
    cases h
    rfl
  | cons name rest ih =>
    rw [follow]
    rw [descend] at h
    split at h
    · next here =>
      rw [if_pos here]
      exact ih h
    · next other =>
      rw [if_neg other]
      split at h
      · next up =>
        split at h
        · cases h
        · next some =>
          rw [if_pos up, List.dropLast_append_of_ne_nil some]
          exact ih h
      · next down =>
        rw [if_neg down, List.append_assoc]
        exact ih h

lemma prefix_follow_of_descend {path left : List Name} (h : descend [] path = some left)
    (dir : List Name) : dir <+: follow dir path := by
  have names := follow_of_descend h dir
  rw [List.append_nil] at names
  exact ⟨left, names.symm⟩

lemma exists_follow_of_descend {names path : List Name} (h : descend names path = none) :
    ∃ rest, ∀ dir, follow (dir ++ names) path = follow dir.dropLast rest := by
  induction path generalizing names with
  | nil => cases h
  | cons name rest ih =>
    rw [descend] at h
    split at h
    · next here =>
      obtain ⟨after, same⟩ := ih h
      refine ⟨after, fun dir => ?_⟩
      rw [follow, if_pos here, same]
    · next other =>
      split at h
      · next up =>
        split at h
        · next none =>
          refine ⟨rest, fun dir => ?_⟩
          rw [follow, if_neg other, if_pos up, none, List.append_nil]
        · next some =>
          obtain ⟨after, same⟩ := ih h
          refine ⟨after, fun dir => ?_⟩
          rw [follow, if_neg other, if_pos up, List.dropLast_append_of_ne_nil some, same]
      · next down =>
        obtain ⟨after, same⟩ := ih h
        refine ⟨after, fun dir => ?_⟩
        rw [follow, if_neg other, if_neg down, List.append_assoc, same]

end Velda.Posix
