import Velda.Lib.Delimited

/-! The table of NFS exports as `exports(5)` describes it: fields apart by white space, a line
for each export, quotes around a field or a part of it, characters written as a
backslash and three octal digits, and comments. A text of plain fields is read back as
it was written, and no other text is. -/
variable {c c₁ c₂ c₃ e : Char} {a b : Text} {r : Reading}

namespace Velda.Lib.Exports
open List

abbrev Text := List Char

def isSpace (c : Char) : Bool := c ∈ [' ', '\t', '\n', '\r', '\x0b', '\x0c']

def octal? (c : Char) : Option Nat := if '0' ≤ c ∧ c ≤ '7' then some (c.toNat - '0'.toNat) else none

def escape? (b c₁ c₂ c₃ : Char) : Option Char :=
  if b = '\\' then
    match octal? c₁, octal? c₂, octal? c₃ with
    | some a, some b, some c => if a ≤ 3 then some (Char.ofNat (64 * a + 8 * b + c)) else none
    | _, _, _ => none
  else none

def push (field : Text) (c : Char) : Text :=
  match field.reverse with
  | c₂ :: c₁ :: b :: rest =>
    match escape? b c₁ c₂ c with
    | some e => rest.reverse ++ [e]
    | none => field ++ [c]
  | _ => field ++ [c]

structure Reading where
  lines : List (List Text) := []
  line : List Text := []
  field : Option Text := none
  quoted : Bool := false
  comment : Bool := false
  deriving DecidableEq

namespace Reading

def endField (r : Reading) : Reading :=
  match r.field with
  | none => r
  | some field => { r with line := r.line ++ [field], field := none }

def endLine (r : Reading) : Reading :=
  let line := r.endField.line
  { lines := if line = [] then r.lines else r.lines ++ [line] }

def add (r : Reading) (c : Char) : Reading := { r with field := some (push (r.field.getD []) c) }

def next (r : Reading) (c : Char) : Reading :=
  if r.comment then if c = '\n' then r.endLine else r
  else if r.quoted then if c = '"' then { r with quoted := false } else r.add c
  else if c = '\n' then r.endLine
  else if isSpace c then r.endField
  else if c = '"' then { r with quoted := true, field := some (r.field.getD []) }
  else if c = '#' ∧ r.field = none then { r with comment := true }
  else r.add c

end Reading

/-- The lines of a table, each with its fields; a line that does not end is not read. -/
def read (text : Text) : List (List Text) := (text.foldl Reading.next {}).lines

/-- A text that stands for itself as a field. -/
structure Plain (text : Text) : Prop where
  chars : ∀ c ∈ text, isSpace c = false ∧ c ≠ '"'
  escapes : ∀ b c₁ c₂ c₃, [b, c₁, c₂, c₃] <:+: text → escape? b c₁ c₂ c₃ = none

def table (entries : List (Text × Text)) : Text :=
  entries.flatMap fun (path, client) => path ++ ' ' :: (client ++ ['\n'])

def width (fields : List Text) : Nat := (fields.map fun f => f.length + 1).sum

def Reading.size (r : Reading) : Nat :=
  (r.lines.map width).sum + width r.line + (r.field.getD []).length

lemma length_push (field : Text) (c : Char) : (push field c).length ≤ field.length + 1 := by
  unfold push
  split
  · next c₂ c₁ b rest same =>
    have length := congrArg List.length same
    split
    · simp at length ⊢
      omega
    · simp
  · simp

namespace Reading

@[simp] lemma lines_endField (r : Reading) : r.endField.lines = r.lines := by
  unfold endField
  split <;> rfl

@[simp] lemma field_endField (r : Reading) : r.endField.field = none := by
  unfold endField
  split
  · assumption
  · rfl

lemma size_endField (r : Reading) : r.endField.size ≤ r.size + 1 := by
  unfold endField
  split
  · exact Nat.le_succ _
  · next field here => simp [size, here, width]; omega

lemma size_endLine (r : Reading) : r.endLine.size ≤ r.size + 1 := by
  have bound := r.size_endField
  simp only [endLine]
  split
  · next empty => simp [size, empty] at bound ⊢; omega
  · simp [size, width] at bound ⊢; omega

lemma size_add (r : Reading) (c : Char) : (r.add c).size ≤ r.size + 1 := by
  have bound := length_push (r.field.getD []) c
  simp only [size, add, Option.getD_some]
  omega

lemma size_next (r : Reading) (c : Char) : (r.next c).size ≤ r.size + 1 := by
  unfold next
  split
  · split
    · exact r.size_endLine
    · exact Nat.le_succ _
  · split
    · split
      · exact Nat.le_succ _
      · exact r.size_add c
    · split
      · exact r.size_endLine
      · split
        · exact r.size_endField
        · split
          · exact Nat.le_succ _
          · split
            · exact Nat.le_succ _
            · exact r.size_add c

lemma size_foldl (r : Reading) (text : Text) :
    (text.foldl next r).size ≤ r.size + text.length := by
  induction text generalizing r with
  | nil => exact Nat.le_refl _
  | cons c text ih =>
    have first := r.size_next c
    have rest := ih (r.next c)
    simp only [foldl_cons, length_cons]
    omega

lemma size_next_of_full (full : ((a ++ c :: b).foldl next r).size = r.size + (a ++ c :: b).length) :
    ((a.foldl next r).next c).size = (a.foldl next r).size + 1 := by
  have before := r.size_foldl a
  have here := (a.foldl next r).size_next c
  have after := ((a.foldl next r).next c).size_foldl b
  simp only [foldl_append, foldl_cons, length_append, length_cons] at full
  omega

lemma next_quote (r : Reading) : (r.next '"').size = r.size := by
  unfold next
  split
  · rfl
  · split
    · rfl
    · simp [isSpace, size]

end Reading

lemma Reading.next_add (opened : r.quoted = false ∧ r.comment = false)
    (ordinary : isSpace c = false ∧ c ≠ '"') (begun : c ≠ '#' ∨ r.field ≠ none) :
    r.next c = r.add c := by
  have inLine : c ≠ '\n' := by
    rintro rfl
    exact absurd ordinary.1 (by decide)
  have notComment : ¬ (c = '#' ∧ r.field = none) := fun is => begun.elim (· is.1) (· is.2)
  unfold next
  rw [if_neg (by simp [opened.2]), if_neg (by simp [opened.1]), if_neg inLine,
    if_neg (by simp [ordinary.1]), if_neg ordinary.2, if_neg notComment]

def Reading.fields (r : Reading) : List Text := r.lines.flatten ++ r.line ++ r.field.toList

lemma Reading.fields_endField (r : Reading) : r.endField.fields = r.fields := by
  unfold endField
  split
  · rfl
  · next field here => simp [fields, here]

lemma Reading.fields_next_space (opened : r.quoted = false ∧ r.comment = false)
    (space : isSpace c = true) : (r.next c).fields = r.fields := by
  unfold next
  rw [if_neg (by simp [opened.2]), if_neg (by simp [opened.1]), if_pos space]
  split
  · rw [← r.fields_endField]
    simp only [endLine, fields]
    split
    · next empty => simp [empty]
    · simp
  · exact r.fields_endField

lemma Reading.next_comment (opened : r.quoted = false ∧ r.comment = false) (none : r.field = none) :
    r.next '#' = { r with comment := true } := by
  unfold next
  rw [if_neg (by simp [opened.2]), if_neg (by simp [opened.1]), if_neg (by decide),
    if_neg (by decide), if_neg (by decide), if_pos ⟨rfl, none⟩]

lemma octal_of_escape {b : Char} (code : escape? b c₁ c₂ c₃ = some e) :
    b = '\\' ∧ ∀ c ∈ [c₁, c₂, c₃], octal? c ≠ none := by
  unfold escape? at code
  split at code
  · next same =>
    split at code
    · next h₁ h₂ h₃ => exact ⟨same, by simp [h₁, h₂, h₃]⟩
    · cases code
  · cases code

lemma plain_of_chars {text : Text}
    (chars : ∀ c ∈ text, isSpace c = false ∧ c ≠ '"' ∧ c ≠ '\\') : Plain text := by
  refine ⟨fun c mem => ⟨(chars c mem).1, (chars c mem).2.1⟩, fun b c₁ c₂ c₃ inside => ?_⟩
  exact if_neg (chars b (inside.subset mem_cons_self)).2.2

lemma plain_slash : Plain (a ++ '/' :: b) ↔ Plain a ∧ Plain b := by
  constructor
  · intro plain
    have left : a <:+: a ++ '/' :: b := ⟨[], '/' :: b, by simp⟩
    have right : b <:+: a ++ '/' :: b := ⟨a ++ ['/'], [], by simp⟩
    exact ⟨⟨fun c mem => plain.chars c (left.subset mem),
        fun b c₁ c₂ c₃ inside => plain.escapes b c₁ c₂ c₃ (inside.trans left)⟩,
      ⟨fun c mem => plain.chars c (right.subset mem),
        fun b c₁ c₂ c₃ inside => plain.escapes b c₁ c₂ c₃ (inside.trans right)⟩⟩
  · rintro ⟨left, right⟩
    refine ⟨fun c mem => ?_, fun d c₁ c₂ c₃ inside => ?_⟩
    · rcases mem_append.mp mem with first | rest
      · exact left.chars c first
      · rcases mem_cons.mp rest with rfl | last
        · decide
        · exact right.chars c last
    · cases code : escape? d c₁ c₂ c₃ with
      | none => rfl
      | some e =>
        obtain ⟨rfl, digits⟩ := octal_of_escape code
        have free : '/' ∉ ['\\', c₁, c₂, c₃] := by
          intro mem
          rcases mem_cons.mp mem with same | digit
          · exact absurd same (by decide)
          · exact digits '/' digit rfl
        rcases infix_of_append_sep free inside with first | last
        · rw [left.escapes _ _ _ _ first] at code
          cases code
        · rw [right.escapes _ _ _ _ last] at code
          cases code

lemma push_eq {field : Text} (longer : (push field c).length = field.length + 1) :
    push field c = field ++ [c] := by
  unfold push at longer ⊢
  split
  · next c₂ c₁ b rest same =>
    have length := congrArg List.length same
    simp only [same] at longer
    split
    · next e code =>
      simp only [code] at longer
      simp at length longer
      omega
    · rfl
  · rfl

lemma push_plain {field : Text}
    (plain : ∀ b c₁ c₂ c₃, [b, c₁, c₂, c₃] <:+: field ++ [c] → escape? b c₁ c₂ c₃ = none) :
    push field c = field ++ [c] := by
  unfold push
  split
  · next c₂ c₁ b rest same =>
    have shape : field = rest.reverse ++ [b, c₁, c₂] := by
      rw [← reverse_reverse field, same]
      simp
    rw [plain b c₁ c₂ c ⟨rest.reverse, [], by simp [shape]⟩]
  · rfl

lemma push_escape (field : Text) {b : Char} (code : escape? b c₁ c₂ c₃ = some e) :
    push (field ++ [b, c₁, c₂]) c₃ = field ++ [e] := by
  unfold push
  simp [code]

lemma ordinary_of_escape {b : Char} (code : escape? b c₁ c₂ c₃ = some e) :
    ∀ c ∈ [b, c₁, c₂, c₃], isSpace c = false ∧ c ≠ '"' ∧ c ≠ '#' := by
  obtain ⟨rfl, digits⟩ := octal_of_escape code
  intro c mem
  rcases mem_cons.mp mem with rfl | digit
  · decide
  · have octal := digits c digit
    refine ⟨?_, ?_, ?_⟩
    · cases space : isSpace c with
      | false => rfl
      | true =>
        simp only [isSpace, decide_eq_true_eq] at space
        fin_cases space <;> exact absurd rfl octal
    · rintro rfl
      exact octal rfl
    · rintro rfl
      exact octal rfl

section
variable {text : Text} (full : (text.foldl Reading.next {}).size = text.length)
include full

lemma full_at (split : text = a ++ c :: b) :
    ((a.foldl Reading.next {}).next c).size = (a.foldl Reading.next {}).size + 1 := by
  refine Reading.size_next_of_full (b := b) ?_
  rw [← split, full]
  simp [Reading.size, width]

lemma no_quote : '"' ∉ text := by
  intro mem
  obtain ⟨a, b, split⟩ := append_of_mem mem
  have grows := full_at full split
  rw [Reading.next_quote] at grows
  omega

lemma open_at (split : text = a ++ b) :
    (a.foldl Reading.next {}).quoted = false ∧ (a.foldl Reading.next {}).comment = false := by
  induction a using List.reverseRecOn generalizing b with
  | nil => exact ⟨rfl, rfl⟩
  | append_singleton a c ih =>
    obtain ⟨quoted, comment⟩ := ih (by simpa using split)
    have grows := full_at full (by simpa using split)
    have plain : c ≠ '"' := by
      rintro rfl
      exact no_quote full (by simp [split])
    rw [foldl_append, foldl_cons, foldl_nil]
    generalize a.foldl Reading.next {} = r at *
    unfold Reading.next at grows ⊢
    simp only [comment, quoted, plain, Bool.false_eq_true, if_false] at grows ⊢
    split
    · exact ⟨rfl, rfl⟩
    · next other =>
      simp only [other] at grows
      split
      · unfold Reading.endField
        split <;> exact ⟨quoted, comment⟩
      · next ordinary =>
        simp only [ordinary] at grows
        split
        · next starts =>
          rw [if_pos starts] at grows
          simp [Reading.size] at grows
        · exact ⟨quoted, comment⟩

lemma add_at (split : text = a ++ c :: b) (ordinary : isSpace c = false ∧ c ≠ '"')
    (begun : c ≠ '#' ∨ (a.foldl Reading.next {}).field ≠ none) :
    ((a ++ [c]).foldl Reading.next {}).field =
      some (((a.foldl Reading.next {}).field.getD []) ++ [c]) := by
  have grows := full_at full split
  rw [foldl_append, foldl_cons, foldl_nil]
  rw [Reading.next_add (open_at full split) ordinary begun] at grows ⊢
  rw [Reading.add, push_eq]
  simp [Reading.size, Reading.add] at grows
  omega

lemma no_escape {b : Char} (inside : [b, c₁, c₂, c₃] <:+: text) : escape? b c₁ c₂ c₃ = none := by
  obtain ⟨a, t, split⟩ := inside
  cases code : escape? b c₁ c₂ c₃ with
  | none => rfl
  | some e =>
    have ordinary := ordinary_of_escape code
    have chars : ∀ c ∈ [b, c₁, c₂, c₃], (isSpace c = false ∧ c ≠ '"') ∧ c ≠ '#' :=
      fun c mem => ⟨⟨(ordinary c mem).1, (ordinary c mem).2.1⟩, (ordinary c mem).2.2⟩
    have first := add_at full (a := a) (b := [c₁, c₂, c₃] ++ t) (by simp [← split])
      (chars b (by simp)).1 (.inl (chars b (by simp)).2)
    have second := add_at full (a := a ++ [b]) (b := [c₂, c₃] ++ t) (by simp [← split])
      (chars c₁ (by simp)).1 (.inl (chars c₁ (by simp)).2)
    have third := add_at full (a := a ++ [b] ++ [c₁]) (b := c₃ :: t) (by simp [← split])
      (chars c₂ (by simp)).1 (.inl (chars c₂ (by simp)).2)
    have grows :=
      full_at full (a := a ++ [b] ++ [c₁] ++ [c₂]) (c := c₃) (b := t) (by simp [← split])
    have opened := open_at full (a := a ++ [b] ++ [c₁] ++ [c₂]) (b := c₃ :: t) (by simp [← split])
    rw [second, first] at third
    generalize (a ++ [b] ++ [c₁] ++ [c₂]).foldl Reading.next {} = r at *
    rw [Reading.next_add opened (chars c₃ (by simp)).1 (.inl (chars c₃ (by simp)).2)] at grows
    have escaped := push_escape ((a.foldl Reading.next {}).field.getD []) code
    simp [Reading.size, Reading.add, third, escaped] at grows
    omega

lemma unspaced_at (split : text = a ++ b) :
    ∀ f ∈ (a.foldl Reading.next {}).fields, ∀ c ∈ f, isSpace c = false := by
  induction a using List.reverseRecOn generalizing b with
  | nil => simp [Reading.fields]
  | append_singleton a c ih =>
    have known := ih (by simpa using split)
    have opened := open_at full (by simpa using split)
    cases space : isSpace c with
    | true =>
      rw [foldl_append, foldl_cons, foldl_nil,
        Reading.fields_next_space opened space]
      exact known
    | false =>
      have plain : c ≠ '"' := by
        rintro rfl
        exact no_quote full (by simp [split])
      have begun : c ≠ '#' ∨ (a.foldl Reading.next {}).field ≠ none := by
        by_contra starts
        obtain ⟨rfl, none⟩ : c = '#' ∧ (a.foldl Reading.next {}).field = none := by
          simpa using starts
        have grows := full_at full (by simpa using split)
        rw [Reading.next_comment opened none] at grows
        simp [Reading.size] at grows
      have here := add_at full (by simpa using split) ⟨space, plain⟩ begun
      rw [foldl_append, foldl_cons, foldl_nil] at here ⊢
      rw [Reading.next_add opened ⟨space, plain⟩ begun] at here ⊢
      generalize a.foldl Reading.next {} = r at *
      intro f mem
      rcases mem_append.mp mem with old | new
      · exact known f (mem_append_left _ old)
      · rw [here, Option.toList_some, mem_singleton] at new
        subst new
        intro d inside
        rcases mem_append.mp inside with before | last
        · cases field : r.field with
          | none =>
            rw [field] at before
            cases before
          | some g =>
            exact known g (by simp [Reading.fields, field]) d (by simpa [field] using before)
        · rw [mem_singleton.mp last]
          exact space

end

lemma foldl_field (opened : r.quoted = false ∧ r.comment = false) (empty : r.field = none)
    {f : Text} (plain : Plain f) (nonempty : f ≠ []) (start : f.head? ≠ some '#') :
    f.foldl Reading.next r = { r with field := some f } := by
  have onward : ∀ later a : Text, a ++ later = f → a ≠ [] →
      later.foldl Reading.next { r with field := some a } = { r with field := some f } := by
    intro later
    induction later with
    | nil => rintro a rfl -; simp
    | cons c later ih =>
      intro a whole begun
      have step : Reading.next { r with field := some a } c =
          { r with field := some (a ++ [c]) } := by
        rw [Reading.next_add (r := { r with field := some a }) opened
          (plain.chars c (by simp [← whole])) (.inr (by simp)), Reading.add, Option.getD_some,
          push_plain]
        exact fun b c₁ c₂ c₃ inside => plain.escapes b c₁ c₂ c₃
          (inside.trans ⟨[], later, by simp [← whole]⟩)
      rw [foldl_cons, step]
      exact ih (a ++ [c]) (by simp [whole]) (by simp)
  cases f with
  | nil => exact absurd rfl nonempty
  | cons c b =>
    have step : r.next c = { r with field := some [c] } := by
      rw [Reading.next_add opened (plain.chars c mem_cons_self)
        (.inl fun is => start (by simp [is])), Reading.add, empty]
      rfl
    rw [foldl_cons, step]
    exact onward b [c] rfl (by simp)

lemma foldl_entry (lines : List (List Text)) {p c : Text}
    (hp : Plain p ∧ p ≠ [] ∧ p.head? ≠ some '#') (hc : Plain c ∧ c ≠ [] ∧ c.head? ≠ some '#') :
    (p ++ ' ' :: (c ++ ['\n'])).foldl Reading.next { lines } = { lines := lines ++ [[p, c]] } := by
  rw [foldl_append, foldl_field ⟨rfl, rfl⟩ rfl hp.1 hp.2.1 hp.2.2, foldl_cons,
    foldl_append]
  have space : Reading.next { lines, field := some p } ' ' = { lines, line := [p] } := rfl
  rw [space, foldl_field ⟨rfl, rfl⟩ rfl hc.1 hc.2.1 hc.2.2]
  rfl

/-- A table of plain fields is read back as it was written. -/
lemma read_table {entries : List (Text × Text)}
    (plain : ∀ e ∈ entries, ∀ f ∈ [e.1, e.2], Plain f ∧ f ≠ [] ∧ f.head? ≠ some '#') :
    read (table entries) = entries.map fun e => [e.1, e.2] := by
  have onward : ∀ lines, (table entries).foldl Reading.next { lines } =
      { lines := lines ++ entries.map fun e => [e.1, e.2] } := by
    induction entries with
    | nil => simp [table]
    | cons e rest ih =>
      intro lines
      have first := plain e mem_cons_self
      rw [table, flatMap_cons, foldl_append,
        foldl_entry lines (first e.1 (by simp)) (first e.2 (by simp))]
      exact (ih (fun e mem => plain e (mem_cons_of_mem _ mem)) _).trans (by simp)
  simp [read, onward]

/-- A table that is read back as it was written has plain fields only. -/
lemma plain_of_read {entries : List (Text × Text)}
    (back : read (table entries) = entries.map fun e => [e.1, e.2]) :
    ∀ e ∈ entries, Plain e.1 ∧ Plain e.2 := by
  have wide : ∀ l : List (Text × Text),
      ((l.map fun e => [e.1, e.2]).map width).sum = (table l).length := by
    intro l
    induction l with
    | nil => rfl
    | cons e l ih =>
      simp [table, width] at ih ⊢
      omega
  have full : ((table entries).foldl Reading.next {}).size = (table entries).length := by
    refine Nat.le_antisymm ?_ ?_
    · simpa [Reading.size, width] using Reading.size_foldl {} (table entries)
    · have lines := wide entries
      rw [← back] at lines
      simp only [read] at lines
      simp only [Reading.size]
      omega
  have plain : ∀ f, f <:+: table entries → f ∈ ((table entries).foldl Reading.next {}).fields →
      Plain f := by
    intro f inside read
    refine ⟨fun c mem => ⟨unspaced_at full (b := []) (by simp) f read c mem, ?_⟩,
      fun b c₁ c₂ c₃ within => no_escape full (within.trans inside)⟩
    rintro rfl
    exact no_quote full (inside.subset mem)
  have listed : ∀ e ∈ entries, ∀ f ∈ [e.1, e.2],
      f ∈ ((table entries).foldl Reading.next {}).fields := by
    intro e mem f here
    refine mem_append_left _ (mem_append_left _ ?_)
    refine mem_flatten.mpr ⟨[e.1, e.2], ?_, here⟩
    rw [show ((table entries).foldl Reading.next {}).lines = _ from back]
    exact mem_map.mpr ⟨e, mem, rfl⟩
  have within : ∀ e ∈ entries, e.1 ++ ' ' :: (e.2 ++ ['\n']) <:+: table entries := by
    intro e mem
    obtain ⟨a, b, rfl⟩ := append_of_mem mem
    exact ⟨table a, table b, by simp [table]⟩
  intro e mem
  refine ⟨plain e.1 (List.IsInfix.trans ⟨[], ' ' :: (e.2 ++ ['\n']), by simp⟩ (within e mem))
    (listed e mem e.1 (by simp)), plain e.2 (List.IsInfix.trans ⟨e.1 ++ [' '], ['\n'], by simp⟩
      (within e mem)) (listed e mem e.2 (by simp))⟩

end Velda.Lib.Exports
