import Velda.Export.Parts
import Velda.Lib.Delimited

/-! What the Merkle hash of a layer says. The texts that are hashed can be read back: the hash
of a directory fixes the attributes of everything that is kept below it, in order, and
the names of the directories, but not the names of the files. -/
namespace Velda.Export
open Posix Lib

structure Platform.Ideal (pf : Platform) : Prop where
  injective : Function.Injective pf.sha256
  hex : ∀ text, ∀ c ∈ pf.sha256 text, c ∈ "0123456789abcdef".toList
  nonempty : ∀ text, pf.sha256 text ≠ []

def Ends (c : Char) : Prop := c = '\x00' ∨ c = '\n'

lemma not_ends_decimal (mem : c ∈ decimal n) : ¬ Ends c := by
  rintro (rfl | rfl) <;> exact absurd (mem_decimal mem) (by decide)

lemma decimal_injective : Function.Injective decimal := by
  have digits : ∀ m n, Nat.toDigits 10 m = Nat.toDigits 10 n → m = n := by
    intro m n same
    rw [← Nat.ofDigitChars_toDigits (n := m) (by omega) (by omega : 10 ≤ 10), same,
      Nat.ofDigitChars_toDigits (by omega) (by omega)]
  have unsigned : ∀ m n, Nat.toDigits 10 m ≠ '-' :: Nat.toDigits 10 n := by
    intro m n same
    have isDigit := Nat.isDigit_of_mem_toDigits (b := 10) (by omega) (by omega)
      (by rw [same]; exact List.mem_cons_self)
    cases isDigit
  intro m n same
  cases m with
  | ofNat m =>
    cases n with
    | ofNat n => exact congrArg Int.ofNat (digits m n same)
    | negSucc n => exact absurd same (unsigned m _)
  | negSucc m =>
    cases n with
    | ofNat n => exact absurd same.symm (unsigned n _)
    | negSucc n =>
      have rest := digits _ _ (List.cons.inj same).2
      exact congrArg Int.negSucc (Nat.succ.inj rest)

lemma eq_of_decimal (hc : Ends c) (hd : Ends d) (same : decimal m ++ c :: r = decimal n ++ d :: t) :
    m = n ∧ c = d ∧ r = t := by
  obtain ⟨number, rest⟩ := eq_of_append_delim (fun _ => not_ends_decimal)
    (fun _ => not_ends_decimal) hc hd same
  exact ⟨decimal_injective number, rest⟩

lemma Mode.eq_of_bits {m n : Mode} {i j : FileType}
    (same : m.bits + i.bits = n.bits + j.bits) : m = n ∧ i = j := by
  obtain ⟨perm, setuid, setgid, sticky⟩ := m
  obtain ⟨perm', setuid', setgid', sticky'⟩ := n
  simp only [Mode.bits] at same
  have flag : ∀ b : Bool, b.toNat ≤ 1 := Bool.toNat_le
  have h₁ := flag setuid
  have h₂ := flag setgid
  have h₃ := flag sticky
  have h₁' := flag setuid'
  have h₂' := flag setgid'
  have h₃' := flag sticky'
  have low : ∀ k : FileType, k.bits % 2 ^ 24 ≤ 2 ^ 21 := by
    rintro (_ | _ | _ | _ | _ | _) <;> decide
  -- the bits above those of the mode tell all types apart but the two kinds of devices
  have high : i.bits / 2 ^ 24 = j.bits / 2 ^ 24 := by
    have l := low i
    have l' := low j
    omega
  have types : i = j := by
    cases i <;> cases j <;> first | rfl | exact absurd high (by decide) |
      (simp only [FileType.bits] at same; omega)
  subst types
  have equal : ∀ b b' : Bool, b.toNat = b'.toNat → b = b' := by decide
  have e₁ := equal setuid setuid' (by omega)
  have e₂ := equal setgid setgid' (by omega)
  have e₃ := equal sticky sticky' (by omega)
  have e₄ : perm = perm' := Fin.ext (by omega)
  exact ⟨by rw [e₁, e₂, e₃, e₄], rfl⟩

/-- Two files with the same attributes; their names and inodes are not compared. -/
structure Leaf.Alike (f g : Leaf) : Prop where
  mode : f.stat.mode = g.stat.mode
  type : f.type = g.type
  uid : f.stat.uid = g.stat.uid
  gid : f.stat.gid = g.stat.gid
  size : f.size = g.size
  nanos : f.stat.nanos = g.stat.nanos
  nlink : f.stat.nlink = g.stat.nlink
  target : f.target = g.target

lemma merkleHashLeaf_eq (f : Leaf) (rest : Name) :
    merkleHashLeaf f ++ rest = "leaf".toList ++ '\x00' ::
      (decimal (f.stat.mode.bits + f.type.bits : Nat) ++ '\x00' :: (decimal f.stat.uid ++ '\x00' ::
        (decimal f.stat.gid ++ '\x00' :: (decimal f.size ++ '\x00' ::
          (decimal f.stat.nanos ++ '\x00' :: (decimal f.stat.nlink ++ '\x00' ::
            (f.target ++ '\n' :: rest))))))) := by
  simp [merkleHashLeaf, fields]

lemma Leaf.alike_of_hash {f g : Leaf} (same : merkleHashLeaf f ++ r = merkleHashLeaf g ++ t) :
    f.Alike g ∧ r = t := by
  rw [merkleHashLeaf_eq, merkleHashLeaf_eq] at same
  obtain ⟨-, same⟩ := eq_of_append_sep (by decide) (by decide) same
  obtain ⟨bits, -, same⟩ := eq_of_decimal (.inl rfl) (.inl rfl) same
  obtain ⟨uid, -, same⟩ := eq_of_decimal (.inl rfl) (.inl rfl) same
  obtain ⟨gid, -, same⟩ := eq_of_decimal (.inl rfl) (.inl rfl) same
  obtain ⟨size, -, same⟩ := eq_of_decimal (.inl rfl) (.inl rfl) same
  obtain ⟨nanos, -, same⟩ := eq_of_decimal (.inl rfl) (.inl rfl) same
  obtain ⟨nlink, -, same⟩ := eq_of_decimal (.inl rfl) (.inl rfl) same
  obtain ⟨mode, type⟩ := Mode.eq_of_bits (Int.natCast_inj.mp bits)
  have sizes : f.size = g.size := Int.natCast_inj.mp size
  -- the target may have any characters, but its length is the size
  have lengths : f.target.length = g.target.length := by
    unfold Leaf.target
    rw [← type]
    split
    · next symlink =>
      unfold Leaf.size at sizes
      rw [← type, symlink] at sizes
      exact sizes
    · rfl
  obtain ⟨target, rest⟩ := List.append_inj same lengths
  exact ⟨⟨mode, type, Int.natCast_inj.mp uid, Int.natCast_inj.mp gid, sizes, nanos,
    Int.natCast_inj.mp nlink, target⟩, (List.cons.inj rest).2⟩

lemma Leaf.Alike.hash (A : f.Alike g) : merkleHashLeaf f = merkleHashLeaf g := by
  have e := merkleHashLeaf_eq f []
  have e' := merkleHashLeaf_eq g []
  rw [List.append_nil] at e e'
  rw [e, e', A.mode, A.type, A.uid, A.gid, A.size, A.nanos, A.nlink, A.target]

/-- Two directories with the same attributes, as far as they are hashed. -/
structure DirAlike (s s' : Settings) (stat stat' : Stat) : Prop where
  mode : stat.mode = stat'.mode
  uid : stat.uid = stat'.uid
  gid : stat.gid = stat'.gid
  time : s.dirTime stat = s'.dirTime stat'

lemma fields_six (before a b c d e f : Name) : before ++ (fields [a, b, c, d, e, f] ++ ['\n']) =
      (((((before ++ (a ++ '\x00' :: b)) ++ '\x00' :: c) ++ '\x00' :: d) ++ '\x00' :: e) ++
        '\x00' :: f) ++ ['\n'] := by
  simp [fields]

lemma dirRecord_eq (s : Settings) (dir : Path) (stat : Stat) (before : Name) :
    before ++ dirRecord s dir stat =
      (((((before ++ ("dir".toList ++ '\x00' :: (dir.flatMap ('/' :: ·)).drop 1)) ++ '\x00' ::
        decimal (stat.mode.bits + dirBit : Nat)) ++ '\x00' :: decimal stat.uid) ++ '\x00' ::
          decimal stat.gid) ++ '\x00' :: decimal (s.dirTime stat)) ++ ['\n'] :=
  fields_six _ _ _ _ _ _ _

lemma dirAlike_of_hash {dir : Path} {stat stat' : Stat}
    (same : r ++ dirRecord s dir stat = t ++ dirRecord s' dir stat') :
    DirAlike s s' stat stat' ∧ r = t := by
  have free : ∀ n, '\x00' ∉ decimal n := fun n mem => not_ends_decimal mem (.inl rfl)
  rw [dirRecord_eq, dirRecord_eq] at same
  -- the path may have any characters, so the record is read from its end
  replace same := List.append_cancel_right same
  obtain ⟨same, time⟩ := eq_of_append_last (free _) (free _) same
  obtain ⟨same, gid⟩ := eq_of_append_last (free _) (free _) same
  obtain ⟨same, uid⟩ := eq_of_append_last (free _) (free _) same
  obtain ⟨same, bits⟩ := eq_of_append_last (free _) (free _) same
  have sum : stat.mode.bits + dirBit = stat'.mode.bits + dirBit :=
    Int.natCast_inj.mp (decimal_injective bits)
  have mode := (Mode.eq_of_bits
    (congrArg (· + FileType.bits .regular) (Nat.add_right_cancel sum))).1
  exact ⟨⟨mode, Int.natCast_inj.mp (decimal_injective uid),
    Int.natCast_inj.mp (decimal_injective gid), decimal_injective time⟩,
    List.append_cancel_right same⟩

lemma DirAlike.hash {stat stat' : Stat} (A : DirAlike s s' stat stat') (dir : Path) :
    dirRecord s dir stat = dirRecord s' dir stat' := by
  unfold dirRecord
  rw [A.mode, A.uid, A.gid, A.time]

def Forest.hashed (s : Settings) (dir : Path) : Forest → Name
  | .nil => []
  | .file _ f rest => merkleHashLeaf f ++ rest.hashed s dir
  | .dir name stat entries rest =>
    childRecord name (s.platform.sha256
      (entries.hashed s (dir ++ [name]) ++ dirRecord s (dir ++ [name]) stat)) ++ rest.hashed s dir

lemma gather_written (ideal : s.platform.Ideal) (threshold : Int64) (dir : Path) (f : Forest) :
    (gather s threshold dir f).written = (f.kept s threshold dir).hashed s dir := by
  induction f generalizing dir with
  | nil => rfl
  | file name leaf rest ih =>
    rw [gather, Forest.kept]
    split
    · exact ih dir
    · simp [Forest.hashed, ih]
  | dir name stat entries rest inner ih =>
    rw [gather]
    by_cases excluded : s.excludes (dir ++ [name]) = true
    · rw [show (Forest.dir name stat entries rest).kept s threshold dir =
        rest.kept s threshold dir from if_pos (.inl excluded)]
      simp [excluded, ih]
    · by_cases cut : cuts s threshold (dir ++ [name]) entries = true
      · have reached : threshold ≤ (gather s threshold (dir ++ [name]) entries).size :=
          of_decide_eq_true cut
        rw [show (Forest.dir name stat entries rest).kept s threshold dir =
          rest.kept s threshold dir from if_pos (.inr cut)]
        simp [excluded, Gathered.conclude, reached, ih]
      · have small : ¬ threshold ≤ (gather s threshold (dir ++ [name]) entries).size :=
          fun reached => cut (decide_eq_true reached)
        rw [show (Forest.dir name stat entries rest).kept s threshold dir =
          .dir name stat (entries.kept s threshold (dir ++ [name])) (rest.kept s threshold dir) from
          if_neg (not_or.mpr ⟨excluded, cut⟩)]
        simp [excluded, Gathered.conclude, small, ih, Forest.hashed, inner, ideal.nonempty]

lemma Part.merkleHash_layer (ideal : s.platform.Ideal) (threshold : Int64) (p : Part) :
    (p.layer s threshold).merkleHash =
      s.platform.sha256 ((p.kept s threshold).hashed s p.path ++ dirRecord s p.path p.stat) := by
  unfold Part.layer
  simp only [gather_written ideal]
  rfl

/-- Two lists of entries that look the same to the hash. -/
inductive Alike (s s' : Settings) : Forest → Forest → Prop
  | nil : Alike s s' .nil .nil
  | file {m n : Name} {f g : Leaf} {rest rest' : Forest} : f.Alike g → Alike s s' rest rest' →
      Alike s s' (.file m f rest) (.file n g rest')
  | dir {n : Name} {stat stat' : Stat} {below below' rest rest' : Forest} :
      DirAlike s s' stat stat' → Alike s s' below below' → Alike s s' rest rest' →
      Alike s s' (.dir n stat below rest) (.dir n stat' below' rest')

lemma Alike.hashed (platform : s'.platform = s.platform) (A : Alike s s' f g) (dir : Path) :
    f.hashed s dir = g.hashed s' dir := by
  induction A generalizing dir with
  | nil => rfl
  | file leaf _ ih => rw [Forest.hashed, Forest.hashed, leaf.hash, ih]
  | dir same _ _ below ih => rw [Forest.hashed, Forest.hashed, platform, same.hash, below, ih]

lemma childRecord_eq (name merkle rest : Name) :
    childRecord name merkle ++ rest = name ++ '\x00' :: (merkle ++ '\n' :: rest) := by
  simp [childRecord, fields]

section
variable {s s' : Settings} (ideal : s.platform.Ideal)
include ideal

lemma not_ends_hash (mem : c ∈ s.platform.sha256 text) : ¬ Ends c := by
  have listed := ideal.hex text c mem
  rintro (rfl | rfl) <;> exact absurd listed (by decide)

lemma hash_leaf_ne_child (f : Leaf) {name text r t : Name} (plain : '\x00' ∉ name) :
    merkleHashLeaf f ++ r ≠ childRecord name (s.platform.sha256 text) ++ t := by
  intro same
  rw [merkleHashLeaf_eq, childRecord_eq] at same
  obtain ⟨-, same⟩ := eq_of_append_sep (by decide) plain same
  obtain ⟨-, ends, -⟩ := eq_of_append_delim (fun _ => not_ends_decimal)
    (fun _ => not_ends_hash ideal) (.inl rfl) (.inr rfl) same
  cases ends

lemma alike_of_hashed (platform : s'.platform = s.platform) (vf : f.Valid) (vg : g.Valid)
    {dir : Path} (same : f.hashed s dir = g.hashed s' dir) : Alike s s' f g := by
  have leaf : ∀ l : Leaf, ∀ r, merkleHashLeaf l ++ r ≠ [] := by
    intro l r none
    cases none
  have child : ∀ n m r, childRecord n m ++ r ≠ [] := by
    intro n m r none
    rw [childRecord_eq] at none
    simp at none
  induction f generalizing g dir with
  | nil =>
    cases g with
    | nil => exact .nil
    | file => exact absurd same.symm (leaf _ _)
    | dir => exact absurd same.symm (child _ _ _)
  | file m l rest ih =>
    cases g with
    | nil => exact absurd same (leaf _ _)
    | file n k rest' =>
      obtain ⟨alike, later⟩ := Leaf.alike_of_hash same
      exact .file alike (ih vf.2.2 vg.2.2 later)
    | dir n stat below rest' =>
      rw [Forest.hashed, Forest.hashed, platform] at same
      exact absurd same (hash_leaf_ne_child ideal l vg.1.2)
  | dir m stat below rest inner ih =>
    cases g with
    | nil => exact absurd same (child _ _ _)
    | file n k rest' =>
      exact absurd same.symm (hash_leaf_ne_child ideal k vf.1.2)
    | dir n stat' below' rest' =>
      rw [Forest.hashed, Forest.hashed, platform, childRecord_eq, childRecord_eq] at same
      obtain ⟨rfl, same⟩ := eq_of_append_sep vf.1.2 vg.1.2 same
      obtain ⟨hashes, -, later⟩ := eq_of_append_delim (fun _ => not_ends_hash ideal)
        (fun _ => not_ends_hash ideal) (.inr rfl) (.inr rfl) same
      obtain ⟨dirs, inside⟩ := dirAlike_of_hash (ideal.injective hashes)
      exact .dir dirs (inner vf.2.2.1 vg.2.2.1 inside) (ih vf.2.2.2 vg.2.2.2 later)

end

end Velda.Export
