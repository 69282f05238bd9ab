import Mathlib

/-! Writers to a buffer and readers from one, as `encoding/binary` and `io` have them, with
the errors they give. `RoundTrip w r a n` says that the writer `w` writes `n` bytes from
which the reader `r` gets `a` back, whatever bytes stand behind them; its rules follow
the way in which writers and readers are put together. -/
namespace Velda.Lib
open List

abbrev Bytes := List UInt8

abbrev Stream := StateT Bytes (Except String)

abbrev Put := Stream Unit

variable {α β : Type}

def write (bs : Bytes) : Put := fun buf => .ok ((), buf ++ bs)

def within (what : String) (x : Stream α) : Stream α :=
  fun buf => (x buf).mapError (what ++ ": " ++ ·)

def refuse (c : Prop) [Decidable c] (e : String) : Put := if c then throw e else pure ()

def readFull (n : Nat) : Stream { bs : Bytes // bs.length = n } := fun buf =>
  if enough : n ≤ buf.length then .ok (⟨buf.take n, length_take_of_le enough⟩, buf.drop n)
  else .error (if buf = [] then "EOF" else "unexpected EOF")

def readByte : Stream UInt8
  | [] => .error "EOF"
  | b :: rest => .ok (b, rest)

/-- The fields of a record of fixed size are read from a slice that is read as a whole. -/
def readStruct (size : Nat) (fields : Stream α) : Stream α := fun buf =>
  if size ≤ buf.length then (fields (buf.take size)).map fun r => (r.1, buf.drop size)
  else .error (if buf = [] then "EOF" else "unexpected EOF")

/-- The `k` lowest bytes of a number, the lowest first. -/
def putLE : Nat → Nat → Bytes
  | 0, _ => []
  | k + 1, n => UInt8.ofNat n :: putLE k (n / 256)

def getLE : Bytes → Nat
  | [] => 0
  | b :: rest => b.toNat + 256 * getLE rest

def binaryWrite {w : Nat} (x : BitVec w) : Put := write (putLE (w / 8) x.toNat)

def binaryRead (w : Nat) : Stream (BitVec w) := do
  let bs ← readFull (w / 8)
  return BitVec.ofNat w (getLE bs.1)

def maxVarintLen64 : Nat := 10

/-- `PutUvarint`, for at most `k` bytes. -/
def uvarint : Nat → Nat → Bytes
  | 0, _ => []
  | k + 1, n =>
    if n < 0x80 then [UInt8.ofNat n] else (UInt8.ofNat n ||| 0x80) :: uvarint k (n >>> 7)

def putUvarint (n : Nat) : Put := write (uvarint maxVarintLen64 n)

/-- The loop of `ReadUvarint` with `k` turns left; `x` is what was read, `s` its size in bits. -/
def readUvarintFrom : Nat → Nat → Nat → Stream Nat
  | 0, _, _ => throw "binary: varint overflows a 64-bit integer"
  | k + 1, x, s => do
    let b ← fun buf => (readByte buf).mapError fun e => if s = 0 then e else "unexpected EOF"
    if b < 0x80 then
      if k = 0 ∧ 1 < b then throw "binary: varint overflows a 64-bit integer"
      else return x ||| b.toNat <<< s
    else readUvarintFrom k (x ||| (b &&& 0x7f).toNat <<< s) (s + 7)

def readUvarint : Stream Nat := readUvarintFrom maxVarintLen64 0 0

def readTimes (r : Stream α) : Nat → Stream (List α)
  | 0 => return []
  | n + 1 => do
    let a ← r
    let rest ← readTimes r n
    return a :: rest

def RoundTrip (w : Put) (r : Stream α) (a : α) (n : Nat) : Prop :=
  ∃ bs : Bytes, bs.length = n ∧ (∀ buf, w buf = .ok ((), buf ++ bs)) ∧
    ∀ rest, r (bs ++ rest) = .ok (a, rest)

namespace RoundTrip

variable {w w' : Put} {r : Stream α} {k : α → Stream β} {a : α} {b : β} {n m : Nat}

lemma nil (a : α) : RoundTrip (pure ()) (pure a) a 0 :=
  ⟨[], rfl, fun buf => by rw [append_nil]; rfl, fun _ => rfl⟩

lemma bind (first : RoundTrip w r a n) (next : RoundTrip w' (k a) b m) :
    RoundTrip (w >>= fun _ => w') (r >>= k) b (n + m) := by
  obtain ⟨bs, size, writes, reads⟩ := first
  obtain ⟨bs', size', writes', reads'⟩ := next
  refine ⟨bs ++ bs', by rw [length_append, size, size'], fun buf => ?_, fun rest => ?_⟩
  · change (w buf).bind (fun r => w' r.2) = _
    rw [writes, Except.bind, writes', append_assoc]
  · change (r (bs ++ bs' ++ rest)).bind (fun x => k x.1 x.2) = _
    rw [append_assoc, reads, Except.bind, reads']

section

variable (x : RoundTrip w r a n)
include x

lemma resize (same : n = m) : RoundTrip w r a m := same ▸ x

lemma conclude (rest : ∀ buf, k a buf = .ok (b, buf)) : RoundTrip w (r >>= k) b n := by
  obtain ⟨bs, size, writes, reads⟩ := x
  refine ⟨bs, size, writes, fun buf => ?_⟩
  change (r (bs ++ buf)).bind (fun x => k x.1 x.2) = _
  rw [reads, Except.bind, rest]

lemma last (f : α → β) : RoundTrip w (r >>= fun x => pure (f x)) (f a) n :=
  x.conclude fun _ => rfl

lemma readWithin (what : String) : RoundTrip w (within what r) a n := by
  obtain ⟨bs, size, writes, reads⟩ := x
  exact ⟨bs, size, writes, fun rest => by rw [within, reads]; rfl⟩

lemma writeWithin (what : String) : RoundTrip (within what w) r a n := by
  obtain ⟨bs, size, writes, reads⟩ := x
  exact ⟨bs, size, fun buf => by rw [within, writes]; rfl, reads⟩

end

lemma bytes (x : { bs : Bytes // bs.length = n }) : RoundTrip (write x.1) (readFull n) x n := by
  obtain ⟨bs, rfl⟩ := x
  refine ⟨bs, rfl, fun _ => rfl, fun rest => ?_⟩
  simp [readFull]

lemma readAccepted {c : Prop} [Decidable c] (x : RoundTrip w r a n) (passes : ¬ c) (e : String) :
    RoundTrip w (refuse c e >>= fun _ => r) a n := by
  rw [refuse, if_neg passes, pure_bind]
  exact x

lemma writeAccepted {c : Prop} [Decidable c] (x : RoundTrip w r a n) (passes : ¬ c) (e : String) :
    RoundTrip (refuse c e >>= fun _ => w) r a n := by
  rw [refuse, if_neg passes, pure_bind]
  exact x

lemma struct (x : RoundTrip w r a n) : RoundTrip w (readStruct n r) a n := by
  obtain ⟨bs, rfl, writes, reads⟩ := x
  refine ⟨bs, rfl, writes, fun rest => ?_⟩
  have alone := reads []
  rw [append_nil] at alone
  rw [readStruct, if_pos (by simp), take_left, drop_left, alone]
  rfl

lemma length_putLE (k n : Nat) : (putLE k n).length = k := by
  induction k generalizing n with
  | zero => rfl
  | succ k ih => rw [putLE, length_cons, ih]

lemma getLE_putLE (k n : Nat) (small : n < 256 ^ k) : getLE (putLE k n) = n := by
  induction k generalizing n with
  | zero =>
    have : n = 0 := by simpa using small
    rw [this]
    rfl
  | succ k ih =>
    have rest : n / 256 < 256 ^ k := by
      exact Nat.div_lt_of_lt_mul (by rwa [mul_comm])
    rw [putLE, getLE, ih _ rest, UInt8.toNat_ofNat']
    omega

lemma binary {w : Nat} (x : BitVec w) (whole : w % 8 = 0) :
    RoundTrip (binaryWrite x) (binaryRead w) x (w / 8) := by
  have small : x.toNat < 256 ^ (w / 8) := by
    have bits : 256 ^ (w / 8) = 2 ^ w := by
      rw [show 256 = 2 ^ 8 from rfl, ← pow_mul]
      congr 1
      omega
    rw [bits]
    exact x.isLt
  refine ⟨putLE (w / 8) x.toNat, length_putLE _ _, fun _ => rfl, fun rest => ?_⟩
  change (readFull (w / 8) _).bind (fun r => Except.ok (BitVec.ofNat w (getLE r.1.1), r.2)) = _
  have enough : w / 8 ≤ (putLE (w / 8) x.toNat ++ rest).length := by
    rw [length_append, length_putLE]
    omega
  have front : (putLE (w / 8) x.toNat ++ rest).take (w / 8) = putLE (w / 8) x.toNat :=
    take_left' (length_putLE _ _)
  have back : (putLE (w / 8) x.toNat ++ rest).drop (w / 8) = rest :=
    drop_left' (length_putLE _ _)
  simp only [readFull, dif_pos enough, Except.bind, front, back, getLE_putLE _ _ small,
    BitVec.ofNat_toNat, BitVec.setWidth_eq]

lemma toNat_low (n : Nat) : ((UInt8.ofNat n ||| 0x80) &&& 0x7f).toNat = n % 128 := by
  have low : ∀ b : UInt8, ((b ||| 0x80) &&& 0x7f).toNat = b.toNat % 128 := by decide +kernel
  rw [low, UInt8.toNat_ofNat']
  omega

lemma not_lt_high (n : Nat) : ¬ (UInt8.ofNat n ||| 0x80) < 0x80 := by
  have high : ∀ b : UInt8, ¬ (b ||| 0x80) < 0x80 := by decide +kernel
  exact high _

lemma low_or_high (n s : Nat) : (n % 128) <<< s ||| (n >>> 7) <<< (s + 7) = n <<< s := by
  have split : (n >>> 7) <<< 7 ||| n % 128 = n := by
    rw [← Nat.shiftLeft_add_eq_or_of_lt (Nat.mod_lt n (by decide : 0 < 2 ^ 7)),
      Nat.shiftRight_eq_div_pow, Nat.shiftLeft_eq]
    omega
  rw [Nat.add_comm s 7, Nat.shiftLeft_add, ← Nat.shiftLeft_or_distrib, Nat.or_comm, split]

lemma readUvarintFrom_cons (k x s : Nat) (b : UInt8) (rest : Bytes) :
    readUvarintFrom (k + 1) x s (b :: rest) = if b < 0x80 then
        if k = 0 ∧ 1 < b then .error "binary: varint overflows a 64-bit integer"
        else .ok (x ||| b.toNat <<< s, rest)
      else readUvarintFrom k (x ||| (b &&& 0x7f).toNat <<< s) (s + 7) rest := by
  change (if b < 0x80 then
      if k = 0 ∧ 1 < b then throw "binary: varint overflows a 64-bit integer"
      else pure (x ||| b.toNat <<< s)
    else readUvarintFrom k (x ||| (b &&& 0x7f).toNat <<< s) (s + 7) : Stream Nat) rest = _
  split_ifs <;> rfl

lemma readUvarintFrom_uvarint (k n x s : Nat) (rest : Bytes) (small : n < 2 ^ (7 * k + 1)) :
    readUvarintFrom (k + 1) x s (uvarint (k + 1) n ++ rest) = .ok (x ||| n <<< s, rest) := by
  induction k generalizing n x s with
  | zero =>
    have two : n = 0 ∨ n = 1 := by omega
    rcases two with rfl | rfl <;> rfl
  | succ k ih =>
    rw [uvarint]
    by_cases last : n < 0x80
    · have byte : UInt8.ofNat n < 0x80 := by
        change n % 256 < 128
        omega
      have same : (UInt8.ofNat n).toNat = n := by
        rw [UInt8.toNat_ofNat']
        omega
      rw [if_pos last, singleton_append, readUvarintFrom_cons, if_pos byte,
        if_neg (by simp), same]
    · have fewer : n >>> 7 < 2 ^ (7 * k + 1) := by
        rw [Nat.shiftRight_eq_div_pow]
        refine Nat.div_lt_of_lt_mul ?_
        rwa [← pow_add, show 7 + (7 * k + 1) = 7 * (k + 1) + 1 by omega]
      rw [if_neg last, cons_append, readUvarintFrom_cons, if_neg (not_lt_high n), toNat_low,
        ih _ _ _ fewer, Nat.or_assoc, low_or_high]

lemma varint {n : Nat} (small : n < 2 ^ 64) :
    RoundTrip (putUvarint n) readUvarint n (uvarint maxVarintLen64 n).length := by
  refine ⟨_, rfl, fun _ => rfl, fun rest => ?_⟩
  have read := readUvarintFrom_uvarint 9 n 0 0 rest small
  rwa [Nat.zero_or, Nat.shiftLeft_zero] at read

lemma times {f : α → Put} {size : α → Nat} {l : List α}
    (each : ∀ a ∈ l, RoundTrip (f a) r a (size a)) :
    RoundTrip (l.forM f) (readTimes r l.length) l (l.map size).sum := by
  induction l with
  | nil => exact nil []
  | cons a rest ih =>
    have first := each a mem_cons_self
    have others := ih fun b mem => each b (mem_cons_of_mem a mem)
    exact first.bind (others.last (a :: ·))

end RoundTrip

/-- A code that is injective on the strings of one length does not shorten all of them. -/
lemma exists_le_length_of_injOn [Finite α] [Nontrivial α] {f : List α → List α} {n : Nat}
    (injective : Set.InjOn f {l | l.length = n}) :
    ∃ l : List α, l.length = n ∧ n ≤ (f l).length := by
  have := Fintype.ofFinite α
  by_contra shorter
  push Not at shorter
  -- Otherwise the strings of length n would be coded by strings of the smaller lengths.
  let code (l : List.Vector α n) : (k : Fin n) × List.Vector α k :=
    ⟨⟨(f l.1).length, shorter l.1 l.2⟩, ⟨f l.1, rfl⟩⟩
  have coded : Function.Injective code := by
    intro l l' same
    have lists : f l.1 = f l'.1 :=
      congrArg (fun c : (k : Fin n) × List.Vector α k => c.2.1) same
    exact Subtype.ext (injective l.2 l'.2 lists)
  have few := Fintype.card_le_of_injective code coded
  rw [Fintype.card_sigma, card_vector] at few
  simp only [card_vector] at few
  rw [Fin.sum_univ_eq_sum_range (fun k => Fintype.card α ^ k)] at few
  have large : 2 ≤ Fintype.card α := Fintype.one_lt_card
  have less := Nat.geomSum_lt large fun k (mem : k ∈ Finset.range n) => Finset.mem_range.mp mem
  exact absurd few (not_le.mpr less)

end Velda.Lib
