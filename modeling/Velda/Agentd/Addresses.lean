import Velda.Agentd.Network

/-! The addresses of the namespaces that `initBridgeNetwork` makes, as numbers. -/
namespace Velda.Agentd
open List

/-- `nsGW + i` in the last byte. -/
def nsIp (bridge i : Nat) : Nat := bridge / 256 * 256 + (bridge % 256 + i) % 256

def subnetSize (maskSize : Nat) : Nat := 2 ^ (32 - maskSize)

/-- An address of the bridge's subnet, and neither its network address nor its broadcast
address. -/
def Assignable (bridge size a : Nat) : Prop :=
  a / size = bridge / size ∧ a % size ≠ 0 ∧ a % size ≠ size - 1

structure Usable (bridge maskSize : Nat) (addrs : List Nat) : Prop where
  distinct : addrs.Nodup
  other : bridge ∉ addrs
  assignable : ∀ a ∈ addrs, Assignable bridge (subnetSize maskSize) a

/-- In a small subnet the addresses up to the last but one are enough. In a larger one the last
byte may wrap around, but not to the first address of the subnet nor to the last one. -/
def Clear (bridge maskSize maxSize : Nat) : Prop :=
  let size := subnetSize maskSize
  if size ≤ 256 then maxSize = 0 ∨ bridge % size + maxSize + 1 < size
  else (bridge % size < 256 → bridge % 256 + maxSize < 256) ∧
    (size ≤ bridge % size + 256 → bridge % 256 = 255 ∨ bridge % 256 + maxSize < 255)

variable {bridge maskSize maxSize i : Nat}

lemma subnetSize_cases (maskSize : Nat) :
    subnetSize maskSize ∈ [1, 2, 4, 8, 16, 32, 64, 128, 256] ∨
      ∃ q, 2 ≤ q ∧ subnetSize maskSize = 256 * q := by
  unfold subnetSize
  by_cases small : 32 - maskSize ≤ 8
  · interval_cases 32 - maskSize <;> simp
  · refine .inr ⟨2 ^ (32 - maskSize - 8), ?_, ?_⟩
    · exact Nat.le_self_pow (by omega) 2
    · rw [show (256 : Nat) = 2 ^ 8 from rfl, ← pow_add]
      congr 1
      omega

lemma clear_small {size : Nat} (small : size ∈ [1, 2, 4, 8, 16, 32, 64, 128, 256])
    (fits : maxSize + 2 ≤ size) : (maxSize = 0 ∨ bridge % size + maxSize + 1 < size) ↔
      ∀ i, 1 ≤ i → i ≤ maxSize → Assignable bridge size (nsIp bridge i) := by
  simp only [mem_cons, not_mem_nil, or_false] at small
  unfold Assignable nsIp
  constructor
  · intro clear i one le
    rcases small with rfl | rfl | rfl | rfl | rfl | rfl | rfl | rfl | rfl <;> omega
  · intro usable
    have first := usable 1
    have last := usable (size - 1 - bridge % size)
    rcases small with rfl | rfl | rfl | rfl | rfl | rfl | rfl | rfl | rfl <;> omega

lemma assignable_large (i : Nat) : Assignable bridge (256 * q) (nsIp bridge i) ↔
    ¬ (bridge / 256 % q = 0 ∧ (bridge % 256 + i) % 256 = 0) ∧
      (bridge % 256 + i) % 256 + 256 * (bridge / 256 % q) ≠ 256 * q - 1 := by
  have high : nsIp bridge i / 256 = bridge / 256 := by unfold nsIp; omega
  have low : nsIp bridge i % 256 = (bridge % 256 + i) % 256 := by unfold nsIp; omega
  unfold Assignable
  rw [Nat.mod_mul, ← Nat.div_div_eq_div_mul, ← Nat.div_div_eq_div_mul, high, low]
  omega

lemma clear_large (two : 2 ≤ q) (few : maxSize ≤ 254) :
    ((bridge % (256 * q) < 256 → bridge % 256 + maxSize < 256) ∧
      (256 * q ≤ bridge % (256 * q) + 256 → bridge % 256 = 255 ∨ bridge % 256 + maxSize < 255)) ↔
      ∀ i, 1 ≤ i → i ≤ maxSize → Assignable bridge (256 * q) (nsIp bridge i) := by
  have below : bridge / 256 % q < q := Nat.mod_lt _ (by omega)
  simp only [assignable_large, Nat.mod_mul]
  constructor
  · intro clear i one le
    omega
  · intro usable
    have first := usable (256 - bridge % 256)
    have last := usable (255 - bridge % 256)
    omega

lemma clear_iff (few : maxSize ≤ 254) (fits : maxSize + 2 ≤ subnetSize maskSize) :
    Clear bridge maskSize maxSize ↔
      ∀ i, 1 ≤ i → i ≤ maxSize → Assignable bridge (subnetSize maskSize) (nsIp bridge i) := by
  unfold Clear
  rcases subnetSize_cases maskSize with small | ⟨q, two, size⟩
  · rw [if_pos (by simp at small; omega), clear_small small fits]
  · rw [size, if_neg (by omega), clear_large two few]

lemma initBridgeNetwork_eq_some {handles : Option (Nat → Int)} {pool : List NetworkBinding}
    (accepted : initBridgeNetwork maxSize (.privateCidrRange (some maskSize)) handles = some pool) :
    maxSize ≤ 254 ∧ maxSize + 2 ≤ subnetSize maskSize ∧
      pool.map (·.slot) = List.range' 1 maxSize := by
  simp only [initBridgeNetwork, Option.bind_some] at accepted
  split at accepted
  · cases accepted
  · split at accepted
    · cases accepted
    · obtain ⟨handle, -, rfl⟩ := Option.map_eq_some_iff.mp accepted
      refine ⟨by omega, ?_, by simp [Function.comp_def]⟩
      unfold subnetSize
      omega

/-- The namespaces of a bridge that is accepted get addresses they can use exactly if none of
them runs into an end of the subnet. -/
theorem usable_iff (bridge maskSize maxSize : Nat) (handles : Option (Nat → Int))
    (pool : List NetworkBinding)
    (accepted : initBridgeNetwork maxSize (.privateCidrRange (some maskSize)) handles = some pool) :
    Usable bridge maskSize (pool.map fun b => nsIp bridge b.slot) ↔
      Clear bridge maskSize maxSize := by
  obtain ⟨few, fits, slots⟩ := initBridgeNetwork_eq_some accepted
  have addrs : pool.map (fun b => nsIp bridge b.slot) = (range' 1 maxSize).map (nsIp bridge) := by
    rw [← slots, map_map, Function.comp_def]
  rw [addrs, clear_iff few fits]
  constructor
  · intro usable i one le
    exact usable.assignable _ (mem_map_of_mem (by simp; omega))
  · intro clear
    refine ⟨?_, ?_, ?_⟩
    · refine Nodup.map_on (fun i hi j hj same => ?_) nodup_range'
      simp only [mem_range'_1, nsIp] at hi hj same
      omega
    · simp only [mem_map, mem_range'_1, nsIp]
      omega
    · simp only [mem_map, mem_range'_1]
      rintro a ⟨i, mem, rfl⟩
      exact clear i mem.1 (by omega)

theorem usable_iff_default : Usable 0xAC1FC801 24 ((List.range' 1 10).map (nsIp 0xAC1FC801)) :=
  (usable_iff 0xAC1FC801 24 10 (some fun _ => 0) _ rfl).mpr (by simp [Clear, subnetSize])

/-- With the default bridge 172.31.200.1/24 the last of 254 namespaces gets 172.31.200.255. -/
theorem usable_not_broadcast : ∃ pool,
    initBridgeNetwork 254 (.privateCidrRange (some 24)) (some fun _ => 0) = some pool ∧
      0xAC1FC8FF ∈ pool.map fun b => nsIp 0xAC1FC801 b.slot :=
  ⟨_, rfl, by decide +kernel⟩

end Velda.Agentd
