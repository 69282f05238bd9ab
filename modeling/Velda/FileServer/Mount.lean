import Velda.FileServer.Confinement
import Velda.Posix.Lexical

/-! Which clients may mount which paths. `checkNFSExport` looks for the client in the exports
table, line by line; addresses, known of TCP clients only, are parsed and compared by `net`. -/
namespace Velda.FileServer
open Lib Posix List

structure NetPackage (IP IPNet : Type) where
  isSpace : Char → Bool
  isLoopback : IP → Bool
  parseCIDR : Name → Option IPNet
  contains : IPNet → IP → Bool
  parseIP : Name → Option IP
  equal : IP → IP → Bool

namespace NetPackage
variable {IP IPNet : Type} (net : NetPackage IP IPNet)

def trimSpace (line : Name) : Name := (line.dropWhile net.isSpace).rdropWhile net.isSpace

def fields (line : Name) : List Name := (line.splitOnP net.isSpace).filter (· ≠ [])

def matchNFSClient (spec : Name) (clientIP : IP) : Bool :=
  if spec = ['*'] then true
  else
    match net.parseCIDR spec with
    | some ipNet => net.contains ipNet clientIP
    | none => (net.parseIP spec).any (net.equal · clientIP)

def stripOptions (clientSpec : Name) : Name := clientSpec.takeWhile (· ≠ '(')

def permits (line exportPath : Name) (clientIP : IP) : Bool :=
  if line = [] ∨ ['#'] <+: line then false
  else
    match net.fields line with
    | [] => false
    | entryPath :: clients =>
      (exportPath = entryPath ∨ entryPath ++ ['/'] <+: exportPath ++ ['/']) &&
        clients.any fun clientSpec => net.matchNFSClient (stripOptions clientSpec) clientIP

/-- The table is missing when it cannot be read. -/
def checkNFSExport (table : Option Name) (clientIP : IP) (exportPath : Name) : Bool :=
  net.isLoopback clientIP || table.any fun data =>
    (data.splitOn '\n').any fun line => net.permits (net.trimSpace line) exportPath clientIP

def exports (rootPath : Name) (cwd : Ino) (table : Option Name) (client : Option IP) : Exports where
  rootPath
  cwd
  allowed path := client.any (net.checkNFSExport table · path)

/-- The client specification is `*`, a network with the address, or the address. -/
def Specifies (spec : Name) (clientIP : IP) : Prop :=
  spec = ['*'] ∨ (∃ ipNet ∈ net.parseCIDR spec, net.contains ipNet clientIP) ∨
    ∃ ip ∈ net.parseIP spec, net.equal ip clientIP

end NetPackage

/-- `path` is `top` or lies below it, name by name. -/
def Above (top path : Name) : Prop :=
  top.head? = path.head? ∧ components top <+: components path

variable {IP IPNet : Type} {net : NetPackage IP IPNet} {top path : Name}

lemma above_of_begins (named : top ≠ []) (h : top ++ ['/'] <+: path ++ ['/']) : Above top path := by
  obtain ⟨rest, same⟩ := h
  rw [append_assoc, singleton_append] at same
  constructor
  · have heads := congrArg head? same
    have long : path ≠ [] := by
      rintro rfl
      exact named (append_eq_singleton_iff.mp same |>.resolve_right (by simp) |>.1)
    rwa [head?_append_of_ne_nil _ named, head?_append_of_ne_nil _ long] at heads
  · have names := congrArg components same
    rw [components_slash, components_slash path []] at names
    exact ⟨_, names.trans (append_nil _)⟩

lemma specifies_of_match (h : net.matchNFSClient spec ip = true) : net.Specifies spec ip := by
  unfold NetPackage.matchNFSClient at h
  split at h
  · next wildcard => exact .inl wildcard
  · split at h
    · next ipNet parsed => exact .inr (.inl ⟨ipNet, parsed, h⟩)
    · exact .inr (.inr ((Option.any_eq_true _ _).mp h))

lemma permits_spec (h : net.permits line path ip = true) : ¬ ['#'] <+: line ∧
    ∃ entryPath clients, net.fields line = entryPath :: clients ∧ Above entryPath path ∧
      ∃ spec ∈ clients, net.Specifies (NetPackage.stripOptions spec) ip := by
  unfold NetPackage.permits at h
  split at h
  · cases h
  · next other =>
    refine ⟨fun comment => other (.inr comment), ?_⟩
    split at h
    · cases h
    · next entryPath clients listed =>
      obtain ⟨covers, some⟩ := Bool.and_eq_true_iff.mp h
      obtain ⟨spec, mem, own⟩ := any_eq_true.mp some
      refine ⟨entryPath, clients, listed, ?_, spec, mem, specifies_of_match own⟩
      have named : entryPath ≠ [] := by
        have kept : entryPath ∈ net.fields line := listed ▸ mem_cons_self
        simpa using (mem_filter.mp kept).2
      rcases of_decide_eq_true covers with rfl | below
      · exact ⟨rfl, prefix_rfl⟩
      · exact above_of_begins named below

lemma of_ensure {c : Prop} [Decidable c] {f : Unit → Handler Response}
    (h : (ensure c e >>= f) s = .ok r t) : c ∧ f () s = .ok r t := by
  unfold ensure at h
  split at h
  · next meets => exact ⟨meets, h⟩
  · cases h

/-- Addresses as they are written, and no networks. -/
def plainNet : NetPackage Name Empty where
  isSpace c := c = ' '
  isLoopback ip := ip = ['l']
  parseCIDR _ := none
  contains n := n.elim
  parseIP := some
  equal a b := a = b

end Velda.FileServer
