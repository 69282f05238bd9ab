import Velda.Lib.ByteFile

/-! The content-addressed cache of `cache.go` and the files whose key points into it.
The hash function is a parameter. A key is the parsed form of the extended attribute
that `encodeCacheXattr` writes: the hash, and the mtime and size the file had. -/
namespace Velda.SandboxFs

structure CacheKey (Hash : Type) where
  sha256 : Hash
  mtime : Nat
  size : Nat
  deriving DecidableEq

structure File (Hash : Type) where
  content : List UInt8
  mtime : Nat
  key : Option (CacheKey Hash)
  deriving DecidableEq

structure OpenFlags where
  wronly : Bool := false
  rdwr : Bool := false
  trunc : Bool := false
  append : Bool := false
  deriving DecidableEq

def OpenFlags.isWrite (flags : OpenFlags) : Bool := flags.wronly || flags.rdwr

variable {Hash : Type}

/-- Writing no bytes changes nothing, not even the mtime. -/
def File.pwrite (f : File Hash) (off : Nat) (data : List UInt8) (now : Nat) : File Hash :=
  if data = [] then f
  else { f with content := Lib.writeAt 0 f.content off data, mtime := now }

def File.ftruncate (f : File Hash) (size now : Nat) : File Hash :=
  { f with content := Lib.resize 0 f.content size, mtime := now }

def File.setCacheKey (f : File Hash) (sha256 : Hash) : File Hash :=
  { f with key := some ⟨sha256, f.mtime, f.content.length⟩ }

/-- The check on a stored key: it holds for the mtime and size the file has now. -/
def File.validKey (f : File Hash) : Option (CacheKey Hash) :=
  f.key.filter fun k => k.mtime = f.mtime && k.size = f.content.length

lemma File.validKey_eq_some {f : File Hash} :
    f.validKey = some k ↔ f.key = some k ∧ k.mtime = f.mtime ∧ k.size = f.content.length := by
  simp [validKey]

@[simp] lemma File.key_pwrite (f : File Hash) (off : Nat) (data : List UInt8) (now : Nat) :
    (f.pwrite off data now).key = f.key := by
  unfold pwrite
  split <;> rfl

lemma File.content_pwrite_zero {f : File Hash} {data : List UInt8} (now : Nat)
    (covers : f.content.length ≤ data.length) : (f.pwrite 0 data now).content = data := by
  unfold pwrite
  split
  · next empty =>
    subst empty
    exact List.eq_nil_of_length_eq_zero (Nat.le_zero.mp covers)
  · exact Lib.writeAt_zero 0 covers

lemma File.content_pwrite_end (f : File Hash) (data : List UInt8) (now : Nat) :
    (f.pwrite f.content.length data now).content = f.content ++ data := by
  unfold pwrite
  split
  · next empty => simp [empty]
  · simp

/-- The files of a cache directory by their names. Every one has its hash as name. -/
structure DirectoryCacheManager (sha : List UInt8 → Hash) where
  files : Hash → Option (List UInt8)
  named : ∀ h bytes, files h = some bytes → sha bytes = h

/-- The temporary file of a `CacheWriter`; its hasher has seen the same bytes. -/
structure CacheWriter where
  bytes : List UInt8
  deriving DecidableEq

def CacheWriter.write (w : CacheWriter) (p : List UInt8) : CacheWriter := ⟨w.bytes ++ p⟩

variable {sha : List UInt8 → Hash}

def DirectoryCacheManager.empty : DirectoryCacheManager sha :=
  ⟨fun _ => none, fun _ _ found => nomatch found⟩

def DirectoryCacheManager.lookup (c : DirectoryCacheManager sha) (sha256 : Hash) :
    Option (List UInt8) :=
  c.files sha256

/-- Link the temporary file under its hash, unless a file of this name exists. -/
def DirectoryCacheManager.commit [DecidableEq Hash] (c : DirectoryCacheManager sha)
    (w : CacheWriter) : DirectoryCacheManager sha × Hash :=
  (⟨fun h => if h = sha w.bytes ∧ c.files h = none then some w.bytes else c.files h, by
      intro h bytes found
      split at found
      · next fresh =>
        cases found
        exact fresh.1.symm
      · exact c.named h bytes found⟩,
    sha w.bytes)

lemma DirectoryCacheManager.lookup_sha (c : DirectoryCacheManager sha)
    (injective : Function.Injective sha) {content bytes : List UInt8}
    (found : c.lookup (sha content) = some bytes) : bytes = content :=
  injective (c.named _ _ found)

end Velda.SandboxFs
