import Velda.Lib.Keyed

/-! The descriptor table of a session (`session.go`). Tokens are handed out in order and
wrap around; a descriptor is whatever the kernel gave. -/
namespace Velda.FileServer
open Lib

structure FdTable (δ : Type) where
  fdNext : UInt32 := 1
  fds : Keyed (Prod.fst : UInt32 × δ → UInt32) := .empty

namespace FdTable

variable {δ : Type}

def trackFd (x : FdTable δ) (fd : δ) : UInt32 × FdTable δ :=
  (x.fdNext, { fdNext := x.fdNext + 1, fds := x.fds.insert (x.fdNext, fd) })

def lookupFd (x : FdTable δ) (token : UInt32) : Option δ := (x.fds.lookup token).map (·.2)

def closeFd (x : FdTable δ) (token : UInt32) : FdTable δ := { x with fds := x.fds.erase token }

lemma lookupFd_trackFd (x : FdTable δ) (fd : δ) (token : UInt32) :
    (x.trackFd fd).2.lookupFd token = if token = x.fdNext then some fd else x.lookupFd token := by
  unfold lookupFd trackFd
  split
  · next same =>
    rw [same, show (x.fds.insert (x.fdNext, fd)).lookup x.fdNext = some (x.fdNext, fd) from
      x.fds.lookup_insert_self (x.fdNext, fd)]
    rfl
  · next other =>
    have kept := Keyed.lookup_insert_of_ne (m := x.fds) (a := (x.fdNext, fd)) other
    exact congrArg (Option.map (·.2)) kept

lemma lookupFd_closeFd (x : FdTable δ) (token k : UInt32) :
    (x.closeFd token).lookupFd k = if k = token then none else x.lookupFd k := by
  unfold lookupFd closeFd
  rw [Keyed.lookup_erase]
  split <;> rfl

end FdTable

end Velda.FileServer
