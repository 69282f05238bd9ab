import Velda.Lib.Outcome
import Velda.Posix.Calls
import Velda.FileServer.Session

/-! The request handlers of `fileserver.go` for one session, and its preloading. A file
handle names a file, as those of the kernel do. Every kernel call may fail for reasons the
tree does not show; `faults` says which of the next calls do. The log lists what the
server opened, used, changed or returned a handle of, with the tree at that time.
File contents, owners and times are left out: no handler decides anything by them. -/
namespace Velda.FileServer
open Lib Posix

inductive FileType
  | regular
  | directory
  | symlink
  deriving DecidableEq

structure FileAttr where
  ino : Ino
  type : FileType
  deriving DecidableEq

inductive Use
  | opened
  | used
  | changed
  | returned
  deriving DecidableEq

structure Access where
  use : Use
  ino : Ino
  tree : Tree

structure PreLoadItem where
  fh : Ino
  ino : Ino

structure Server where
  tree : Tree
  rootFd : Option Ino := none
  mountID : Option Nat := none
  fdTable : FdTable Ino := {}
  preloadQueue : List PreLoadItem := []
  log : List Access := []
  faults : List (Option Errno) := []

/-- The root path of a server, its working directory, and which mount paths the exports
table allows the client. -/
structure Exports where
  rootPath : Name
  cwd : Ino
  allowed : Name → Bool

def protocolVersion : Nat := 1

abbrev Handler := EStateM Errno Server

def fault : Handler Unit := fun s =>
  match s.faults with
  | some e :: rest => .error e { s with faults := rest }
  | none :: rest => .ok () { s with faults := rest }
  | [] => .ok () s

def recordAll (use : Use) (l : List Ino) : Handler Unit :=
  modify fun s => { s with log := s.log ++ l.map fun i => ⟨use, i, s.tree⟩ }

def record (use : Use) (i : Ino) : Handler Unit := recordAll use [i]

def orThrow {α : Type} : Except Errno α → Handler α
  | .error e => throw e
  | .ok a => pure a

def query {α : Type} (call : Tree → Except Errno α) : Handler α := do
  fault
  let s ← get
  orThrow (call s.tree)

def setTree (t : Tree) : Handler Unit := modify fun s => { s with tree := t }

def fileType (t : Tree) (i : Ino) : FileType :=
  match t.dir i, t.target i with
  | some _, _ => .directory
  | none, some _ => .symlink
  | none, none => .regular

def openByHandleAt (fh : Ino) (flags : OpenFlags) : Handler Ino := do
  let s ← get
  ensure s.rootFd.isSome .EBADF
  query (·.openable flags fh)
  record .opened fh
  onlyIf (flags.trunc ∧ !flags.path) (record .changed fh)
  pure fh

structure NameHandle where
  fh : Ino
  mountID : Option Nat

def nameToHandleAt (dirfd : Ino) (name : Name) : Handler NameHandle :=
  query fun t => (t.resolve dirfd name false).map fun i => ⟨i, t.mountId i⟩

def fstat (fd : Ino) : Handler FileAttr := query fun t => .ok ⟨fd, fileType t fd⟩

def fstatat (dirfd : Ino) (name : Name) : Handler FileAttr :=
  query fun t => (t.resolve dirfd name false).map fun i => ⟨i, fileType t i⟩

def openat (dirfd : Ino) (name : Name) (flags : OpenFlags) : Handler Ino := do
  let o ← query (·.openat dirfd name flags)
  recordAll .changed o.created.toList
  setTree o.tree
  record .opened o.file
  onlyIf (flags.trunc ∧ !flags.path) (record .changed o.file)
  pure o.file

def useFd (fd : Ino) : Handler Unit := do
  fault
  record .used fd

def changeFd (fd : Ino) : Handler Unit := do
  fault
  record .changed fd

def fchownat (dirfd : Ino) (name : Name) : Handler Unit := do
  let i ← query (·.resolve dirfd name false)
  record .changed i

def enterAt (call : Tree → Except Errno (Ino × Tree)) : Handler Unit := do
  let entered ← query call
  record .changed entered.1
  setTree entered.2

def unlinkat (dirfd : Ino) (name : Name) (removeDir : Bool) : Handler Unit := do
  let u ← query (·.unlinkat dirfd name removeDir)
  recordAll .changed [u.place, u.file]
  setTree u.tree

def renameat (olddirfd : Ino) (oldName : Name) (newdirfd : Ino) (newName : Name) :
    Handler Unit := do
  let r ← query (·.renameat olddirfd oldName newdirfd newName)
  recordAll .changed (r.source :: r.place :: r.file :: r.old.toList)
  setTree r.tree

def readDir (fd : Ino) : Handler (List (Name × Ino)) :=
  query fun t =>
    match t.dir fd with
    | none => .error .ENOTDIR
    | some x => .ok x.entries.entries

structure Entry where
  fh : Ino
  attr : FileAttr

structure DirEntry extends Entry where
  name : Name

inductive Response
  | mount (fh : Ino) (attr : FileAttr)
  | file (fh : Ino) (attr : FileAttr)
  | create (fd : UInt32) (fh : Ino) (attr : FileAttr)
  | openFile (fd : UInt32) (attr : FileAttr)
  | readDir (entries : List DirEntry)
  | readlink (target : Name)
  | attr (attr : FileAttr)
  | done

def Response.handles : Response → List Ino
  | .mount fh _ => [fh]
  | .file fh _ => [fh]
  | .create _ fh _ => [fh]
  | .readDir entries => entries.map (·.fh)
  | _ => []

/-- `filepath.Clean` -/
def clean (path : Name) : Name :=
  let rooted := path.head? = some '/'
  let push (stack : List Name) (part : Name) : List Name :=
    if part = ['.'] then stack
    else if part ≠ ['.', '.'] then part :: stack
    else
      match stack with
      | [] => if rooted then [] else [part]
      | top :: rest => if top = ['.', '.'] then part :: stack else rest
  let joined := ['/'].intercalate ((components path).foldl push []).reverse
  if rooted then '/' :: joined else if joined = [] then ['.'] else joined

def mountPath (x : Exports) (path : Name) : Name :=
  clean (if path.head? = some '/' then path else x.rootPath ++ '/' :: path)

def handleMount (x : Exports) (version : Nat) (path : Name) : Handler Response := do
  ensure (version = protocolVersion) .EPROTONOSUPPORT
  let path := mountPath x path
  ensure (x.rootPath ++ ['/'] <+: path ++ ['/']) .EPERM
  ensure (x.allowed path = true) .EACCES
  let path := path ++ ['/', '.']
  let h ← nameToHandleAt x.cwd path
  let rootFd ← query fun t => (t.openat x.cwd path { directory := true }).map (·.file)
  let attr ← fstat rootFd
  modify fun s => { s with rootFd := some rootFd, mountID := h.mountID }
  pure (.mount h.fh attr)

def tolerate (x : Handler Unit) : Handler Unit := do
  let _ ← attempt x
  pure ()

/-- The attributes of a name; a regular file is opened for the hash stored with it. -/
def makeFileAttrWithPath (parentFd : Ino) (name : Name) : Handler FileAttr := do
  let attr ← fstatat parentFd name
  onlyIf (attr.type = .regular) do
    let fd ← openat parentFd name {}
    tolerate (useFd fd)
  pure attr

def entryOf (parentFd : Ino) (name : Name) : Handler Entry := do
  let h ← nameToHandleAt parentFd name
  let s ← get
  ensure (h.mountID = s.mountID) .EXDEV
  let attr ← makeFileAttrWithPath parentFd name
  pure ⟨h.fh, attr⟩

/-- The queue holds 1000 items; what does not fit is skipped. -/
def enqueuePreload (e : Entry) : Handler Unit := do
  let s ← get
  onlyIf (e.attr.type = .directory ∧ s.preloadQueue.length < 1000)
    (modify fun s => { s with preloadQueue := s.preloadQueue ++ [⟨e.fh, e.attr.ino⟩] })

def handleLookup (parentFh : Ino) (name : Name) : Handler Response := do
  let parentFd ← openByHandleAt parentFh { directory := true }
  let e ← entryOf parentFd name
  enqueuePreload e
  pure (.file e.fh e.attr)

def handleRead (fh : Ino) : Handler Response := do
  let fd ← openByHandleAt fh {}
  useFd fd
  pure .done

def resolveFd (token : UInt32) : Handler Ino := do
  let s ← get
  orThrow ((s.fdTable.lookupFd token).elim (.error .EBADF) .ok)

def handleReadFd (token : UInt32) : Handler Response := do
  let fd ← resolveFd token
  useFd fd
  pure .done

/-- One round of a loop over the entries of a directory; a failure skips the entry. -/
def listEntry (fd : Ino) (name : Name) (preload : Bool) : Handler (Option DirEntry) :=
  attempt do
    let e ← entryOf fd name
    onlyIf preload (enqueuePreload e)
    pure ⟨e, name⟩

def handleReadDir (fh : Ino) : Handler Response := do
  let fd ← openByHandleAt fh { directory := true }
  let entries ← readDir fd
  let dirEntries ← collect (fun e => listEntry fd e.1 true) entries
  pure (.readDir dirEntries)

def handleReadlink (fh : Ino) : Handler Response := do
  let fd ← openByHandleAt fh { path := true, noFollow := true }
  let target ← query fun t =>
    match t.target fd with
    | none => .error .EINVAL
    | some target => .ok target
  pure (.readlink target)

def trackFd (fd : Ino) : Handler UInt32 := do
  let s ← get
  let tracked := s.fdTable.trackFd fd
  modify fun s => { s with fdTable := tracked.2 }
  pure tracked.1

def handleCreate (parentFh : Ino) (name : Name) (flags : OpenFlags) (hasOwner : Bool) :
    Handler Response := do
  let parentFd ← openByHandleAt parentFh { directory := true }
  let fd ← openat parentFd name { flags with create := true }
  onlyIf hasOwner (changeFd fd)
  let e ← entryOf parentFd name
  let token ← trackFd fd
  pure (.create token e.fh e.attr)

def handleOpen (fh : Ino) (flags : OpenFlags) (hasOwner : Bool) : Handler Response := do
  let fd ← openByHandleAt fh flags
  onlyIf hasOwner (changeFd fd)
  let attr ← fstat fd
  let token ← trackFd fd
  pure (.openFile token attr)

def handleWrite (fh : Ino) : Handler Response := do
  let fd ← openByHandleAt fh { write := true }
  changeFd fd
  pure .done

def handleWriteFd (token : UInt32) : Handler Response := do
  let fd ← resolveFd token
  changeFd fd
  pure .done

/-- Mkdir and Symlink: the new file gets its owner by its name. -/
def handleMake (call : Tree → Ino → Name → Except Errno (Ino × Tree)) (parentFh : Ino)
    (name : Name) (hasOwner : Bool) : Handler Response := do
  let parentFd ← openByHandleAt parentFh { directory := true }
  enterAt (call · parentFd name)
  onlyIf hasOwner (fchownat parentFd name)
  let e ← entryOf parentFd name
  pure (.file e.fh e.attr)

def handleMkdir (parentFh : Ino) (name : Name) (hasOwner : Bool) : Handler Response :=
  handleMake Tree.mkdirat parentFh name hasOwner

def handleSymlink (parentFh : Ino) (name target : Name) (hasOwner : Bool) : Handler Response :=
  handleMake (·.symlinkat target) parentFh name hasOwner

def handleRemove (removeDir : Bool) (parentFh : Ino) (name : Name) : Handler Response := do
  let parentFd ← openByHandleAt parentFh { directory := true }
  unlinkat parentFd name removeDir
  pure .done

def handleUnlink (parentFh : Ino) (name : Name) : Handler Response :=
  handleRemove false parentFh name

def handleRmdir (parentFh : Ino) (name : Name) : Handler Response :=
  handleRemove true parentFh name

def handleRename (oldParentFh : Ino) (oldName : Name) (newParentFh : Ino) (newName : Name) :
    Handler Response := do
  let oldParentFd ← openByHandleAt oldParentFh { directory := true }
  let newParentFd ← openByHandleAt newParentFh { directory := true }
  renameat oldParentFd oldName newParentFd newName
  pure .done

/-- The bits of the `Valid` mask. -/
structure SetattrValid where
  mode : Bool := false
  uid : Bool := false
  gid : Bool := false
  size : Bool := false
  mtime : Bool := false
  atime : Bool := false

def handleSetattr (fh : Ino) (valid : SetattrValid) : Handler Response := do
  let fd ← openByHandleAt fh { path := true }
  onlyIf valid.mode (changeFd fd)
  onlyIf (valid.uid ∨ valid.gid) (changeFd fd)
  onlyIf valid.size do
    let fdForWrite ← openByHandleAt fh { write := true }
    changeFd fdForWrite
  onlyIf (valid.mtime ∨ valid.atime) (changeFd fd)
  let attr ← fstat fd
  pure (.attr attr)

def handleLink (targetFh parentFh : Ino) (name : Name) : Handler Response := do
  let targetFd ← openByHandleAt targetFh { path := true }
  let parentFd ← openByHandleAt parentFh { directory := true }
  -- the path of the descriptor under `/proc` leads to the file itself
  enterAt (·.linkat targetFd parentFd name)
  let e ← entryOf parentFd name
  pure (.file e.fh e.attr)

/-- The part that Flush and FlushFd share; a failure to store the hash is ignored. -/
def flushFile (fd : Ino) (hasSha256 : Bool) : Handler Response := do
  useFd fd
  let attr ← fstat fd
  onlyIf hasSha256 (tolerate (changeFd fd))
  pure (.attr attr)

def handleFlush (fh : Ino) (hasSha256 : Bool) : Handler Response := do
  let fd ← openByHandleAt fh {}
  flushFile fd hasSha256

def handleFlushFd (token : UInt32) (hasSha256 : Bool) : Handler Response := do
  let fd ← resolveFd token
  flushFile fd hasSha256

def handleReleaseFd (token : UInt32) : Handler Response := do
  modify fun s => { s with fdTable := s.fdTable.closeFd token }
  pure .done

def handleGetattr (fh : Ino) : Handler Response := do
  let fd ← openByHandleAt fh { path := true, noFollow := true }
  let attr ← fstat fd
  onlyIf (attr.type = .regular) (tolerate (useFd fd))
  pure (.attr attr)

def handleLock (token : UInt32) : Handler Response := do
  let fd ← resolveFd token
  useFd fd
  pure .done

inductive Request
  | mount (version : Nat) (path : Name)
  | lookup (parentFh : Ino) (name : Name)
  | openFile (fh : Ino) (flags : OpenFlags) (hasOwner : Bool)
  | read (fh : Ino)
  | readFd (token : UInt32)
  | readDir (fh : Ino)
  | readlink (fh : Ino)
  | create (parentFh : Ino) (name : Name) (flags : OpenFlags) (hasOwner : Bool)
  | write (fh : Ino)
  | writeFd (token : UInt32)
  | mkdir (parentFh : Ino) (name : Name) (hasOwner : Bool)
  | unlink (parentFh : Ino) (name : Name)
  | rmdir (parentFh : Ino) (name : Name)
  | rename (oldParentFh : Ino) (oldName : Name) (newParentFh : Ino) (newName : Name)
  | setattr (fh : Ino) (valid : SetattrValid)
  | symlink (parentFh : Ino) (name target : Name) (hasOwner : Bool)
  | link (targetFh parentFh : Ino) (name : Name)
  | flush (fh : Ino) (hasSha256 : Bool)
  | flushFd (token : UInt32) (hasSha256 : Bool)
  | releaseFd (token : UInt32)
  | getattr (fh : Ino)
  | lock (token : UInt32)

def Request.handles : Request → List Ino
  | .lookup fh _ | .openFile fh .. | .read fh | .readDir fh | .readlink fh | .create fh .. => [fh]
  | .write fh | .mkdir fh .. | .unlink fh _ | .rmdir fh _ | .setattr fh _ | .symlink fh .. => [fh]
  | .rename fh _ fh' _ | .link fh fh' _ => [fh, fh']
  | .flush fh _ | .getattr fh => [fh]
  | .mount .. | .readFd _ | .writeFd _ | .flushFd .. | .releaseFd _ | .lock _ => []

def dispatch (x : Exports) : Request → Handler Response
  | .mount version path => handleMount x version path
  | .lookup fh name => handleLookup fh name
  | .openFile fh flags hasOwner => handleOpen fh flags hasOwner
  | .read fh => handleRead fh
  | .readFd token => handleReadFd token
  | .readDir fh => handleReadDir fh
  | .readlink fh => handleReadlink fh
  | .create fh name flags hasOwner => handleCreate fh name flags hasOwner
  | .write fh => handleWrite fh
  | .writeFd token => handleWriteFd token
  | .mkdir fh name hasOwner => handleMkdir fh name hasOwner
  | .unlink fh name => handleUnlink fh name
  | .rmdir fh name => handleRmdir fh name
  | .rename fh name fh' name' => handleRename fh name fh' name'
  | .setattr fh valid => handleSetattr fh valid
  | .symlink fh name target hasOwner => handleSymlink fh name target hasOwner
  | .link targetFh parentFh name => handleLink targetFh parentFh name
  | .flush fh hasSha256 => handleFlush fh hasSha256
  | .flushFd token hasSha256 => handleFlushFd token hasSha256
  | .releaseFd token => handleReleaseFd token
  | .getattr fh => handleGetattr fh
  | .lock token => handleLock token

def send (handles : List Ino) : Handler Unit := recordAll .returned handles

def handleRequest (x : Exports) (req : Request) : Handler Unit := do
  let resp ← dispatch x req
  send resp.handles

/-- The entries of a directory and what is below them, as many levels as `depth` says. A
directory of more than 1000 entries is left to the client. -/
def walkAndSendDirectory : Nat → Ino → Handler Unit
  | 0, _ => pure ()
  | depth + 1, fh => do
    let fd ← openByHandleAt fh { directory := true }
    let entries ← readDir fd
    onlyIf (entries.length ≤ 1000) do
      let dirEntries ← collect (fun e => listEntry fd e.1 false) entries
      send (dirEntries.map (·.fh))
      let subdirs := dirEntries.filter fun e => e.attr.type = .directory
      let _ ← collect (fun e : DirEntry => attempt (walkAndSendDirectory depth e.fh)) subdirs
      pure ()

def handlePreload (item : PreLoadItem) : Handler Unit := walkAndSendDirectory 2 item.fh

inductive Action
  | request (req : Request) (faults : List (Option Errno))
  | preload (faults : List (Option Errno))

def step (x : Exports) (s : Server) : Action → Option Server
  | .request req faults => some (endState (handleRequest x req) { s with faults })
  | .preload faults =>
    match s.preloadQueue with
    | [] => none
    | item :: rest => some (endState (handlePreload item) { s with preloadQueue := rest, faults })

def Server.Returned (s : Server) (fh : Ino) : Prop := ∃ a ∈ s.log, a.use = .returned ∧ a.ino = fh

instance (s : Server) (fh : Ino) : Decidable (s.Returned fh) :=
  inferInstanceAs (Decidable (∃ a ∈ s.log, a.use = .returned ∧ a.ino = fh))

def OwnHandles (s : Server) : Action → Prop
  | .request req _ => ∀ fh ∈ req.handles, s.Returned fh
  | .preload _ => True

instance (s : Server) (a : Action) : Decidable (OwnHandles s a) := by
  induction a using Action.casesOn <;> unfold OwnHandles <;> infer_instance

end Velda.FileServer
