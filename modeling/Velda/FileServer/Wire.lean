import Velda.Lib.Wire

/-! The messages of the file protocol and how they are written and read,
`pkg/fileserver/types.go` and `types_serialize.go`. Integers are their bits, since the
wire does not know of signs. Messages are written to a `bytes.Buffer`, which takes
everything, so only the checks of `Serialize` itself fail. -/
namespace Velda.FileServer.Wire
open Lib

def maxPacketSize : Nat := 5 * 1024 * 1024
def maxStringSize : Nat := maxPacketSize - 100
def maxArrayCount : Nat := 100000
def maxFileHandleSize : Nat := 1024

def readVarint (maxValue : Nat) : Stream Nat := do
  let v ← readUvarint
  refuse (maxValue < v)
    ("varint value " ++ toString v ++ " exceeds maximum " ++ toString maxValue)
  return v

def writeString (s : Bytes) : Put := do
  refuse (maxStringSize < s.length)
    ("string length " ++ toString s.length ++ " exceeds maximum " ++ toString maxStringSize)
  putUvarint s.length
  write s

def readString : Stream Bytes := do
  let length ← within "failed to read string length" (readVarint maxStringSize)
  let buf ← within "failed to read string data" (readFull length)
  return buf.1

def readField (what : String) (w : Nat) : Stream (BitVec w) :=
  within ("failed to read " ++ what) (binaryRead w)

def writeName (what : String) (s : Bytes) : Put :=
  within ("failed to write " ++ what) (writeString s)

def readName (what : String) : Stream Bytes := within ("failed to read " ++ what) readString

structure FileHandle where
  type : BitVec 32
  bytes : Bytes
  deriving DecidableEq

def encodeFileHandle (fh : FileHandle) : Put := do
  binaryWrite (BitVec.ofNat 32 fh.bytes.length)
  binaryWrite fh.type
  write fh.bytes

def decodeFileHandle : Stream FileHandle := do
  let handleLen ← readField "fh length" 32
  refuse (maxFileHandleSize < handleLen.toNat) ("file handle length " ++
    toString handleLen.toNat ++ " exceeds maximum " ++ toString maxFileHandleSize)
  let handleType ← readField "fh type" 32
  let handleBytes ← within "failed to read fh bytes" (readFull handleLen.toNat)
  return ⟨handleType, handleBytes.1⟩

structure Header where
  opcode : BitVec 32 := 0
  size : BitVec 32 := 0
  flags : BitVec 32 := 0
  seq : BitVec 32 := 0
  deriving DecidableEq

def headerSize : Nat := 16

def Header.serialize (h : Header) : Put := do
  binaryWrite h.opcode
  binaryWrite h.size
  binaryWrite h.flags
  binaryWrite h.seq

def Header.deserialize : Stream Header := do
  let opcode ← readField "header opcode" 32
  let size ← readField "header size" 32
  let flags ← readField "header flags" 32
  let seq ← readField "header seq" 32
  return ⟨opcode, size, flags, seq⟩

abbrev Sha256 := { bs : Bytes // bs.length = 32 }

structure FileAttr where
  dev : BitVec 64
  ino : BitVec 64
  nlink : BitVec 64
  mode : BitVec 32
  uid : BitVec 32
  gid : BitVec 32
  rdev : BitVec 64
  size : BitVec 64
  blksize : BitVec 64
  blocks : BitVec 64
  mtim : BitVec 64
  ctim : BitVec 64
  mtimNsec : BitVec 32
  ctimNsec : BitVec 32
  sha256 : Sha256
  deriving DecidableEq

/-- `binary.Write` of the structure, field by field and without padding. -/
def writeAttr (a : FileAttr) : Put := do
  binaryWrite a.dev
  binaryWrite a.ino
  binaryWrite a.nlink
  binaryWrite a.mode
  binaryWrite a.uid
  binaryWrite a.gid
  binaryWrite a.rdev
  binaryWrite a.size
  binaryWrite a.blksize
  binaryWrite a.blocks
  binaryWrite a.mtim
  binaryWrite a.ctim
  binaryWrite a.mtimNsec
  binaryWrite a.ctimNsec
  write a.sha256.1

def attrFields : Stream FileAttr := do
  let dev ← binaryRead 64
  let ino ← binaryRead 64
  let nlink ← binaryRead 64
  let mode ← binaryRead 32
  let uid ← binaryRead 32
  let gid ← binaryRead 32
  let rdev ← binaryRead 64
  let size ← binaryRead 64
  let blksize ← binaryRead 64
  let blocks ← binaryRead 64
  let mtim ← binaryRead 64
  let ctim ← binaryRead 64
  let mtimNsec ← binaryRead 32
  let ctimNsec ← binaryRead 32
  let sha256 ← readFull 32
  return ⟨dev, ino, nlink, mode, uid, gid, rdev, size, blksize, blocks, mtim, ctim, mtimNsec,
    ctimNsec, sha256⟩

/-- The size of the fields of `FileAttr`, as `binary.Size` gives it. -/
def attrSize : Nat := 124

def readAttr : Stream FileAttr := readStruct attrSize attrFields

def readAttrAs (what : String) : Stream FileAttr := within ("failed to read " ++ what) readAttr

structure MountRequest where
  version : BitVec 32
  flags : BitVec 32
  path : Bytes
  deriving DecidableEq

def MountRequest.serialize (r : MountRequest) : Put := do
  binaryWrite r.version
  binaryWrite r.flags
  writeName "path" r.path

def MountRequest.deserialize : Stream MountRequest := do
  let version ← readField "mount version" 32
  let flags ← readField "mount flags" 32
  let path ← readName "path"
  return ⟨version, flags, path⟩

/-- The header is not written. -/
structure MountResponse where
  header : Header
  version : BitVec 32
  flags : BitVec 32
  fh : FileHandle
  attr : FileAttr
  deriving DecidableEq

def MountResponse.serialize (r : MountResponse) : Put := do
  binaryWrite r.version
  binaryWrite r.flags
  encodeFileHandle r.fh
  writeAttr r.attr

def MountResponse.deserialize : Stream MountResponse := do
  let version ← readField "version" 32
  let flags ← readField "flags" 32
  let fh ← decodeFileHandle
  let attr ← readAttrAs "attr"
  return ⟨{}, version, flags, fh, attr⟩

/-- A name in a directory: what `Lookup`, `Unlink` and `Rmdir` ask about. -/
structure NameRequest where
  parentFh : FileHandle
  name : Bytes
  deriving DecidableEq

def NameRequest.serialize (r : NameRequest) : Put := do
  encodeFileHandle r.parentFh
  writeName "name" r.name

def NameRequest.deserialize : Stream NameRequest := do
  let parentFh ← decodeFileHandle
  let name ← readName "name"
  return ⟨parentFh, name⟩

abbrev LookupRequest := NameRequest
abbrev UnlinkRequest := NameRequest
abbrev RmdirRequest := NameRequest

/-- A file: what `Lookup`, `Mkdir`, `Symlink` and `Link` answer. -/
structure FileResponse where
  fh : FileHandle
  attr : FileAttr
  deriving DecidableEq

def FileResponse.serialize (r : FileResponse) : Put := do
  encodeFileHandle r.fh
  writeAttr r.attr

/-- The responses differ in how an error names the attributes. -/
def FileResponse.deserialize (what : String) : Stream FileResponse := do
  let fh ← decodeFileHandle
  let attr ← readAttrAs what
  return ⟨fh, attr⟩

abbrev LookupResponse := FileResponse
abbrev MkdirResponse := FileResponse
abbrev SymlinkResponse := FileResponse
abbrev LinkResponse := FileResponse

def LookupResponse.deserialize : Stream LookupResponse := FileResponse.deserialize "attributes"
def MkdirResponse.deserialize : Stream MkdirResponse := FileResponse.deserialize "attr"
def SymlinkResponse.deserialize : Stream SymlinkResponse := FileResponse.deserialize "attr"
def LinkResponse.deserialize : Stream LinkResponse := FileResponse.deserialize "attr"

structure ReadRequest where
  fh : FileHandle
  offset : BitVec 64
  size : BitVec 32
  deriving DecidableEq

def ReadRequest.serialize (r : ReadRequest) : Put := do
  encodeFileHandle r.fh
  binaryWrite r.offset
  binaryWrite r.size

def ReadRequest.deserialize : Stream ReadRequest := do
  let fh ← decodeFileHandle
  let offset ← readField "offset" 64
  let size ← readField "size" 32
  return ⟨fh, offset, size⟩

structure ReadFdRequest where
  fd : BitVec 32
  offset : BitVec 64
  size : BitVec 32
  deriving DecidableEq

def ReadFdRequest.serialize (r : ReadFdRequest) : Put := do
  binaryWrite r.fd
  binaryWrite r.offset
  binaryWrite r.size

def ReadFdRequest.deserialize : Stream ReadFdRequest := do
  let fd ← readField "fd" 32
  let offset ← readField "offset" 64
  let size ← readField "size" 32
  return ⟨fd, offset, size⟩

def writeData (data : Bytes) : Put := do
  putUvarint data.length
  write data

def readData (what : String) : Stream Bytes := do
  let count ← within ("failed to read " ++ what) (readVarint maxPacketSize)
  let data ← within "failed to read data" (readFull count)
  return data.1

structure ReadResponse where
  data : Bytes
  deriving DecidableEq

def ReadResponse.serialize (r : ReadResponse) : Put := do
  refuse (maxPacketSize < r.data.length) ("data size " ++ toString r.data.length ++
    " exceeds maximum " ++ toString maxPacketSize)
  writeData r.data

def ReadResponse.deserialize : Stream ReadResponse := do
  let data ← readData "count"
  return ⟨data⟩

/-- A file handle alone: what `ReadDir`, `Readlink` and `Getattr` ask about. -/
structure FileRequest where
  fh : FileHandle
  deriving DecidableEq

def FileRequest.serialize (r : FileRequest) : Put := encodeFileHandle r.fh

def FileRequest.deserialize : Stream FileRequest := do
  let fh ← decodeFileHandle
  return ⟨fh⟩

abbrev ReadDirRequest := FileRequest
abbrev ReadlinkRequest := FileRequest
abbrev GetattrRequest := FileRequest

structure DirEntry where
  fh : FileHandle
  name : Bytes
  attr : FileAttr
  deriving DecidableEq

def writeEntry (e : DirEntry) : Put := do
  encodeFileHandle e.fh
  writeName "entry name" e.name
  writeAttr e.attr

def readEntry : Stream DirEntry := do
  let fh ← decodeFileHandle
  let name ← readName "entry name"
  let attr ← readAttrAs "entry attr"
  return ⟨fh, name, attr⟩

def writeEntries (entries : List DirEntry) : Put := do
  refuse (maxArrayCount < entries.length) ("entry count " ++ toString entries.length ++
    " exceeds maximum " ++ toString maxArrayCount)
  putUvarint entries.length
  entries.forM writeEntry

def readEntries (what : String) : Stream (List DirEntry) := do
  let count ← within ("failed to read " ++ what) (readVarint maxArrayCount)
  readTimes readEntry count

structure ReadDirResponse where
  entries : List DirEntry
  deriving DecidableEq

def ReadDirResponse.serialize (r : ReadDirResponse) : Put := writeEntries r.entries

def ReadDirResponse.deserialize : Stream ReadDirResponse := do
  let entries ← readEntries "response count"
  return ⟨entries⟩

structure DirDataNotification where
  ino : BitVec 64
  entries : List DirEntry
  deriving DecidableEq

def DirDataNotification.serialize (n : DirDataNotification) : Put := do
  binaryWrite n.ino
  writeEntries n.entries

def DirDataNotification.deserialize : Stream DirDataNotification := do
  let ino ← readField "ino" 64
  let entries ← readEntries "entry count"
  return ⟨ino, entries⟩

structure ReadlinkResponse where
  target : Bytes
  deriving DecidableEq

def ReadlinkResponse.serialize (r : ReadlinkResponse) : Put := writeName "target" r.target

def ReadlinkResponse.deserialize : Stream ReadlinkResponse := do
  let target ← readName "target"
  return ⟨target⟩

structure Owner where
  hasOwner : BitVec 8
  uid : BitVec 32
  gid : BitVec 32
  deriving DecidableEq

def writeOwner (o : Owner) : Put := do
  binaryWrite o.hasOwner
  binaryWrite o.uid
  binaryWrite o.gid

def readOwner : Stream Owner := do
  let hasOwner ← readField "has owner" 8
  let uid ← readField "uid" 32
  let gid ← readField "gid" 32
  return ⟨hasOwner, uid, gid⟩

structure OpenRequest extends Owner where
  fh : FileHandle
  flags : BitVec 32
  deriving DecidableEq

def OpenRequest.serialize (r : OpenRequest) : Put := do
  encodeFileHandle r.fh
  binaryWrite r.flags
  writeOwner r.toOwner

def OpenRequest.deserialize : Stream OpenRequest := do
  let fh ← decodeFileHandle
  let flags ← readField "flags" 32
  let owner ← readOwner
  return { owner with fh, flags }

structure CreateRequest extends Owner where
  parentFh : FileHandle
  name : Bytes
  flags : BitVec 32
  mode : BitVec 32
  deriving DecidableEq

def CreateRequest.serialize (r : CreateRequest) : Put := do
  encodeFileHandle r.parentFh
  writeName "name" r.name
  binaryWrite r.flags
  binaryWrite r.mode
  writeOwner r.toOwner

def CreateRequest.deserialize : Stream CreateRequest := do
  let parentFh ← decodeFileHandle
  let name ← readName "name"
  let flags ← readField "flags" 32
  let mode ← readField "mode" 32
  let owner ← readOwner
  return { owner with parentFh, name, flags, mode }

structure CreateResponse where
  fd : BitVec 32
  fh : FileHandle
  attr : FileAttr
  deriving DecidableEq

def CreateResponse.serialize (r : CreateResponse) : Put := do
  binaryWrite r.fd
  encodeFileHandle r.fh
  writeAttr r.attr

def CreateResponse.deserialize : Stream CreateResponse := do
  let fd ← readField "fd" 32
  let fh ← decodeFileHandle
  let attr ← readAttrAs "attr"
  return ⟨fd, fh, attr⟩

structure OpenResponse where
  fd : BitVec 32
  attr : FileAttr
  deriving DecidableEq

def OpenResponse.serialize (r : OpenResponse) : Put := do
  binaryWrite r.fd
  writeAttr r.attr

def OpenResponse.deserialize : Stream OpenResponse := do
  let fd ← readField "fd" 32
  let attr ← readAttrAs "attr"
  return ⟨fd, attr⟩

structure WriteRequest where
  fh : FileHandle
  offset : BitVec 64
  data : Bytes
  deriving DecidableEq

def WriteRequest.serialize (r : WriteRequest) : Put := do
  encodeFileHandle r.fh
  binaryWrite r.offset
  writeData r.data

def WriteRequest.deserialize : Stream WriteRequest := do
  let fh ← decodeFileHandle
  let offset ← readField "offset" 64
  let data ← readData "data length"
  return ⟨fh, offset, data⟩

structure WriteFdRequest where
  fd : BitVec 32
  offset : BitVec 64
  data : Bytes
  deriving DecidableEq

def WriteFdRequest.serialize (r : WriteFdRequest) : Put := do
  binaryWrite r.fd
  binaryWrite r.offset
  writeData r.data

def WriteFdRequest.deserialize : Stream WriteFdRequest := do
  let fd ← readField "fd" 32
  let offset ← readField "offset" 64
  let data ← readData "data length"
  return ⟨fd, offset, data⟩

structure WriteResponse where
  size : BitVec 32
  deriving DecidableEq

def WriteResponse.serialize (r : WriteResponse) : Put := binaryWrite r.size

def WriteResponse.deserialize : Stream WriteResponse := do
  let size ← binaryRead 32
  return ⟨size⟩

structure MkdirRequest extends Owner where
  parentFh : FileHandle
  name : Bytes
  mode : BitVec 32
  deriving DecidableEq

def MkdirRequest.serialize (r : MkdirRequest) : Put := do
  encodeFileHandle r.parentFh
  writeName "name" r.name
  binaryWrite r.mode
  writeOwner r.toOwner

def MkdirRequest.deserialize : Stream MkdirRequest := do
  let parentFh ← decodeFileHandle
  let name ← readName "name"
  let mode ← readField "mode" 32
  let owner ← readOwner
  return { owner with parentFh, name, mode }

/-- The responses to `Unlink`, `Rmdir` and `Rename`, and `EmptyResponse`. -/
structure EmptyResponse where
  deriving DecidableEq

def EmptyResponse.serialize (_ : EmptyResponse) : Put := pure ()

def EmptyResponse.deserialize : Stream EmptyResponse := pure {}

abbrev UnlinkResponse := EmptyResponse
abbrev RmdirResponse := EmptyResponse
abbrev RenameResponse := EmptyResponse

structure RenameRequest where
  oldParentFh : FileHandle
  oldName : Bytes
  newParentFh : FileHandle
  newName : Bytes
  deriving DecidableEq

def RenameRequest.serialize (r : RenameRequest) : Put := do
  encodeFileHandle r.oldParentFh
  writeName "old name" r.oldName
  encodeFileHandle r.newParentFh
  writeName "new name" r.newName

def RenameRequest.deserialize : Stream RenameRequest := do
  let oldParentFh ← decodeFileHandle
  let oldName ← readName "old name"
  let newParentFh ← decodeFileHandle
  let newName ← readName "new name"
  return ⟨oldParentFh, oldName, newParentFh, newName⟩

structure SetattrRequest where
  fh : FileHandle
  valid : BitVec 32
  mode : BitVec 32
  uid : BitVec 32
  gid : BitVec 32
  size : BitVec 64
  mtime : BitVec 64
  atime : BitVec 64
  deriving DecidableEq

def SetattrRequest.serialize (r : SetattrRequest) : Put := do
  encodeFileHandle r.fh
  binaryWrite r.valid
  binaryWrite r.mode
  binaryWrite r.uid
  binaryWrite r.gid
  binaryWrite r.size
  binaryWrite r.mtime
  binaryWrite r.atime

def SetattrRequest.deserialize : Stream SetattrRequest := do
  let fh ← decodeFileHandle
  let valid ← readField "valid" 32
  let mode ← readField "mode" 32
  let uid ← readField "uid" 32
  let gid ← readField "gid" 32
  let size ← readField "size" 64
  let mtime ← readField "mtime" 64
  let atime ← readField "atime" 64
  return ⟨fh, valid, mode, uid, gid, size, mtime, atime⟩

/-- The attributes alone: what `Setattr`, `Flush` and `Getattr` answer. -/
structure AttrResponse where
  attr : FileAttr
  deriving DecidableEq

def AttrResponse.serialize (r : AttrResponse) : Put := writeAttr r.attr

def AttrResponse.deserialize : Stream AttrResponse := do
  let attr ← readAttr
  return ⟨attr⟩

abbrev SetattrResponse := AttrResponse
abbrev FlushResponse := AttrResponse
abbrev GetattrResponse := AttrResponse

structure SymlinkRequest extends Owner where
  parentFh : FileHandle
  name : Bytes
  target : Bytes
  deriving DecidableEq

def SymlinkRequest.serialize (r : SymlinkRequest) : Put := do
  encodeFileHandle r.parentFh
  writeName "name" r.name
  writeName "target" r.target
  writeOwner r.toOwner

def SymlinkRequest.deserialize : Stream SymlinkRequest := do
  let parentFh ← decodeFileHandle
  let name ← readName "name"
  let target ← readName "target"
  let owner ← readOwner
  return { owner with parentFh, name, target }

structure LinkRequest where
  parentFh : FileHandle
  name : Bytes
  targetFh : FileHandle
  deriving DecidableEq

def LinkRequest.serialize (r : LinkRequest) : Put := do
  encodeFileHandle r.parentFh
  writeName "name" r.name
  encodeFileHandle r.targetFh

def LinkRequest.deserialize : Stream LinkRequest := do
  let parentFh ← decodeFileHandle
  let name ← readName "name"
  let targetFh ← decodeFileHandle
  return ⟨parentFh, name, targetFh⟩

structure Flushed where
  lastWriteReqID : BitVec 64
  hasSha256 : BitVec 8
  sha256 : Sha256
  deriving DecidableEq

def writeFlushed (f : Flushed) : Put := do
  binaryWrite f.lastWriteReqID
  binaryWrite f.hasSha256
  write f.sha256.1

def readFlushed : Stream Flushed := do
  let lastWriteReqID ← readField "last_write_req_id" 64
  let hasSha256 ← readField "has_sha256" 8
  let sha256 ← within "failed to read sha256" (readFull 32)
  return ⟨lastWriteReqID, hasSha256, sha256⟩

structure FlushRequest extends Flushed where
  fh : FileHandle
  deriving DecidableEq

def FlushRequest.serialize (r : FlushRequest) : Put := do
  encodeFileHandle r.fh
  writeFlushed r.toFlushed

def FlushRequest.deserialize : Stream FlushRequest := do
  let fh ← decodeFileHandle
  let flushed ← readFlushed
  return { flushed with fh }

structure FlushFdRequest extends Flushed where
  fd : BitVec 32
  deriving DecidableEq

def FlushFdRequest.serialize (r : FlushFdRequest) : Put := do
  binaryWrite r.fd
  writeFlushed r.toFlushed

def FlushFdRequest.deserialize : Stream FlushFdRequest := do
  let fd ← readField "fd" 32
  let flushed ← readFlushed
  return { flushed with fd }

structure FileLock where
  start : BitVec 64
  stop : BitVec 64
  typ : BitVec 32
  pid : BitVec 32
  deriving DecidableEq

def serializeFuseFileLock (lk : FileLock) : Put := do
  binaryWrite lk.start
  binaryWrite lk.stop
  binaryWrite lk.typ
  binaryWrite lk.pid

def deserializeFuseFileLock : Stream FileLock := do
  let start ← readField "lock start" 64
  let stop ← readField "lock end" 64
  let typ ← readField "lock type" 32
  let pid ← readField "lock pid" 32
  return ⟨start, stop, typ, pid⟩

structure LockRequest where
  fd : BitVec 32
  owner : BitVec 64
  lk : FileLock
  flags : BitVec 32
  deriving DecidableEq

def LockRequest.serialize (r : LockRequest) : Put := do
  binaryWrite r.fd
  binaryWrite r.owner
  serializeFuseFileLock r.lk
  binaryWrite r.flags

def LockRequest.deserialize : Stream LockRequest := do
  let fd ← readField "fd" 32
  let owner ← readField "owner" 64
  let lk ← deserializeFuseFileLock
  let flags ← readField "flags" 32
  return ⟨fd, owner, lk, flags⟩

structure GetlkResponse where
  lk : FileLock
  deriving DecidableEq

def GetlkResponse.serialize (r : GetlkResponse) : Put := serializeFuseFileLock r.lk

def GetlkResponse.deserialize : Stream GetlkResponse := do
  let lk ← deserializeFuseFileLock
  return ⟨lk⟩

structure ReleaseFdRequest where
  fd : BitVec 32
  deriving DecidableEq

def ReleaseFdRequest.serialize (r : ReleaseFdRequest) : Put := binaryWrite r.fd

def ReleaseFdRequest.deserialize : Stream ReleaseFdRequest := do
  let fd ← binaryRead 32
  return ⟨fd⟩

end Velda.FileServer.Wire
