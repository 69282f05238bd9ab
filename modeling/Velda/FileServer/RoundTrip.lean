import Velda.FileServer.Wire

/-! Every message of the file protocol is read back from the bytes it is written to, and the
reader leaves what stands behind them. The one exception is by design: the header in
`MountResponse` is not on the wire. -/
namespace Velda.FileServer.Wire
open Lib

/-- The types that are `Serializable`. -/
inductive MessageType
  | header | mountRequest | mountResponse | lookupRequest | lookupResponse | readRequest
  | readFdRequest | readResponse | readDirRequest | readDirResponse | dirDataNotification
  | readlinkRequest | readlinkResponse | openRequest | openResponse | createRequest
  | createResponse | writeRequest | writeFdRequest | writeResponse | mkdirRequest | mkdirResponse
  | unlinkRequest | unlinkResponse | rmdirRequest | rmdirResponse | renameRequest
  | renameResponse | setattrRequest | setattrResponse | symlinkRequest | symlinkResponse
  | linkRequest | linkResponse | flushRequest | flushFdRequest | flushResponse | getattrRequest
  | getattrResponse | lockRequest | getlkResponse | releaseFdRequest | emptyResponse
  deriving DecidableEq

namespace MessageType

def Value : MessageType → Type
  | header => Header
  | mountRequest => MountRequest
  | mountResponse => MountResponse
  | lookupRequest => LookupRequest
  | lookupResponse => LookupResponse
  | readRequest => ReadRequest
  | readFdRequest => ReadFdRequest
  | readResponse => ReadResponse
  | readDirRequest => ReadDirRequest
  | readDirResponse => ReadDirResponse
  | dirDataNotification => DirDataNotification
  | readlinkRequest => ReadlinkRequest
  | readlinkResponse => ReadlinkResponse
  | openRequest => OpenRequest
  | openResponse => OpenResponse
  | createRequest => CreateRequest
  | createResponse => CreateResponse
  | writeRequest => WriteRequest
  | writeFdRequest => WriteFdRequest
  | writeResponse => WriteResponse
  | mkdirRequest => MkdirRequest
  | mkdirResponse => MkdirResponse
  | unlinkRequest => UnlinkRequest
  | unlinkResponse => UnlinkResponse
  | rmdirRequest => RmdirRequest
  | rmdirResponse => RmdirResponse
  | renameRequest => RenameRequest
  | renameResponse => RenameResponse
  | setattrRequest => SetattrRequest
  | setattrResponse => SetattrResponse
  | symlinkRequest => SymlinkRequest
  | symlinkResponse => SymlinkResponse
  | linkRequest => LinkRequest
  | linkResponse => LinkResponse
  | flushRequest => FlushRequest
  | flushFdRequest => FlushFdRequest
  | flushResponse => FlushResponse
  | getattrRequest => GetattrRequest
  | getattrResponse => GetattrResponse
  | lockRequest => LockRequest
  | getlkResponse => GetlkResponse
  | releaseFdRequest => ReleaseFdRequest
  | emptyResponse => EmptyResponse

def serialize : (t : MessageType) → t.Value → Put
  | header => Header.serialize
  | mountRequest => MountRequest.serialize
  | mountResponse => MountResponse.serialize
  | lookupRequest | unlinkRequest | rmdirRequest => NameRequest.serialize
  | lookupResponse | mkdirResponse | symlinkResponse | linkResponse => FileResponse.serialize
  | readRequest => ReadRequest.serialize
  | readFdRequest => ReadFdRequest.serialize
  | readResponse => ReadResponse.serialize
  | readDirRequest | readlinkRequest | getattrRequest => FileRequest.serialize
  | readDirResponse => ReadDirResponse.serialize
  | dirDataNotification => DirDataNotification.serialize
  | readlinkResponse => ReadlinkResponse.serialize
  | openRequest => OpenRequest.serialize
  | openResponse => OpenResponse.serialize
  | createRequest => CreateRequest.serialize
  | createResponse => CreateResponse.serialize
  | writeRequest => WriteRequest.serialize
  | writeFdRequest => WriteFdRequest.serialize
  | writeResponse => WriteResponse.serialize
  | mkdirRequest => MkdirRequest.serialize
  | unlinkResponse | rmdirResponse | renameResponse | emptyResponse => EmptyResponse.serialize
  | renameRequest => RenameRequest.serialize
  | setattrRequest => SetattrRequest.serialize
  | setattrResponse | flushResponse | getattrResponse => AttrResponse.serialize
  | symlinkRequest => SymlinkRequest.serialize
  | linkRequest => LinkRequest.serialize
  | flushRequest => FlushRequest.serialize
  | flushFdRequest => FlushFdRequest.serialize
  | lockRequest => LockRequest.serialize
  | getlkResponse => GetlkResponse.serialize
  | releaseFdRequest => ReleaseFdRequest.serialize

def deserialize : (t : MessageType) → Stream t.Value
  | header => Header.deserialize
  | mountRequest => MountRequest.deserialize
  | mountResponse => MountResponse.deserialize
  | lookupRequest | unlinkRequest | rmdirRequest => NameRequest.deserialize
  | lookupResponse => LookupResponse.deserialize
  | mkdirResponse => MkdirResponse.deserialize
  | symlinkResponse => SymlinkResponse.deserialize
  | linkResponse => LinkResponse.deserialize
  | readRequest => ReadRequest.deserialize
  | readFdRequest => ReadFdRequest.deserialize
  | readResponse => ReadResponse.deserialize
  | readDirRequest | readlinkRequest | getattrRequest => FileRequest.deserialize
  | readDirResponse => ReadDirResponse.deserialize
  | dirDataNotification => DirDataNotification.deserialize
  | readlinkResponse => ReadlinkResponse.deserialize
  | openRequest => OpenRequest.deserialize
  | openResponse => OpenResponse.deserialize
  | createRequest => CreateRequest.deserialize
  | createResponse => CreateResponse.deserialize
  | writeRequest => WriteRequest.deserialize
  | writeFdRequest => WriteFdRequest.deserialize
  | writeResponse => WriteResponse.deserialize
  | mkdirRequest => MkdirRequest.deserialize
  | unlinkResponse | rmdirResponse | renameResponse | emptyResponse => EmptyResponse.deserialize
  | renameRequest => RenameRequest.deserialize
  | setattrRequest => SetattrRequest.deserialize
  | setattrResponse | flushResponse | getattrResponse => AttrResponse.deserialize
  | symlinkRequest => SymlinkRequest.deserialize
  | linkRequest => LinkRequest.deserialize
  | flushRequest => FlushRequest.deserialize
  | flushFdRequest => FlushFdRequest.deserialize
  | lockRequest => LockRequest.deserialize
  | getlkResponse => GetlkResponse.deserialize
  | releaseFdRequest => ReleaseFdRequest.deserialize

end MessageType

def FileHandle.Fits (fh : FileHandle) : Prop := fh.bytes.length ≤ maxFileHandleSize

def StringFits (s : Bytes) : Prop := s.length ≤ maxStringSize

def DataFits (data : Bytes) : Prop := data.length ≤ maxPacketSize

def EntriesFit (entries : List DirEntry) : Prop :=
  entries.length ≤ maxArrayCount ∧ ∀ e ∈ entries, e.fh.Fits ∧ StringFits e.name

/-- Handles, strings, data and arrays are within the limits of the protocol. -/
def MessageType.Fits : (t : MessageType) → t.Value → Prop
  | mountRequest, (r : MountRequest) => StringFits r.path
  | mountResponse, (r : MountResponse) => r.fh.Fits
  | lookupRequest, (r : NameRequest) | unlinkRequest, (r : NameRequest)
  | rmdirRequest, (r : NameRequest) => r.parentFh.Fits ∧ StringFits r.name
  | lookupResponse, (r : FileResponse) | mkdirResponse, (r : FileResponse)
  | symlinkResponse, (r : FileResponse) | linkResponse, (r : FileResponse) => r.fh.Fits
  | readRequest, (r : ReadRequest) => r.fh.Fits
  | readResponse, (r : ReadResponse) => DataFits r.data
  | readDirRequest, (r : FileRequest) | readlinkRequest, (r : FileRequest)
  | getattrRequest, (r : FileRequest) => r.fh.Fits
  | readDirResponse, (r : ReadDirResponse) => EntriesFit r.entries
  | dirDataNotification, (n : DirDataNotification) => EntriesFit n.entries
  | readlinkResponse, (r : ReadlinkResponse) => StringFits r.target
  | openRequest, (r : OpenRequest) => r.fh.Fits
  | createRequest, (r : CreateRequest) => r.parentFh.Fits ∧ StringFits r.name
  | createResponse, (r : CreateResponse) => r.fh.Fits
  | writeRequest, (r : WriteRequest) => r.fh.Fits ∧ DataFits r.data
  | writeFdRequest, (r : WriteFdRequest) => DataFits r.data
  | mkdirRequest, (r : MkdirRequest) => r.parentFh.Fits ∧ StringFits r.name
  | renameRequest, (r : RenameRequest) =>
    r.oldParentFh.Fits ∧ StringFits r.oldName ∧ r.newParentFh.Fits ∧ StringFits r.newName
  | setattrRequest, (r : SetattrRequest) => r.fh.Fits
  | symlinkRequest, (r : SymlinkRequest) =>
    r.parentFh.Fits ∧ StringFits r.name ∧ StringFits r.target
  | linkRequest, (r : LinkRequest) => r.parentFh.Fits ∧ StringFits r.name ∧ r.targetFh.Fits
  | flushRequest, (r : FlushRequest) => r.fh.Fits
  | _, _ => True

/-- What is read is what was written, but for the header of a `MountResponse`. -/
def MessageType.received : (t : MessageType) → t.Value → t.Value
  | mountResponse, (r : MountResponse) => ({ r with header := {} } : MountResponse)
  | _, m => m

def prefixed (s : Bytes) : Nat := (uvarint maxVarintLen64 s.length).length + s.length

def FileHandle.size (fh : FileHandle) : Nat := 8 + fh.bytes.length

lemma field (what : String) (x : BitVec w) (whole : w % 8 = 0) :
    RoundTrip (binaryWrite x) (readField what w) x (w / 8) :=
  (RoundTrip.binary x whole).readWithin _

lemma fileHandle (fits : fh.Fits) :
    RoundTrip (encodeFileHandle fh) decodeFileHandle fh fh.size := by
  have small : fh.bytes.length ≤ 1024 := fits
  have same : (BitVec.ofNat 32 fh.bytes.length).toNat = fh.bytes.length := by
    rw [BitVec.toNat_ofNat]
    omega
  have bytes := (RoundTrip.bytes ⟨fh.bytes, same.symm⟩).resize same
  have parts : RoundTrip (encodeFileHandle fh) decodeFileHandle fh
      (32 / 8 + (32 / 8 + fh.bytes.length)) := by
    refine (field _ _ rfl).bind (.readAccepted ((field _ _ rfl).bind ?_) ?_ _)
    · exact (bytes.readWithin _).last fun bs => FileHandle.mk fh.type bs.1
    · rw [same]
      exact not_lt.mpr small
  exact parts.resize (by unfold FileHandle.size; omega)

lemma varint (fits : n ≤ limit) (small : n < 2 ^ 64) :
    RoundTrip (putUvarint n) (readVarint limit) n (uvarint maxVarintLen64 n).length := by
  refine (RoundTrip.varint small).conclude fun buf => ?_
  rw [refuse, if_neg (not_lt.mpr fits)]
  rfl

lemma string (fits : StringFits s) : RoundTrip (writeString s) readString s (prefixed s) := by
  have small : s.length < 2 ^ 64 := by
    have bound : s.length ≤ 5242780 := fits
    omega
  refine .writeAccepted ?_ (not_lt.mpr fits) _
  refine ((varint fits small).readWithin _).bind ?_
  exact ((RoundTrip.bytes ⟨s, rfl⟩).readWithin _).last fun bs => bs.1

lemma name (what what' : String) (fits : StringFits s) :
    RoundTrip (writeName what s) (readName what') s (prefixed s) :=
  ((string fits).writeWithin _).readWithin _

lemma data (what : String) (fits : DataFits d) :
    RoundTrip (writeData d) (readData what) d (prefixed d) := by
  have small : d.length < 2 ^ 64 := by
    have bound : d.length ≤ 5242880 := fits
    omega
  refine ((varint fits small).readWithin _).bind ?_
  exact ((RoundTrip.bytes ⟨d, rfl⟩).readWithin _).last fun bs => bs.1

lemma int (x : BitVec w) (whole : w % 8 = 0) :
    RoundTrip (binaryWrite x) (binaryRead w) x (w / 8) :=
  RoundTrip.binary x whole

lemma attr (a : FileAttr) : RoundTrip (writeAttr a) readAttr a attrSize :=
  .struct <| .resize ((int a.dev rfl).bind <| (int a.ino rfl).bind <| (int a.nlink rfl).bind <|
    (int a.mode rfl).bind <| (int a.uid rfl).bind <| (int a.gid rfl).bind <|
    (int a.rdev rfl).bind <| (int a.size rfl).bind <| (int a.blksize rfl).bind <|
    (int a.blocks rfl).bind <| (int a.mtim rfl).bind <| (int a.ctim rfl).bind <|
    (int a.mtimNsec rfl).bind <| (int a.ctimNsec rfl).bind <|
    (RoundTrip.bytes a.sha256).last _) rfl

lemma attrAs (what : String) (a : FileAttr) :
    RoundTrip (writeAttr a) (readAttrAs what) a attrSize :=
  (attr a).readWithin _

def Owner.size : Nat := 9

lemma owner (o : Owner) : RoundTrip (writeOwner o) readOwner o Owner.size :=
  .resize ((field _ o.hasOwner rfl).bind <| (field _ o.uid rfl).bind <|
    (field _ o.gid rfl).last _) rfl

def Flushed.size : Nat := 41

lemma flushed (f : Flushed) : RoundTrip (writeFlushed f) readFlushed f Flushed.size :=
  .resize ((field _ f.lastWriteReqID rfl).bind <| (field _ f.hasSha256 rfl).bind <|
    ((RoundTrip.bytes f.sha256).readWithin _).last _) rfl

def FileLock.size : Nat := 24

lemma fileLock (lk : FileLock) :
    RoundTrip (serializeFuseFileLock lk) deserializeFuseFileLock lk FileLock.size :=
  .resize ((field _ lk.start rfl).bind <| (field _ lk.stop rfl).bind <|
    (field _ lk.typ rfl).bind <| (field _ lk.pid rfl).last _) rfl

def DirEntry.size (e : DirEntry) : Nat := e.fh.size + (prefixed e.name + attrSize)

lemma entry (fh : e.fh.Fits) (named : StringFits e.name) :
    RoundTrip (writeEntry e) readEntry e e.size :=
  (fileHandle fh).bind <| (name _ _ named).bind <| (attrAs _ e.attr).last _

def entriesSize (entries : List DirEntry) : Nat :=
  (uvarint maxVarintLen64 entries.length).length + (entries.map DirEntry.size).sum

lemma entries (what : String) (fit : EntriesFit l) :
    RoundTrip (writeEntries l) (readEntries what) l (entriesSize l) := by
  have small : l.length < 2 ^ 64 := by
    have bound : l.length ≤ 100000 := fit.1
    omega
  refine .writeAccepted ?_ (not_lt.mpr fit.1) _
  refine ((varint fit.1 small).readWithin _).bind (RoundTrip.times fun e mem => ?_)
  exact entry (fit.2 e mem).1 (fit.2 e mem).2

def MessageType.size : (t : MessageType) → t.Value → Nat
  | header, _ => headerSize
  | mountRequest, (r : MountRequest) => 4 + (4 + prefixed r.path)
  | mountResponse, (r : MountResponse) => 4 + (4 + (r.fh.size + attrSize))
  | lookupRequest, (r : NameRequest) | unlinkRequest, (r : NameRequest)
  | rmdirRequest, (r : NameRequest) => r.parentFh.size + prefixed r.name
  | lookupResponse, (r : FileResponse) | mkdirResponse, (r : FileResponse)
  | symlinkResponse, (r : FileResponse) | linkResponse, (r : FileResponse) => r.fh.size + attrSize
  | readRequest, (r : ReadRequest) => r.fh.size + (8 + 4)
  | readFdRequest, _ => 4 + (8 + 4)
  | readResponse, (r : ReadResponse) => prefixed r.data
  | readDirRequest, (r : FileRequest) | readlinkRequest, (r : FileRequest)
  | getattrRequest, (r : FileRequest) => r.fh.size
  | readDirResponse, (r : ReadDirResponse) => entriesSize r.entries
  | dirDataNotification, (n : DirDataNotification) => 8 + entriesSize n.entries
  | readlinkResponse, (r : ReadlinkResponse) => prefixed r.target
  | openRequest, (r : OpenRequest) => r.fh.size + (4 + Owner.size)
  | openResponse, _ => 4 + attrSize
  | createRequest, (r : CreateRequest) =>
    r.parentFh.size + (prefixed r.name + (4 + (4 + Owner.size)))
  | createResponse, (r : CreateResponse) => 4 + (r.fh.size + attrSize)
  | writeRequest, (r : WriteRequest) => r.fh.size + (8 + prefixed r.data)
  | writeFdRequest, (r : WriteFdRequest) => 4 + (8 + prefixed r.data)
  | writeResponse, _ => 4
  | mkdirRequest, (r : MkdirRequest) => r.parentFh.size + (prefixed r.name + (4 + Owner.size))
  | renameRequest, (r : RenameRequest) => r.oldParentFh.size + (prefixed r.oldName +
    (r.newParentFh.size + prefixed r.newName))
  | setattrRequest, (r : SetattrRequest) =>
    r.fh.size + (4 + (4 + (4 + (4 + (8 + (8 + 8))))))
  | setattrResponse, _ | flushResponse, _ | getattrResponse, _ => attrSize
  | symlinkRequest, (r : SymlinkRequest) =>
    r.parentFh.size + (prefixed r.name + (prefixed r.target + Owner.size))
  | linkRequest, (r : LinkRequest) => r.parentFh.size + (prefixed r.name + r.targetFh.size)
  | flushRequest, (r : FlushRequest) => r.fh.size + Flushed.size
  | flushFdRequest, _ => 4 + Flushed.size
  | lockRequest, _ => 4 + (8 + (FileLock.size + 4))
  | getlkResponse, _ => FileLock.size
  | releaseFdRequest, _ => 4
  | unlinkResponse, _ | rmdirResponse, _ | renameResponse, _ | emptyResponse, _ => 0

namespace MessageType

lemma roundTrip_header (h : Header) : RoundTrip h.serialize Header.deserialize h headerSize :=
  .resize ((field _ h.opcode rfl).bind <| (field _ h.size rfl).bind <|
    (field _ h.flags rfl).bind <| (field _ h.seq rfl).last _) rfl

lemma roundTrip_file (what : String) (fits : r.fh.Fits) :
    RoundTrip r.serialize (FileResponse.deserialize what) r (r.fh.size + attrSize) :=
  (fileHandle fits).bind <| (attrAs what r.attr).last _

lemma roundTrip_named (fh : r.parentFh.Fits) (named : StringFits r.name) :
    RoundTrip r.serialize NameRequest.deserialize r (r.parentFh.size + prefixed r.name) :=
  (fileHandle fh).bind <| (name _ _ named).last _

lemma roundTrip_attr (r : AttrResponse) :
    RoundTrip r.serialize AttrResponse.deserialize r attrSize :=
  (attr r.attr).last _

lemma roundTrip_empty (r : EmptyResponse) : RoundTrip r.serialize EmptyResponse.deserialize r 0 :=
  .nil r

lemma roundTrip (t : MessageType) (m : t.Value) (fits : t.Fits m) :
    RoundTrip (t.serialize m) t.deserialize (t.received m) (t.size m) := by
  cases t with
  | header => exact roundTrip_header m
  | mountRequest =>
    exact (field _ m.version rfl).bind <| (field _ m.flags rfl).bind <| (name _ _ fits).last _
  | mountResponse =>
    exact (field _ m.version rfl).bind <| (field _ m.flags rfl).bind <|
      (fileHandle fits).bind <| (attrAs _ m.attr).last _
  | lookupRequest | unlinkRequest | rmdirRequest => exact roundTrip_named fits.1 fits.2
  | readRequest =>
    exact (fileHandle fits).bind <| (field _ m.offset rfl).bind <| (field _ m.size rfl).last _
  | readFdRequest =>
    exact (field _ m.fd rfl).bind <| (field _ m.offset rfl).bind <| (field _ m.size rfl).last _
  | readResponse => exact .writeAccepted ((data _ fits).last _) (not_lt.mpr fits) _
  | readDirRequest | readlinkRequest | getattrRequest => exact (fileHandle fits).last _
  | readDirResponse => exact (entries _ fits).last _
  | dirDataNotification => exact (field _ m.ino rfl).bind <| (entries _ fits).last _
  | readlinkResponse => exact (name _ _ fits).last _
  | openRequest =>
    exact (fileHandle fits).bind <| (field _ m.flags rfl).bind <| (owner m.toOwner).last _
  | openResponse => exact (field _ m.fd rfl).bind <| (attrAs _ m.attr).last _
  | createRequest =>
    exact (fileHandle fits.1).bind <| (name _ _ fits.2).bind <| (field _ m.flags rfl).bind <|
      (field _ m.mode rfl).bind <| (owner m.toOwner).last _
  | createResponse =>
    exact (field _ m.fd rfl).bind <| (fileHandle fits).bind <| (attrAs _ m.attr).last _
  | writeRequest =>
    exact (fileHandle fits.1).bind <| (field _ m.offset rfl).bind <| (data _ fits.2).last _
  | writeFdRequest =>
    exact (field _ m.fd rfl).bind <| (field _ m.offset rfl).bind <| (data _ fits).last _
  | writeResponse => exact (int m.size rfl).last _
  | mkdirRequest =>
    exact (fileHandle fits.1).bind <| (name _ _ fits.2).bind <| (field _ m.mode rfl).bind <|
      (owner m.toOwner).last _
  | renameRequest =>
    obtain ⟨oldParent, oldName, newParent, newName⟩ := fits
    exact (fileHandle oldParent).bind <| (name _ _ oldName).bind <|
      (fileHandle newParent).bind <| (name _ _ newName).last _
  | setattrRequest =>
    exact (fileHandle fits).bind <| (field _ m.valid rfl).bind <| (field _ m.mode rfl).bind <|
      (field _ m.uid rfl).bind <| (field _ m.gid rfl).bind <| (field _ m.size rfl).bind <|
      (field _ m.mtime rfl).bind <| (field _ m.atime rfl).last _
  | setattrResponse | flushResponse | getattrResponse => exact roundTrip_attr m
  | symlinkRequest =>
    obtain ⟨parent, named, target⟩ := fits
    exact (fileHandle parent).bind <| (name _ _ named).bind <| (name _ _ target).bind <|
      (owner m.toOwner).last _
  | linkRequest =>
    obtain ⟨parent, named, target⟩ := fits
    exact (fileHandle parent).bind <| (name _ _ named).bind <| (fileHandle target).last _
  | flushRequest => exact (fileHandle fits).bind <| (flushed m.toFlushed).last _
  | flushFdRequest => exact (field _ m.fd rfl).bind <| (flushed m.toFlushed).last _
  | lockRequest =>
    exact (field _ m.fd rfl).bind <| (field _ m.owner rfl).bind <| (fileLock m.lk).bind <|
      (field _ m.flags rfl).last _
  | getlkResponse => exact (fileLock m.lk).last _
  | releaseFdRequest => exact (int m.fd rfl).last _
  | unlinkResponse | rmdirResponse | renameResponse | emptyResponse => exact roundTrip_empty m
  | _ =>
    exact roundTrip_file _ fits

end MessageType

/-- A message within the limits is written, and read back from any bytes that begin with it. -/
theorem message_round_trip (t : MessageType) (m : t.Value) (fits : t.Fits m) :
    ∃ bs, t.serialize m [] = .ok ((), bs) ∧
      ∀ rest, t.deserialize (bs ++ rest) = .ok (t.received m, rest) := by
  obtain ⟨bs, -, writes, reads⟩ := t.roundTrip m fits
  exact ⟨bs, writes [], reads⟩

def noAttr : FileAttr :=
  ⟨0, 0, 0, 0, 0, 0, 0, 0, 0, 0, 0, 0, 0, 0, ⟨List.replicate 32 0, List.length_replicate⟩⟩

theorem message_round_trip_readDir :
    let m : ReadDirResponse := ⟨[⟨⟨1, [7]⟩, [97], noAttr⟩]⟩
    ∃ bs, MessageType.readDirResponse.serialize m [] = .ok ((), bs) ∧
      ∀ rest, MessageType.readDirResponse.deserialize (bs ++ rest) = .ok (m, rest) := by
  refine message_round_trip .readDirResponse ⟨[⟨⟨1, [7]⟩, [97], noAttr⟩]⟩ ⟨by decide, ?_⟩
  intro e mem
  rw [List.mem_singleton.mp mem]
  exact ⟨by unfold FileHandle.Fits; decide, by unfold StringFits; decide⟩

/-- The sequence number in the header of a `MountResponse` comes back as zero. -/
theorem mount_header_lost :
    let m : MountResponse := ⟨{ seq := 1 }, 1, 0, ⟨1, []⟩, noAttr⟩
    MessageType.mountResponse.Fits m ∧ ∃ bs, m.serialize [] = .ok ((), bs) ∧
      ∃ m', MountResponse.deserialize bs = .ok (m', []) ∧ m' ≠ m := by
  have fits : MessageType.mountResponse.Fits ⟨{ seq := 1 }, 1, 0, ⟨1, []⟩, noAttr⟩ :=
    Nat.zero_le _
  obtain ⟨bs, -, writes, reads⟩ := MessageType.mountResponse.roundTrip _ fits
  refine ⟨fits, bs, writes [], ⟨{}, 1, 0, ⟨1, []⟩, noAttr⟩, ?_, ?_⟩
  · have read := reads []
    rwa [List.append_nil] at read
  · intro same
    exact absurd (congrArg (fun r => r.header.seq) same) (by decide)

end Velda.FileServer.Wire
