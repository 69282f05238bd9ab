import Velda.FileServer.Frames

/-! The limits on frames at both ends of the file protocol, against the messages that they
exchange. The server refuses the frame of a large write that does not compress, and the
client that of a long list of a directory. -/
namespace Velda.FileServer.Wire
open Lib List

/-- `MAX_HANDLE_SZ`, `NAME_MAX` and `PATH_MAX` of the kernel, and `MaxWrite` of the mount. -/
def maxHandleSize : Nat := 128
def nameMax : Nat := 255
def pathMax : Nat := 4096
def maxWrite : Nat := 1024 * 1024

def maxEntries : Nat := 1000

def FileHandle.Kernel (fh : FileHandle) : Prop := fh.bytes.length ≤ maxHandleSize

def IsName (s : Bytes) : Prop := s.length ≤ nameMax

def IsPath (s : Bytes) : Prop := s.length ≤ pathMax

def AreEntries (limit : Nat) (entries : List DirEntry) : Prop :=
  entries.length ≤ limit ∧ ∀ e ∈ entries, e.fh.Kernel ∧ IsName e.name

def MessageType.Request : (t : MessageType) → t.Value → Prop
  | mountRequest, (r : MountRequest) => IsPath r.path
  | lookupRequest, (r : NameRequest) | unlinkRequest, (r : NameRequest)
  | rmdirRequest, (r : NameRequest) => r.parentFh.Kernel ∧ IsName r.name
  | readRequest, (r : ReadRequest) => r.fh.Kernel
  | readFdRequest, _ | flushFdRequest, _ | lockRequest, _ | releaseFdRequest, _ => True
  | readDirRequest, (r : FileRequest) | readlinkRequest, (r : FileRequest)
  | getattrRequest, (r : FileRequest) => r.fh.Kernel
  | openRequest, (r : OpenRequest) => r.fh.Kernel
  | createRequest, (r : CreateRequest) => r.parentFh.Kernel ∧ IsName r.name
  | writeRequest, (r : WriteRequest) => r.fh.Kernel ∧ r.data.length ≤ maxWrite
  | writeFdRequest, (r : WriteFdRequest) => r.data.length ≤ maxWrite
  | mkdirRequest, (r : MkdirRequest) => r.parentFh.Kernel ∧ IsName r.name
  | renameRequest, (r : RenameRequest) =>
    r.oldParentFh.Kernel ∧ IsName r.oldName ∧ r.newParentFh.Kernel ∧ IsName r.newName
  | setattrRequest, (r : SetattrRequest) => r.fh.Kernel
  | symlinkRequest, (r : SymlinkRequest) => r.parentFh.Kernel ∧ IsName r.name ∧ IsPath r.target
  | linkRequest, (r : LinkRequest) => r.parentFh.Kernel ∧ IsName r.name ∧ r.targetFh.Kernel
  | flushRequest, (r : FlushRequest) => r.fh.Kernel
  | _, _ => False

def MessageType.Response : (t : MessageType) → t.Value → Prop
  | mountResponse, (r : MountResponse) => r.fh.Kernel
  | lookupResponse, (r : FileResponse) | mkdirResponse, (r : FileResponse)
  | symlinkResponse, (r : FileResponse) | linkResponse, (r : FileResponse) => r.fh.Kernel
  | readResponse, (r : ReadResponse) => r.data.length ≤ maxPacketSize
  | readDirResponse, (r : ReadDirResponse) => AreEntries maxArrayCount r.entries
  | dirDataNotification, (n : DirDataNotification) => AreEntries maxEntries n.entries
  | readlinkResponse, (r : ReadlinkResponse) => IsPath r.target
  | createResponse, (r : CreateResponse) => r.fh.Kernel
  | openResponse, _ | writeResponse, _ | unlinkResponse, _ | rmdirResponse, _
  | renameResponse, _ | setattrResponse, _ | flushResponse, _ | getattrResponse, _
  | getlkResponse, _ | emptyResponse, _ => True
  | _, _ => False

lemma FileHandle.Kernel.fits {fh : FileHandle} (h : fh.Kernel) : fh.Fits :=
  le_trans h (by decide)

variable {t : MessageType} {m : t.Value} {s : Bytes} {limit : Nat}

lemma IsName.fits (h : IsName s) : StringFits s := le_trans h (by decide)

lemma IsPath.fits (h : IsPath s) : StringFits s := le_trans h (by decide)

lemma AreEntries.fit {entries : List DirEntry} (h : AreEntries limit entries)
    (within : limit ≤ maxArrayCount) : EntriesFit entries :=
  ⟨h.1.trans within, fun e mem => ⟨(h.2 e mem).1.fits, (h.2 e mem).2.fits⟩⟩

lemma MessageType.Request.fits (h : t.Request m) : t.Fits m := by
  cases t with
  | mountRequest => exact IsPath.fits h
  | lookupRequest | unlinkRequest | rmdirRequest | createRequest | mkdirRequest =>
    exact ⟨h.1.fits, h.2.fits⟩
  | readRequest | readDirRequest | readlinkRequest | getattrRequest | openRequest
  | setattrRequest | flushRequest => exact FileHandle.Kernel.fits h
  | writeRequest => exact ⟨h.1.fits, le_trans h.2 (by decide)⟩
  | writeFdRequest => exact le_trans h (by decide)
  | renameRequest => exact ⟨h.1.fits, h.2.1.fits, h.2.2.1.fits, h.2.2.2.fits⟩
  | symlinkRequest => exact ⟨h.1.fits, h.2.1.fits, h.2.2.fits⟩
  | linkRequest => exact ⟨h.1.fits, h.2.1.fits, h.2.2.fits⟩
  | readFdRequest | flushFdRequest | lockRequest | releaseFdRequest => trivial
  | _ => exact h.elim

lemma MessageType.Response.fits (h : t.Response m) : t.Fits m := by
  cases t with
  | mountResponse | lookupResponse | mkdirResponse | symlinkResponse | linkResponse
  | createResponse => exact FileHandle.Kernel.fits h
  | readResponse => exact h
  | readDirResponse => exact AreEntries.fit h le_rfl
  | dirDataNotification => exact AreEntries.fit h (by decide)
  | readlinkResponse => exact IsPath.fits h
  | openResponse | writeResponse | unlinkResponse | rmdirResponse | renameResponse
  | setattrResponse | flushResponse | getattrResponse | getlkResponse | emptyResponse => trivial
  | _ => exact h.elim

lemma length_packet (op size flags seq : BitVec 32) (payload : Bytes) :
    (packet op size flags seq payload).length = headerSize + payload.length := by
  simp only [packet, length_append, RoundTrip.length_putLE, headerSize]

lemma deserialize_packet (op size flags seq : BitVec 32) (payload : Bytes) :
    Header.deserialize (packet op size flags seq payload) =
      .ok (⟨op, size, flags, seq⟩, payload) := by
  obtain ⟨bs, -, writes, reads⟩ := MessageType.roundTrip_header ⟨op, size, flags, seq⟩
  have explicit : bs = putLE 4 op.toNat ++ putLE 4 size.toNat ++ putLE 4 flags.toNat ++
      putLE 4 seq.toNat := by
    have written := writes []
    injection written with pair
    exact (congrArg Prod.snd pair).symm
  rw [packet, ← explicit]
  exact reads payload

lemma accepted_packet (op flags seq : BitVec 32) (payload : Bytes)
    (small : headerSize + n < 2 ^ 32) :
    Accepted limit (packet op (BitVec.ofNat 32 (headerSize + n)) flags seq payload) ↔
      headerSize + n ≤ limit := by
  have size : (BitVec.ofNat 32 (headerSize + n)).toNat = headerSize + n := by
    rw [BitVec.toNat_ofNat, Nat.mod_eq_of_lt small]
  have valid (h : Header) (same : h.size = BitVec.ofNat 32 (headerSize + n)) :
      sizeValid limit h = true ↔ headerSize + n ≤ limit := by
    simp [sizeValid, same, size]
  constructor
  · rintro ⟨h, rest, read, accepted⟩
    rw [deserialize_packet] at read
    cases read
    exact (valid _ rfl).mp accepted
  · exact fun within => ⟨_, _, deserialize_packet .., (valid _ rfl).mpr within⟩

section Encoder
variable {encodeAll : Bytes → Bytes}

lemma length_compressed_le (encodeAll : Bytes → Bytes) (body : Bytes) :
    (compressed encodeAll body).length ≤ body.length := by
  unfold compressed
  split
  · next smaller => exact smaller.2.le
  · exact le_rfl

lemma accepted_withHeader (op seq flags : BitVec 32) {body : Bytes}
    (small : headerSize + body.length < 2 ^ 32) :
    Accepted limit (withHeader encodeAll op seq flags body) ↔
      headerSize + (compressed encodeAll body).length ≤ limit := by
  have shorter := length_compressed_le encodeAll body
  exact accepted_packet op _ seq _ (lt_of_le_of_lt (Nat.add_le_add_left shorter _) small)

lemma compressed_le_iff (body : Bytes) (above : headerSize + compressionThreshold ≤ limit) :
    headerSize + (compressed encodeAll body).length ≤ limit ↔
      headerSize + body.length ≤ limit ∨ headerSize + (encodeAll body).length ≤ limit := by
  unfold compressed
  by_cases smaller : Compresses encodeAll body
  · rw [if_pos smaller]
    have shorter := smaller.2
    omega
  · rw [if_neg smaller]
    simp only [Compresses] at smaller
    omega

end Encoder

def MessageType.body (t : MessageType) (m : t.Value) : Bytes :=
  match t.serialize m [] with
  | .ok r => r.2
  | .error _ => []

lemma MessageType.Fits.serialized (fits : t.Fits m) (encodeAll : Bytes → Bytes)
    (op seq flags : BitVec 32) :
    (t.body m).length = t.size m ∧ serializeWithHeader encodeAll op seq flags t m =
      .ok (withHeader encodeAll op seq flags (t.body m)) := by
  obtain ⟨bs, size, writes, -⟩ := t.roundTrip m fits
  have written : t.serialize m [] = .ok ((), bs) := writes []
  have body : t.body m = bs := by rw [MessageType.body, written]
  exact ⟨body ▸ size, by rw [serializeWithHeader, written, body]⟩

/-- The message is within the limit as it is or in the encoding of zstd. -/
def FrameFits (encodeAll : Bytes → Bytes) (limit : Nat) (t : MessageType) (m : t.Value) : Prop :=
  headerSize + t.size m ≤ limit ∨ headerSize + (encodeAll (t.body m)).length ≤ limit

lemma accepted_frame {encodeAll : Bytes → Bytes} (fits : t.Fits m)
    (small : headerSize + t.size m < 2 ^ 32) (above : headerSize + compressionThreshold ≤ limit)
    (op seq flags : BitVec 32) : Accepted limit (withHeader encodeAll op seq flags (t.body m)) ↔
      FrameFits encodeAll limit t m := by
  have size := (fits.serialized encodeAll op seq flags).1
  rw [accepted_withHeader op seq flags (by rwa [size]), compressed_le_iff _ above, size]
  rfl

lemma length_uvarint_le (k n : Nat) : (uvarint k n).length ≤ k := by
  induction k generalizing n with
  | zero => exact le_rfl
  | succ k ih =>
    unfold uvarint
    split
    · exact Nat.succ_le_succ (Nat.zero_le k)
    · exact Nat.succ_le_succ (ih _)

lemma prefixed_le (s : Bytes) : prefixed s ≤ 10 + s.length :=
  Nat.add_le_add_right (length_uvarint_le _ _) _

lemma FileHandle.Kernel.size_le {fh : FileHandle} (h : fh.Kernel) : fh.size ≤ 136 :=
  Nat.add_le_add_left h 8

lemma IsName.prefixed_le (h : IsName s) : prefixed s ≤ 265 :=
  (Wire.prefixed_le s).trans (Nat.add_le_add_left h 10)

lemma IsPath.prefixed_le (h : IsPath s) : prefixed s ≤ 4106 :=
  (Wire.prefixed_le s).trans (Nat.add_le_add_left h 10)

lemma AreEntries.size_le {entries : List DirEntry} (h : AreEntries limit entries) :
    entriesSize entries ≤ 10 + limit * 525 := by
  have each : (entries.map DirEntry.size).sum ≤ (entries.map DirEntry.size).length • 525 := by
    refine sum_le_card_nsmul _ _ fun n mem => ?_
    obtain ⟨e, inside, rfl⟩ := mem_map.mp mem
    have handle := (h.2 e inside).1.size_le
    have name := (h.2 e inside).2.prefixed_le
    simp only [DirEntry.size, attrSize]
    omega
  have count := length_uvarint_le maxVarintLen64 entries.length
  have few := Nat.mul_le_mul_right 525 h.1
  rw [length_map, smul_eq_mul] at each
  have ten : maxVarintLen64 = 10 := rfl
  unfold entriesSize
  omega

namespace MessageType

def carriesData : MessageType → Bool
  | writeRequest | writeFdRequest => true
  | _ => false

lemma Request.size_le (h : t.Request m) :
    t.size m ≤ if t.carriesData then serverLimit + 154 else 8192 := by
  cases t with
  | mountRequest =>
    have path := IsPath.prefixed_le h
    simp only [size, carriesData, Bool.false_eq_true, if_false]
    omega
  | lookupRequest | unlinkRequest | rmdirRequest | createRequest | mkdirRequest =>
    have parent := h.1.size_le
    have name := h.2.prefixed_le
    simp only [size, Owner.size, carriesData, Bool.false_eq_true, if_false]
    omega
  | readRequest | readDirRequest | readlinkRequest | getattrRequest | openRequest
  | setattrRequest | flushRequest =>
    have file := FileHandle.Kernel.size_le h
    simp only [size, Owner.size, Flushed.size, carriesData, Bool.false_eq_true, if_false]
    omega
  | writeRequest =>
    have file := h.1.size_le
    have data := (prefixed_le m.data).trans (Nat.add_le_add_left h.2 10)
    simp only [size, carriesData, if_true, serverLimit, maxWrite] at data ⊢
    omega
  | writeFdRequest =>
    have data := (prefixed_le m.data).trans (Nat.add_le_add_left h 10)
    simp only [size, carriesData, if_true, serverLimit, maxWrite] at data ⊢
    omega
  | renameRequest =>
    have oldParent := h.1.size_le
    have oldName := h.2.1.prefixed_le
    have newParent := h.2.2.1.size_le
    have newName := h.2.2.2.prefixed_le
    simp only [size, carriesData, Bool.false_eq_true, if_false]
    omega
  | symlinkRequest =>
    have parent := h.1.size_le
    have name := h.2.1.prefixed_le
    have target := h.2.2.prefixed_le
    simp only [size, Owner.size, carriesData, Bool.false_eq_true, if_false]
    omega
  | linkRequest =>
    have parent := h.1.size_le
    have name := h.2.1.prefixed_le
    have target := h.2.2.size_le
    simp only [size, carriesData, Bool.false_eq_true, if_false]
    omega
  | readFdRequest | flushFdRequest | lockRequest | releaseFdRequest =>
    exact Nat.le_of_ble_eq_true rfl
  | _ => exact h.elim

/-- The list of a directory is the one response that can be longer than the client takes. -/
def listsDirectory : MessageType → Bool
  | readDirResponse => true
  | _ => false

lemma Response.size_le (h : t.Response m) :
    t.size m ≤ if t.listsDirectory then 10 + maxArrayCount * 525 else maxPacketSize + 10 := by
  cases t with
  | mountResponse | lookupResponse | mkdirResponse | symlinkResponse | linkResponse
  | createResponse =>
    have file := FileHandle.Kernel.size_le h
    simp only [size, attrSize, listsDirectory, Bool.false_eq_true, if_false, maxPacketSize]
    omega
  | readResponse =>
    have most : m.data.length ≤ maxPacketSize := h
    have whole := prefixed_le m.data
    simp only [size, listsDirectory, Bool.false_eq_true, if_false]
    omega
  | readDirResponse => exact AreEntries.size_le h
  | dirDataNotification =>
    have entries := AreEntries.size_le h
    simp only [size, listsDirectory, Bool.false_eq_true, if_false, maxEntries, maxPacketSize]
      at entries ⊢
    omega
  | readlinkResponse =>
    have path := IsPath.prefixed_le h
    simp only [size, listsDirectory, Bool.false_eq_true, if_false, maxPacketSize]
    omega
  | openResponse | writeResponse | unlinkResponse | rmdirResponse | renameResponse
  | setattrResponse | flushResponse | getattrResponse | getlkResponse | emptyResponse =>
    exact Nat.le_of_ble_eq_true rfl
  | _ => exact h.elim

lemma Response.small (h : t.Response m) : headerSize + t.size m < 2 ^ 32 := by
  refine lt_of_le_of_lt (Nat.add_le_add_left h.size_le _) ?_
  split <;> decide

end MessageType

lemma prefixed_of_large (above : 2 ^ 14 ≤ s.length) (below : s.length < 2 ^ 21) :
    prefixed s = 3 + s.length := by
  have length : (uvarint maxVarintLen64 s.length).length = 3 := by
    have first : ¬ s.length < 0x80 := by omega
    have second : ¬ s.length >>> 7 < 0x80 := by rw [Nat.shiftRight_eq_div_pow]; omega
    have third : s.length >>> 7 >>> 7 < 0x80 := by simp only [Nat.shiftRight_eq_div_pow]; omega
    simp only [maxVarintLen64, uvarint, if_neg first, if_neg second, if_pos third,
      length_cons, length_nil]
  rw [prefixed, length]

/-- The handle and the data of a write are within the limit of the server, or the encoding of
the request is. -/
def RequestFits (encodeAll : Bytes → Bytes) : (t : MessageType) → t.Value → Prop
  | .writeRequest, (r : WriteRequest) =>
    r.fh.bytes.length + r.data.length + 35 ≤ serverLimit ∨
      headerSize + (encodeAll (MessageType.writeRequest.body r)).length ≤ serverLimit
  | .writeFdRequest, (r : WriteFdRequest) =>
    r.data.length + 31 ≤ serverLimit ∨
      headerSize + (encodeAll (MessageType.writeFdRequest.body r)).length ≤ serverLimit
  | _, _ => True

/-- The entries of a directory are within the limit of the client, or their encoding is,
or they are sent in chunks. -/
def ResponseFits (encodeAll : Bytes → Bytes) (low : Bool) (seq : BitVec 32) :
    (t : MessageType) → t.Value → Prop
  | .readDirResponse, (r : ReadDirResponse) =>
    headerSize + entriesSize r.entries ≤ clientLimit ∨
      headerSize + (encodeAll (MessageType.readDirResponse.body r)).length ≤ clientLimit ∨
      low = true ∧ seq ≠ 0
  | _, _ => True

lemma prefixed_le_iff (most : s.length ≤ maxWrite) (less : k ≤ 4096) :
    k + prefixed s ≤ serverLimit ↔ k + 3 + s.length ≤ serverLimit := by
  simp only [maxWrite, serverLimit] at most ⊢
  by_cases large : 2 ^ 14 ≤ s.length
  · rw [prefixed_of_large large (by omega)]
    omega
  · have short := prefixed_le s
    omega

lemma requestFits_iff {encodeAll : Bytes → Bytes} (h : t.Request m) :
    FrameFits encodeAll serverLimit t m ↔ RequestFits encodeAll t m := by
  cases t with
  | writeRequest =>
    obtain ⟨file, most⟩ := h
    have whole := prefixed_le_iff (k := headerSize + m.fh.size + 8) most (by
      have := file.size_le
      unfold headerSize
      omega)
    refine or_congr_left (Iff.trans ?_ (whole.trans ?_))
    · simp only [MessageType.size]
      omega
    · simp only [FileHandle.size, headerSize]
      omega
  | writeFdRequest =>
    have whole := prefixed_le_iff (k := headerSize + 12) h (by decide)
    refine or_congr_left (Iff.trans ?_ (whole.trans ?_))
    · simp only [MessageType.size]
      omega
    · simp only [headerSize]
      omega
  | _ =>
    refine iff_of_true (Or.inl ?_) trivial
    exact (Nat.add_le_add_left h.size_le _).trans (by decide)

lemma accepted_request {encodeAll : Bytes → Bytes} (h : t.Request m) (op seq flags : BitVec 32) :
    Accepted serverLimit (withHeader encodeAll op seq flags (t.body m)) ↔
      RequestFits encodeAll t m := by
  rw [accepted_frame h.fits ?_ (by decide), requestFits_iff h]
  refine lt_of_le_of_lt (Nat.add_le_add_left h.size_le _) ?_
  split <;> decide

lemma accepted_chunksFrom {payload frame : Bytes}
    (mem : frame ∈ chunksFrom header payload fuel offset isFirstChunk) :
    Accepted clientLimit frame := by
  induction fuel generalizing offset isFirstChunk with
  | zero => cases mem
  | succ fuel ih =>
    unfold chunksFrom at mem
    split at mem
    · rcases mem_cons.mp mem with rfl | later
      · have part : (if payload.length - offset < chunkSize then payload.length - offset
            else chunkSize) ≤ chunkSize := by split <;> omega
        have size := Nat.add_le_add_left part headerSize
        exact (accepted_packet _ _ _ _ (size.trans_lt (by decide))).mpr (size.trans (by decide))
      · exact ih later
    · cases mem

lemma accepted_sendResponseChunked {op flags seq : BitVec 32} {payload : Bytes}
    (tagged : seq ≠ 0) : ∀ sent ∈ sendResponseChunked
      (packet op (BitVec.ofNat 32 (headerSize + payload.length)) flags seq payload),
      Accepted clientLimit sent := by
  intro sent mem
  unfold sendResponseChunked at mem
  split at mem
  · next short =>
    rw [mem_singleton.mp mem]
    have size : headerSize + payload.length ≤ chunkSize + headerSize := by
      rwa [length_packet] at short
    exact (accepted_packet _ _ _ _ (size.trans_lt (by decide))).mpr (size.trans (by decide))
  · rw [deserialize_packet] at mem
    simp only [if_neg tagged] at mem
    exact accepted_chunksFrom mem

lemma sendResponseChunked_notification (op size flags : BitVec 32) (payload : Bytes) :
    sendResponseChunked (packet op size flags 0 payload) = [packet op size flags 0 payload] := by
  unfold sendResponseChunked
  rw [deserialize_packet]
  simp

lemma accepted_sent {encodeAll : Bytes → Bytes} (h : t.Response m) (low : Bool)
    (op seq flags : BitVec 32) :
    (∀ sent ∈ sendResponse low (withHeader encodeAll op seq flags (t.body m)),
      Accepted clientLimit sent) ↔ FrameFits encodeAll clientLimit t m ∨ low = true ∧ seq ≠ 0 := by
  have whole : (∀ sent ∈ [withHeader encodeAll op seq flags (t.body m)],
      Accepted clientLimit sent) ↔ FrameFits encodeAll clientLimit t m :=
    forall_mem_singleton.trans (accepted_frame h.fits h.small (by decide) op seq flags)
  cases low with
  | false => simpa [sendResponse] using whole
  | true =>
    by_cases tagged : seq = 0
    · subst tagged
      have unsplit : sendResponse true (withHeader encodeAll op 0 flags (t.body m)) =
          [withHeader encodeAll op 0 flags (t.body m)] :=
        sendResponseChunked_notification ..
      rw [unsplit, whole]
      simp
    · exact iff_of_true (accepted_sendResponseChunked tagged) (Or.inr ⟨rfl, tagged⟩)

lemma responseFits_iff {encodeAll : Bytes → Bytes} (h : t.Response m) (low : Bool)
    (seq : BitVec 32) : (FrameFits encodeAll clientLimit t m ∨ low = true ∧ seq ≠ 0) ↔
      ResponseFits encodeAll low seq t m := by
  cases t with
  | readDirResponse => exact or_assoc
  | _ =>
    refine iff_of_true (Or.inl (Or.inl ?_)) trivial
    exact (Nat.add_le_add_left h.size_le _).trans (by decide)

lemma accepted_error (low : Bool) (seq errno : BitVec 32) :
    ∀ sent ∈ sendResponse low (makeErrorResponse seq errno), Accepted clientLimit sent := by
  have unsplit : sendResponse low (makeErrorResponse seq errno) =
      [makeErrorResponse seq errno] := by
    have short : (makeErrorResponse seq errno).length ≤ chunkSize + headerSize := by
      rw [makeErrorResponse, length_packet]
      decide
    simp [sendResponse, sendResponseChunked, short]
  rw [unsplit, forall_mem_singleton]
  have alone : headerSize + 0 < 2 ^ 32 := by decide
  exact (accepted_packet errno 0 seq [] alone).mpr (by decide)

/-- The server takes the frame of a request exactly if the data of a write fits into it, and
the client takes what is sent for a response exactly if the list of a directory does. -/
theorem frames_accepted_iff (encodeAll : Bytes → Bytes) :
    (∀ (t : MessageType) (m : t.Value), t.Request m → ∀ op seq flags,
      ∃ frame, serializeWithHeader encodeAll op seq flags t m = .ok frame ∧
        (Accepted serverLimit frame ↔ RequestFits encodeAll t m)) ∧
    (∀ (t : MessageType) (m : t.Value), t.Response m → ∀ low op seq flags,
      ∃ frame, serializeWithHeader encodeAll op seq flags t m = .ok frame ∧
        ((∀ sent ∈ sendResponse low frame, Accepted clientLimit sent) ↔
          ResponseFits encodeAll low seq t m)) ∧
    ∀ low seq errno, ∀ sent ∈ sendResponse low (makeErrorResponse seq errno),
      Accepted clientLimit sent := by
  refine ⟨fun t m request op seq flags => ?_, fun t m response low op seq flags => ?_,
    accepted_error⟩
  · exact ⟨_, (request.fits.serialized encodeAll op seq flags).2,
      accepted_request request op seq flags⟩
  · exact ⟨_, (response.fits.serialized encodeAll op seq flags).2,
      (accepted_sent response low op seq flags).trans (responseFits_iff response low seq)⟩

theorem frames_accepted_iff_write :
    ∃ frame, serializeWithHeader id 0 1 0 .writeFdRequest ⟨1, 0, [7]⟩ = .ok frame ∧
      Accepted serverLimit frame := by
  obtain ⟨frame, written, accepted⟩ :=
    (frames_accepted_iff id).1 .writeFdRequest ⟨1, 0, [7]⟩ (Nat.le_of_ble_eq_true rfl) 0 1 0
  exact ⟨frame, written, accepted.mpr (Or.inl (Nat.le_of_ble_eq_true rfl))⟩

lemma body_injective (fits : t.Fits m) (fits' : t.Fits m') (same : t.body m = t.body m') :
    t.received m = t.received m' := by
  obtain ⟨bs, -, writes, reads⟩ := t.roundTrip m fits
  obtain ⟨bs', -, writes', reads'⟩ := t.roundTrip m' fits'
  have equal : bs = bs' := by simpa [MessageType.body, writes, writes'] using same
  have read := reads []
  rw [equal, reads'] at read
  injection read with pair
  exact (congrArg Prod.fst pair).symm

/-- Whatever the encoder, some write of the largest size is refused by the server. -/
theorem write_refused : ¬ ∃ encodeAll : Bytes → Bytes, Function.Injective encodeAll ∧
      ∀ r : WriteFdRequest, MessageType.writeFdRequest.Request r →
        ∀ frame, serializeWithHeader encodeAll 0 1 0 .writeFdRequest r = .ok frame →
          Accepted serverLimit frame := by
  rintro ⟨encodeAll, injective, accepted⟩
  let request (data : Bytes) : WriteFdRequest := ⟨1, 0, data⟩
  have written {data : Bytes} (full : data.length = maxWrite) :
      MessageType.writeFdRequest.Request (request data) := full.le
  let encoded (data : Bytes) := encodeAll (MessageType.writeFdRequest.body (request data))
  have distinct : Set.InjOn encoded {data | data.length = maxWrite} := by
    intro data full data' full' same
    have bodies := injective same
    have requests := body_injective (written full).fits (written full').fits bodies
    exact congrArg WriteFdRequest.data requests
  have : Nontrivial UInt8 := ⟨0, 1, by decide⟩
  obtain ⟨data, full, long⟩ := exists_le_length_of_injOn distinct
  have frame := ((written full).fits.serialized encodeAll 0 1 0).2
  have fits := (accepted_request (written full) 0 1 0).mp (accepted _ (written full) _ frame)
  have most : data.length + 31 ≤ serverLimit ∨
      headerSize + (encoded data).length ≤ serverLimit := fits
  simp only [maxWrite, serverLimit, headerSize] at full long most
  omega

end Velda.FileServer.Wire
