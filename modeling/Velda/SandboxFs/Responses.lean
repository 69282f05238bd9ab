import Velda.FileServer.FrameSizes

/-! The reader of responses of the client, and the responses that the server splits into
chunks. What arrives for a request is what was sent, unless a response too long for the
reader was sent between two chunks. -/
variable {conn data rest : Bytes} {n : Nat} {frame : Header × Bytes} {sent : List Bytes}
  {answers : List Answer}

namespace Velda.SandboxFs
open Lib FileServer.Wire List Option

def opDirDataNotification : BitVec 32 := 0x101
def connectionReset : BitVec 32 := 104

structure Response where
  errno : BitVec 32
  data : Bytes
deriving DecidableEq

abbrev Completion := BitVec 32 × Response

/-- The requests that wait for a response, and the chunks that have come so far. -/
structure Reader where
  pending : List (BitVec 32)
  nodup : pending.Nodup
  partialPackets : BitVec 32 → Option (List Bytes)

namespace Reader

def accumulate (r : Reader) (seq : BitVec 32) (data : Bytes) : Reader :=
  { r with
    partialPackets :=
      Function.update r.partialPackets seq (some ((r.partialPackets seq).getD [] ++ [data])) }

def assembled (r : Reader) (seq : BitVec 32) (data : Bytes) : Bytes :=
  match r.partialPackets seq with
  | some chunks => (chunks ++ [data]).flatten
  | none => data

def forget (r : Reader) (seq : BitVec 32) : Reader :=
  { r with partialPackets := Function.update r.partialPackets seq none }

def remove (r : Reader) (seq : BitVec 32) : Reader :=
  { r with pending := r.pending.filter (· ≠ seq), nodup := r.nodup.filter _ }

def complete (r : Reader) (header : Header) (data : Bytes) : List Completion :=
  if header.seq ∈ r.pending then [(header.seq, ⟨header.opcode, data⟩)] else []

def sweep (r : Reader) : List Completion :=
  r.pending.map fun seq => (seq, ⟨connectionReset, []⟩)

end Reader

/-- The next message and the bytes behind it, unless the connection ends or the size is not
valid. -/
def readFrame (limit : Nat) (conn : Bytes) : Except String ((Header × Bytes) × Bytes) := do
  let buf ← readFull headerSize conn
  let parsed ← Header.deserialize buf.1.1
  if sizeValid limit parsed.1 then
    let data ← readFull (parsed.1.size.toNat - headerSize) buf.2
    return ((parsed.1, data.1.1), data.2)
  else throw "Invalid message size"

lemma readFull_ok {data : { bs : Bytes // bs.length = n } × Bytes}
    (read : readFull n conn = .ok data) : data.2.length + n = conn.length := by
  unfold readFull at read
  split at read
  · cases read
    simp only [length_drop]
    omega
  · cases read

lemma readFrame_shorter (read : readFrame limit conn = .ok (frame, rest)) :
    rest.length < conn.length := by
  unfold readFrame at read
  cases first : readFull headerSize conn with
  | error e => simp [first, bind, Except.bind] at read
  | ok buf =>
    cases parse : Header.deserialize buf.1.1 with
    | error e => simp [first, parse, bind, Except.bind] at read
    | ok parsed =>
      simp only [first, parse, bind, Except.bind] at read
      split at read
      · cases second : readFull (parsed.1.size.toNat - headerSize) buf.2 with
        | error e => simp [second] at read
        | ok data =>
          simp only [second, pure, Except.pure, Except.ok.injEq, Prod.mk.injEq] at read
          have taken := readFull_ok first
          have left := readFull_ok second
          rw [← read.2]
          unfold headerSize at taken
          omega
      · cases read

section Decoder
variable (decodeAll : Bytes → Option Bytes)

def decompressed (header : Header) (data : Bytes) : Option Bytes :=
  if header.flags &&& flagCompressed ≠ 0 then decodeAll data else some data

/-- A whole message: a notification goes to a goroutine, a response to its request. -/
def dispatch (header : Header) (data : Bytes) (r : Reader) : List Completion × Reader :=
  if header.seq = 0 ∧ header.opcode = opDirDataNotification then ([], r)
  else (r.complete header data, r.remove header.seq)

/-- One turn of the loop of `readResponses`, which exits if the data cannot be decompressed. -/
def receive (header : Header) (data : Bytes) (r : Reader) : Option (List Completion × Reader) :=
  if header.flags &&& flagHasMore ≠ 0 then some ([], r.accumulate header.seq data)
  else if header.flags &&& flagEndOfMultiPacket ≠ 0 then
    (decompressed decodeAll header (r.assembled header.seq data)).map fun whole =>
      dispatch header whole (r.forget header.seq)
  else (decompressed decodeAll header data).map fun whole => dispatch header whole r

def readResponses (conn : Bytes) (r : Reader) : List Completion :=
  match _read : readFrame clientLimit conn with
  | .error _ => r.sweep
  | .ok (frame, rest) =>
    match receive decodeAll frame.1 frame.2 r with
    | none => r.sweep
    | some next => next.1 ++ readResponses rest next.2
termination_by conn.length
decreasing_by exact readFrame_shorter ‹_›

def delivered (seq : BitVec 32) (completions : List Completion) : List Response :=
  (completions.filter (·.1 = seq)).map (·.2)

variable {decodeAll} {seq : BitVec 32} {r : Reader}

lemma delivered_append (seq : BitVec 32) (l l' : List Completion) :
    delivered seq (l ++ l') = delivered seq l ++ delivered seq l' := by
  simp [delivered]

lemma readResponses_of_frame {next : List Completion × Reader}
    (read : readFrame clientLimit conn = .ok (frame, rest))
    (received : receive decodeAll frame.1 frame.2 r = some next) :
    readResponses decodeAll conn r = next.1 ++ readResponses decodeAll rest next.2 := by
  rw [readResponses]
  split
  · next failed => cases failed.symm.trans read
  · next frame' rest' read' =>
    cases read'.symm.trans read
    rw [received]

lemma readResponses_of_error (read : readFrame clientLimit conn = .error e) :
    readResponses decodeAll conn r = r.sweep := by
  rw [readResponses]
  split
  · rfl
  · next frame rest read' => cases read'.symm.trans read

lemma readResponses_of_failed (read : readFrame clientLimit conn = .ok (frame, rest))
    (failed : receive decodeAll frame.1 frame.2 r = none) :
    readResponses decodeAll conn r = r.sweep := by
  rw [readResponses]
  split
  · rfl
  · next frame' rest' read' =>
    cases read'.symm.trans read
    rw [failed]

lemma delivered_sweep (waits : seq ∈ r.pending) :
    delivered seq r.sweep = [⟨connectionReset, []⟩] := by
  have once : r.pending.filter (· = seq) = [seq] := by
    have count := List.count_eq_one_of_mem r.nodup waits
    rw [List.filter_eq, count, List.replicate_one]
  simp only [delivered, Reader.sweep, List.filter_map, List.map_map]
  change (r.pending.filter (· = seq)).map _ = _
  rw [once]
  rfl

lemma delivered_sweep_of_notMem (gone : seq ∉ r.pending) : delivered seq r.sweep = [] := by
  simp only [delivered, map_eq_nil_iff, filter_eq_nil_iff]
  intro c mem
  obtain ⟨seq', waits, rfl⟩ := mem_map.mp mem
  simpa using fun same : seq' = seq => gone (same ▸ waits)

lemma delivered_complete_of_notMem (gone : seq ∉ r.pending) :
    delivered seq (r.complete header data) = [] := by
  unfold Reader.complete
  split
  · next waits =>
    have other : header.seq ≠ seq := fun same => gone (same ▸ waits)
    simp [delivered, other]
  · rfl

lemma receive_of_notMem {next : List Completion × Reader}
    (received : receive decodeAll header data r = some next) (gone : seq ∉ r.pending) :
    delivered seq next.1 = [] ∧ seq ∉ next.2.pending := by
  have dispatched (whole : Bytes) {r' : Reader} (same : r'.pending = r.pending) :
      delivered seq (dispatch header whole r').1 = [] ∧
        seq ∉ (dispatch header whole r').2.pending := by
    have gone' : seq ∉ r'.pending := same ▸ gone
    unfold dispatch
    split
    · exact ⟨rfl, gone'⟩
    · exact ⟨delivered_complete_of_notMem gone', fun mem => gone' (mem_of_mem_filter mem)⟩
  unfold receive at received
  split at received
  · cases received
    exact ⟨rfl, gone⟩
  · split at received
    · obtain ⟨whole, -, rfl⟩ := map_eq_some_iff.mp received
      exact dispatched whole rfl
    · obtain ⟨whole, -, rfl⟩ := map_eq_some_iff.mp received
      exact dispatched whole rfl

lemma delivered_of_notMem (conn : Bytes) (gone : seq ∉ r.pending) :
    delivered seq (readResponses decodeAll conn r) = [] := by
  induction conn, r using readResponses.induct decodeAll with
  | case1 conn r e read =>
    rw [readResponses_of_error read]
    exact delivered_sweep_of_notMem gone
  | case2 conn r frame rest read failed =>
    rw [readResponses_of_failed read failed]
    exact delivered_sweep_of_notMem gone
  | case3 conn r frame rest read next received ih =>
    obtain ⟨quiet, gone'⟩ := receive_of_notMem received gone
    rw [readResponses_of_frame read received, delivered_append, quiet, ih gone', nil_append]

end Decoder

lemma readFull_append (length : bs.length = n) (rest : Bytes) :
    readFull n (bs ++ rest) = .ok (⟨bs, length⟩, rest) := by
  subst length
  simp [readFull]

lemma readFrame_packet (limit : Nat) (op flags seq : BitVec 32) (payload rest : Bytes)
    (small : headerSize + payload.length < 2 ^ 32) :
    let size := BitVec.ofNat 32 (headerSize + payload.length)
    readFrame limit (packet op size flags seq payload ++ rest) =
      if headerSize + payload.length ≤ limit then .ok ((⟨op, size, flags, seq⟩, payload), rest)
      else .error "Invalid message size" := by
  intro size
  have whole : size.toNat = headerSize + payload.length := by
    rw [BitVec.toNat_ofNat, Nat.mod_eq_of_lt small]
  have split : packet op size flags seq payload ++ rest =
      packet op size flags seq [] ++ (payload ++ rest) := by
    simp only [packet, append_nil, append_assoc]
  have first : readFull headerSize (packet op size flags seq [] ++ (payload ++ rest)) =
      .ok (⟨packet op size flags seq [], _⟩, payload ++ rest) :=
    readFull_append (length_packet op size flags seq []) (payload ++ rest)
  have second : readFull (size.toNat - headerSize) (payload ++ rest) = .ok (⟨payload, _⟩, rest) :=
    readFull_append (by omega) rest
  have valid : sizeValid limit ⟨op, size, flags, seq⟩ =
      decide (headerSize + payload.length ≤ limit) := by
    rw [Bool.eq_iff_iff]
    simp [sizeValid, whole]
  rw [split, readFrame]
  simp only [bind, Except.bind, first, deserialize_packet, valid, second]
  by_cases within : headerSize + payload.length ≤ limit
  · simp [within, pure, Except.pure]
  · simp [within, throw, throwThe, MonadExceptOf.throw]

section Chunks
variable {encodeAll : Bytes → Bytes} {decodeAll : Bytes → Option Bytes}

inductive Answer
  | message (seq : BitVec 32) (t : MessageType) (m : t.Value)
  | error (seq errno : BitVec 32)

namespace Answer

def seq : Answer → BitVec 32
  | message seq _ _ => seq
  | error seq _ => seq

def Sent (encodeAll : Bytes → Bytes) : Answer → Bytes → Prop
  | message seq t m, frame =>
    t.Response m ∧ serializeWithHeader encodeAll 0 seq 0 t m = .ok frame
  | error seq errno, frame => frame = makeErrorResponse seq errno

/-- The entries of a directory, as they are or compressed, are within the limit of the client. -/
def Fits (encodeAll : Bytes → Bytes) : Answer → Prop
  | message seq t m => ResponseFits encodeAll false seq t m
  | error _ _ => True

end Answer

/-- The writes of `sendResponseChunked`: after each chunk but the last a response of high
priority may be sent. -/
inductive SentChunked (encodeAll : Bytes → Bytes) (seq : BitVec 32) :
    List Bytes → List Answer → List Bytes → Prop
  | last (c : Bytes) : SentChunked encodeAll seq [c] [] [c]
  | next (c : Bytes) {d : Bytes} {cs sent : List Bytes} {answers : List Answer} :
    SentChunked encodeAll seq (d :: cs) answers sent →
      SentChunked encodeAll seq (c :: d :: cs) answers (c :: sent)
  | yield (c : Bytes) {d frame : Bytes} {cs sent : List Bytes} {answers : List Answer}
    (answer : Answer) : answer.seq ≠ seq → answer.Sent encodeAll frame →
    SentChunked encodeAll seq (d :: cs) answers sent →
      SentChunked encodeAll seq (c :: d :: cs) (answer :: answers) (c :: frame :: sent)

lemma SentChunked.cons {encodeAll : Bytes → Bytes} {seq : BitVec 32}
    (h : SentChunked encodeAll seq (c :: chunks) answers sent) :
    (chunks = [] ∧ answers = [] ∧ sent = [c]) ∨
    (∃ sent', sent = c :: sent' ∧ SentChunked encodeAll seq chunks answers sent') ∨
    ∃ answer frame answers' sent', answers = answer :: answers' ∧ sent = c :: frame :: sent' ∧
      answer.seq ≠ seq ∧ answer.Sent encodeAll frame ∧
      SentChunked encodeAll seq chunks answers' sent' := by
  cases h with
  | last => exact .inl ⟨rfl, rfl, rfl⟩
  | next _ h => exact .inr (.inl ⟨_, rfl, h⟩)
  | yield _ answer other made h => exact .inr (.inr ⟨_, _, _, _, rfl, rfl, other, made, h⟩)

def Reader.gathered (r : Reader) (seq : BitVec 32) : Bytes :=
  ((r.partialPackets seq).getD []).flatten

variable {r : Reader} {seq : BitVec 32}

lemma gathered_accumulate (data : Bytes) :
    (r.accumulate seq data).gathered seq = r.gathered seq ++ data := by
  simp [Reader.gathered, Reader.accumulate]

lemma assembled_eq (data : Bytes) : r.assembled seq data = r.gathered seq ++ data := by
  unfold Reader.assembled Reader.gathered
  cases r.partialPackets seq <;> simp

def flagsOf (encodeAll : Bytes → Bytes) (body : Bytes) : BitVec 32 :=
  if Compresses encodeAll body then 0 ||| flagCompressed else 0

lemma withHeader_eq (op seq : BitVec 32) (body : Bytes) : withHeader encodeAll op seq 0 body =
      packet op (BitVec.ofNat 32 (headerSize + (compressed encodeAll body).length))
        (flagsOf encodeAll body) seq (compressed encodeAll body) := rfl

section Frames
variable (inverts : ∀ body, decodeAll (encodeAll body) = some body)
include inverts

lemma decompressed_compressed (header : Header) {body : Bytes}
    (flags : header.flags &&& flagCompressed = flagsOf encodeAll body) :
    decompressed decodeAll header (compressed encodeAll body) = some body := by
  unfold decompressed compressed
  rw [flags, flagsOf]
  by_cases smaller : Compresses encodeAll body
  · rw [if_pos smaller, if_pos smaller, if_pos (by decide)]
    exact inverts body
  · rw [if_neg smaller, if_neg smaller, if_neg (by decide)]

lemma receive_whole (op size : BitVec 32) (body : Bytes) :
    receive decodeAll ⟨op, size, flagsOf encodeAll body, seq⟩ (compressed encodeAll body) r =
      some (dispatch ⟨op, size, flagsOf encodeAll body, seq⟩ body r) := by
  have more : flagsOf encodeAll body &&& flagHasMore = 0 := by
    unfold flagsOf
    split <;> decide
  have final : flagsOf encodeAll body &&& flagEndOfMultiPacket = 0 := by
    unfold flagsOf
    split <;> decide
  have same : flagsOf encodeAll body &&& flagCompressed = flagsOf encodeAll body := by
    unfold flagsOf
    split <;> decide
  simp only [receive, more, final, ne_eq, not_true_eq_false, if_false,
    decompressed_compressed inverts ⟨op, size, flagsOf encodeAll body, seq⟩ same,
    map_some]

lemma receive_final (op size : BitVec 32) {body : Bytes}
    (whole : r.gathered seq ++ data = compressed encodeAll body) :
    receive decodeAll ⟨op, size, flagsOf encodeAll body ||| flagEndOfMultiPacket, seq⟩ data r =
      some (dispatch ⟨op, size, flagsOf encodeAll body ||| flagEndOfMultiPacket, seq⟩ body
        (r.forget seq)) := by
  have more : (flagsOf encodeAll body ||| flagEndOfMultiPacket) &&& flagHasMore = 0 := by
    unfold flagsOf
    split <;> decide
  have final : (flagsOf encodeAll body ||| flagEndOfMultiPacket) &&& flagEndOfMultiPacket ≠ 0 := by
    unfold flagsOf
    split <;> decide
  have same : (flagsOf encodeAll body ||| flagEndOfMultiPacket) &&& flagCompressed =
      flagsOf encodeAll body := by
    unfold flagsOf
    split <;> decide
  have decoded := decompressed_compressed inverts
    ⟨op, size, flagsOf encodeAll body ||| flagEndOfMultiPacket, seq⟩ same
  simp only [receive, more, final, ne_eq, not_true_eq_false, not_false_eq_true, if_false, if_true,
    assembled_eq, whole, decoded, map_some]

end Frames

lemma receive_more (op size : BitVec 32) (body data : Bytes) :
    receive decodeAll ⟨op, size, flagsOf encodeAll body ||| flagHasMore, seq⟩ data r =
      some ([], r.accumulate seq data) := by
  have more : (flagsOf encodeAll body ||| flagHasMore) &&& flagHasMore ≠ 0 := by
    unfold flagsOf
    split <;> decide
  exact if_pos more

lemma delivered_dispatch {body : Bytes} (tag : header.seq = seq) (waits : seq ∈ r.pending)
    (tagged : seq ≠ 0) (rest : Bytes) :
    delivered seq ((dispatch header body r).1 ++
      readResponses decodeAll rest (dispatch header body r).2) = [⟨header.opcode, body⟩] := by
  subst tag
  have response : dispatch header body r = (r.complete header body, r.remove header.seq) :=
    if_neg fun both => tagged both.1
  have gone : header.seq ∉ (r.remove header.seq).pending := by
    simp [Reader.remove]
  rw [response, delivered_append, delivered_of_notMem rest gone, Reader.complete, if_pos waits]
  simp [delivered]

lemma dispatch_other (body : Bytes) (other : header.seq ≠ seq) :
    delivered seq (dispatch header body r).1 = [] ∧
      (seq ∈ (dispatch header body r).2.pending ↔ seq ∈ r.pending) ∧
      (dispatch header body r).2.gathered seq = r.gathered seq := by
  unfold dispatch
  split
  · exact ⟨rfl, Iff.rfl, rfl⟩
  · refine ⟨?_, ?_, rfl⟩
    · unfold Reader.complete
      split <;> simp [delivered, other]
    · simp [Reader.remove, other.symm]

lemma readResponses_withHeader (inverts : ∀ body, decodeAll (encodeAll body) = some body)
    (op seq : BitVec 32) {body : Bytes} (rest : Bytes)
    (small : headerSize + (compressed encodeAll body).length < 2 ^ 32) :
    ∃ header : Header, header.opcode = op ∧ header.seq = seq ∧
      readResponses decodeAll (withHeader encodeAll op seq 0 body ++ rest) r =
        if headerSize + (compressed encodeAll body).length ≤ clientLimit then
          (dispatch header body r).1 ++ readResponses decodeAll rest (dispatch header body r).2
        else r.sweep := by
  have read := readFrame_packet clientLimit op (flagsOf encodeAll body) seq
    (compressed encodeAll body) rest small
  let size := BitVec.ofNat 32 (headerSize + (compressed encodeAll body).length)
  refine ⟨⟨op, size, flagsOf encodeAll body, seq⟩, rfl, rfl, ?_⟩
  split
  · next within =>
    exact readResponses_of_frame (read.trans (if_pos within)) (receive_whole inverts op _ body)
  · next long =>
    exact readResponses_of_error (read.trans (if_neg long))

lemma makeErrorResponse_eq (encodeAll : Bytes → Bytes) (seq errno : BitVec 32) :
    makeErrorResponse seq errno = withHeader encodeAll errno seq 0 [] := by
  rfl

lemma Answer.Sent.framed {answer : Answer} {frame : Bytes} (sent : answer.Sent encodeAll frame) :
    ∃ op body, frame = withHeader encodeAll op answer.seq 0 body ∧
      headerSize + (compressed encodeAll body).length < 2 ^ 32 ∧
      (answer.Fits encodeAll ↔ headerSize + (compressed encodeAll body).length ≤ clientLimit) := by
  cases answer with
  | message seq' t m =>
    obtain ⟨response, written⟩ := sent
    obtain ⟨length, framed⟩ := response.fits.serialized encodeAll 0 seq' 0
    have small : headerSize + (t.body m).length < 2 ^ 32 := by
      rw [length]
      exact response.small
    refine ⟨0, t.body m, Except.ok.inj (written.symm.trans framed), ?_, ?_⟩
    · exact lt_of_le_of_lt (Nat.add_le_add_left (length_compressed_le encodeAll _) _) small
    · rw [← accepted_withHeader 0 seq' 0 small]
      refine (Iff.trans ?_ (responseFits_iff response false seq')).symm.trans
        forall_mem_singleton
      exact accepted_sent response false 0 seq' 0
  | error seq' errno =>
    have unchanged : ¬ Compresses encodeAll [] := fun smaller => absurd smaller.1 (by decide)
    refine ⟨errno, [], sent.trans (makeErrorResponse_eq encodeAll seq' errno), ?_⟩
    rw [compressed, if_neg unchanged]
    exact ⟨by decide, iff_of_true trivial (by decide)⟩

lemma readResponses_answer (inverts : ∀ body, decodeAll (encodeAll body) = some body)
    {answer : Answer} {frame : Bytes} (sent : answer.Sent encodeAll frame)
    (other : answer.seq ≠ seq) (rest : Bytes) :
    (answer.Fits encodeAll → ∃ r' : Reader, (seq ∈ r'.pending ↔ seq ∈ r.pending) ∧
      r'.gathered seq = r.gathered seq ∧ delivered seq (readResponses decodeAll (frame ++ rest) r) =
        delivered seq (readResponses decodeAll rest r')) ∧
    (¬ answer.Fits encodeAll → readResponses decodeAll (frame ++ rest) r = r.sweep) := by
  obtain ⟨op, body, rfl, small, fits⟩ := sent.framed
  obtain ⟨header, -, tag, read⟩ :=
    readResponses_withHeader inverts op answer.seq rest small
  rw [fits, read]
  refine ⟨fun within => ?_, fun long => if_neg long⟩
  obtain ⟨quiet, waits, kept⟩ := dispatch_other body (tag.symm ▸ other)
  refine ⟨(dispatch header body r).2, waits, kept, ?_⟩
  rw [if_pos within, delivered_append, quiet, nil_append]

section Loop
variable {header : Header} {payload : Bytes} {fuel offset : Nat}

lemma chunksFrom_more (later : offset + chunkSize < payload.length) (isFirstChunk : Bool) :
    chunksFrom header payload (fuel + 1) offset isFirstChunk =
      packet header.opcode (BitVec.ofNat 32 (headerSize + chunkSize))
        (header.flags ||| flagHasMore) header.seq ((payload.drop offset).take chunkSize) ::
          chunksFrom header payload fuel (offset + chunkSize) false := by
  have left : offset < payload.length := by omega
  have full : ¬ payload.length - offset < chunkSize := by omega
  have more : ¬ payload.length ≤ offset + chunkSize := by omega
  simp only [chunksFrom, if_pos left, if_neg full, decide_eq_false more, Bool.not_false,
    Bool.or_true, if_true]

lemma chunksFrom_last (left : offset < payload.length)
    (final : payload.length ≤ offset + chunkSize) :
    chunksFrom header payload (fuel + 1) offset false =
      [packet header.opcode (BitVec.ofNat 32 (headerSize + (payload.drop offset).length))
        (header.flags ||| flagEndOfMultiPacket) header.seq (payload.drop offset)] := by
  have size : (if payload.length - offset < chunkSize then payload.length - offset
      else chunkSize) = payload.length - offset := by split <;> omega
  have done : chunksFrom header payload fuel payload.length false = [] := by
    cases fuel <;> simp [chunksFrom]
  have all : offset + (payload.length - offset) = payload.length := by omega
  simp only [chunksFrom, if_pos left, size, all, le_refl, decide_true, Bool.not_true, done,
    Bool.not_false, Bool.true_or, if_true, Bool.false_eq_true, if_false]
  rw [← length_drop, take_length]

lemma chunksFrom_ne_nil (header : Header) (left : offset < payload.length)
    (fuelled : payload.length ≤ offset + fuel) (isFirstChunk : Bool) :
    chunksFrom header payload fuel offset isFirstChunk ≠ [] := by
  cases fuel with
  | zero => omega
  | succ fuel => simp [chunksFrom, left]

end Loop

lemma readResponses_more (op : BitVec 32) (body : Bytes) (small : data.length = chunkSize)
    (rest : Bytes) : readResponses decodeAll (packet op (BitVec.ofNat 32 (headerSize + chunkSize))
      (flagsOf encodeAll body ||| flagHasMore) seq data ++ rest) r =
      readResponses decodeAll rest (r.accumulate seq data) := by
  have within : headerSize + data.length ≤ clientLimit := by rw [small]; decide
  have read := readFrame_packet clientLimit op (flagsOf encodeAll body ||| flagHasMore) seq data
    rest (lt_of_le_of_lt within (by decide))
  rw [← small, readResponses_of_frame (read.trans (if_pos within)) (receive_more op _ body data)]
  rfl

lemma delivered_final (inverts : ∀ body, decodeAll (encodeAll body) = some body) (op : BitVec 32)
    {body : Bytes} (tagged : seq ≠ 0) (waits : seq ∈ r.pending) (small : data.length ≤ chunkSize)
    (whole : r.gathered seq ++ data = compressed encodeAll body) (rest : Bytes) :
    delivered seq (readResponses decodeAll (packet op (BitVec.ofNat 32 (headerSize + data.length))
      (flagsOf encodeAll body ||| flagEndOfMultiPacket) seq data ++ rest) r) = [⟨op, body⟩] := by
  have within : headerSize + data.length ≤ clientLimit :=
    (Nat.add_le_add_left small _).trans (by decide)
  have read := readFrame_packet clientLimit op (flagsOf encodeAll body ||| flagEndOfMultiPacket)
    seq data rest (lt_of_le_of_lt within (by decide))
  rw [readResponses_of_frame (read.trans (if_pos within)) (receive_final inverts op _ whole)]
  exact delivered_dispatch (r := r.forget seq) (by rfl) waits tagged rest

lemma delivered_chunks (inverts : ∀ body, decodeAll (encodeAll body) = some body)
    (op size : BitVec 32) {body : Bytes} (rest : Bytes) (tagged : seq ≠ 0) (h : SentChunked
      encodeAll seq (chunksFrom ⟨op, size, flagsOf encodeAll body, seq⟩ (compressed encodeAll body)
      fuel offset isFirstChunk) answers sent) (left : offset < (compressed encodeAll body).length)
    (fuelled : (compressed encodeAll body).length ≤ offset + fuel)
    (split : isFirstChunk = true → offset + chunkSize < (compressed encodeAll body).length)
    (waits : seq ∈ r.pending)
    (gathered : r.gathered seq = (compressed encodeAll body).take offset) :
    ((∀ a ∈ answers, a.Fits encodeAll) →
      delivered seq (readResponses decodeAll (sent.flatten ++ rest) r) = [⟨op, body⟩]) ∧
    ((¬ ∀ a ∈ answers, a.Fits encodeAll) →
      delivered seq (readResponses decodeAll (sent.flatten ++ rest) r) =
        [⟨connectionReset, []⟩]) := by
  -- The chunks before the offset are gathered; the fuel suffices for those that are left.
  induction fuel generalizing offset isFirstChunk answers sent r with
  | zero => omega
  | succ fuel ih =>
    set payload := compressed encodeAll body
    by_cases later : offset + chunkSize < payload.length
    · rw [chunksFrom_more later] at h
      have length : ((payload.drop offset).take chunkSize).length = chunkSize := by
        rw [length_take, length_drop]
        omega
      have enough : payload.length ≤ offset + chunkSize + fuel := by
        have positive : 1 ≤ chunkSize := by decide
        omega
      set r' := r.accumulate seq ((payload.drop offset).take chunkSize) with accumulated
      have gathered' : r'.gathered seq = payload.take (offset + chunkSize) := by
        rw [accumulated, gathered_accumulate, gathered, take_add]
      obtain ⟨none, -⟩ | ⟨sent', rfl, next⟩ |
        ⟨answer, frame, answers', sent', rfl, rfl, other, made, next⟩ := h.cons
      · exact absurd none (chunksFrom_ne_nil _ later enough false)
      · rw [flatten_cons, append_assoc, readResponses_more op body length]
        exact ih next later enough nofun waits gathered'
      · rw [flatten_cons, flatten_cons, append_assoc, append_assoc,
          readResponses_more op body length]
        obtain ⟨passed, ended⟩ :=
          readResponses_answer inverts made other (sent'.flatten ++ rest)
        by_cases fits : answer.Fits encodeAll
        · obtain ⟨r'', same, kept, equal⟩ := passed fits
          rw [equal, forall_mem_cons, and_iff_right fits]
          exact ih next later enough nofun (same.mpr waits) (kept.trans gathered')
        · rw [ended fits]
          refine ⟨fun all => absurd (all answer mem_cons_self) fits, fun _ => ?_⟩
          exact delivered_sweep waits
    · have first : isFirstChunk = false := by
        cases isFirstChunk with
        | false => rfl
        | true => exact absurd (split rfl) later
      subst first
      rw [chunksFrom_last left (not_lt.mp later)] at h
      cases h
      refine ⟨fun _ => ?_, fun some => absurd (forall_mem_nil _) some⟩
      rw [flatten_singleton]
      refine delivered_final inverts op tagged waits ?_ ?_ rest
      · rw [length_drop]
        omega
      · rw [gathered, take_append_drop]

lemma delivered_sendResponseChunked (inverts : ∀ body, decodeAll (encodeAll body) = some body)
    (op : BitVec 32) {body : Bytes} (rest : Bytes) (tagged : seq ≠ 0) (waits : seq ∈ r.pending)
    (fresh : r.partialPackets seq = none) (h : SentChunked encodeAll seq
      (sendResponseChunked (withHeader encodeAll op seq 0 body)) answers sent) :
    ((∀ a ∈ answers, a.Fits encodeAll) →
      delivered seq (readResponses decodeAll (sent.flatten ++ rest) r) = [⟨op, body⟩]) ∧
    ((¬ ∀ a ∈ answers, a.Fits encodeAll) →
      delivered seq (readResponses decodeAll (sent.flatten ++ rest) r) =
        [⟨connectionReset, []⟩] ∧ body ≠ []) := by
  unfold sendResponseChunked at h
  rw [withHeader_eq, length_packet, deserialize_packet] at h
  simp only at h
  set payload := compressed encodeAll body
  split at h
  · next short =>
    cases h
    refine ⟨fun _ => ?_, fun some => absurd (forall_mem_nil _) some⟩
    have within : headerSize + payload.length ≤ clientLimit := short.trans (by decide)
    obtain ⟨header, code, tag, read⟩ := readResponses_withHeader inverts op seq rest
      (lt_of_le_of_lt within (by decide))
    rw [flatten_singleton, ← withHeader_eq, read, if_pos within, ← code]
    exact delivered_dispatch tag waits tagged rest
  · have split : 0 + chunkSize < payload.length := by omega
    have positive : 0 < payload.length := by omega
    have nonempty : body ≠ [] :=
      length_pos_iff.mp (positive.trans_le (length_compressed_le encodeAll body))
    have gathered : r.gathered seq = payload.take 0 := by simp [Reader.gathered, fresh]
    have parts := delivered_chunks inverts op _ rest tagged h positive (Nat.le_add_left _ _)
      (fun _ => split) waits gathered
    exact ⟨parts.1, fun some => ⟨parts.2 some, nonempty⟩⟩

/-- A response that is sent in chunks is delivered once, with its opcode and its payload,
exactly if the answers that are sent between its chunks are within the limit of the client. -/
theorem chunked_delivery_iff {encodeAll : Bytes → Bytes} {decodeAll : Bytes → Option Bytes}
    (inverts : ∀ body, decodeAll (encodeAll body) = some body) {r : Reader}
    {op seq : BitVec 32} {body : Bytes} (tagged : seq ≠ 0) (waits : seq ∈ r.pending)
    (fresh : r.partialPackets seq = none) {answers : List Answer} {sent : List Bytes}
    (h : SentChunked encodeAll seq
      (sendResponseChunked (withHeader encodeAll op seq 0 body)) answers sent) (rest : Bytes) :
    delivered seq (readResponses decodeAll (sent.flatten ++ rest) r) = [⟨op, body⟩] ↔
      ∀ a ∈ answers, a.Fits encodeAll := by
  obtain ⟨all, some⟩ := delivered_sendResponseChunked inverts op rest tagged waits fresh h
  refine ⟨fun whole => ?_, all⟩
  by_contra refused
  obtain ⟨reset, nonempty⟩ := some refused
  rw [reset] at whole
  injection whole with same
  injection same with _ empty
  exact nonempty empty.symm

lemma SentChunked.quiet (encodeAll : Bytes → Bytes) (seq : BitVec 32) (d : Bytes)
    (cs : List Bytes) : SentChunked encodeAll seq (d :: cs) [] (d :: cs) := by
  induction cs generalizing d with
  | nil => exact .last d
  | cons c cs ih => exact .next d (ih c)

lemma exists_sentChunked (op seq : BitVec 32) {body frame : Bytes} (answer : Answer)
    (tagged : seq ≠ 0) (long : chunkSize < (compressed encodeAll body).length)
    (other : answer.seq ≠ seq) (made : answer.Sent encodeAll frame) :
    ∃ sent, SentChunked encodeAll seq
      (sendResponseChunked (withHeader encodeAll op seq 0 body)) [answer] sent := by
  unfold sendResponseChunked
  rw [withHeader_eq, length_packet, deserialize_packet]
  simp only [if_neg tagged]
  set payload := compressed encodeAll body
  have split : 0 + chunkSize < payload.length := by omega
  rw [if_neg (by omega)]
  obtain ⟨fuel, length⟩ : ∃ fuel, payload.length = fuel + 1 := ⟨payload.length - 1, by omega⟩
  rw [length, chunksFrom_more split]
  have enough : payload.length ≤ 0 + chunkSize + fuel := by
    have positive : 1 ≤ chunkSize := by decide
    omega
  obtain ⟨d, cs, tail⟩ := exists_cons_of_ne_nil (chunksFrom_ne_nil
    ⟨op, BitVec.ofNat 32 (headerSize + (fuel + 1)), flagsOf encodeAll body, seq⟩ split enough false)
  rw [tail]
  exact ⟨_, .yield _ answer other made (.quiet encodeAll seq d cs)⟩

end Chunks

def waiting : Reader := ⟨[1], nodup_singleton 1, fun _ => none⟩

lemma long_replicate : chunkSize < (compressed id (List.replicate 40000 7)).length := by
  have unchanged : compressed id (List.replicate 40000 7) = List.replicate 40000 7 :=
    if_neg fun smaller => absurd smaller.2 (lt_irrefl _)
  rw [unchanged, length_replicate]
  decide

theorem chunked_delivery_iff_error : ∃ sent, SentChunked id 1
      (sendResponseChunked (withHeader id 0 1 0 (List.replicate 40000 7))) [.error 2 5] sent ∧
      delivered 1 (readResponses some sent.flatten waiting) = [⟨0, List.replicate 40000 7⟩] := by
  obtain ⟨sent, h⟩ :=
    exists_sentChunked 0 1 (.error 2 5) (by decide) long_replicate (by decide) rfl
  refine ⟨sent, h, ?_⟩
  have fits : ∀ a ∈ [Answer.error 2 5], a.Fits id := forall_mem_singleton.mpr trivial
  have whole := (chunked_delivery_iff (fun _ => rfl) (by decide)
    (r := waiting) mem_cons_self rfl h []).mpr fits
  rwa [append_nil] at whole

def largeDirectory (n : Nat) : ReadDirResponse :=
  ⟨List.replicate n ⟨⟨1, List.replicate maxHandleSize 0⟩, List.replicate nameMax 97, noAttr⟩⟩

lemma largeDirectory_response (within : n ≤ maxArrayCount) :
    MessageType.readDirResponse.Response (largeDirectory n) := by
  refine ⟨length_replicate.trans_le within, fun e mem => ?_⟩
  rw [eq_of_mem_replicate mem]
  exact ⟨length_replicate.le, length_replicate.le⟩

lemma largeDirectory_refused (within : n ≤ maxArrayCount)
    (large : clientLimit < n * maxHandleSize) :
    ¬ (Answer.message 2 .readDirResponse (largeDirectory n)).Fits id := by
  have size : n * maxHandleSize ≤ entriesSize (largeDirectory n).entries := by
    simp only [entriesSize, largeDirectory, map_replicate, sum_replicate]
    refine le_trans (Nat.mul_le_mul_left _ ?_) (Nat.le_add_left _ _)
    simp only [DirEntry.size, FileHandle.size, length_replicate]
    omega
  have length := (MessageType.Response.fits (largeDirectory_response within)).serialized id 0 2 0
  rintro (whole | encoded | ⟨low, -⟩)
  · omega
  · rw [id, length.1] at encoded
    simp only [MessageType.size] at encoded
    omega
  · cases low

/-- The list of a large directory between two chunks ends the reader, and the request is
completed with an error. -/
theorem chunked_delivery_lost :
    ∃ sent, SentChunked id 1 (sendResponseChunked (withHeader id 0 1 0 (List.replicate 40000 7)))
        [.message 2 .readDirResponse (largeDirectory maxArrayCount)] sent ∧
      delivered 1 (readResponses some sent.flatten waiting) = [⟨connectionReset, []⟩] := by
  have response := largeDirectory_response (le_refl maxArrayCount)
  have refused := largeDirectory_refused (le_refl maxArrayCount) (by decide)
  have framed := (MessageType.Response.fits response).serialized id 0 2 0
  obtain ⟨sent, h⟩ := exists_sentChunked 0 1
    (.message 2 .readDirResponse (largeDirectory maxArrayCount)) (by decide) long_replicate
    (by decide) ⟨response, framed.2⟩
  refine ⟨sent, h, ?_⟩
  have lost := (delivered_sendResponseChunked (r := waiting) (fun _ => rfl) 0 [] (by decide)
    mem_cons_self rfl h).2 fun fits => refused (fits _ mem_cons_self)
  rw [append_nil] at lost
  exact lost.1

end Velda.SandboxFs
