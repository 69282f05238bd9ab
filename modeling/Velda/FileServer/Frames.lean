import Velda.FileServer.RoundTrip

/-! Frames of the file protocol: a header with the size of the whole, and a payload that may
be compressed. `encodeAll` is the zstd encoder, about which nothing is assumed. A frame is
refused by its size alone: the server takes one mebibyte and the client ten, which is less
than what a write of the largest size or the list of a large directory needs. -/
namespace Velda.FileServer.Wire
open Lib

def flagQosLow : BitVec 32 := 1
def flagCompressed : BitVec 32 := 2
def flagHasMore : BitVec 32 := 4
def flagEndOfMultiPacket : BitVec 32 := 8

def compressionThreshold : Nat := 32 * 1024
def chunkSize : Nat := 32 * 1024

def packet (op size flags seq : BitVec 32) (payload : Bytes) : Bytes :=
  putLE 4 op.toNat ++ putLE 4 size.toNat ++ putLE 4 flags.toNat ++ putLE 4 seq.toNat ++ payload

section Encoder
variable (encodeAll : Bytes → Bytes)

/-- The payload is compressed if it is large and gets smaller by it. -/
def Compresses (payload : Bytes) : Prop :=
  compressionThreshold < payload.length ∧ (encodeAll payload).length < payload.length

instance (payload : Bytes) : Decidable (Compresses encodeAll payload) :=
  inferInstanceAs (Decidable (_ ∧ _))

def compressed (payload : Bytes) : Bytes :=
  if Compresses encodeAll payload then encodeAll payload else payload

def withHeader (op seq flags : BitVec 32) (body : Bytes) : Bytes :=
  let payload := compressed encodeAll body
  packet op (BitVec.ofNat 32 (headerSize + payload.length))
    (if Compresses encodeAll body then flags ||| flagCompressed else flags) seq payload

def serializeWithHeader (op seq flags : BitVec 32) (t : MessageType) (m : t.Value) :
    Except String Bytes :=
  match t.serialize m [] with
  | .error e => .error ("Failed to serialize response body: " ++ e)
  | .ok body => .ok (withHeader encodeAll op seq flags body.2)

end Encoder

def makeErrorResponse (seq errno : BitVec 32) : Bytes :=
  packet errno (BitVec.ofNat 32 headerSize) 0 seq []

/-- The check of the size in the header, by `handleConnection` and `readResponses`. -/
def sizeValid (limit : Nat) (h : Header) : Bool :=
  !(decide (h.size.toNat < headerSize) || decide (limit < h.size.toNat))

def serverLimit : Nat := 1024 * 1024
def clientLimit : Nat := 10 * 1024 * 1024

def Accepted (limit : Nat) (frame : Bytes) : Prop :=
  ∃ h rest, Header.deserialize frame = .ok (h, rest) ∧ sizeValid limit h = true

/-- The loop of `sendResponseChunked` from `offset` on, for at most `fuel` chunks. -/
def chunksFrom (header : Header) (payload : Bytes) : Nat → Nat → Bool → List Bytes
  | 0, _, _ => []
  | fuel + 1, offset, isFirstChunk =>
    if offset < payload.length then
      let remaining := payload.length - offset
      let chunkPayloadSize := if remaining < chunkSize then remaining else chunkSize
      let isLastChunk := decide (payload.length ≤ offset + chunkPayloadSize)
      let flags :=
        if !isFirstChunk || !isLastChunk then
          if !isLastChunk then header.flags ||| flagHasMore
          else header.flags ||| flagEndOfMultiPacket
        else header.flags
      packet header.opcode (BitVec.ofNat 32 (headerSize + chunkPayloadSize)) flags header.seq
        ((payload.drop offset).take chunkPayloadSize) ::
          chunksFrom header payload fuel (offset + chunkPayloadSize) false
    else []

def sendResponseChunked (data : Bytes) : List Bytes :=
  if data.length ≤ chunkSize + headerSize then [data]
  else
    match Header.deserialize data with
    | .error _ => [data]
    | .ok (header, payload) =>
      if header.seq = 0 then [data] else chunksFrom header payload payload.length 0 true

def sendResponse (low : Bool) (data : Bytes) : List Bytes :=
  if low then sendResponseChunked data else [data]

end Velda.FileServer.Wire
