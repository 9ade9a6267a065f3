import MuduoRpc.Net.ByteQueue

/-!
The frame codec of `Rpc.Codec.cc`. A frame is a length, the tag `RPC0`, a
serialized message and an Adler-32 checksum. The protobuf runtime and zlib are
parameters: `ProtoLib` lists the functions the codec calls.
-/

namespace MuduoRpc.Rpc

def KHeaderLen : Int := 4

def KChecksumLen : Int := 4

def KMaxMessageLen : Int := 64 * 1024 * 1024

def KMinMessageLen : Int := 4

/-- The bytes of `"RPC0"`. -/
def tag_ : List UInt8 := [82, 80, 67, 48]

inductive ErrorCode
  | KNoError
  | KInvalidLength
  | KcheckSumError
  | KInvalidNameLen
  | KUnKnownMessageType
  | KParseEroor
deriving DecidableEq, Repr

/-- The protobuf runtime for one message type, and zlib's checksum. `fresh` is
a newly constructed message; `parseFromArray` returns whether it succeeded and
what it made of the message. -/
structure ProtoLib (Msg : Type*) where
  fresh : Msg
  byteSizeLong : Msg → Nat
  serializeWithCachedSizesToArray : Msg → List UInt8
  parseFromArray : List UInt8 → Int → Bool × Msg
  adler32 : Nat → List UInt8 → Nat

/-- `byteSizeLong` is the serialized length. -/
structure ProtoLib.Sized {Msg : Type*} (lib : ProtoLib Msg) : Prop where
  byteSizeLong_eq : ∀ message,
    lib.byteSizeLong message = (lib.serializeWithCachedSizesToArray message).length

/-- Parsing inverts the serialization of this message, whatever bytes lie behind the
array. -/
def ProtoLib.RoundTrips {Msg : Type*} (lib : ProtoLib Msg) (message : Msg) : Prop :=
  ∀ behind, lib.parseFromArray (lib.serializeWithCachedSizesToArray message ++ behind)
    (lib.serializeWithCachedSizesToArray message).length = (true, message)

/-- `int` addition; an overflow is undefined and has no result. -/
def intAdd (x y : Int) : Option Int :=
  if -2 ^ 31 ≤ x + y ∧ x + y < 2 ^ 31 then some (x + y) else none

/-- `google::protobuf::internal::ToIntSize`, which checks its argument. -/
def toIntSize (size : Nat) : Option Int :=
  if size < 2 ^ 31 then some size else none

/-- The difference of the first bytes that differ, zero if none of `n` do. -/
def memcmp : List UInt8 → List UInt8 → Nat → Int
  | x :: xs, y :: ys, n + 1 =>
      if x = y then memcmp xs ys n else (x.toNat : Int) - y.toNat
  | _, _, _ => 0

variable {Msg : Type*} (lib : ProtoLib Msg)

def asInt32 (buf : List UInt8) : Int :=
  let be32 := Endian.toSigned 32 (Endian.ofMemory (buf.take 4))
  Endian.toSigned 32 (Endian.net_to_host_32 (Endian.toUnsigned 32 be32))

def checksum (buf : List UInt8) (len : Int) : Int :=
  Endian.toSigned 32 (lib.adler32 1 (buf.take len.toNat))

def vailddataChecksum (buf : List UInt8) (len : Int) : Bool :=
  let expectedCheckSum := asInt32 (buf.drop (len - KChecksumLen).toNat)
  let actualCheckSum := checksum lib buf (len - KChecksumLen)
  expectedCheckSum == actualCheckSum

def parseFromBuffer (buf : List UInt8) (len : Int) : Bool × Msg :=
  lib.parseFromArray buf len

/-- The tag comparison is as in the source: a nonzero `memcmp`, which is a
difference, goes on to the payload. -/
@[irreducible] def parse (buf : List UInt8) (len : Int) : ErrorCode × Msg :=
  if vailddataChecksum lib buf len then
    if memcmp buf tag_ tag_.length ≠ 0 then
      let data := buf.drop tag_.length
      let datalen := len - KChecksumLen - tag_.length
      let (parsed, message) := parseFromBuffer lib data datalen
      if parsed then (.KNoError, message) else (.KParseEroor, message)
    else (.KUnKnownMessageType, lib.fresh)
  else (.KcheckSumError, lib.fresh)

def serializeToBuffer (message : Msg) (buf : Buffer) : Option (Int × Buffer) := do
  let byte_size ← toIntSize (lib.byteSizeLong message)
  let room ← intAdd byte_size KChecksumLen
  let buf ← buf.ensureWriteableBytes room.toNat
  let buf := buf.store (lib.serializeWithCachedSizesToArray message)
  let buf ← buf.hasWritten byte_size.toNat
  some (byte_size, buf)

def fillEmptyMessage (buf : Buffer) (message : Msg) : Option Buffer :=
  if buf.readableBytes = 0 then do
    let buf ← buf.append tag_
    let (byte_size, buf) ← serializeToBuffer lib message buf
    let checkSum := checksum lib buf.readable buf.readableBytes
    let buf ← buf.appendInt32 checkSum
    if (buf.readableBytes : Int) = tag_.length + byte_size + KChecksumLen then
      let len := Endian.toSigned 32 (Endian.host_to_net_32
        (Endian.toUnsigned 32 (Endian.toSigned 32 buf.readableBytes)))
      buf.prepend (Endian.toMemory 4 (Endian.toUnsigned 32 len))
    else none
  else none

theorem header_room {n : Nat} (h : (KChecksumLen + KHeaderLen).toNat ≤ n) : 4 ≤ n := by
  simp only [KChecksumLen, KHeaderLen] at h
  omega

/-- The decode loop: the messages handed to `messagecb_`, in order, and the
buffer it leaves. The callback does not touch the buffer. -/
def onMessage (buffer : ByteQueue) : List Msg × ByteQueue :=
  if hroom : (KChecksumLen + KHeaderLen).toNat ≤ buffer.readableBytes then
    let len := buffer.peekInt32 (header_room hroom)
    if _hlimit : len > KMaxMessageLen ∨ len < KMinMessageLen then ([], buffer)
    else if hframe : (KHeaderLen + len).toNat ≤ buffer.readableBytes then
      let frame := (buffer.bytes.drop KHeaderLen.toNat).take len.toNat
      let parsed := parse lib frame len
      if parsed.1 = .KNoError then
        let (messages, final) :=
          onMessage (buffer.retrieve (KHeaderLen + len).toNat hframe)
        (parsed.2 :: messages, final)
      else ([], buffer)
    else ([], buffer)
  else ([], buffer)
  termination_by buffer.readableBytes
  decreasing_by
    have hmin : KMinMessageLen = 4 := rfl
    have hheader : KHeaderLen = 4 := rfl
    change (buffer.retrieve (KHeaderLen + len).toNat hframe).readableBytes < _
    rw [ByteQueue.readableBytes_retrieve]
    omega

/-- The receiving side of a connection: append each chunk as it arrives and
call `onMessage`. -/
def receive : List (List UInt8) → ByteQueue → List Msg × ByteQueue
  | [], buffer => ([], buffer)
  | chunk :: rest, buffer =>
      let (messages, left) := onMessage lib (buffer.append chunk)
      let (messages', final) := receive rest left
      (messages ++ messages', final)

end MuduoRpc.Rpc
