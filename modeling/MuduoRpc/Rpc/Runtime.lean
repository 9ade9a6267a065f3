import MuduoRpc.Rpc.Codec
import MuduoRpc.Rpc.RpcMessage

/-!
Runtimes to run the codec on: zlib's `adler32` by its definition, the protobuf encoding of
messages that set nothing but `type`, and the generated class.
-/

namespace MuduoRpc.Rpc

inductive MessageType
  | REQUEST
  | RESPONSE
deriving DecidableEq, Repr

/-- Two sums modulo 65521, of the bytes and of the running sums. -/
def adler32 (adler : Nat) (bytes : List UInt8) : Nat :=
  let (a, b) := bytes.foldl
    (fun (a, b) byte => ((a + byte.toNat) % 65521, (b + (a + byte.toNat) % 65521) % 65521))
    (adler % 65536, adler / 65536)
  b * 65536 + a

namespace MessageType

/-- Field 1 as a varint; the default value is not written. -/
def encode : MessageType → List UInt8
  | .REQUEST => []
  | .RESPONSE => [8, 1]

def decode : List UInt8 → Bool × MessageType
  | [] => (true, .REQUEST)
  | [8, 1] => (true, .RESPONSE)
  | _ => (false, .REQUEST)

def runtime : ProtoLib MessageType where
  fresh := .REQUEST
  byteSizeLong message := (encode message).length
  serializeWithCachedSizesToArray := encode
  parseFromArray data size :=
    if size < 0 then (false, .REQUEST) else decode (data.take size.toNat)
  adler32 := adler32

theorem runtime_sized : runtime.Sized where
  byteSizeLong_eq _ := rfl

theorem runtime_roundTrips (message : MessageType) : runtime.RoundTrips message := by
  intro behind
  cases message <;> rfl

end MessageType

/-- The generated class as the codec uses it. -/
def protobuf {U : Type} (rt : Protobuf.Runtime U) (lite : Protobuf.RpcMessage.MessageLite U)
    (adler32 : Nat → List UInt8 → Nat) : ProtoLib (Protobuf.RpcMessage U) where
  fresh := .new
  byteSizeLong := Protobuf.RpcMessage.ByteSizeLong rt
  serializeWithCachedSizesToArray := Protobuf.RpcMessage.InternalSerialize rt
  parseFromArray := lite.ParseFromArray .new
  adler32 := adler32

section Generated

variable {U : Type} {rt : Protobuf.Runtime U} {lite : Protobuf.RpcMessage.MessageLite U}
  {adler32 : Nat → List UInt8 → Nat}

theorem protobuf_sized (h : rt.Lawful) : (protobuf rt lite adler32).Sized where
  byteSizeLong_eq := Protobuf.RpcMessage.byteSizeLong_eq h

end Generated

/-- The generated class in the documented encoding, with zlib's checksum. -/
def wireFormat : ProtoLib (Protobuf.RpcMessage Protobuf.WireFormat.UnknownField) :=
  protobuf Protobuf.WireFormat.runtime
    (Protobuf.RpcMessage.messageLite Protobuf.WireFormat.runtime) adler32

theorem wireFormat_sized : wireFormat.Sized := protobuf_sized Protobuf.WireFormat.runtime_lawful

end MuduoRpc.Rpc
