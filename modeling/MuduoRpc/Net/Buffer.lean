import MuduoRpc.Lib.Slice
import MuduoRpc.Net.Endian

/-!
The receive and send buffer of the network library: a growable vector with a
reader and a writer index. The functions are those of `Buffer.h` and
`Buffer.cc`; an assertion that fails is `none`, and `size_t` is `Nat`.
-/

namespace MuduoRpc

open Slice

def KCheapPrependSize : Nat := 8

structure Buffer where
  buffer_ : List UInt8
  readerIndex_ : Nat
  writeIndex_ : Nat
deriving DecidableEq, Repr

namespace Buffer

/-- The constructor is declared in the header and not defined. It is taken to
allocate the prepend reserve and `initalsize` bytes behind it. -/
def new (initalsize : Nat) : Buffer where
  buffer_ := List.replicate (KCheapPrependSize + initalsize) 0
  readerIndex_ := KCheapPrependSize
  writeIndex_ := KCheapPrependSize

def readableBytes (b : Buffer) : Nat := b.writeIndex_ - b.readerIndex_

def writeableBytes (b : Buffer) : Nat := b.buffer_.length - b.writeIndex_

def prependableBytes (b : Buffer) : Nat := b.readerIndex_

/-- The bytes from `peek()` on, up to the write index. -/
def readable (b : Buffer) : List UInt8 := b.buffer_.extract b.readerIndex_ b.writeIndex_

def retrieveAll (b : Buffer) : Buffer :=
  { b with readerIndex_ := KCheapPrependSize, writeIndex_ := KCheapPrependSize }

def retrieve (b : Buffer) (len : Nat) : Option Buffer :=
  if len ≤ b.readableBytes then
    if len < b.readableBytes then
      some { b with readerIndex_ := b.readerIndex_ + len }
    else
      some b.retrieveAll
  else none

def retrieveInt64 (b : Buffer) : Option Buffer := b.retrieve 8

def retrieveInt32 (b : Buffer) : Option Buffer := b.retrieve 4

def retrieveInt16 (b : Buffer) : Option Buffer := b.retrieve 2

def retrieveInt8 (b : Buffer) : Option Buffer := b.retrieve 1

/-- The overload that takes a length. -/
def retrieveAsString (b : Buffer) (len : Nat) : Option (List UInt8 × Buffer) :=
  if len ≤ b.readableBytes then do
    let result := b.buffer_.extract b.readerIndex_ (b.readerIndex_ + len)
    let b ← b.retrieve len
    some (result, b)
  else none

def retrieveAllAsString (b : Buffer) : Option (List UInt8 × Buffer) :=
  b.retrieveAsString b.readableBytes

def hasWritten (b : Buffer) (len : Nat) : Option Buffer :=
  if len ≤ b.writeableBytes then
    some { b with writeIndex_ := b.writeIndex_ + len }
  else none

def unWrite (b : Buffer) (len : Nat) : Option Buffer :=
  if len ≤ b.readableBytes then
    some { b with writeIndex_ := b.writeIndex_ - len }
  else none

/-- `std::vector::resize`, which value-initialises what it adds. -/
def resize (v : List UInt8) (size : Nat) : List UInt8 :=
  v.take size ++ List.replicate (size - v.length) 0

def makespace (b : Buffer) (len : Nat) : Option Buffer :=
  if b.writeableBytes + b.prependableBytes < len + KCheapPrependSize then
    some { b with buffer_ := resize b.buffer_ (b.writeIndex_ + len) }
  else if KCheapPrependSize < b.readerIndex_ then
    let readable := b.readableBytes
    let moved : Buffer :=
      { buffer_ := overwrite b.buffer_ KCheapPrependSize b.readable
        readerIndex_ := KCheapPrependSize
        writeIndex_ := KCheapPrependSize + readable }
    if readable = moved.readableBytes then some moved else none
  else none

def ensureWriteableBytes (b : Buffer) (len : Nat) : Option Buffer := do
  let b' ← if b.writeableBytes < len then b.makespace len else some b
  if len ≤ b'.writeableBytes then some b' else none

/-- Bytes stored at `beginWrite()`, before the write index is moved. -/
def store (b : Buffer) (data : List UInt8) : Buffer :=
  { b with buffer_ := overwrite b.buffer_ b.writeIndex_ data }

def append (b : Buffer) (data : List UInt8) : Option Buffer := do
  let b' ← b.ensureWriteableBytes data.length
  (b'.store data).hasWritten data.length

def prepend (b : Buffer) (data : List UInt8) : Option Buffer :=
  if data.length ≤ b.prependableBytes then
    let readerIndex := b.readerIndex_ - data.length
    some { b with
      buffer_ := overwrite b.buffer_ readerIndex data
      readerIndex_ := readerIndex }
  else none

def appendInt64 (b : Buffer) (x : Int) : Option Buffer :=
  let be64 := Endian.toSigned 64 (Endian.host_to_net_64 (Endian.toUnsigned 64 x))
  b.append (Endian.toMemory 8 (Endian.toUnsigned 64 be64))

def appendInt32 (b : Buffer) (x : Int) : Option Buffer :=
  let be32 := Endian.toSigned 32 (Endian.host_to_net_32 (Endian.toUnsigned 32 x))
  b.append (Endian.toMemory 4 (Endian.toUnsigned 32 be32))

def appendInt16 (b : Buffer) (x : Int) : Option Buffer :=
  let be16 := Endian.toSigned 16 (Endian.host_to_net_16 (Endian.toUnsigned 16 x))
  b.append (Endian.toMemory 2 (Endian.toUnsigned 16 be16))

def appendInt8 (b : Buffer) (x : Int) : Option Buffer :=
  b.append (Endian.toMemory 1 (Endian.toUnsigned 8 x))

def peekInt64 (b : Buffer) : Option Int :=
  if 8 ≤ b.readableBytes then
    let be64 := Endian.toSigned 64 (Endian.ofMemory (b.readable.take 8))
    some (Endian.toSigned 64 (Endian.net_to_host_64 (Endian.toUnsigned 64 be64)))
  else none

def peekInt32 (b : Buffer) : Option Int :=
  if 4 ≤ b.readableBytes then
    let be32 := Endian.toSigned 32 (Endian.ofMemory (b.readable.take 4))
    some (Endian.toSigned 32 (Endian.net_to_host_32 (Endian.toUnsigned 32 be32)))
  else none

def peekInt16 (b : Buffer) : Option Int :=
  if 2 ≤ b.readableBytes then
    let be16 := Endian.toSigned 16 (Endian.ofMemory (b.readable.take 2))
    some (Endian.toSigned 16 (Endian.net_to_host_16 (Endian.toUnsigned 16 be16)))
  else none

def peekInt8 (b : Buffer) : Option Int :=
  if 1 ≤ b.readableBytes then
    some (Endian.toSigned 8 (Endian.ofMemory (b.readable.take 1)))
  else none

def readInt64 (b : Buffer) : Option (Int × Buffer) := do
  let result ← b.peekInt64
  let b ← b.retrieveInt64
  some (result, b)

def readInt32 (b : Buffer) : Option (Int × Buffer) := do
  let result ← b.peekInt32
  let b ← b.retrieveInt32
  some (result, b)

def readInt16 (b : Buffer) : Option (Int × Buffer) := do
  let result ← b.peekInt16
  let b ← b.retrieveInt16
  some (result, b)

def readInt8 (b : Buffer) : Option (Int × Buffer) := do
  let result ← b.peekInt8
  let b ← b.retrieveInt8
  some (result, b)

/-- The overloads of `prepend` for the four widths. -/
def prependInt64 (b : Buffer) (x : Int) : Option Buffer :=
  let be64 := Endian.toSigned 64 (Endian.host_to_net_64 (Endian.toUnsigned 64 x))
  b.prepend (Endian.toMemory 8 (Endian.toUnsigned 64 be64))

def prependInt32 (b : Buffer) (x : Int) : Option Buffer :=
  let be32 := Endian.toSigned 32 (Endian.host_to_net_32 (Endian.toUnsigned 32 x))
  b.prepend (Endian.toMemory 4 (Endian.toUnsigned 32 be32))

def prependInt16 (b : Buffer) (x : Int) : Option Buffer :=
  let be16 := Endian.toSigned 16 (Endian.host_to_net_16 (Endian.toUnsigned 16 x))
  b.prepend (Endian.toMemory 2 (Endian.toUnsigned 16 be16))

def prependInt8 (b : Buffer) (x : Int) : Option Buffer :=
  b.prepend (Endian.toMemory 1 (Endian.toUnsigned 8 x))

/-- A successful `readv` of `data`. It fills the vector behind the write index
first and the 1 MiB `extrabuf` with the rest, which is then appended. -/
def readFd (b : Buffer) (data : List UInt8) : Option Buffer :=
  let writeable := b.writeableBytes
  let filled := b.store (data.take writeable)
  if data.length ≤ writeable then
    some { filled with writeIndex_ := b.writeIndex_ + data.length }
  else
    { filled with writeIndex_ := filled.buffer_.length }.append (data.drop writeable)

/-- The most bytes `readFd` can pass to `readv`. -/
def readRoom (b : Buffer) : Nat :=
  if b.writeableBytes < 1024 * 1024 then b.writeableBytes + 1024 * 1024
  else b.writeableBytes

end Buffer

end MuduoRpc
