import MuduoRpc.Lib.Varint
import MuduoRpc.Rpc.Protobuf

/-!
A runtime that reads and writes the documented wire format, for running the generated
code. Tags and numbers are varints; a string has its length in front. An unknown record is
kept with its tag. Groups are not read.
-/

namespace MuduoRpc.Protobuf.WireFormat

open Records

/-- The records that are kept: numbers, strings of eight or of four bytes, and strings with
their length in front. -/
inductive UnknownField
  | varint (tag : BitVec 32) (value : BitVec 64)
  | fixed (tag : BitVec 32) (bytes : List UInt8)
  | length_delimited (tag : BitVec 32) (bytes : List UInt8)
deriving DecidableEq

/-- The longest string: `INT32_MAX` less the slop bytes of a buffer. -/
def maxSize : Nat := 2 ^ 31 - 1 - 16

def readTag : Reader UInt8 (BitVec 32) := do
  let tag ← Varint.decode 5
  pure (BitVec.ofNat 32 tag)

def readVarint : Reader UInt8 (BitVec 64) := do
  let value ← Varint.decode 10
  pure (BitVec.ofNat 64 value)

def readString : Reader UInt8 (List UInt8) := do
  let size ← Varint.decode 5
  if size ≤ maxSize then takeExactly size else failure

def writeTag (tag : BitVec 32) : List UInt8 := Varint.encode tag.toNat

def writeString (str : List UInt8) : List UInt8 := Varint.encode str.length ++ str

/-- The type of a record is in the low three bits of its tag. -/
def readUnknown (tag : BitVec 32) : Reader UInt8 UnknownField :=
  if tag >>> 3 = 0 then failure
  else if tag &&& 7 = 0 then return .varint tag (← readVarint)
  else if tag &&& 7 = 1 then return .fixed tag (← takeExactly 8)
  else if tag &&& 7 = 2 then return .length_delimited tag (← readString)
  else if tag &&& 7 = 5 then return .fixed tag (← takeExactly 4)
  else failure

def writeUnknown : UnknownField → List UInt8
  | .varint tag value => writeTag tag ++ Varint.encode value.toNat
  | .fixed tag bytes => writeTag tag ++ bytes
  | .length_delimited tag bytes => writeTag tag ++ writeString bytes

theorem delimits_readVarint : Delimits readVarint :=
  delimits_bind (Varint.delimits_decode 10) fun _ => delimits_pure _

theorem delimits_readString : Delimits readString :=
  delimits_bind (Varint.delimits_decode 5) fun _ =>
    delimits_ite (delimits_takeExactly _) delimits_failure

theorem delimits_readUnknown (tag : BitVec 32) : Delimits (readUnknown tag) :=
  delimits_ite delimits_failure <|
    delimits_ite (delimits_bind (delimits_readVarint) fun _ => delimits_pure _) <|
    delimits_ite (delimits_bind (delimits_takeExactly 8) fun _ => delimits_pure _) <|
    delimits_ite (delimits_bind delimits_readString fun _ => delimits_pure _) <|
    delimits_ite (delimits_bind (delimits_takeExactly 4) fun _ => delimits_pure _)
      delimits_failure

theorem readTag_consumes (bytes : List UInt8) (tag : BitVec 32) (rest : List UInt8)
    (h : readTag.run bytes = some (tag, rest)) :
    ∃ taken, taken ≠ [] ∧ bytes = taken ++ rest ∧
      ∀ more, readTag.run (taken ++ more) = some (tag, more) := by
  obtain ⟨n, middle, hdecode, htag⟩ := run_bind_eq_some.mp h
  cases htag
  obtain ⟨taken, hfull, hsplit, hmore⟩ := Varint.decode_consumes hdecode
  refine ⟨taken, hfull, hsplit, fun more => ?_⟩
  exact run_bind_eq_some.mpr ⟨n, more, hmore more, rfl⟩

/-- The runtime of the documented format. -/
def runtime : Runtime UnknownField where
  ReadTag := readTag
  ReadVarint64 := readVarint
  InlineGreedyStringParser := readString
  VerifyUTF8 str := (ByteArray.mk str.toArray).validateUTF8
  UnknownFieldParse := readUnknown
  WriteEnumToArray number value :=
    writeTag (Runtime.varintTag number) ++ Varint.encode (value.signExtend 64).toNat
  WriteInt64ToArray number value :=
    writeTag (Runtime.varintTag number) ++ Varint.encode value.toNat
  WriteStringMaybeAliased number str := writeTag (Runtime.lengthTag number) ++ writeString str
  WriteBytesMaybeAliased number str := writeTag (Runtime.lengthTag number) ++ writeString str
  SerializeUnknownField := writeUnknown
  EnumSize value := (Varint.encode (value.signExtend 64).toNat).length
  Int64SizePlusOne value := 1 + (Varint.encode value.toNat).length
  StringSize str := (writeString str).length
  BytesSize str := (writeString str).length
  UnknownFieldSize unknown := (writeUnknown unknown).length
  maxSize := maxSize
  consumesTag := readTag_consumes
  delimitsVarint64 := delimits_readVarint
  delimitsString := delimits_readString
  delimitsUnknown := delimits_readUnknown

theorem readTag_write (tag : BitVec 32) (rest : List UInt8) :
    readTag.run (writeTag tag ++ rest) = some (tag, rest) := by
  have hlt : tag.toNat < 128 ^ 5 := Nat.lt_trans tag.isLt (by decide)
  refine run_bind_eq_some.mpr ⟨_, rest, Varint.decode_encode hlt (by decide) rest, ?_⟩
  rw [BitVec.ofNat_toNat, BitVec.setWidth_eq]
  rfl

theorem readVarint_encode (value : BitVec 64) (rest : List UInt8) :
    readVarint.run (Varint.encode value.toNat ++ rest) = some (value, rest) := by
  have hlt : value.toNat < 128 ^ 10 := Nat.lt_trans value.isLt (by decide)
  refine run_bind_eq_some.mpr ⟨_, rest, Varint.decode_encode hlt (by decide) rest, ?_⟩
  rw [BitVec.ofNat_toNat, BitVec.setWidth_eq]
  rfl

theorem readString_write {str : List UInt8} (h : str.length ≤ maxSize) (rest : List UInt8) :
    readString.run (writeString str ++ rest) = some (str, rest) := by
  have hlt : str.length < 128 ^ 5 := Nat.lt_of_le_of_lt h (by decide)
  refine run_bind_eq_some.mpr ⟨str.length, str ++ rest, ?_, ?_⟩
  · rw [writeString, List.append_assoc]
    exact Varint.decode_encode hlt (by decide) _
  · rw [if_pos h]
    exact run_takeExactly str rest

theorem readString_limit {bytes str rest : List UInt8}
    (h : readString.run bytes = some (str, rest)) : str.length ≤ maxSize := by
  obtain ⟨size, middle, _, htake⟩ := run_bind_eq_some.mp h
  split_ifs at htake with hsize
  · rw [(takeExactly_eq_some.mp htake).1]
    exact hsize
  · cases htake

/-- Behind its tag, what is written for a value is read back. -/
theorem encodes_append {α : Type} {tag : BitVec 32} {bytes : List UInt8} {read : Reader UInt8 α}
    {value : α} (h : ∀ rest, read.run (bytes ++ rest) = some (value, rest)) :
    runtime.Encodes tag (writeTag tag ++ bytes) read value := by
  intro rest
  refine ⟨bytes ++ rest, ?_, h rest⟩
  rw [List.append_assoc]
  exact readTag_write tag _

theorem encodes_unknown {tag : BitVec 32} {bytes rest : List UInt8} {unknown : UnknownField}
    (h : (readUnknown tag).run bytes = some (unknown, rest)) :
    runtime.Encodes tag (writeUnknown unknown) (readUnknown tag) unknown := by
  unfold readUnknown at h ⊢
  split_ifs at h ⊢ with hnumber hvarint height hstring hfour
  case pos => cases h
  case pos =>
    obtain ⟨value, middle, _, hunknown⟩ := run_bind_eq_some.mp h
    cases hunknown
    exact encodes_append fun rest => run_bind_eq_some.mpr
      ⟨value, rest, readVarint_encode value rest, rfl⟩
  case pos =>
    obtain ⟨str, middle, hread, hunknown⟩ := run_bind_eq_some.mp h
    cases hunknown
    refine encodes_append fun rest => run_bind_eq_some.mpr ⟨str, rest, ?_, rfl⟩
    exact takeExactly_eq_some.mpr ⟨(takeExactly_eq_some.mp hread).1, rfl⟩
  case pos =>
    obtain ⟨str, middle, hread, hunknown⟩ := run_bind_eq_some.mp h
    cases hunknown
    exact encodes_append fun rest => run_bind_eq_some.mpr
      ⟨str, rest, readString_write (readString_limit hread) rest, rfl⟩
  case pos =>
    obtain ⟨str, middle, hread, hunknown⟩ := run_bind_eq_some.mp h
    cases hunknown
    refine encodes_append fun rest => run_bind_eq_some.mpr ⟨str, rest, ?_, rfl⟩
    exact takeExactly_eq_some.mpr ⟨(takeExactly_eq_some.mp hread).1, rfl⟩
  case neg => cases h

/-- The tags of the numbers up to 15 have one byte. -/
theorem length_writeTag {number type : Nat} (h : number < 16) (htype : type < 8) :
    (writeTag (BitVec.ofNat 32 (8 * number + type))).length = 1 := by
  have hsmall : (BitVec.ofNat 32 (8 * number + type)).toNat < 128 := by
    rw [BitVec.toNat_ofNat]
    omega
  rw [writeTag, Varint.encode_eq, if_pos hsmall, List.length_singleton]

theorem length_varintTag {number : Nat} (h : number < 16) (bytes : List UInt8) :
    1 + bytes.length = (writeTag (Runtime.varintTag number) ++ bytes).length := by
  have htag : (writeTag (Runtime.varintTag number)).length = 1 :=
    @length_writeTag number 0 h (by decide)
  rw [List.length_append, htag]

theorem length_lengthTag {number : Nat} (h : number < 16) (bytes : List UInt8) :
    1 + bytes.length = (writeTag (Runtime.lengthTag number) ++ bytes).length := by
  have htag : (writeTag (Runtime.lengthTag number)).length = 1 := length_writeTag h (by decide)
  rw [List.length_append, htag]

theorem runtime_lawful : runtime.Lawful where
  writesEnum _ _ _ _ := encodes_append (readVarint_encode _)
  writesInt64 _ _ _ _ := encodes_append (readVarint_encode _)
  writesString _ _ _ _ hlength := encodes_append (readString_write hlength)
  writesBytes _ _ _ _ hlength := encodes_append (readString_write hlength)
  writesUnknown _ _ _ _ := encodes_unknown
  limitsString _ _ _ := readString_limit
  verifies _ := ByteArray.validateUTF8_eq_true_iff
  sizesEnum _ _ _ hsmall := length_varintTag hsmall _
  sizesInt64 _ _ _ hsmall := length_varintTag hsmall _
  sizesString _ _ _ hsmall := length_lengthTag hsmall _
  sizesBytes _ _ _ hsmall := length_lengthTag hsmall _
  sizesUnknown _ := rfl

end MuduoRpc.Protobuf.WireFormat
