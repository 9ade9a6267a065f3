import MuduoRpc.Lib.Message

/-!
What the code that `protoc` generates calls in the protobuf runtime, and the kinds of
fields that its messages have. The runtime is a parameter: readers get the bytes up to the
end of the message, and one that would run past it fails. Lengths and signs are as in the
runtime: an enum is written as the 64-bit number with its sign.
-/

namespace MuduoRpc.Protobuf

open Records Message

/-- A number to which its sign was extended, cast back. -/
theorem setWidth_signExtend (value : BitVec 32) : (value.signExtend 64).setWidth 32 = value := by
  ext i hi
  rw [BitVec.getElem_setWidth, BitVec.getLsbD_signExtend, if_pos hi, BitVec.getLsbD_eq_getElem hi]
  simp only [Bool.and_eq_right_iff_imp, decide_eq_true_eq]
  omega

/-- The functions of the runtime, by their names. `U` is a record of an unknown field set,
and `maxSize` the longest string that is read. Each reader decides from the bytes that it
takes; a tag has at least one. -/
structure Runtime (U : Type) where
  ReadTag : Reader UInt8 (BitVec 32)
  ReadVarint64 : Reader UInt8 (BitVec 64)
  InlineGreedyStringParser : Reader UInt8 (List UInt8)
  VerifyUTF8 : List UInt8 → Bool
  UnknownFieldParse : BitVec 32 → Reader UInt8 U
  WriteEnumToArray : Nat → BitVec 32 → List UInt8
  WriteInt64ToArray : Nat → BitVec 64 → List UInt8
  WriteStringMaybeAliased : Nat → List UInt8 → List UInt8
  WriteBytesMaybeAliased : Nat → List UInt8 → List UInt8
  SerializeUnknownField : U → List UInt8
  EnumSize : BitVec 32 → Nat
  Int64SizePlusOne : BitVec 64 → Nat
  StringSize : List UInt8 → Nat
  BytesSize : List UInt8 → Nat
  UnknownFieldSize : U → Nat
  maxSize : Nat
  consumesTag : ∀ bytes tag rest, ReadTag.run bytes = some (tag, rest) →
    ∃ taken, taken ≠ [] ∧ bytes = taken ++ rest ∧
      ∀ more, ReadTag.run (taken ++ more) = some (tag, more)
  delimitsVarint64 : Delimits ReadVarint64
  delimitsString : Delimits InlineGreedyStringParser
  delimitsUnknown : ∀ tag, Delimits (UnknownFieldParse tag)

namespace Runtime

variable {U : Type} (rt : Runtime U)

/-- The bytes are the tag and a value that the reader reads back. -/
def Encodes {α : Type} (tag : BitVec 32) (bytes : List UInt8) (read : Reader UInt8 α)
    (value : α) : Prop :=
  ∀ rest, ∃ payload, rt.ReadTag.run (bytes ++ rest) = some (tag, payload) ∧
    read.run payload = some (value, rest)

/-- The tag of a varint, and of a field with a length in front. -/
def varintTag (number : Nat) : BitVec 32 := BitVec.ofNat 32 (8 * number)

def lengthTag (number : Nat) : BitVec 32 := BitVec.ofNat 32 (8 * number + 2)

/-- The encoding: what is written is read back, an unknown field under the tag that it was
read with, and the sizes are those of what is written. The tags of the field numbers up to
15 have one byte, which the sizes with `PlusOne` count. -/
structure Lawful : Prop where
  writesEnum : ∀ number value, 0 < number → number < 2 ^ 29 →
    rt.Encodes (varintTag number) (rt.WriteEnumToArray number value) rt.ReadVarint64
      (value.signExtend 64)
  writesInt64 : ∀ number value, 0 < number → number < 2 ^ 29 →
    rt.Encodes (varintTag number) (rt.WriteInt64ToArray number value) rt.ReadVarint64 value
  writesString : ∀ number str, 0 < number → number < 2 ^ 29 → str.length ≤ rt.maxSize →
    rt.Encodes (lengthTag number) (rt.WriteStringMaybeAliased number str)
      rt.InlineGreedyStringParser str
  writesBytes : ∀ number str, 0 < number → number < 2 ^ 29 → str.length ≤ rt.maxSize →
    rt.Encodes (lengthTag number) (rt.WriteBytesMaybeAliased number str)
      rt.InlineGreedyStringParser str
  writesUnknown : ∀ tag bytes unknown rest,
    (rt.UnknownFieldParse tag).run bytes = some (unknown, rest) →
    rt.Encodes tag (rt.SerializeUnknownField unknown) (rt.UnknownFieldParse tag) unknown
  limitsString : ∀ bytes str rest, rt.InlineGreedyStringParser.run bytes = some (str, rest) →
    str.length ≤ rt.maxSize
  verifies : ∀ str, rt.VerifyUTF8 str = true ↔ (ByteArray.mk str.toArray).IsValidUTF8
  sizesEnum : ∀ number value, 0 < number → number < 16 →
    1 + rt.EnumSize value = (rt.WriteEnumToArray number value).length
  sizesInt64 : ∀ number value, 0 < number → number < 16 →
    rt.Int64SizePlusOne value = (rt.WriteInt64ToArray number value).length
  sizesString : ∀ number str, 0 < number → number < 16 →
    1 + rt.StringSize str = (rt.WriteStringMaybeAliased number str).length
  sizesBytes : ∀ number str, 0 < number → number < 16 →
    1 + rt.BytesSize str = (rt.WriteBytesMaybeAliased number str).length
  sizesUnknown : ∀ unknown,
    rt.UnknownFieldSize unknown = (rt.SerializeUnknownField unknown).length

variable {rt}

theorem verifies_string (h : rt.Lawful) (str : String) :
    rt.VerifyUTF8 str.toUTF8.data.toList = true := by
  rw [h.verifies, Array.toArray_toList]
  exact str.isValidUTF8

theorem verifies_nil (h : rt.Lawful) : rt.VerifyUTF8 [] = true := verifies_string h ""

end Runtime

/-- How the values of one kind of field are read behind the tag and written with it, and
which of them are written. -/
structure Kind (α : Type) where
  read : Reader UInt8 α
  delimits : Delimits read
  present : α → Bool
  write : Nat → α → List UInt8
  size : α → Nat

namespace Kind

variable {U : Type} (rt : Runtime U)

/-- The number read is cast to the enum, whose underlying type is `int`. -/
def enum : Kind (BitVec 32) where
  read := do
    let val ← rt.ReadVarint64
    pure (val.setWidth 32)
  delimits := delimits_bind rt.delimitsVarint64 fun _ => delimits_pure _
  present value := value ≠ 0
  write := rt.WriteEnumToArray
  size value := 1 + rt.EnumSize value

def int64 : Kind (BitVec 64) where
  read := rt.ReadVarint64
  delimits := rt.delimitsVarint64
  present value := value ≠ 0
  write := rt.WriteInt64ToArray
  size := rt.Int64SizePlusOne

/-- A string that is not UTF-8 is written, with an entry in the log, and not read. -/
def string : Kind (List UInt8) where
  read := do
    let str ← rt.InlineGreedyStringParser
    if rt.VerifyUTF8 str then pure str else failure
  delimits := delimits_bind rt.delimitsString fun _ =>
    delimits_ite (delimits_pure _) delimits_failure
  present str := !str.isEmpty
  write := rt.WriteStringMaybeAliased
  size str := 1 + rt.StringSize str

def bytes : Kind (List UInt8) where
  read := rt.InlineGreedyStringParser
  delimits := rt.delimitsString
  present str := !str.isEmpty
  write := rt.WriteBytesMaybeAliased
  size str := 1 + rt.BytesSize str

variable {rt} {α M : Type}

/-- The field of a message with the number, and with the tag that its case tests. -/
def field (kind : Kind α) (number : Nat) (tag : BitVec 8) (get : M → α) (set : M → α → M) :
    Message.Field M where
  number := BitVec.ofNat 32 number
  tag := tag
  parse message := do
    let value ← kind.read
    pure (set message value)
  delimits _ := delimits_bind kind.delimits fun _ => delimits_pure _
  present message := kind.present (get message)
  write message := kind.write number (get message)
  size message := kind.size (get message)
  copy target source := set target (get source)

variable (rt)

/-- The kind reads back what it writes of the values that it admits, and admits what it
reads. -/
structure Lawful (kind : Kind α) (tagOf : Nat → BitVec 32) (Admits : α → Prop) : Prop where
  encodes : ∀ number value, 0 < number → number < 2 ^ 29 → Admits value →
    rt.Encodes (tagOf number) (kind.write number value) kind.read value
  admits : ∀ bytes value rest, kind.read.run bytes = some (value, rest) → Admits value
  sizes : ∀ number value, 0 < number → number < 16 →
    kind.size value = (kind.write number value).length

variable {rt}

theorem enum_lawful (h : rt.Lawful) :
    (enum rt).Lawful rt Runtime.varintTag fun _ => True where
  encodes number value hpos hlt _ rest := by
    obtain ⟨payload, htag, hread⟩ := h.writesEnum number value hpos hlt rest
    refine ⟨payload, htag, run_bind_eq_some.mpr ⟨_, rest, hread, ?_⟩⟩
    rw [setWidth_signExtend]
    rfl
  admits _ _ _ _ := trivial
  sizes := h.sizesEnum

theorem int64_lawful (h : rt.Lawful) :
    (int64 rt).Lawful rt Runtime.varintTag fun _ => True where
  encodes number value hpos hlt _ := h.writesInt64 number value hpos hlt
  admits _ _ _ _ := trivial
  sizes := h.sizesInt64

theorem bytes_lawful (h : rt.Lawful) :
    (bytes rt).Lawful rt Runtime.lengthTag fun str => str.length ≤ rt.maxSize where
  encodes := h.writesBytes
  admits := h.limitsString
  sizes := h.sizesBytes

theorem string_lawful (h : rt.Lawful) : (string rt).Lawful rt Runtime.lengthTag fun str =>
    rt.VerifyUTF8 str = true ∧ str.length ≤ rt.maxSize where
  encodes number str hpos hlt hadmits rest := by
    obtain ⟨payload, htag, hread⟩ := h.writesString number str hpos hlt hadmits.2 rest
    refine ⟨payload, htag, run_bind_eq_some.mpr ⟨str, rest, hread, ?_⟩⟩
    rw [if_pos hadmits.1]
    rfl
  admits bytes str rest hread := by
    obtain ⟨found, middle, hfound, hverify⟩ := run_bind_eq_some.mp hread
    split_ifs at hverify with hvalid
    · cases hverify
      exact ⟨hvalid, h.limitsString _ _ _ hfound⟩
    · cases hverify
  sizes := h.sizesString

/-- What a field of this kind reads is put into the message. -/
theorem field_parse {kind : Kind α} {number : Nat} {tag : BitVec 8} {get : M → α}
    {set : M → α → M} {message message' : M} {bytes rest : List UInt8} :
    ((kind.field number tag get set).parse message).run bytes = some (message', rest) ↔
      ∃ value, kind.read.run bytes = some (value, rest) ∧ set message value = message' := by
  constructor
  · intro h
    obtain ⟨value, middle, hread, hset⟩ := run_bind_eq_some.mp h
    cases hset
    exact ⟨value, hread, rfl⟩
  · rintro ⟨value, hread, rfl⟩
    exact run_bind_eq_some.mpr ⟨value, rest, hread, rfl⟩

/-- What a merge does with one field, where assigning a field its own value does nothing. -/
theorem field_merge {kind : Kind α} {number : Nat} {tag : BitVec 8} {get : M → α}
    {set : M → α → M} (hset : ∀ message, set message (get message) = message)
    (target source : M) :
    (if (kind.field number tag get set).present source then
        (kind.field number tag get set).copy target source else target) =
      set target (if kind.present (get source) then get source else get target) := by
  change (if kind.present (get source) = true then set target (get source) else target) = _
  split
  case isTrue => rfl
  case isFalse => exact (hset target).symm

/-- A field of a lawful kind, if the tag of its number is the one that its case tests. -/
theorem field_lawful {F : Format M U} (hreadTag : F.readTag = rt.ReadTag) {kind : Kind α}
    {tagOf : Nat → BitVec 32} {Admits : α → Prop} (h : kind.Lawful rt tagOf Admits)
    {Valid : M → Prop} {number : Nat} {tag : BitVec 8} {get : M → α} {set : M → α → M}
    (hpos : 0 < number) (hlt : number < 2 ^ 29)
    (hfield : F.field? (tagOf number) = some (kind.field number tag get set))
    (hget : ∀ message, Valid message → Admits (get message))
    (hset : ∀ message value, Valid message → Admits value → Valid (set message value)) :
    F.LawfulField Valid (kind.field number tag get set) where
  reads source hvalid _ rest := by
    obtain ⟨payload, htag, hread⟩ := h.encodes number _ hpos hlt (hget source hvalid) rest
    refine ⟨tagOf number, payload, ?_, hfield, fun target => ?_⟩
    · rw [hreadTag]
      exact htag
    · exact field_parse.mpr ⟨get source, hread, rfl⟩
  keeps message bytes message' rest hvalid hparse := by
    obtain ⟨value, hread, rfl⟩ := field_parse.mp hparse
    exact hset message value hvalid (h.admits _ _ _ hread)

end Kind

end MuduoRpc.Protobuf
