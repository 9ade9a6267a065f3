import MuduoRpc.Lib.Transition
import MuduoRpc.Net.ByteQueue

/-!
The buffer under all its operations. Bytes can come back at either end, so what
it stands for is a deque; the prepend reserve can be used up, and `makespace`
still has its assertions.
-/

namespace MuduoRpc

open Slice

namespace Buffer

/-- `retrieveAllAsString` comes with and without a length. `hasWritten data` is the
call after `data` was stored at `beginWrite()`. -/
inductive Operation
  | append (data : List UInt8)
  | appendInt64 (x : Int)
  | appendInt32 (x : Int)
  | appendInt16 (x : Int)
  | appendInt8 (x : Int)
  | prepend (data : List UInt8)
  | retrieve (len : Nat)
  | retrieveInt64
  | retrieveInt32
  | retrieveInt16
  | retrieveInt8
  | retrieveAll
  | retrieveAsString (len : Nat)
  | retrieveAllAsString
  | hasWritten (data : List UInt8)
  | unWrite (len : Nat)
  | ensureWriteableBytes (len : Nat)
deriving DecidableEq, Repr

namespace Operation

def perform (b : Buffer) : Operation → Option Buffer
  | .append data => b.append data
  | .appendInt64 x => b.appendInt64 x
  | .appendInt32 x => b.appendInt32 x
  | .appendInt16 x => b.appendInt16 x
  | .appendInt8 x => b.appendInt8 x
  | .prepend data => b.prepend data
  | .retrieve len => b.retrieve len
  | .retrieveInt64 => b.retrieveInt64
  | .retrieveInt32 => b.retrieveInt32
  | .retrieveInt16 => b.retrieveInt16
  | .retrieveInt8 => b.retrieveInt8
  | .retrieveAll => some b.retrieveAll
  | .retrieveAsString len => (b.retrieveAsString len).map Prod.snd
  | .retrieveAllAsString => b.retrieveAllAsString.map Prod.snd
  | .hasWritten data => (b.store data).hasWritten data.length
  | .unWrite len => b.unWrite len
  | .ensureWriteableBytes len => b.ensureWriteableBytes len

/-- The assertion an operation makes about its own arguments. -/
def Precondition (b : Buffer) : Operation → Prop
  | .prepend data => data.length ≤ b.prependableBytes
  | .retrieve len | .retrieveAsString len | .unWrite len => len ≤ b.readableBytes
  | .retrieveInt64 => 8 ≤ b.readableBytes
  | .retrieveInt32 => 4 ≤ b.readableBytes
  | .retrieveInt16 => 2 ≤ b.readableBytes
  | .retrieveInt8 => 1 ≤ b.readableBytes
  | .hasWritten data => data.length ≤ b.writeableBytes
  | _ => True

/-- The operation on the bytes. -/
def onBytes (bytes : List UInt8) : Operation → List UInt8
  | .append data | .hasWritten data => bytes ++ data
  | .appendInt64 x => bytes ++ Endian.toMemory 8 (Endian.toUnsigned 64 x)
  | .appendInt32 x => bytes ++ Endian.bigEndian 4 (Endian.toUnsigned 32 x)
  | .appendInt16 x => bytes ++ Endian.bigEndian 2 (Endian.toUnsigned 16 x)
  | .appendInt8 x => bytes ++ Endian.bigEndian 1 (Endian.toUnsigned 8 x)
  | .prepend data => data ++ bytes
  | .retrieve len | .retrieveAsString len => bytes.drop len
  | .retrieveInt64 => bytes.drop 8
  | .retrieveInt32 => bytes.drop 4
  | .retrieveInt16 => bytes.drop 2
  | .retrieveInt8 => bytes.drop 1
  | .retrieveAll | .retrieveAllAsString => []
  | .unWrite len => bytes.take (bytes.length - len)
  | .ensureWriteableBytes _ => bytes

instance (b : Buffer) (op : Operation) : Decidable (op.Precondition b) := by
  cases op <;> unfold Precondition <;> infer_instance

end Operation

/-- The operation went through without a failed assertion, and did to the readable
bytes what it does to a deque. -/
structure Performed (op : Operation) (b b' : Buffer) : Prop where
  performed : op.perform b = some b'
  valid : b'.Valid
  readable : b'.readable = op.onBytes b.readable

theorem appendInt64_eq (b : Buffer) (x : Int) :
    b.appendInt64 x = b.append (Endian.toMemory 8 (Endian.toUnsigned 64 x)) := by
  rw [appendInt64, Endian.host_to_net_64]
  exact congrArg b.append (Endian.toMemory_toSigned 8 _)

theorem appendInt16_eq (b : Buffer) (x : Int) :
    b.appendInt16 x = b.append (Endian.bigEndian 2 (Endian.toUnsigned 16 x)) := by
  rw [appendInt16, ← Endian.toMemory_bswap]
  exact congrArg b.append (Endian.toMemory_toSigned 2 _)

theorem appendInt8_eq (b : Buffer) (x : Int) :
    b.appendInt8 x = b.append (Endian.bigEndian 1 (Endian.toUnsigned 8 x)) := rfl

theorem unWrite_spec {b : Buffer} (h : b.Valid) {len : Nat} (hlen : len ≤ b.readableBytes) :
    ∃ b', b.unWrite len = some b' ∧ b'.Valid ∧
      b'.readable = b.readable.take (b.readable.length - len) := by
  have hreader := h.reader_le
  have hwrite := h.write_le
  have hcount := length_readable h
  unfold readableBytes at hlen hcount
  refine ⟨{ b with writeIndex_ := b.writeIndex_ - len }, ?_, ⟨?_, ?_, h.reserve_le⟩, ?_⟩
  · rw [unWrite, readableBytes, if_pos hlen]
  · change b.readerIndex_ ≤ b.writeIndex_ - len
    omega
  · change b.writeIndex_ - len ≤ b.buffer_.length
    omega
  · have hback : b.readerIndex_ + (b.readable.length - len) = b.writeIndex_ - len := by omega
    have htake := take_extract (v := b.buffer_) (i := b.readerIndex_) (j := b.writeIndex_)
      (n := b.readable.length - len) (by omega)
    rw [hback] at htake
    exact htake.symm

/-- The string is the front of the readable bytes. -/
theorem retrieveAsString_spec {b : Buffer} (h : b.Valid) {len : Nat}
    (hlen : len ≤ b.readableBytes) :
    ∃ b', b.retrieveAsString len = some (b.readable.take len, b') ∧ b'.Valid ∧
      b'.readable = b.readable.drop len := by
  obtain ⟨b', hretrieve, hvalid, hreadable⟩ := retrieve_spec h hlen
  have hfront : b.readable.take len =
      b.buffer_.extract b.readerIndex_ (b.readerIndex_ + len) := by
    have hreader := h.reader_le
    unfold readableBytes at hlen
    exact take_extract (by omega)
  refine ⟨b', ?_, hvalid, hreadable⟩
  simp [retrieveAsString, hlen, hretrieve, hfront]

theorem append_performed {b : Buffer} (h : b.Valid) {op : Operation} {data : List UInt8}
    (hperform : op.perform b = b.append data)
    (honBytes : op.onBytes b.readable = b.readable ++ data) : ∃ b', Performed op b b' := by
  obtain ⟨b', happend, happended⟩ := append_spec h data
  exact ⟨b', hperform.trans happend, happended.valid, happended.readable.trans honBytes.symm⟩

theorem retrieve_performed {b : Buffer} (h : b.Valid) {op : Operation} {len : Nat}
    (hlen : len ≤ b.readableBytes) (hperform : op.perform b = b.retrieve len)
    (honBytes : op.onBytes b.readable = b.readable.drop len) : ∃ b', Performed op b b' := by
  obtain ⟨b', hretrieve, hvalid, hreadable⟩ := retrieve_spec h hlen
  exact ⟨b', hperform.trans hretrieve, hvalid, hreadable.trans honBytes.symm⟩

/-- An operation whose own assertion holds goes through. -/
theorem perform_spec {b : Buffer} (h : b.Valid) {op : Operation} (hpre : op.Precondition b) :
    ∃ b', Performed op b b' := by
  cases op with
  | append data => exact append_performed h rfl rfl
  | appendInt64 x => exact append_performed h (appendInt64_eq b x) rfl
  | appendInt32 x => exact append_performed h (appendInt32_eq b x) rfl
  | appendInt16 x => exact append_performed h (appendInt16_eq b x) rfl
  | appendInt8 x => exact append_performed h (appendInt8_eq b x) rfl
  | prepend data =>
      obtain ⟨b', hprepend, hvalid, hreadable⟩ := prepend_spec h hpre
      exact ⟨b', hprepend, hvalid, hreadable⟩
  | retrieve len => exact retrieve_performed h hpre rfl rfl
  | retrieveInt64 => exact retrieve_performed h hpre rfl rfl
  | retrieveInt32 => exact retrieve_performed h hpre rfl rfl
  | retrieveInt16 => exact retrieve_performed h hpre rfl rfl
  | retrieveInt8 => exact retrieve_performed h hpre rfl rfl
  | retrieveAll => exact ⟨b.retrieveAll, rfl, retrieveAll_valid h, readable_retrieveAll b⟩
  | retrieveAsString len =>
      obtain ⟨b', hstring, hvalid, hreadable⟩ := retrieveAsString_spec h hpre
      exact ⟨b', by rw [Operation.perform, hstring]; rfl, hvalid, hreadable⟩
  | retrieveAllAsString =>
      obtain ⟨b', hstring, hvalid, hreadable⟩ := retrieveAsString_spec h (Nat.le_refl _)
      have hempty : b.readable.drop b.readableBytes = [] := by
        rw [← length_readable h, List.drop_length]
      refine ⟨b', ?_, hvalid, hreadable.trans hempty⟩
      rw [Operation.perform, retrieveAllAsString, hstring]
      rfl
  | hasWritten data =>
      have hstored := store_advance h hpre
      exact ⟨_, hasWritten_store h.inBounds hpre, hstored.valid, hstored.readable⟩
  | unWrite len =>
      obtain ⟨b', hunWrite, hvalid, hreadable⟩ := unWrite_spec h hpre
      exact ⟨b', hunWrite, hvalid, hreadable⟩
  | ensureWriteableBytes len =>
      obtain ⟨b', hensure, happended, _⟩ := ensureWriteableBytes_spec h len
      exact ⟨b', hensure, happended.valid, by rw [happended.readable, List.append_nil]; rfl⟩

end Buffer

/-- A buffer and the deque it stands for. -/
structure ByteDeque where
  buffer : Buffer
  bytes : List UInt8
deriving DecidableEq, Repr

namespace ByteDeque

open Buffer (Operation)

def next (s : ByteDeque) (op : Operation) : Option ByteDeque :=
  if op.Precondition s.buffer then
    (op.perform s.buffer).map fun b => ⟨b, op.onBytes s.bytes⟩
  else none

def system : Transition.System ByteDeque Operation where
  init s := ∃ initalsize, s = ⟨Buffer.new initalsize, []⟩
  next := next

/-- The buffer is in order and holds the bytes of the deque. What may be called next
goes through, the strings it returns are the front of the deque, and
`ensureWriteableBytes` makes the room asked for. -/
structure Refines (s : ByteDeque) : Prop where
  valid : s.buffer.Valid
  readable : s.buffer.readable = s.bytes
  performs : ∀ op : Operation, op.Precondition s.buffer → ∃ b, op.perform s.buffer = some b ∧
    b.readable = op.onBytes s.bytes
  string : ∀ len, len ≤ s.buffer.readableBytes →
    (s.buffer.retrieveAsString len).map Prod.fst = some (s.bytes.take len)
  allString : s.buffer.retrieveAllAsString.map Prod.fst = some s.bytes
  room : ∀ len b, s.buffer.ensureWriteableBytes len = some b →
    b.readable = s.bytes ∧ len ≤ b.writeableBytes

/-- In every run the buffer is a deque of bytes. -/
theorem refines {s : ByteDeque} (h : system.Reachable s) : s.Refines := by
  obtain ⟨hvalid, hreadable⟩ : s.buffer.Valid ∧ s.buffer.readable = s.bytes := by
    apply h.invariant (I := fun s => s.buffer.Valid ∧ s.buffer.readable = s.bytes)
    · rintro _ ⟨initalsize, rfl⟩
      exact ⟨Buffer.new_valid initalsize, Buffer.readable_new initalsize⟩
    · rintro s op s' ⟨hvalid, hreadable⟩ _ hnext
      simp only [system, next] at hnext
      split_ifs at hnext with hpre
      obtain ⟨b, hb, rfl⟩ := Option.map_eq_some_iff.mp hnext
      obtain ⟨b', hperformed, hvalid', hreadable'⟩ := Buffer.perform_spec hvalid hpre
      obtain rfl := Option.some.inj (hb.symm.trans hperformed)
      exact ⟨hvalid', by rw [hreadable', hreadable]⟩
  constructor
  · exact hvalid
  · exact hreadable
  · intro op hpre
    obtain ⟨b, hperformed, _, hb⟩ := Buffer.perform_spec hvalid hpre
    exact ⟨b, hperformed, hb.trans (by rw [hreadable])⟩
  · intro len hlen
    obtain ⟨b, hstring, _⟩ := Buffer.retrieveAsString_spec hvalid hlen
    rw [hstring, hreadable]
    rfl
  · obtain ⟨b, hstring, _⟩ := Buffer.retrieveAsString_spec hvalid (Nat.le_refl _)
    rw [Buffer.retrieveAllAsString, hstring, ← Buffer.length_readable hvalid, List.take_length,
      hreadable]
    rfl
  · intro len b hb
    obtain ⟨b', hensure, happended, hroom⟩ := Buffer.ensureWriteableBytes_spec hvalid len
    obtain rfl := Option.some.inj (hb.symm.trans hensure)
    exact ⟨by rw [happended.readable, List.append_nil, hreadable], hroom⟩

/-- The prepend reserve is used up, and the vector grows. -/
theorem refines_prepended :
    ∃ s : ByteDeque, s.buffer.readerIndex_ < KCheapPrependSize ∧ s.bytes = [1, 2, 0, 7, 9] ∧
      s.Refines := by
  obtain ⟨s, hreach, hindex, hbytes⟩ : ∃ s : ByteDeque, system.Reachable s ∧
      s.buffer.readerIndex_ < KCheapPrependSize ∧ s.bytes = [1, 2, 0, 7, 9] :=
    Transition.System.exists_of_exec _ ⟨Buffer.new 2, []⟩
      [.appendInt16 7, .prepend [1, 2], .ensureWriteableBytes 3, .hasWritten [9, 8],
        .unWrite 1] ⟨2, rfl⟩ (by decide)
  exact ⟨s, hindex, hbytes, refines hreach⟩

end ByteDeque

end MuduoRpc
