import MuduoRpc.Net.Buffer

/-!
What a `Buffer` is for: a queue of bytes. Under the index invariant no
internal assertion can fail, every operation acts on the readable bytes as the
list operation does, and `ByteQueue` packages a buffer with its invariant so
that the operations become total.
-/

namespace MuduoRpc

open Slice

namespace Buffer

/-- The indices are in order. -/
structure InBounds (b : Buffer) : Prop where
  reader_le : b.readerIndex_ ≤ b.writeIndex_
  write_le : b.writeIndex_ ≤ b.buffer_.length

structure Valid (b : Buffer) : Prop where
  reader_le : b.readerIndex_ ≤ b.writeIndex_
  write_le : b.writeIndex_ ≤ b.buffer_.length
  reserve_le : KCheapPrependSize ≤ b.buffer_.length

theorem Valid.inBounds {b : Buffer} (h : b.Valid) : b.InBounds := ⟨h.reader_le, h.write_le⟩

/-- `b'` has `data` behind the readable bytes of `b`. Its vector is not shorter. -/
structure Extends (b : Buffer) (data : List UInt8) (b' : Buffer) : Prop where
  inBounds : b'.InBounds
  readable : b'.readable = b.readable ++ data
  length_le : b.buffer_.length ≤ b'.buffer_.length
  reserve : KCheapPrependSize ≤ b.readerIndex_ → KCheapPrependSize ≤ b'.readerIndex_

theorem Extends.refl {b : Buffer} (h : b.InBounds) : b.Extends [] b :=
  ⟨h, (List.append_nil _).symm, Nat.le_refl _, fun hkeep => hkeep⟩

theorem Extends.trans {b b' b'' : Buffer} {data data' : List UInt8} (h : b.Extends data b')
    (h' : b'.Extends data' b'') : b.Extends (data ++ data') b'' where
  inBounds := h'.inBounds
  readable := by rw [h'.readable, h.readable, List.append_assoc]
  length_le := Nat.le_trans h.length_le h'.length_le
  reserve := fun hkeep => h'.reserve (h.reserve hkeep)

/-- `b'` has `data` behind the readable bytes of `b`, and keeps the prepend
reserve if `b` has it. -/
structure Appended (b : Buffer) (data : List UInt8) (b' : Buffer) : Prop where
  valid : b'.Valid
  readable : b'.readable = b.readable ++ data
  reserve : KCheapPrependSize ≤ b.readerIndex_ → KCheapPrependSize ≤ b'.readerIndex_

theorem Extends.appended {b b' : Buffer} {data : List UInt8} (h : b.Extends data b')
    (hvalid : b.Valid) : b.Appended data b' where
  valid := ⟨h.inBounds.reader_le, h.inBounds.write_le, Nat.le_trans hvalid.reserve_le h.length_le⟩
  readable := h.readable
  reserve := h.reserve

theorem new_valid (initalsize : Nat) : (new initalsize).Valid where
  reader_le := Nat.le_refl _
  write_le := by simp [new]
  reserve_le := by simp [new]

@[simp] theorem readable_new (initalsize : Nat) : (new initalsize).readable = [] :=
  extract_self _ _

theorem InBounds.length_readable {b : Buffer} (h : b.InBounds) :
    b.readable.length = b.readableBytes :=
  length_extract h.write_le

theorem length_readable {b : Buffer} (h : b.Valid) :
    b.readable.length = b.readableBytes :=
  h.inBounds.length_readable

theorem retrieveAll_valid {b : Buffer} (h : b.Valid) : b.retrieveAll.Valid where
  reader_le := Nat.le_refl _
  write_le := h.reserve_le
  reserve_le := h.reserve_le

@[simp] theorem readable_retrieveAll (b : Buffer) : b.retrieveAll.readable = [] :=
  extract_self _ _

theorem retrieve_spec {b : Buffer} (h : b.Valid) {len : Nat}
    (hlen : len ≤ b.readableBytes) :
    ∃ b', b.retrieve len = some b' ∧ b'.Valid ∧ b'.readable = b.readable.drop len := by
  by_cases hpart : len < b.readableBytes
  · refine ⟨{ b with readerIndex_ := b.readerIndex_ + len }, ?_, ?_, ?_⟩
    · rw [retrieve, if_pos hlen, if_pos hpart]
    · have hwrite := h.write_le
      have hreader := h.reader_le
      unfold readableBytes at hpart
      exact ⟨by change b.readerIndex_ + len ≤ b.writeIndex_; omega, hwrite, h.reserve_le⟩
    · exact drop_extract.symm
  · refine ⟨b.retrieveAll, ?_, retrieveAll_valid h, ?_⟩
    · rw [retrieve, if_pos hlen, if_neg hpart]
    · have hall : b.readable.length ≤ len := by
        rw [length_readable h]
        omega
      rw [readable_retrieveAll, List.drop_eq_nil_of_le hall]

theorem length_resize {v : List UInt8} {size : Nat} (h : v.length ≤ size) :
    (resize v size).length = size := by
  simp only [resize, List.length_append, List.length_take, List.length_replicate]
  omega

theorem extract_resize {v : List UInt8} {size i j : Nat} (h : v.length ≤ size)
    (hj : j ≤ v.length) : (resize v size).extract i j = v.extract i j := by
  rw [resize, List.take_of_length_le h, extract_append_left hj]

/-- Growing keeps the indices; compacting moves the readable bytes down to the
reserve. The compaction branch is entered only with the reader index above the
reserve, so its assertion cannot fail. -/
theorem makespace_extends {b : Buffer} (h : b.InBounds) {len : Nat}
    (hneed : b.writeableBytes < len) :
    ∃ b', b.makespace len = some b' ∧ b.Extends [] b' ∧ len ≤ b'.writeableBytes := by
  have hreader := h.reader_le
  have hwrite := h.write_le
  by_cases hgrow : b.writeableBytes + b.prependableBytes < len + KCheapPrependSize
  · have hsize : b.buffer_.length ≤ b.writeIndex_ + len := by
      unfold writeableBytes at hneed
      omega
    have hlen := length_resize hsize
    refine ⟨{ b with buffer_ := resize b.buffer_ (b.writeIndex_ + len) }, ?_, ?_, ?_⟩
    · rw [makespace, if_pos hgrow]
    · refine ⟨⟨hreader, ?_⟩, ?_, ?_, fun hkeep => hkeep⟩
      · change b.writeIndex_ ≤ (resize b.buffer_ (b.writeIndex_ + len)).length
        omega
      · rw [List.append_nil]
        exact extract_resize hsize hwrite
      · change b.buffer_.length ≤ (resize b.buffer_ (b.writeIndex_ + len)).length
        omega
    · change len ≤ (resize b.buffer_ (b.writeIndex_ + len)).length - b.writeIndex_
      omega
  · have hdown : KCheapPrependSize < b.readerIndex_ := by
      unfold prependableBytes at hgrow
      omega
    have hcount := h.length_readable
    unfold readableBytes at hcount
    have hfit : KCheapPrependSize + b.readable.length ≤ b.buffer_.length := by omega
    have hlen := length_overwrite hfit
    refine ⟨{ buffer_ := overwrite b.buffer_ KCheapPrependSize b.readable
              readerIndex_ := KCheapPrependSize
              writeIndex_ := KCheapPrependSize + b.readableBytes }, ?_, ?_, ?_⟩
    · rw [makespace, if_neg hgrow, if_pos hdown]
      simp [readableBytes]
    · refine ⟨⟨Nat.le_add_right _ _, ?_⟩, ?_, Nat.le_of_eq hlen.symm, fun _ => Nat.le_refl _⟩
      · change KCheapPrependSize + b.readableBytes ≤
          (overwrite b.buffer_ KCheapPrependSize b.readable).length
        unfold readableBytes
        omega
      · rw [List.append_nil]
        change (overwrite b.buffer_ KCheapPrependSize b.readable).extract
          KCheapPrependSize (KCheapPrependSize + b.readableBytes) = b.readable
        rw [← h.length_readable]
        exact extract_overwrite_same (by omega)
    · change len ≤ (overwrite b.buffer_ KCheapPrependSize b.readable).length -
        (KCheapPrependSize + b.readableBytes)
      unfold writeableBytes prependableBytes at hgrow
      unfold readableBytes
      omega

theorem ensureWriteableBytes_extends {b : Buffer} (h : b.InBounds) (len : Nat) :
    ∃ b', b.ensureWriteableBytes len = some b' ∧ b.Extends [] b' ∧
      len ≤ b'.writeableBytes := by
  by_cases hneed : b.writeableBytes < len
  · obtain ⟨b', hspace, hextends, hroom⟩ := makespace_extends h hneed
    exact ⟨b', by simp [ensureWriteableBytes, hneed, hspace, hroom], hextends, hroom⟩
  · have hroom : len ≤ b.writeableBytes := Nat.le_of_not_lt hneed
    exact ⟨b, by simp [ensureWriteableBytes, hneed, hroom], .refl h, hroom⟩

theorem ensureWriteableBytes_spec {b : Buffer} (h : b.Valid) (len : Nat) :
    ∃ b', b.ensureWriteableBytes len = some b' ∧ b.Appended [] b' ∧
      len ≤ b'.writeableBytes := by
  obtain ⟨b', hensure, hextends, hroom⟩ := ensureWriteableBytes_extends h.inBounds len
  exact ⟨b', hensure, hextends.appended h, hroom⟩

theorem InBounds.write_add_le {b : Buffer} (h : b.InBounds) {len : Nat}
    (hroom : len ≤ b.writeableBytes) : b.writeIndex_ + len ≤ b.buffer_.length := by
  have hwrite := h.write_le
  unfold writeableBytes at hroom
  omega

/-- Moving the write index over bytes already stored makes them readable. -/
theorem store_extends {b : Buffer} (h : b.InBounds) {data : List UInt8}
    (hroom : data.length ≤ b.writeableBytes) :
    b.Extends data { b.store data with writeIndex_ := b.writeIndex_ + data.length } := by
  have hreader := h.reader_le
  have hfit := h.write_add_le hroom
  have hlen := length_overwrite hfit
  refine ⟨⟨?_, ?_⟩, extract_overwrite_extend hreader h.write_le, Nat.le_of_eq hlen.symm,
    fun hkeep => hkeep⟩
  · change b.readerIndex_ ≤ b.writeIndex_ + data.length
    omega
  · change b.writeIndex_ + data.length ≤ (overwrite b.buffer_ b.writeIndex_ data).length
    omega

theorem store_advance {b : Buffer} (h : b.Valid) {data : List UInt8}
    (hroom : data.length ≤ b.writeableBytes) :
    b.Appended data { b.store data with writeIndex_ := b.writeIndex_ + data.length } :=
  (store_extends h.inBounds hroom).appended h

theorem hasWritten_store {b : Buffer} {data : List UInt8} (h : b.InBounds)
    (hroom : data.length ≤ b.writeableBytes) :
    (b.store data).hasWritten data.length =
      some { b.store data with writeIndex_ := b.writeIndex_ + data.length } := by
  have hsame : (b.store data).writeableBytes = b.writeableBytes := by
    change (overwrite b.buffer_ b.writeIndex_ data).length - b.writeIndex_ = b.writeableBytes
    rw [length_overwrite (h.write_add_le hroom)]
    rfl
  rw [hasWritten, hsame, if_pos hroom]
  rfl

theorem append_extends {b : Buffer} (h : b.InBounds) (data : List UInt8) :
    ∃ b', b.append data = some b' ∧ b.Extends data b' := by
  obtain ⟨c, hensure, hextends, hroom⟩ := ensureWriteableBytes_extends h data.length
  have hstored := store_extends hextends.inBounds hroom
  refine ⟨_, ?_, hextends.trans hstored⟩
  simp [append, hensure, hasWritten_store hextends.inBounds hroom]

theorem append_spec {b : Buffer} (h : b.Valid) (data : List UInt8) :
    ∃ b', b.append data = some b' ∧ b.Appended data b' := by
  obtain ⟨b', happend, hextends⟩ := append_extends h.inBounds data
  exact ⟨b', happend, hextends.appended h⟩

theorem appendInt32_eq (b : Buffer) (x : Int) :
    b.appendInt32 x = b.append (Endian.bigEndian 4 (Endian.toUnsigned 32 x)) := by
  have hmod : Endian.host_to_net_32 (Endian.toUnsigned 32 x) % 2 ^ 32 =
      Endian.host_to_net_32 (Endian.toUnsigned 32 x) % 256 ^ 4 := rfl
  rw [appendInt32, Endian.toUnsigned_toSigned, hmod, Endian.toMemory_mod,
    Endian.host_to_net_32, Endian.toMemory_bswap]

theorem prepend_spec {b : Buffer} (h : b.Valid) {data : List UInt8}
    (hroom : data.length ≤ b.readerIndex_) :
    ∃ b', b.prepend data = some b' ∧ b'.Valid ∧ b'.readable = data ++ b.readable := by
  have hreader := h.reader_le
  have hwrite := h.write_le
  have hfit : b.readerIndex_ - data.length + data.length ≤ b.buffer_.length := by omega
  have hlen := length_overwrite hfit
  have hback : b.readerIndex_ - data.length + data.length = b.readerIndex_ := by omega
  refine ⟨_, by rw [prepend, prependableBytes, if_pos hroom], ⟨?_, ?_, ?_⟩, ?_⟩
  · change b.readerIndex_ - data.length ≤ b.writeIndex_
    omega
  · exact hlen.symm ▸ h.write_le
  · exact hlen.symm ▸ h.reserve_le
  · change (overwrite b.buffer_ (b.readerIndex_ - data.length) data).extract
      (b.readerIndex_ - data.length) b.writeIndex_ = data ++ b.readable
    rw [extract_overwrite_front (by omega) (by omega), hback]
    rfl

/-- The integer that four bytes in network order stand for. -/
def int32At (bytes : List UInt8) : Int :=
  Endian.toSigned 32 (Endian.ofMemory (bytes.take 4).reverse)

theorem int32At_bigEndian (value : Nat) (rest : List UInt8) :
    int32At (Endian.bigEndian 4 value ++ rest) = Endian.toSigned 32 value := by
  have htake : (Endian.bigEndian 4 value ++ rest).take 4 = Endian.bigEndian 4 value := by
    rw [List.take_append_of_le_length (by simp)]
    exact List.take_of_length_le (by simp)
  rw [int32At, htake, Endian.bigEndian, List.reverse_reverse, Endian.ofMemory_toMemory]
  exact Endian.toSigned_mod 32 value

theorem peekInt32_eq {b : Buffer} (h : b.Valid) (hroom : 4 ≤ b.readableBytes) :
    b.peekInt32 = some (int32At b.readable) := by
  have hfour : (b.readable.take 4).length = 4 := by
    rw [List.length_take, length_readable h]
    omega
  simp only [peekInt32, if_pos hroom, Endian.toSigned_net_to_host_32 hfour, int32At]

/-- Filling the vector's tail and appending what did not fit is one append. -/
theorem readFd_extends {b : Buffer} (h : b.InBounds) (data : List UInt8) :
    ∃ b', b.readFd data = some b' ∧ b.Extends data b' := by
  by_cases hfits : data.length ≤ b.writeableBytes
  · have hwhole : data.take b.writeableBytes = data := List.take_of_length_le hfits
    refine ⟨_, ?_, store_extends h hfits⟩
    simp only [readFd]
    rw [if_pos hfits, hwhole]
  · have htake : (data.take b.writeableBytes).length = b.writeableBytes := by
      rw [List.length_take]
      omega
    have hstored := store_extends h (Nat.le_of_eq htake)
    have hlast : (b.store (data.take b.writeableBytes)).buffer_.length =
        b.writeIndex_ + (data.take b.writeableBytes).length := by
      have hwrite := h.write_le
      change (overwrite b.buffer_ b.writeIndex_ _).length = _
      rw [length_overwrite (h.write_add_le (Nat.le_of_eq htake)), htake, writeableBytes]
      omega
    obtain ⟨b', happend, hextends⟩ := append_extends hstored.inBounds (data.drop b.writeableBytes)
    refine ⟨b', ?_, ?_⟩
    · simp only [readFd]
      rw [if_neg hfits, hlast]
      exact happend
    · have hboth := hstored.trans hextends
      rw [List.take_append_drop] at hboth
      exact hboth

theorem readFd_spec {b : Buffer} (h : b.Valid) (data : List UInt8) :
    ∃ b', b.readFd data = some b' ∧ b'.Valid ∧ b'.readable = b.readable ++ data := by
  obtain ⟨b', hread, hextends⟩ := readFd_extends h.inBounds data
  exact ⟨b', hread, (hextends.appended h).valid, hextends.readable⟩

end Buffer

/-- A buffer whose indices are in order: the byte queue. -/
structure ByteQueue where
  buffer : Buffer
  valid : buffer.Valid

namespace ByteQueue

def bytes (q : ByteQueue) : List UInt8 := q.buffer.readable

def readableBytes (q : ByteQueue) : Nat := q.buffer.readableBytes

theorem length_bytes (q : ByteQueue) : q.bytes.length = q.readableBytes :=
  Buffer.length_readable q.valid

/-- The result of a buffer operation whose assertions are known to hold. -/
def ofResult (result : Option Buffer) (h : ∃ b, result = some b ∧ b.Valid) : ByteQueue where
  buffer := result.get (by obtain ⟨b, hb, _⟩ := h; rw [hb]; rfl)
  valid := by
    obtain ⟨b, hb, hvalid⟩ := h
    simpa [hb] using hvalid

theorem ofResult_eq {result : Option Buffer} {h : ∃ b, result = some b ∧ b.Valid}
    {b : Buffer} (hb : result = some b) : (ofResult result h).buffer = b := by
  simp [ofResult, hb]

def new (initalsize : Nat) : ByteQueue := ⟨Buffer.new initalsize, Buffer.new_valid initalsize⟩

def append (q : ByteQueue) (data : List UInt8) : ByteQueue :=
  ofResult (q.buffer.append data) (by
    obtain ⟨b, hb, happ⟩ := Buffer.append_spec q.valid data
    exact ⟨b, hb, happ.valid⟩)

def retrieve (q : ByteQueue) (len : Nat) (h : len ≤ q.readableBytes) : ByteQueue :=
  ofResult (q.buffer.retrieve len) (by
    obtain ⟨b, hb, hvalid, _⟩ := Buffer.retrieve_spec q.valid h
    exact ⟨b, hb, hvalid⟩)

def readFd (q : ByteQueue) (data : List UInt8) : ByteQueue :=
  ofResult (q.buffer.readFd data) (by
    obtain ⟨b, hb, hvalid, _⟩ := Buffer.readFd_spec q.valid data
    exact ⟨b, hb, hvalid⟩)

def peekInt32 (q : ByteQueue) (h : 4 ≤ q.readableBytes) : Int :=
  q.buffer.peekInt32.get (by rw [Buffer.peekInt32_eq q.valid h]; rfl)

theorem peekInt32_eq (q : ByteQueue) (h : 4 ≤ q.readableBytes) :
    q.peekInt32 h = Buffer.int32At q.bytes := by
  apply Option.some.inj
  rw [peekInt32, Option.some_get, bytes]
  exact Buffer.peekInt32_eq q.valid h

@[simp] theorem bytes_new (initalsize : Nat) : (new initalsize).bytes = [] :=
  Buffer.readable_new initalsize

@[simp] theorem bytes_append (q : ByteQueue) (data : List UInt8) :
    (q.append data).bytes = q.bytes ++ data := by
  obtain ⟨b, hb, happ⟩ := Buffer.append_spec q.valid data
  rw [bytes, append, ofResult_eq hb]
  exact happ.readable

@[simp] theorem bytes_retrieve (q : ByteQueue) (len : Nat) (h : len ≤ q.readableBytes) :
    (q.retrieve len h).bytes = q.bytes.drop len := by
  obtain ⟨b, hb, _, hreadable⟩ := Buffer.retrieve_spec q.valid h
  rw [bytes, retrieve, ofResult_eq hb]
  exact hreadable

@[simp] theorem readableBytes_retrieve (q : ByteQueue) (len : Nat)
    (h : len ≤ q.readableBytes) :
    (q.retrieve len h).readableBytes = q.readableBytes - len := by
  rw [← length_bytes, bytes_retrieve, List.length_drop, length_bytes]

@[simp] theorem bytes_readFd (q : ByteQueue) (data : List UInt8) :
    (q.readFd data).bytes = q.bytes ++ data := by
  obtain ⟨b, hb, _, hreadable⟩ := Buffer.readFd_spec q.valid data
  rw [bytes, readFd, ofResult_eq hb]
  exact hreadable

end ByteQueue

end MuduoRpc
