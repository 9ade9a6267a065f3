import MuduoRpc.Rpc.Stream

/-!
The encoder against the decoder. A frame that `fillEmptyMessage` builds passes
every check of `parse` up to the tag; the tag comparison is inverted, so the
frame is rejected as a message of unknown type.
-/

namespace MuduoRpc.Rpc

variable {Msg : Type*} (lib : ProtoLib Msg)

/-- The tag and the serialized message: the bytes the checksum covers. -/
def tagged (message : Msg) : List UInt8 :=
  tag_ ++ lib.serializeWithCachedSizesToArray message

/-- What the length field of a frame counts. -/
def body (message : Msg) : List UInt8 :=
  tagged lib message ++ Endian.bigEndian 4
    (Endian.toUnsigned 32 (checksum lib (tagged lib message) (tagged lib message).length))

/-- The bytes that `fillEmptyMessage` leaves readable in a new buffer. -/
def Encodes (message : Msg) (frame : List UInt8) : Prop :=
  ∃ (initalsize : Nat) (buf : Buffer),
    fillEmptyMessage lib (Buffer.new initalsize) message = some buf ∧ frame = buf.readable

variable {lib}

theorem serializeToBuffer_spec (hsized : lib.Sized) {message : Msg} {buf buf' : Buffer}
    {byte_size : Int} (hvalid : buf.Valid)
    (h : serializeToBuffer lib message buf = some (byte_size, buf')) :
    byte_size = (lib.serializeWithCachedSizesToArray message).length ∧
      buf.Appended (lib.serializeWithCachedSizesToArray message) buf' := by
  simp only [serializeToBuffer, toIntSize, intAdd, hsized.byteSizeLong_eq, Option.bind_eq_bind,
    Option.bind_eq_some_iff, Option.ite_none_right_eq_some] at h
  obtain ⟨_, ⟨_, hsize⟩, room, ⟨_, hroom⟩, grown, hensure, written, hwritten, hresult⟩ := h
  obtain ⟨rfl, rfl⟩ := Prod.mk.inj (Option.some.inj hresult)
  cases hsize
  cases hroom
  obtain ⟨grown', hensure', happ, hcover⟩ := Buffer.ensureWriteableBytes_spec hvalid
    (((lib.serializeWithCachedSizesToArray message).length : Int) + KChecksumLen).toNat
  cases hensure.symm.trans hensure'
  have hfits : (lib.serializeWithCachedSizesToArray message).length ≤ grown.writeableBytes := by
    have hfour : KChecksumLen = 4 := rfl
    omega
  have hstored := Buffer.store_advance happ.valid hfits
  rw [Int.toNat_natCast, Buffer.hasWritten_store happ.valid.inBounds hfits] at hwritten
  cases hwritten
  refine ⟨rfl, hstored.valid, ?_, fun hkeep => hstored.reserve (happ.reserve hkeep)⟩
  rw [hstored.readable, happ.readable, List.append_nil]

/-- The length field is stored in network order. -/
theorem length_field (n : Nat) :
    Endian.toMemory 4 (Endian.toUnsigned 32 (Endian.toSigned 32 (Endian.host_to_net_32
      (Endian.toUnsigned 32 (Endian.toSigned 32 n))))) = Endian.bigEndian 4 n := by
  have hrange : 2 ^ 32 = 256 ^ 4 := by decide
  rw [Endian.toUnsigned_toSigned, Endian.toUnsigned_toSigned, hrange, Endian.toMemory_mod,
    Endian.host_to_net_32, Endian.toMemory_bswap, Endian.bigEndian, Endian.toMemory_mod,
    Endian.bigEndian]

/-- The layout of a frame: the length of the body, then the body. -/
theorem fillEmptyMessage_spec (hsized : lib.Sized) {message : Msg} {buf buf' : Buffer}
    (hvalid : buf.Valid) (hreserve : KCheapPrependSize ≤ buf.readerIndex_)
    (h : fillEmptyMessage lib buf message = some buf') :
    buf'.readable = Endian.bigEndian 4 (body lib message).length ++ body lib message := by
  simp only [fillEmptyMessage, Option.bind_eq_bind, Option.bind_eq_some_iff,
    Option.ite_none_right_eq_some] at h
  obtain ⟨hempty, b₁, htag, ⟨byte_size, b₂⟩, hserialize, b₃, hchecksum, _, hprepend⟩ := h
  have hnil : buf.readable = [] := by
    rw [← List.length_eq_zero_iff, Buffer.length_readable hvalid, hempty]
  obtain ⟨_, htag', htagged⟩ := Buffer.append_spec hvalid tag_
  cases htag.symm.trans htag'
  obtain ⟨_, hpayload⟩ := serializeToBuffer_spec hsized htagged.valid hserialize
  have htwo : b₂.readable = tagged lib message := by
    rw [hpayload.readable, htagged.readable, hnil, List.nil_append, tagged]
  have hcount : (b₂.readableBytes : Int) = (tagged lib message).length := by
    rw [← Buffer.length_readable hpayload.valid, htwo]
  rw [htwo, hcount, Buffer.appendInt32_eq] at hchecksum
  obtain ⟨_, hchecksum', hchecked⟩ := Buffer.append_spec hpayload.valid (Endian.bigEndian 4
    (Endian.toUnsigned 32 (checksum lib (tagged lib message) (tagged lib message).length)))
  cases hchecksum.symm.trans hchecksum'
  have hthree : b₃.readable = body lib message := by
    rw [hchecked.readable, htwo, body]
  have hroom : 4 ≤ b₃.readerIndex_ := by
    have hkept := hchecked.reserve (hpayload.reserve (htagged.reserve hreserve))
    exact Nat.le_trans (by decide) hkept
  have hlength : b₃.readableBytes = (body lib message).length := by
    rw [← Buffer.length_readable hchecked.valid, hthree]
  rw [length_field, hlength] at hprepend
  have hheader : (Endian.bigEndian 4 (body lib message).length).length ≤ b₃.readerIndex_ := by
    rw [Endian.length_bigEndian]
    exact hroom
  obtain ⟨_, hprepend', _, hreadable⟩ := Buffer.prepend_spec hchecked.valid hheader
  cases hprepend.symm.trans hprepend'
  rw [hreadable, hthree]

theorem encodes_eq (hsized : lib.Sized) {message : Msg} {frame : List UInt8}
    (h : Encodes lib message frame) :
    frame = Endian.bigEndian 4 (body lib message).length ++ body lib message := by
  obtain ⟨initalsize, buf, hfill, rfl⟩ := h
  exact fillEmptyMessage_spec hsized (Buffer.new_valid initalsize) (Nat.le_refl _) hfill

theorem asInt32_eq {buf : List UInt8} (h : 4 ≤ buf.length) :
    asInt32 buf = Buffer.int32At buf := by
  have hfour : (buf.take 4).length = 4 := by
    rw [List.length_take]
    omega
  rw [asInt32, Endian.toSigned_net_to_host_32 hfour, Buffer.int32At]

theorem memcmp_prefix (xs rest : List UInt8) (n : Nat) (h : n ≤ xs.length) :
    memcmp (xs ++ rest) xs n = 0 := by
  induction xs generalizing n with
  | nil => cases n <;> simp_all [memcmp]
  | cons x xs ih =>
      cases n with
      | zero => rfl
      | succ n =>
          rw [List.length_cons] at h
          rw [List.cons_append, memcmp, if_pos rfl]
          exact ih n (by omega)

theorem length_body (message : Msg) :
    (body lib message).length = (tagged lib message).length + 4 := by
  rw [body, List.length_append, Endian.length_bigEndian]

/-- The checksum at the end of a body is the one of the bytes before it. -/
theorem vailddataChecksum_body (message : Msg) :
    vailddataChecksum lib (body lib message) (body lib message).length = true := by
  have hdata : (((body lib message).length : Int) - KChecksumLen) =
      (tagged lib message).length := by
    have hfour : KChecksumLen = 4 := rfl
    rw [length_body, hfour]
    omega
  have hcovered : checksum lib (body lib message) (tagged lib message).length =
      checksum lib (tagged lib message) (tagged lib message).length := by
    rw [checksum, checksum, body, Int.toNat_natCast, List.take_left, List.take_length]
  have hstored : asInt32 ((body lib message).drop (tagged lib message).length) =
      checksum lib (tagged lib message) (tagged lib message).length := by
    rw [body, List.drop_left, asInt32_eq (by simp), ← List.append_nil (Endian.bigEndian 4 _),
      Buffer.int32At_bigEndian, checksum, Endian.toUnsigned_toSigned, Endian.toSigned_mod]
  rw [vailddataChecksum, hdata, Int.toNat_natCast, hcovered, hstored, beq_self_eq_true]

/-- `parse` gives up on every well-formed body at the tag comparison. -/
theorem parse_body (message : Msg) :
    parse lib (body lib message) (body lib message).length =
      (.KUnKnownMessageType, lib.fresh) := by
  have htag : memcmp (body lib message) tag_ tag_.length = 0 := by
    rw [body, tagged, List.append_assoc]
    exact memcmp_prefix tag_ _ _ (Nat.le_refl _)
  unfold parse
  rw [if_pos (vailddataChecksum_body message), htag]
  rfl

/-- To the decoder a well-formed frame is one that fails. -/
theorem failsAtFront_of_encodes (hsized : lib.Sized) {message : Msg} {frame : List UInt8}
    (h : Encodes lib message frame) (hlimit : frame.length - KHeaderLen ≤ KMaxMessageLen) :
    FailsAtFront lib frame := by
  have hframe := encodes_eq hsized h
  have hlength : frame.length = 4 + (body lib message).length := by
    rw [hframe, List.length_append, Endian.length_bigEndian]
  have hheader : KHeaderLen = 4 := rfl
  have hmaxval : KMaxMessageLen = 67108864 := rfl
  have hlen : Buffer.int32At frame = (body lib message).length := by
    rw [hframe, Buffer.int32At_bigEndian]
    exact Endian.toSigned_of_lt (by omega)
  have hbody : (frame.drop 4).take (body lib message).length = body lib message := by
    rw [hframe, List.drop_left' (Endian.length_bigEndian 4 _), List.take_length]
  have hfour : KHeaderLen.toNat = 4 := rfl
  refine ⟨by omega, .inr (.inr ⟨?_, ?_⟩)⟩
  · rw [hlen]
    clear hfour
    omega
  · rw [hlen, hfour, Int.toNat_natCast, hbody, parse_body]
    exact ErrorCode.noConfusion

theorem onMessage_of_encodes (hsized : lib.Sized) {message : Msg} {frame more : List UInt8}
    (h : Encodes lib message frame) (hlimit : frame.length - KHeaderLen ≤ KMaxMessageLen)
    {buffer : ByteQueue} (hbuffer : buffer.bytes = frame ++ more) :
    onMessage lib buffer = ([], buffer) := by
  apply onMessage_of_none
  rw [hbuffer]
  exact next_of_failsAtFront (failsAtFront_of_encodes hsized h hlimit) more

/-- One call of `onMessage` on the encodings of a list of messages gives the
messages back exactly if the list is empty. -/
theorem onMessage_encodings_iff (hsized : lib.Sized) {messages : List Msg}
    {frames : List (List UInt8)} (hframes : List.Forall₂ (Encodes lib) messages frames)
    (hlimits : ∀ frame ∈ frames, KMinMessageLen ≤ frame.length - KHeaderLen ∧
      frame.length - KHeaderLen ≤ KMaxMessageLen)
    {buffer : ByteQueue} (hbuffer : buffer.bytes = frames.flatten) :
    (onMessage lib buffer).1 = messages ∧ (onMessage lib buffer).2.bytes = [] ↔
      messages = [] := by
  cases hframes with
  | nil =>
      have hnone : next lib buffer.bytes = none := by
        rw [hbuffer]
        rfl
      rw [onMessage_of_none hnone]
      exact ⟨fun _ => rfl, fun _ => ⟨rfl, hbuffer⟩⟩
  | cons hfirst _ =>
      rw [onMessage_of_encodes hsized hfirst (hlimits _ List.mem_cons_self).2 hbuffer]
      constructor
      · rintro ⟨hmessages, _⟩
        exact hmessages.symm
      · intro hmessages
        cases hmessages

theorem encodes_of_readable {initalsize : Nat} {message : Msg} {frame : List UInt8}
    (h : (fillEmptyMessage lib (Buffer.new initalsize) message).map Buffer.readable =
      some frame) : Encodes lib message frame := by
  obtain ⟨buf, hfill, hreadable⟩ := Option.map_eq_some_iff.mp h
  exact ⟨initalsize, buf, hfill, hreadable.symm⟩

/-- The frame of a message whose only field is its type, `RESPONSE`. -/
def responseFrame : List UInt8 := [0, 0, 0, 10, 82, 80, 67, 48, 8, 1, 5, 47, 1, 31]

theorem encodes_responseFrame : Encodes MessageType.runtime .RESPONSE responseFrame :=
  @encodes_of_readable _ _ 16 _ _ (by decide)

/-- The statement at two queued frames. -/
theorem onMessage_encodings_iff_two_responses :
    let buffer := (ByteQueue.new 16).append (responseFrame ++ responseFrame)
    (onMessage MessageType.runtime buffer).1 = [.RESPONSE, .RESPONSE] ∧
        (onMessage MessageType.runtime buffer).2.bytes = [] ↔
      [MessageType.RESPONSE, .RESPONSE] = [] := by
  refine onMessage_encodings_iff MessageType.runtime_sized
    (.cons encodes_responseFrame (.cons encodes_responseFrame .nil)) (by decide) ?_
  rw [ByteQueue.bytes_append, ByteQueue.bytes_new]
  rfl

/-- A single well-formed frame in the buffer is not delivered. -/
theorem onMessage_keeps_responseFrame :
    MessageType.runtime.Sized ∧ (∀ message, MessageType.runtime.RoundTrips message) ∧
      Encodes MessageType.runtime .RESPONSE responseFrame ∧
      KMinMessageLen ≤ responseFrame.length - KHeaderLen ∧
      responseFrame.length - KHeaderLen ≤ KMaxMessageLen ∧
      ((ByteQueue.new 16).append responseFrame).bytes = [responseFrame].flatten ∧
      ¬((onMessage MessageType.runtime ((ByteQueue.new 16).append responseFrame)).1 =
          [.RESPONSE] ∧
        (onMessage MessageType.runtime ((ByteQueue.new 16).append responseFrame)).2.bytes =
          []) := by
  have hbytes : ((ByteQueue.new 16).append responseFrame).bytes = responseFrame ++ [] := by
    rw [ByteQueue.bytes_append, ByteQueue.bytes_new, List.append_nil, List.nil_append]
  have hlimit : (responseFrame.length : Int) - KHeaderLen ≤ KMaxMessageLen := by decide
  refine ⟨MessageType.runtime_sized, MessageType.runtime_roundTrips, encodes_responseFrame,
    by decide, hlimit, hbytes, ?_⟩
  rw [onMessage_of_encodes MessageType.runtime_sized encodes_responseFrame hlimit hbytes]
  rintro ⟨hmessages, _⟩
  cases hmessages

end MuduoRpc.Rpc
