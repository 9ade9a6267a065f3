import MuduoRpc.Rpc.SubRanges

/-!
The length field on both sides. The sender lets every size through that
`ToIntSize` accepts; the receiver refuses a body of more than 64 MiB. A body
above the limit is sent all the same, and the receiver never gets past it.
-/

namespace MuduoRpc.Rpc

variable {Msg : Type*} (lib : ProtoLib Msg)

/-- `onMessage` looks at the length field of these bytes and breaks. -/
def StopsAtLength (bytes : List UInt8) : Prop :=
  (KChecksumLen + KHeaderLen).toNat ≤ bytes.length ∧
    (Buffer.int32At bytes > KMaxMessageLen ∨ Buffer.int32At bytes < KMinMessageLen)

/-- A frame whose length field is right and admitted. What was readable when
the field was cast is what follows it in the frame. -/
structure LengthFits (frame : List UInt8) : Prop where
  cast : (frame.length : Int) - KHeaderLen < 2 ^ 31
  field : Buffer.int32At frame = frame.length - KHeaderLen
  min_le : KMinMessageLen ≤ Buffer.int32At frame
  le_max : Buffer.int32At frame ≤ KMaxMessageLen
  passes : ∀ more, ¬StopsAtLength (frame ++ more)

/-- The message is sent with no `int` overflow and in a frame that fits. The
only test that could refuse it is the one of `ToIntSize`. -/
def LengthsAgree (initalsize : Nat) (message : Msg) : Prop :=
  ∃ byte_size room buf, toIntSize (lib.byteSizeLong message) = some byte_size ∧
    intAdd byte_size KChecksumLen = some room ∧
    fillEmptyMessage lib (Buffer.new initalsize) message = some buf ∧ LengthFits buf.readable

variable {lib}

theorem serializeToBuffer_eq_some (hsized : lib.Sized) {message : Msg} {buf : Buffer}
    (hvalid : buf.Valid) (hsize : lib.byteSizeLong message + 4 < 2 ^ 31) :
    ∃ buf', serializeToBuffer lib message buf =
      some ((lib.byteSizeLong message : Int), buf') := by
  have hsmall : lib.byteSizeLong message < 2 ^ 31 := by omega
  have hroom : -2 ^ 31 ≤ (lib.byteSizeLong message : Int) + KChecksumLen ∧
      (lib.byteSizeLong message : Int) + KChecksumLen < 2 ^ 31 := by
    have hfour : KChecksumLen = 4 := rfl
    omega
  obtain ⟨grown, hensure, happ, hcover⟩ := Buffer.ensureWriteableBytes_spec hvalid
    ((lib.byteSizeLong message : Int) + KChecksumLen).toNat
  have hlength := hsized.byteSizeLong_eq message
  have hfits : (lib.serializeWithCachedSizesToArray message).length ≤ grown.writeableBytes := by
    have hfour : KChecksumLen = 4 := rfl
    omega
  obtain ⟨written, hwritten⟩ : ∃ written, (grown.store
      (lib.serializeWithCachedSizesToArray message)).hasWritten (lib.byteSizeLong message) =
        some written := by
    rw [hlength]
    exact ⟨_, Buffer.hasWritten_store happ.valid.inBounds hfits⟩
  refine ⟨written, ?_⟩
  rw [serializeToBuffer, toIntSize, if_pos hsmall, Option.bind_eq_bind, Option.bind_some, intAdd,
    if_pos hroom]
  simp only [Option.bind_eq_bind, Option.bind_some, hensure, Int.toNat_natCast, hwritten]

/-- No assertion of `fillEmptyMessage` fails on a new buffer. -/
theorem fillEmptyMessage_eq_some (hsized : lib.Sized) {message : Msg}
    (hsize : lib.byteSizeLong message + 4 < 2 ^ 31) (initalsize : Nat) :
    ∃ buf, fillEmptyMessage lib (Buffer.new initalsize) message = some buf := by
  have hvalid := Buffer.new_valid initalsize
  have hreserve : KCheapPrependSize ≤ (Buffer.new initalsize).readerIndex_ := Nat.le_refl _
  have hempty : (Buffer.new initalsize).readableBytes = 0 := Nat.sub_self _
  obtain ⟨b₁, htag, htagged⟩ := Buffer.append_spec hvalid tag_
  obtain ⟨b₂, hserialize⟩ := serializeToBuffer_eq_some hsized htagged.valid hsize
  obtain ⟨_, hpayload⟩ := serializeToBuffer_spec hsized htagged.valid hserialize
  obtain ⟨b₃, hchecksum, hchecked⟩ := Buffer.append_spec hpayload.valid (Endian.bigEndian 4
    (Endian.toUnsigned 32 (checksum lib b₂.readable b₂.readableBytes)))
  rw [← Buffer.appendInt32_eq] at hchecksum
  have hcount : (b₃.readableBytes : Int) =
      tag_.length + (lib.byteSizeLong message : Int) + KChecksumLen := by
    rw [← Buffer.length_readable hchecked.valid, hchecked.readable, hpayload.readable,
      htagged.readable, Buffer.readable_new, hsized.byteSizeLong_eq]
    simp only [List.length_append, Endian.length_bigEndian, List.length_nil, Nat.zero_add]
    push_cast
    rfl
  have hroom : 4 ≤ b₃.readerIndex_ := by
    have hkept := hchecked.reserve (hpayload.reserve (htagged.reserve hreserve))
    exact Nat.le_trans (by decide) hkept
  have hheader : (Endian.toMemory 4 (Endian.toUnsigned 32 (Endian.toSigned 32
      (Endian.host_to_net_32 (Endian.toUnsigned 32
        (Endian.toSigned 32 b₃.readableBytes)))))).length ≤ b₃.readerIndex_ := by
    rw [Endian.length_toMemory]
    exact hroom
  obtain ⟨b₄, hprepend, _⟩ := Buffer.prepend_spec hchecked.valid hheader
  refine ⟨b₄, ?_⟩
  rw [fillEmptyMessage, if_pos hempty, Option.bind_eq_bind, htag, Option.bind_some]
  simp only [Option.bind_eq_bind, hserialize, Option.bind_some, hchecksum]
  rw [if_pos hcount]
  exact hprepend

theorem length_body_eq (hsized : lib.Sized) (message : Msg) :
    (body lib message).length = lib.byteSizeLong message + 8 := by
  have hfour : tag_.length = 4 := rfl
  rw [length_body, tagged, List.length_append, hsized.byteSizeLong_eq, hfour]
  omega

theorem readable_of_fillEmptyMessage (hsized : lib.Sized) {message : Msg} {initalsize : Nat}
    {buf : Buffer} (h : fillEmptyMessage lib (Buffer.new initalsize) message = some buf) :
    buf.readable = Endian.bigEndian 4 (body lib message).length ++ body lib message :=
  encodes_eq hsized ⟨initalsize, buf, h, rfl⟩

theorem lengthFits_of_called {frame body : List UInt8} (h : Called frame body []) :
    LengthFits frame := by
  have hlength := h.length_eq
  have hlen := h.int32At_eq
  have hmax := h.le_max
  have hheader : KHeaderLen = 4 := rfl
  have hmaxval : KMaxMessageLen = 67108864 := rfl
  rw [List.length_nil] at hlength
  refine ⟨by omega, by omega, hlen ▸ h.min_le, hlen ▸ hmax, ?_⟩
  rintro more ⟨_, hstop⟩
  rw [int32At_append (by omega), hlen] at hstop
  rcases hstop with hhigh | hlow
  · exact absurd hmax (Int.not_le.mpr hhigh)
  · exact absurd h.min_le (Int.not_le.mpr hlow)

theorem lengthsAgree_of_size_le (hsized : lib.Sized) {message : Msg}
    (hsize : (lib.byteSizeLong message : Int) + 8 ≤ KMaxMessageLen) (initalsize : Nat) :
    LengthsAgree lib initalsize message := by
  have hmaxval : KMaxMessageLen = 67108864 := rfl
  have hminval : KMinMessageLen = 4 := rfl
  have hfour : KChecksumLen = 4 := rfl
  have hbody := length_body_eq hsized message
  have hroom : lib.byteSizeLong message + 4 < 2 ^ 31 := by omega
  obtain ⟨buf, hfill⟩ := fillEmptyMessage_eq_some hsized hroom initalsize
  have hcalled : Called buf.readable (body lib message) [] := by
    refine ⟨?_, by omega, by omega⟩
    rw [List.append_nil]
    exact readable_of_fillEmptyMessage hsized hfill
  exact ⟨lib.byteSizeLong message, lib.byteSizeLong message + KChecksumLen, buf,
    if_pos (by omega), if_pos (by omega), hfill, lengthFits_of_called hcalled⟩

theorem size_le_of_lengthsAgree (hsized : lib.Sized) {message : Msg} {initalsize : Nat}
    (h : LengthsAgree lib initalsize message) :
    (lib.byteSizeLong message : Int) + 8 ≤ KMaxMessageLen := by
  obtain ⟨_, _, buf, _, _, hfill, hfits⟩ := h
  have hbody := length_body_eq hsized message
  have hlength := congrArg List.length (readable_of_fillEmptyMessage hsized hfill)
  have hheader : KHeaderLen = 4 := rfl
  have hfield := hfits.field
  have hmax := hfits.le_max
  rw [List.length_append, Endian.length_bigEndian] at hlength
  omega

/-- Sender and receiver agree on the length of a message exactly if its body,
tag and checksum included, is within the receiver's limit. -/
theorem lengthsAgree_iff (hsized : lib.Sized) (initalsize : Nat) {message : Msg} {byte_size : Int}
    (_hsize : toIntSize (lib.byteSizeLong message) = some byte_size) :
    LengthsAgree lib initalsize message ↔
      (lib.byteSizeLong message : Int) + 8 ≤ KMaxMessageLen :=
  ⟨size_le_of_lengthsAgree hsized, fun h => lengthsAgree_of_size_le hsized h initalsize⟩

/-- The statement at a request with an unknown field. -/
theorem lengthsAgree_iff_echoCall :
    LengthsAgree wireFormat 16 Protobuf.RpcMessage.echoCall ↔
      (wireFormat.byteSizeLong Protobuf.RpcMessage.echoCall : Int) + 8 ≤ KMaxMessageLen :=
  lengthsAgree_iff wireFormat_sized 16 (if_pos (by decide))

/-- A frame whose body is above the limit fails at the receiver: whatever
arrives behind it, no message is taken from the stream again. -/
theorem next_of_oversized (hsized : lib.Sized) {message : Msg} {frame : List UInt8}
    (h : Encodes lib message frame)
    (hsize : KMaxMessageLen < (lib.byteSizeLong message : Int) + 8)
    (hroom : lib.byteSizeLong message + 4 < 2 ^ 31) (more : List UInt8) :
    next lib (frame ++ more) = none := by
  have hframe := encodes_eq hsized h
  have hbody := length_body_eq hsized message
  have hmaxval : KMaxMessageLen = 67108864 := rfl
  have hminval : KMinMessageLen = 4 := rfl
  have hlen : Buffer.int32At frame = Endian.toSigned 32 (body lib message).length := by
    rw [hframe, Buffer.int32At_bigEndian]
  have hlength : 4 ≤ frame.length := by
    rw [hframe, List.length_append, Endian.length_bigEndian]
    omega
  apply next_of_failsAtFront
  refine ⟨hlength, ?_⟩
  rw [hlen, Endian.toSigned, Int.bmod_def]
  split_ifs with hhalf
  · right
    left
    omega
  · left
    omega

/-- A message whose only field is its `request`. -/
def onlyRequest (request : List UInt8) : Protobuf.RpcMessage Protobuf.WireFormat.UnknownField :=
  { Protobuf.RpcMessage.new with request_ := request }

theorem byteSizeLong_onlyRequest {request : List UInt8} (h : request ≠ []) :
    wireFormat.byteSizeLong (onlyRequest request) =
      1 + ((Varint.encode request.length).length + request.length) := by
  have hpresent : (!request.isEmpty) = true := by
    rw [Bool.not_eq_true', List.isEmpty_eq_false_iff]
    exact h
  have hsize : (Protobuf.Kind.bytes Protobuf.WireFormat.runtime).size request =
      1 + ((Varint.encode request.length).length + request.length) := by
    rw [← List.length_append]
    rfl
  have hfield : wireFormat.byteSizeLong (onlyRequest request) =
      (if (!request.isEmpty) = true then
        (Protobuf.Kind.bytes Protobuf.WireFormat.runtime).size request else 0) := by
    change 0 + (0 + ((if (!request.isEmpty) = true then
      (Protobuf.Kind.bytes Protobuf.WireFormat.runtime).size request else 0) +
        (0 + (0 + (0 + (0 + 0)))))) + 0 = _
    omega
  rw [hfield, if_pos hpresent, hsize]

/-- One byte more than the limit: the encoding has 67108857 bytes. -/
def bigRequest : Protobuf.RpcMessage Protobuf.WireFormat.UnknownField :=
  onlyRequest (List.replicate 67108852 0)

theorem byteSizeLong_bigRequest : wireFormat.byteSizeLong bigRequest = 67108857 := by
  have hvarint : (Varint.encode 67108852).length = 4 := by
    simp [Varint.encode_eq]
  have hfull : List.replicate 67108852 (0 : UInt8) ≠ [] := by
    rw [Ne, List.replicate_eq_nil_iff]
    omega
  rw [bigRequest, byteSizeLong_onlyRequest hfull, List.length_replicate, hvarint]

/-- A message that passes `ToIntSize`, is framed and sent, and at which the
receiver stops for good. -/
theorem not_lengthsAgree_bigRequest :
    toIntSize (wireFormat.byteSizeLong bigRequest) = some 67108857 ∧
      ¬LengthsAgree wireFormat 1024 bigRequest ∧
      ∃ frame, Encodes wireFormat bigRequest frame ∧
        ∀ more, next wireFormat (frame ++ more) = none := by
  have hsize := byteSizeLong_bigRequest
  have hsized := wireFormat_sized
  have hmaxval : KMaxMessageLen = 67108864 := rfl
  refine ⟨?_, ?_, ?_⟩
  · rw [hsize]
    exact if_pos (by omega)
  · intro hagree
    have hle := size_le_of_lengthsAgree hsized hagree
    omega
  · have hroom : wireFormat.byteSizeLong bigRequest + 4 < 2 ^ 31 := by omega
    obtain ⟨buf, hfill⟩ := fillEmptyMessage_eq_some hsized hroom 1024
    have hencodes : Encodes wireFormat bigRequest buf.readable := ⟨1024, buf, hfill, rfl⟩
    exact ⟨buf.readable, hencodes, next_of_oversized hsized hencodes (by omega) hroom⟩

end MuduoRpc.Rpc
