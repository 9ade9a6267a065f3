import MuduoRpc.Rpc.RoundTrip

/-!
What `parse` accepts. The checksum, the tag and the protobuf parse are three
tests on the bytes of one body; each is described here from the bytes alone.
Because the tag comparison is inverted, the bodies that pass all three are
exactly bodies that do not carry the tag.
-/

namespace MuduoRpc.Rpc

variable {Msg : Type*} (lib : ProtoLib Msg)

/-- The tag, a payload that parses to `message`, and the checksum of both. -/
def WellFormed (body : List UInt8) (message : Msg) : Prop :=
  ∃ payload : List UInt8,
    body = tag_ ++ payload ++ Endian.bigEndian 4 (lib.adler32 1 (tag_ ++ payload)) ∧
      lib.parseFromArray payload payload.length = (true, message)

/-- The body has a good checksum and no tag, and what follows its first four
bytes parses. -/
def PassesUntagged (body : List UInt8) : Prop :=
  vailddataChecksum lib body body.length = true ∧ ¬ tag_ <+: body ∧
    (parseFromBuffer lib (body.drop tag_.length)
      (body.length - KChecksumLen - tag_.length)).1 = true

/-- The arguments of the calls of `parse` that `onMessage` makes, in order. -/
def parseCalls (buffer : ByteQueue) : List (List UInt8 × Int) :=
  if hroom : (KChecksumLen + KHeaderLen).toNat ≤ buffer.readableBytes then
    let len := buffer.peekInt32 (header_room hroom)
    if _hlimit : len > KMaxMessageLen ∨ len < KMinMessageLen then []
    else if hframe : (KHeaderLen + len).toNat ≤ buffer.readableBytes then
      let frame := (buffer.bytes.drop KHeaderLen.toNat).take len.toNat
      (frame, len) ::
        if (parse lib frame len).1 = .KNoError then
          parseCalls (buffer.retrieve (KHeaderLen + len).toNat hframe)
        else []
    else []
  else []
  termination_by buffer.readableBytes
  decreasing_by
    have hmin : KMinMessageLen = 4 := rfl
    have hheader : KHeaderLen = 4 := rfl
    change (buffer.retrieve (KHeaderLen + len).toNat hframe).readableBytes < _
    rw [ByteQueue.readableBytes_retrieve]
    omega

variable {lib}

theorem memcmp_eq_zero_iff {xs ys : List UInt8} {n : Nat} (hx : n ≤ xs.length)
    (hy : n ≤ ys.length) : memcmp xs ys n = 0 ↔ ys.take n <+: xs := by
  induction n generalizing xs ys with
  | zero => simp [memcmp]
  | succ n ih =>
      obtain ⟨x, xs, rfl⟩ := List.exists_cons_of_length_pos (Nat.lt_of_lt_of_le n.succ_pos hx)
      obtain ⟨y, ys, rfl⟩ := List.exists_cons_of_length_pos (Nat.lt_of_lt_of_le n.succ_pos hy)
      rw [memcmp, List.take_succ_cons, List.cons_prefix_cons]
      split_ifs with hsame
      · rw [ih (Nat.le_of_succ_le_succ hx) (Nat.le_of_succ_le_succ hy)]
        exact ⟨fun h => ⟨hsame.symm, h⟩, fun h => h.2⟩
      · have hne : x.toNat ≠ y.toNat := fun h => hsame (UInt8.toNat_inj.mp h)
        constructor
        · intro hzero
          omega
        · rintro ⟨rfl, _⟩
          exact absurd rfl hsame

theorem memcmp_tag_iff {body : List UInt8} (h : 4 ≤ body.length) :
    memcmp body tag_ tag_.length = 0 ↔ tag_ <+: body :=
  memcmp_eq_zero_iff h (Nat.le_refl _)

/-- The test passes when the last four bytes are the checksum of the others in
network order. -/
theorem vailddataChecksum_iff {body : List UInt8} (h : 4 ≤ body.length) :
    vailddataChecksum lib body body.length = true ↔
      body.drop (body.length - 4) =
        Endian.bigEndian 4 (lib.adler32 1 (body.take (body.length - 4))) := by
  have hnat : ((body.length : Int) - KChecksumLen).toNat = body.length - 4 := by
    have hfour : KChecksumLen = 4 := rfl
    omega
  have hlast : (body.drop (body.length - 4)).length = 4 := by
    rw [List.length_drop]
    omega
  generalize hstored : body.drop (body.length - 4) = stored at hlast ⊢
  generalize hvalue : lib.adler32 1 (body.take (body.length - 4)) = value
  have hwhole : stored.take 4 = stored := List.take_of_length_le (Nat.le_of_eq hlast)
  rw [vailddataChecksum, beq_iff_eq, checksum, hnat, hstored, hvalue,
    asInt32_eq (Nat.le_of_eq hlast.symm), Buffer.int32At, hwhole]
  constructor
  · intro hsigned
    have hrange : 2 ^ 32 = 256 ^ 4 := by decide
    have hunsigned := congrArg (fun x => Endian.toMemory 4 (Endian.toUnsigned 32 x)) hsigned
    simp only [Endian.toUnsigned_toSigned, hrange, Endian.toMemory_mod] at hunsigned
    have hmemory := Endian.toMemory_ofMemory stored.reverse
    rw [List.length_reverse, hlast] at hmemory
    rw [Endian.bigEndian, ← hunsigned, hmemory, List.reverse_reverse]
  · intro hbytes
    rw [hbytes, Endian.bigEndian, List.reverse_reverse, Endian.ofMemory_toMemory]
    exact Endian.toSigned_mod 32 value

theorem parse_eq_noError_iff {body : List UInt8} (h : 4 ≤ body.length) :
    (parse lib body body.length).1 = .KNoError ↔ PassesUntagged lib body := by
  unfold parse PassesUntagged
  rw [← memcmp_tag_iff h]
  by_cases hchecksum : vailddataChecksum lib body body.length = true
  · rw [if_pos hchecksum]
    by_cases htag : memcmp body tag_ tag_.length = 0
    · simp [htag]
    · rw [if_pos htag]
      cases hparsed : (parseFromBuffer lib (body.drop tag_.length)
        (body.length - KChecksumLen - tag_.length)).1 <;> simp [hchecksum, htag, hparsed]
  · simp [hchecksum]

theorem tag_prefix_of_wellFormed {body : List UInt8} {message : Msg}
    (h : WellFormed lib body message) : tag_ <+: body := by
  obtain ⟨payload, rfl, _⟩ := h
  rw [List.append_assoc]
  exact List.prefix_append _ _

variable (lib)

/-- The bytes start with a complete body of an admitted length, after its
length field. -/
structure Called (bytes body rest : List UInt8) : Prop where
  split : bytes = Endian.bigEndian 4 body.length ++ body ++ rest
  min_le : KMinMessageLen ≤ body.length
  le_max : (body.length : Int) ≤ KMaxMessageLen

/-- The decode loop comes to `body`: every body before it passes. -/
inductive Reaches : List UInt8 → List UInt8 → Prop
  | here {bytes body rest : List UInt8} : Called bytes body rest → Reaches bytes body
  | later {bytes first rest body : List UInt8} :
      Called bytes first rest → PassesUntagged lib first → Reaches rest body → Reaches bytes body

variable {lib}

theorem Called.four_le {bytes body rest : List UInt8} (h : Called bytes body rest) :
    4 ≤ body.length := by
  have hmin : KMinMessageLen ≤ body.length := h.min_le
  have hfour : KMinMessageLen = 4 := rfl
  omega

theorem Called.int32At_eq {bytes body rest : List UInt8} (h : Called bytes body rest) :
    Buffer.int32At bytes = body.length := by
  have hmax : (body.length : Int) ≤ KMaxMessageLen := h.le_max
  have hmaxval : KMaxMessageLen = 67108864 := rfl
  rw [h.split, List.append_assoc, Buffer.int32At_bigEndian]
  exact Endian.toSigned_of_lt (by omega)

theorem Called.length_eq {bytes body rest : List UInt8} (h : Called bytes body rest) :
    bytes.length = 4 + body.length + rest.length := by
  rw [h.split]
  simp only [List.length_append, Endian.length_bigEndian]

theorem Called.drop_take {bytes body rest : List UInt8} (h : Called bytes body rest) :
    (bytes.drop 4).take body.length = body := by
  rw [h.split, List.append_assoc, List.drop_left' (Endian.length_bigEndian 4 body.length),
    List.take_left]

theorem Called.drop_eq {bytes body rest : List UInt8} (h : Called bytes body rest) :
    bytes.drop (4 + body.length) = rest := by
  rw [h.split, ← List.drop_drop, List.append_assoc,
    List.drop_left' (Endian.length_bigEndian 4 body.length), List.drop_left]

/-- A header in range with all its bytes there is such a start. -/
theorem called_of_header {bytes : List UInt8} (hroom : 8 ≤ bytes.length)
    (hlimit : ¬(Buffer.int32At bytes > KMaxMessageLen ∨ Buffer.int32At bytes < KMinMessageLen))
    (hframe : (KHeaderLen + Buffer.int32At bytes).toNat ≤ bytes.length) :
    Called bytes ((bytes.drop 4).take (Buffer.int32At bytes).toNat)
      ((bytes.drop 4).drop (Buffer.int32At bytes).toNat) := by
  have hheader : KHeaderLen = 4 := rfl
  have hminval : KMinMessageLen = 4 := rfl
  have hbody : ((bytes.drop 4).take (Buffer.int32At bytes).toNat).length =
      (Buffer.int32At bytes).toNat := by
    rw [List.length_take, List.length_drop]
    omega
  constructor
  · rw [hbody, ← bigEndian_int32At (by omega) (by omega), List.append_assoc,
      List.take_append_drop, List.take_append_drop]
  · omega
  · omega

variable (lib)

theorem parseCalls_of_called {buffer : ByteQueue} {body rest : List UInt8}
    (h : Called buffer.bytes body rest) :
    ∃ left : ByteQueue, left.bytes = rest ∧
      parseCalls lib buffer = (body, (body.length : Int)) ::
        if (parse lib body body.length).1 = .KNoError then parseCalls lib left else [] := by
  have hfour := h.four_le
  have hlength := h.length_eq
  have hmin := h.min_le
  have hmax := h.le_max
  have hheader : KHeaderLen = 4 := rfl
  rw [buffer.length_bytes] at hlength
  have hroom : (KChecksumLen + KHeaderLen).toNat ≤ buffer.readableBytes := by
    change 8 ≤ buffer.readableBytes
    omega
  have hnat : (KHeaderLen + (body.length : Int)).toNat = 4 + body.length := by omega
  have hframe : (KHeaderLen + (body.length : Int)).toNat ≤ buffer.readableBytes := by omega
  refine ⟨buffer.retrieve _ hframe, ?_, ?_⟩
  · rw [ByteQueue.bytes_retrieve, hnat, h.drop_eq]
  · have htaken : (buffer.bytes.drop KHeaderLen.toNat).take (body.length : Int).toNat = body :=
      h.drop_take
    rw [parseCalls, dif_pos hroom]
    simp only [ByteQueue.peekInt32_eq, h.int32At_eq, htaken]
    rw [dif_neg (by omega), dif_pos hframe]

theorem parseCalls_of_not_called {buffer : ByteQueue}
    (h : ¬∃ body rest, Called buffer.bytes body rest) : parseCalls lib buffer = [] := by
  rw [parseCalls]
  split_ifs with hroom
  · simp only [ByteQueue.peekInt32_eq]
    split_ifs with hlimit hframe
    · rfl
    · exfalso
      apply h
      rw [← buffer.length_bytes] at hroom hframe
      exact ⟨_, _, called_of_header hroom hlimit hframe⟩
    · rfl
  · rfl

variable {lib}

/-- `parse` is called on the bodies the loop comes to, each with its own length. -/
theorem mem_parseCalls_iff {buffer : ByteQueue} {frame : List UInt8} {len : Int} :
    (frame, len) ∈ parseCalls lib buffer ↔
      len = frame.length ∧ Reaches lib buffer.bytes frame := by
  constructor
  · induction hsize : buffer.bytes.length using Nat.strongRecOn generalizing buffer with
    | _ n ih =>
        intro hmem
        by_cases hcalled : ∃ body rest, Called buffer.bytes body rest
        · obtain ⟨body, rest, hbody⟩ := hcalled
          obtain ⟨left, hleft, hcalls⟩ := parseCalls_of_called lib hbody
          rw [hcalls] at hmem
          rcases List.mem_cons.mp hmem with hhead | htail
          · obtain ⟨rfl, rfl⟩ := Prod.mk.inj hhead
            exact ⟨rfl, .here hbody⟩
          · split_ifs at htail with hparse
            · have hshort : left.bytes.length < n := by
                rw [← hsize, hbody.length_eq, hleft]
                omega
              obtain ⟨hlen, hreaches⟩ := ih left.bytes.length hshort rfl htail
              rw [hleft] at hreaches
              exact ⟨hlen, .later hbody ((parse_eq_noError_iff hbody.four_le).mp hparse) hreaches⟩
            · cases htail
        · rw [parseCalls_of_not_called lib hcalled] at hmem
          cases hmem
  · rintro ⟨rfl, hreaches⟩
    generalize hbytes : buffer.bytes = bytes at hreaches
    induction hreaches generalizing buffer with
    | here hbody =>
        rw [← hbytes] at hbody
        obtain ⟨left, _, hcalls⟩ := parseCalls_of_called lib hbody
        rw [hcalls]
        exact List.mem_cons_self
    | later hfirst hpasses _ ih =>
        rw [← hbytes] at hfirst
        obtain ⟨left, hleft, hcalls⟩ := parseCalls_of_called lib hfirst
        rw [hcalls, if_pos ((parse_eq_noError_iff hfirst.four_le).mpr hpasses)]
        exact List.mem_cons_of_mem _ (ih hleft)

/-- A turn of the loop takes a body that `parse` accepts. -/
theorem next_eq_some_iff {bytes rest : List UInt8} {message : Msg} :
    next lib bytes = some (message, rest) ↔
      ∃ body, Called bytes body rest ∧ parse lib body body.length = (.KNoError, message) := by
  constructor
  · intro h
    obtain ⟨_, ⟨body, rfl, hmin, hmax, hparse⟩, hsplit⟩ := isFrame_of_next h
    exact ⟨body, ⟨hsplit, hmin, hmax⟩, hparse⟩
  · rintro ⟨body, hbody, hparse⟩
    rw [hbody.split]
    exact next_of_isFrame ⟨body, rfl, hbody.min_le, hbody.le_max, hparse⟩ rest

variable (lib)

/-- What `onMessage` hands to `messagecb_` after one call of `parse`. -/
def handed (call : List UInt8 × Int) : Option Msg :=
  if (parse lib call.1 call.2).1 = .KNoError then some (parse lib call.1 call.2).2 else none

variable {lib}

theorem handed_isSome_iff {call : List UInt8 × Int} :
    (handed lib call).isSome ↔ (parse lib call.1 call.2).1 = .KNoError := by
  rw [handed]
  split_ifs with hparse <;> simp [hparse]

theorem handed_of_next {buffer : ByteQueue} (h : next lib buffer.bytes = none) :
    (parseCalls lib buffer).filterMap (handed lib) = [] := by
  by_cases hcalled : ∃ body rest, Called buffer.bytes body rest
  · obtain ⟨body, rest, hbody⟩ := hcalled
    obtain ⟨_, _, hcalls⟩ := parseCalls_of_called lib hbody
    have hreject : (parse lib body body.length).1 ≠ .KNoError := by
      intro hparse
      have htaken := next_eq_some_iff.mpr ⟨body, hbody, Prod.ext hparse rfl⟩
      rw [h] at htaken
      cases htaken
    rw [hcalls, if_neg hreject, List.filterMap_cons, handed, if_neg hreject]
    rfl
  · rw [parseCalls_of_not_called lib hcalled]
    rfl

/-- The messages of `onMessage` come from its calls of `parse`. -/
theorem onMessage_messages {buffer calls : ByteQueue} (h : buffer.bytes = calls.bytes) :
    (onMessage lib buffer).1 = (parseCalls lib calls).filterMap (handed lib) := by
  induction hsize : buffer.bytes.length using Nat.strongRecOn generalizing buffer calls with
  | _ n ih =>
      cases hnext : next lib buffer.bytes with
      | none =>
          rw [onMessage_of_none hnext, handed_of_next (h ▸ hnext)]
      | some taken =>
          obtain ⟨message, rest⟩ := taken
          obtain ⟨left, hleft, hloop⟩ := onMessage_of_some hnext
          obtain ⟨body, hbody, hparse⟩ := next_eq_some_iff.mp hnext
          have hshort : left.bytes.length < n := by
            rw [← hsize, hbody.length_eq, hleft]
            omega
          rw [h] at hbody
          obtain ⟨left', hleft', hcalls⟩ := parseCalls_of_called lib hbody
          have haccept : (parse lib body body.length).1 = .KNoError := congrArg Prod.fst hparse
          have hmessage : (parse lib body body.length).2 = message := congrArg Prod.snd hparse
          rw [hloop, hcalls, if_pos haccept, List.filterMap_cons, handed, if_pos haccept, hmessage,
            ih left.bytes.length hshort (hleft.trans hleft'.symm) rfl]

variable (lib)

/-- `parse` accepts only well-formed bodies, and `onMessage` hands over only
messages from tagged bytes, exactly where no body without the tag passes the
other two tests. -/
theorem parse_wellFormed_iff :
    (∀ body : List UInt8, KMinMessageLen ≤ body.length → (body.length : Int) ≤ KMaxMessageLen →
      ((∀ message, parse lib body body.length = (.KNoError, message) →
          WellFormed lib body message) ↔ ¬PassesUntagged lib body)) ∧
    ∀ buffer : ByteQueue,
      (onMessage lib buffer).1 = (parseCalls lib buffer).filterMap (handed lib) ∧
      ((∀ call ∈ parseCalls lib buffer, (handed lib call).isSome → tag_ <+: call.1) ↔
        ¬∃ body rest, Called buffer.bytes body rest ∧ PassesUntagged lib body) := by
  constructor
  · intro body hmin _
    have hfour : 4 ≤ body.length := by
      have hminval : KMinMessageLen = 4 := rfl
      omega
    constructor
    · intro hwell hpasses
      have hparse := (parse_eq_noError_iff hfour).mpr hpasses
      exact hpasses.2.1 (tag_prefix_of_wellFormed (hwell _ (Prod.ext hparse rfl)))
    · intro hnot message hparse
      exact absurd ((parse_eq_noError_iff hfour).mp (congrArg Prod.fst hparse)) hnot
  · intro buffer
    refine ⟨onMessage_messages rfl, ?_⟩
    constructor
    · rintro htagged ⟨body, rest, hbody, hpasses⟩
      have hcall : (body, (body.length : Int)) ∈ parseCalls lib buffer :=
        mem_parseCalls_iff.mpr ⟨rfl, .here hbody⟩
      have hparse := (parse_eq_noError_iff hbody.four_le).mpr hpasses
      exact hpasses.2.1 (htagged _ hcall (handed_isSome_iff.mpr hparse))
    · rintro hnot ⟨frame, len⟩ hcall hsome
      exfalso
      have hparse := handed_isSome_iff.mp hsome
      obtain ⟨rfl, hreaches⟩ := mem_parseCalls_iff.mp hcall
      cases hreaches with
      | here hbody =>
          exact hnot ⟨frame, _, hbody, (parse_eq_noError_iff hbody.four_le).mp hparse⟩
      | later hfirst hpasses _ =>
          exact hnot ⟨_, _, hfirst, hpasses⟩

/-- Four zero bytes and their checksum. -/
def untaggedBody : List UInt8 := [0, 0, 0, 0, 0, 4, 0, 1]

theorem parse_untaggedBody :
    parse MessageType.runtime untaggedBody untaggedBody.length = (.KNoError, .REQUEST) := by
  unfold parse
  decide

/-- Eight bytes without the tag are accepted and handed over as a message. -/
theorem parse_accepts_untaggedBody :
    KMinMessageLen ≤ untaggedBody.length ∧ (untaggedBody.length : Int) ≤ KMaxMessageLen ∧
      parse MessageType.runtime untaggedBody untaggedBody.length = (.KNoError, .REQUEST) ∧
      ¬WellFormed MessageType.runtime untaggedBody .REQUEST ∧
      (untaggedBody, (untaggedBody.length : Int)) ∈ parseCalls MessageType.runtime
        ((ByteQueue.new 16).append (Endian.bigEndian 4 untaggedBody.length ++ untaggedBody)) ∧
      ¬ tag_ <+: untaggedBody := by
  have huntagged : ¬ tag_ <+: untaggedBody := by decide
  refine ⟨by decide, by decide, parse_untaggedBody, ?_, ?_, huntagged⟩
  · intro hwell
    exact huntagged (tag_prefix_of_wellFormed hwell)
  · have hbody : Called ((ByteQueue.new 16).append
        (Endian.bigEndian 4 untaggedBody.length ++ untaggedBody)).bytes untaggedBody [] := by
      refine ⟨?_, by decide, by decide⟩
      rw [ByteQueue.bytes_append, ByteQueue.bytes_new, List.append_nil, List.nil_append]
    exact mem_parseCalls_iff.mpr ⟨rfl, .here hbody⟩

end MuduoRpc.Rpc
