import MuduoRpc.Rpc.WellFormed

/-!
The parts of a frame that the decoder touches. `parse` splits the body by
subtracting the lengths of the checksum and of the tag from the received
length, which the length check only bounds by four.
-/

namespace MuduoRpc.Rpc

/-- A pointer into the frame and a length, as an offset from the frame's start. -/
structure SubRange where
  offset : Int
  length : Int
deriving DecidableEq, Repr

/-- The range has a length and lies in the `len` bytes of the frame. -/
structure SubRange.Inside (len : Int) (range : SubRange) : Prop where
  offset_nonneg : 0 ≤ range.offset
  length_nonneg : 0 ≤ range.length
  end_le : range.offset + range.length ≤ len

/-- The bytes of the range, in memory that begins with the frame. -/
def SubRange.bytes (range : SubRange) (memory : List UInt8) : List UInt8 :=
  (memory.drop range.offset.toNat).take range.length.toNat

/-- What `vailddataChecksum` reads: the stored checksum and the bytes before it. -/
def vailddataRanges (len : Int) : List SubRange :=
  [⟨len - KChecksumLen, 4⟩, ⟨0, len - KChecksumLen⟩]

variable {Msg : Type*} (lib : ProtoLib Msg)

/-- What `parse` reads, on the branches it takes: after the checksum the tag,
and after the tag what it gives to `parseFromBuffer`. -/
def parseRanges (buf : List UInt8) (len : Int) : List SubRange :=
  vailddataRanges len ++
    if vailddataChecksum lib buf len then
      ⟨0, tag_.length⟩ ::
        if memcmp buf tag_ tag_.length ≠ 0 then
          [⟨tag_.length, len - KChecksumLen - tag_.length⟩]
        else []
    else []

/-- All `len` bytes of the frame are there, and `parse` stays inside them. -/
def StaysInside (frame : List UInt8) (len : Int) : Prop :=
  (frame.length : Int) = len ∧ ∀ range ∈ parseRanges lib frame len, range.Inside len

/-- `ParseFromArray` reads the bytes that it is given the length of. -/
def ProtoLib.ReadsOnly : Prop :=
  ∀ data data' size, 0 ≤ size → data.take size.toNat = data'.take size.toNat →
    lib.parseFromArray data size = lib.parseFromArray data' size

/-- A body too short for the tag and the checksum that gets as far as the
protobuf parse. -/
def ShortPasses (body : List UInt8) : Prop :=
  body.length < tag_.length + 4 ∧ vailddataChecksum lib body body.length = true ∧
    ¬ tag_ <+: body

variable {lib}

theorem MessageType.runtime_readsOnly : runtime.ReadsOnly := by
  intro data data' size _ hsame
  simp only [runtime, hsame]

theorem memcmp_take (xs ys : List UInt8) (n : Nat) :
    memcmp (xs.take n) ys n = memcmp xs ys n := by
  induction n generalizing xs ys with
  | zero => cases xs <;> cases ys <;> rfl
  | succ n ih =>
      cases xs with
      | nil => rfl
      | cons x xs =>
          cases ys with
          | nil => rfl
          | cons y ys => simp only [List.take_succ_cons, memcmp, ih]

theorem memcmp_congr {xs xs' ys : List UInt8} {n : Nat} (h : xs.take n = xs'.take n) :
    memcmp xs ys n = memcmp xs' ys n := by
  rw [← memcmp_take, h, memcmp_take]

/-- `parse` depends on nothing but the bytes of its ranges. -/
theorem parse_congr (hreads : lib.ReadsOnly) {memory memory' : List UInt8} {len : Int}
    (hlength : ∀ range ∈ parseRanges lib memory len, 0 ≤ range.length)
    (hsame : ∀ range ∈ parseRanges lib memory len, range.bytes memory = range.bytes memory') :
    parse lib memory len = parse lib memory' len := by
  have hvalid : vailddataChecksum lib memory len = vailddataChecksum lib memory' len := by
    have hstored : (memory.drop (len - KChecksumLen).toNat).take 4 =
        (memory'.drop (len - KChecksumLen).toNat).take 4 :=
      hsame ⟨len - KChecksumLen, 4⟩ (by simp [parseRanges, vailddataRanges])
    have hbefore : memory.take (len - KChecksumLen).toNat =
        memory'.take (len - KChecksumLen).toNat :=
      hsame ⟨0, len - KChecksumLen⟩ (by simp [parseRanges, vailddataRanges])
    simp only [vailddataChecksum, checksum, asInt32, hstored, hbefore]
  by_cases hvalidated : vailddataChecksum lib memory len = true
  · have hvalidated' : vailddataChecksum lib memory' len = true := hvalid.symm.trans hvalidated
    have htag : (⟨0, tag_.length⟩ : SubRange) ∈ parseRanges lib memory len := by
      rw [parseRanges, if_pos hvalidated]
      simp
    have hcompared : memcmp memory tag_ tag_.length = memcmp memory' tag_ tag_.length :=
      memcmp_congr (hsame _ htag)
    by_cases hdiffers : memcmp memory tag_ tag_.length ≠ 0
    · have hdiffers' : memcmp memory' tag_ tag_.length ≠ 0 :=
        fun hzero => hdiffers (hcompared.trans hzero)
      have hpayload : (⟨tag_.length, len - KChecksumLen - tag_.length⟩ : SubRange) ∈
          parseRanges lib memory len := by
        rw [parseRanges, if_pos hvalidated, if_pos hdiffers]
        simp
      have hparsed : parseFromBuffer lib (memory.drop tag_.length)
          (len - KChecksumLen - tag_.length) = parseFromBuffer lib (memory'.drop tag_.length)
          (len - KChecksumLen - tag_.length) :=
        hreads _ _ _ (hlength _ hpayload) (hsame _ hpayload)
      unfold parse
      rw [if_pos hvalidated, if_pos hvalidated', if_pos hdiffers, if_pos hdiffers']
      simp only [hparsed]
    · have hsame' : ¬memcmp memory' tag_ tag_.length ≠ 0 :=
        fun hother => hdiffers fun hzero => hother (hcompared.symm.trans hzero)
      unfold parse
      rw [if_pos hvalidated, if_pos hvalidated', if_neg hdiffers, if_neg hsame']
  · have hinvalid : ¬vailddataChecksum lib memory' len = true :=
      fun hvalidated' => hvalidated (hvalid.trans hvalidated')
    unfold parse
    rw [if_neg hvalidated, if_neg hinvalid]

theorem SubRange.Inside.bytes_append {range : SubRange} {frame : List UInt8}
    (h : range.Inside frame.length) (behind : List UInt8) :
    range.bytes (frame ++ behind) = range.bytes frame := by
  obtain ⟨hoffset, hlength, hend⟩ := h
  have hstart : range.offset.toNat ≤ frame.length := by omega
  rw [bytes, bytes, List.drop_append_of_le_length hstart, List.take_append_of_le_length]
  rw [List.length_drop]
  omega

/-- Inside its frame `parse` does not see what lies behind it. -/
theorem StaysInside.parse_append (hreads : lib.ReadsOnly) {frame : List UInt8} {len : Int}
    (h : StaysInside lib frame len) (behind : List UInt8) :
    parse lib (frame ++ behind) len = parse lib frame len := by
  obtain ⟨rfl, hinside⟩ := h
  symm
  apply parse_congr hreads
  · intro range hrange
    exact (hinside range hrange).length_nonneg
  · intro range hrange
    exact ((hinside range hrange).bytes_append behind).symm

/-- Among the ranges of `parse` only the payload can leave the frame. -/
theorem staysInside_iff {body : List UInt8} (h : 4 ≤ body.length) :
    StaysInside lib body body.length ↔ ¬ShortPasses lib body := by
  have hchecksum : KChecksumLen = 4 := rfl
  have htag : tag_.length = 4 := rfl
  have hvalid : ∀ range ∈ vailddataRanges body.length, range.Inside body.length := by
    intro range hrange
    simp only [vailddataRanges, List.mem_cons, List.not_mem_nil, or_false] at hrange
    rcases hrange with rfl | rfl
    · constructor <;> simp only [hchecksum] <;> omega
    · constructor <;> simp only [hchecksum] <;> omega
  have hcompared : (⟨0, tag_.length⟩ : SubRange).Inside body.length := by
    constructor <;> simp only [htag] <;> omega
  have hpayload : (⟨tag_.length, body.length - KChecksumLen - tag_.length⟩ : SubRange).Inside
      body.length ↔ ¬body.length < tag_.length + 4 := by
    constructor
    · intro hinside hshort
      have hnonneg : (0 : Int) ≤ body.length - KChecksumLen - tag_.length := hinside.length_nonneg
      omega
    · intro hlong
      constructor <;> simp only [htag, hchecksum] at hlong ⊢ <;> omega
  constructor
  · rintro ⟨_, hinside⟩ ⟨hshort, hvalidated, huntagged⟩
    have hdiffers : memcmp body tag_ tag_.length ≠ 0 :=
      fun hzero => huntagged ((memcmp_tag_iff h).mp hzero)
    apply hpayload.mp _ hshort
    apply hinside
    rw [parseRanges, if_pos hvalidated, if_pos hdiffers]
    simp
  · intro hnot
    refine ⟨rfl, ?_⟩
    intro range hrange
    rw [parseRanges, List.mem_append] at hrange
    rcases hrange with hrange | hrange
    · exact hvalid range hrange
    · split_ifs at hrange with hvalidated hdiffers
      · rcases List.mem_cons.mp hrange with rfl | hlast
        · exact hcompared
        · rw [List.mem_singleton.mp hlast]
          apply hpayload.mpr
          intro hshort
          exact hnot ⟨hshort, hvalidated, fun hprefix =>
            hdiffers ((memcmp_tag_iff h).mpr hprefix)⟩
      · rw [List.mem_singleton.mp hrange]
        exact hcompared
      · cases hrange

theorem Reaches.four_le {bytes body : List UInt8} (h : Reaches lib bytes body) :
    4 ≤ body.length := by
  induction h with
  | here hbody => exact hbody.four_le
  | later _ _ _ ih => exact ih

variable (lib)

/-- Decoding a buffer stays inside the frames exactly if it comes to no short
body that passes the checksum and is not tagged. -/
theorem onMessage_staysInside_iff (buffer : ByteQueue) :
    (∀ call ∈ parseCalls lib buffer, StaysInside lib call.1 call.2) ↔
      ¬∃ body, Reaches lib buffer.bytes body ∧ ShortPasses lib body := by
  constructor
  · rintro hinside ⟨body, hreaches, hshort⟩
    have hcall : (body, (body.length : Int)) ∈ parseCalls lib buffer :=
      mem_parseCalls_iff.mpr ⟨rfl, hreaches⟩
    exact (staysInside_iff hreaches.four_le).mp (hinside _ hcall) hshort
  · rintro hnot ⟨frame, len⟩ hcall
    obtain ⟨rfl, hreaches⟩ := mem_parseCalls_iff.mp hcall
    apply (staysInside_iff hreaches.four_le).mpr
    intro hshort
    exact hnot ⟨frame, hreaches, hshort⟩

/-- Only the checksum of nothing: a frame of eight bytes, header included. -/
theorem onMessage_leaves_four_byte_body :
    (([0, 0, 0, 1] : List UInt8), (4 : Int)) ∈ parseCalls MessageType.runtime
        ((ByteQueue.new 16).append [0, 0, 0, 4, 0, 0, 0, 1]) ∧
      (⟨4, -4⟩ : SubRange) ∈ parseRanges MessageType.runtime [0, 0, 0, 1] 4 ∧
      ¬StaysInside MessageType.runtime [0, 0, 0, 1] 4 := by
  have hrange : (⟨4, -4⟩ : SubRange) ∈ parseRanges MessageType.runtime [0, 0, 0, 1] 4 := by
    decide
  refine ⟨?_, hrange, ?_⟩
  · have hbody : Called ((ByteQueue.new 16).append [0, 0, 0, 4, 0, 0, 0, 1]).bytes
        [0, 0, 0, 1] [] := by
      refine ⟨?_, by decide, by decide⟩
      rw [ByteQueue.bytes_append, ByteQueue.bytes_new]
      rfl
    exact mem_parseCalls_iff.mpr ⟨rfl, .here hbody⟩
  · rintro ⟨_, hinside⟩
    have hnonneg : (0 : Int) ≤ -4 := (hinside _ hrange).length_nonneg
    omega

end MuduoRpc.Rpc
