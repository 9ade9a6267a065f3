import MuduoRpc.Lib.Framing
import MuduoRpc.Rpc.Runtime

/-!
The decode loop against a one-pass reference. A frame is described without the
loop: a big-endian length within the limits and that many bytes on which
`parse` reports no error. The loop takes exactly the longest run of frames off
the stream, and the chunks in which the stream arrives do not matter.
-/

namespace MuduoRpc.Rpc

open Buffer (int32At)

variable {Msg : Type*} (lib : ProtoLib Msg)

/-- A frame of the stream and the message it carries. -/
def IsFrame (frame : List UInt8) (message : Msg) : Prop :=
  ∃ body : List UInt8, frame = Endian.bigEndian 4 body.length ++ body ∧
    KMinMessageLen ≤ body.length ∧ body.length ≤ KMaxMessageLen ∧
    parse lib body body.length = (.KNoError, message)

/-- The bytes start with a header that is out of range, or with a complete
frame body that `parse` rejects. -/
def FailsAtFront (bytes : List UInt8) : Prop :=
  4 ≤ bytes.length ∧
    (int32At bytes < KMinMessageLen ∨ KMaxMessageLen < int32At bytes ∨
      (KHeaderLen + int32At bytes).toNat ≤ bytes.length ∧
        (parse lib ((bytes.drop KHeaderLen.toNat).take (int32At bytes).toNat)
          (int32At bytes)).1 ≠ .KNoError)

/-- One turn of the decode loop on the readable bytes. -/
def next (bytes : List UInt8) : Option (Msg × List UInt8) :=
  if (KChecksumLen + KHeaderLen).toNat ≤ bytes.length then
    let len := int32At bytes
    if len > KMaxMessageLen ∨ len < KMinMessageLen then none
    else if (KHeaderLen + len).toNat ≤ bytes.length then
      let parsed := parse lib ((bytes.drop KHeaderLen.toNat).take len.toNat) len
      if parsed.1 = .KNoError then
        some (parsed.2, bytes.drop (KHeaderLen + len).toNat)
      else none
    else none
  else none

theorem bigEndian_int32At {bytes : List UInt8} (h : 4 ≤ bytes.length)
    (hpos : 0 ≤ int32At bytes) :
    bytes.take 4 = Endian.bigEndian 4 (int32At bytes).toNat := by
  have hfour : (bytes.take 4).reverse.length = 4 := by
    rw [List.length_reverse, List.length_take]
    omega
  have hlt := Endian.ofMemory_lt (bytes.take 4).reverse
  have hmemory := Endian.toMemory_ofMemory (bytes.take 4).reverse
  rw [hfour] at hlt hmemory
  have hvalue : (int32At bytes).toNat = Endian.ofMemory (bytes.take 4).reverse := by
    rw [int32At] at hpos ⊢
    generalize Endian.ofMemory (bytes.take 4).reverse = value at hlt hpos ⊢
    rw [Endian.toSigned, Int.bmod_def] at hpos ⊢
    split_ifs at hpos ⊢ <;> omega
  rw [hvalue, Endian.bigEndian, hmemory, List.reverse_reverse]

variable {lib}

/-- A frame at the front is taken whatever follows it. -/
theorem next_of_isFrame {frame : List UInt8} {message : Msg}
    (h : IsFrame lib frame message) (more : List UInt8) :
    next lib (frame ++ more) = some (message, more) := by
  obtain ⟨body, rfl, hmin, hmax, hparse⟩ := h
  have hheader : KHeaderLen = 4 := rfl
  have hcheck : KChecksumLen = 4 := rfl
  have hminval : KMinMessageLen = 4 := rfl
  have hmaxval : KMaxMessageLen = 67108864 := rfl
  have hlen : int32At (Endian.bigEndian 4 body.length ++ body ++ more) = body.length := by
    rw [List.append_assoc, Buffer.int32At_bigEndian]
    exact Endian.toSigned_of_lt (by omega)
  have htotal : (Endian.bigEndian 4 body.length ++ body ++ more).length =
      4 + body.length + more.length := by
    simp only [List.length_append, Endian.length_bigEndian]
  have hbody : ((Endian.bigEndian 4 body.length ++ body ++ more).drop 4).take
      body.length = body := by
    rw [List.append_assoc, List.drop_left' (Endian.length_bigEndian 4 body.length),
      List.take_left]
  have hmore : (Endian.bigEndian 4 body.length ++ body ++ more).drop
      (4 + body.length) = more := by
    rw [← List.drop_drop, List.append_assoc,
      List.drop_left' (Endian.length_bigEndian 4 body.length), List.drop_left]
  have hnat : (KHeaderLen + (body.length : Int)).toNat = 4 + body.length := by omega
  have hfour : KHeaderLen.toNat = 4 := rfl
  rw [next, if_pos (by omega)]
  simp only [hlen, hnat, hfour, Int.toNat_natCast, hbody, hmore, hparse, if_true]
  rw [if_neg (by omega), if_pos (by omega)]

/-- Whatever a turn of the loop takes is a frame. -/
theorem isFrame_of_next {bytes rest : List UInt8} {message : Msg}
    (h : next lib bytes = some (message, rest)) :
    ∃ frame, IsFrame lib frame message ∧ bytes = frame ++ rest := by
  simp only [next] at h
  split_ifs at h with hroom hlimit hframe hparse
  obtain ⟨rfl, rfl⟩ := Prod.mk.inj (Option.some.inj h)
  generalize hlen : int32At bytes = len at hlimit hframe hparse ⊢
  generalize hparsed : parse lib ((bytes.drop KHeaderLen.toNat).take len.toNat) len = parsed
    at hparse ⊢
  obtain ⟨hlow, hhigh, hfits⟩ : 4 ≤ len ∧ len ≤ KMaxMessageLen ∧ 4 + len.toNat ≤ bytes.length := by
    have hheader : KHeaderLen = 4 := rfl
    have hminval : KMinMessageLen = 4 := rfl
    omega
  have hnat : (KHeaderLen + len).toNat = 4 + len.toNat := by
    change (4 + len).toNat = 4 + len.toNat
    omega
  have hbody : ((bytes.drop KHeaderLen.toNat).take len.toNat).length = len.toNat := by
    change ((bytes.drop 4).take len.toNat).length = len.toNat
    rw [List.length_take, List.length_drop]
    omega
  have hcast : (len.toNat : Int) = len := Int.toNat_of_nonneg (by omega)
  refine ⟨_, ⟨(bytes.drop KHeaderLen.toNat).take len.toNat, rfl, ?_, ?_, ?_⟩, ?_⟩
  · rw [hbody, hcast]
    exact hlow
  · rw [hbody, hcast]
    exact hhigh
  · rw [hbody, hcast, hparsed]
    cases parsed
    cases hparse
    rfl
  · have hheader : bytes.take 4 = Endian.bigEndian 4 (int32At bytes).toNat :=
      bigEndian_int32At (by omega) (by omega)
    rw [hlen] at hheader
    rw [hbody, ← hheader, hnat, ← List.drop_drop]
    change bytes = bytes.take 4 ++ (bytes.drop 4).take len.toNat ++ (bytes.drop 4).drop len.toNat
    rw [List.append_assoc, List.take_append_drop, List.take_append_drop]

theorem ne_nil_of_isFrame {frame : List UInt8} {message : Msg} (h : IsFrame lib frame message) :
    frame ≠ [] := by
  obtain ⟨body, rfl, _⟩ := h
  apply List.ne_nil_of_length_pos
  rw [List.length_append, Endian.length_bigEndian]
  omega

variable (lib)

def framer : Framing.Framer UInt8 Msg where
  next := next lib
  selfDelimiting h := by
    obtain ⟨frame, hframe, hsplit⟩ := isFrame_of_next h
    exact ⟨frame, ne_nil_of_isFrame hframe, hsplit, next_of_isFrame hframe⟩

theorem framer_isFrame : (framer lib).IsFrame = IsFrame lib := by
  funext frame message
  apply propext
  constructor
  · rintro ⟨_, hmore⟩
    obtain ⟨found, hfound, hsplit⟩ := isFrame_of_next (hmore [])
    rw [List.append_nil, List.append_nil] at hsplit
    exact hsplit ▸ hfound
  · intro h
    exact ⟨ne_nil_of_isFrame h, next_of_isFrame h⟩

variable {lib}

theorem drain_of_isFrame {frame : List UInt8} {message : Msg} (h : IsFrame lib frame message)
    (more : List UInt8) : (framer lib).drain (frame ++ more) =
      (message :: ((framer lib).drain more).1, ((framer lib).drain more).2) :=
  Framing.Framer.drain_of_some (F := framer lib) (next_of_isFrame h more)

theorem onMessage_of_none {buffer : ByteQueue} (h : next lib buffer.bytes = none) :
    onMessage lib buffer = ([], buffer) := by
  simp only [next, buffer.length_bytes] at h
  rw [onMessage]
  split_ifs at h with hroom hlimit hframe hparse
  · rw [dif_pos hroom]
    simp only [ByteQueue.peekInt32_eq]
    rw [dif_pos hlimit]
  · rw [dif_pos hroom]
    simp only [ByteQueue.peekInt32_eq]
    rw [dif_neg hlimit, dif_pos hframe, if_neg hparse]
  · rw [dif_pos hroom]
    simp only [ByteQueue.peekInt32_eq]
    rw [dif_neg hlimit, dif_neg hframe]
  · rw [dif_neg hroom]

/-- A turn of the loop that delivers a message takes its frame out. -/
theorem onMessage_retrieve {buffer : ByteQueue} {message : Msg} {rest : List UInt8}
    (h : next lib buffer.bytes = some (message, rest)) :
    ∃ (len : Nat) (hframe : len ≤ buffer.readableBytes),
      let left := buffer.retrieve len hframe
      left.bytes = rest ∧
        onMessage lib buffer = (message :: (onMessage lib left).1, (onMessage lib left).2) := by
  simp only [next, buffer.length_bytes] at h
  split_ifs at h with hroom hlimit hframe hparse
  obtain ⟨rfl, rfl⟩ := Prod.mk.inj (Option.some.inj h)
  refine ⟨_, hframe, ByteQueue.bytes_retrieve _ _ _, ?_⟩
  rw [onMessage, dif_pos hroom]
  simp only [ByteQueue.peekInt32_eq]
  rw [dif_neg hlimit, dif_pos hframe, if_pos hparse]

theorem onMessage_of_some {buffer : ByteQueue} {message : Msg} {rest : List UInt8}
    (h : next lib buffer.bytes = some (message, rest)) :
    ∃ left : ByteQueue, left.bytes = rest ∧
      onMessage lib buffer = (message :: (onMessage lib left).1, (onMessage lib left).2) := by
  obtain ⟨len, hframe, hleft, hloop⟩ := onMessage_retrieve h
  exact ⟨buffer.retrieve len hframe, hleft, hloop⟩

variable (lib)

/-- The decode loop drains the readable bytes. -/
theorem onMessage_drain (buffer : ByteQueue) :
    (onMessage lib buffer).1 = ((framer lib).drain buffer.bytes).1 ∧
      (onMessage lib buffer).2.bytes = ((framer lib).drain buffer.bytes).2 := by
  induction hsize : buffer.bytes.length using Nat.strongRecOn generalizing buffer with
  | _ n ih =>
      cases hnext : next lib buffer.bytes with
      | none =>
          rw [onMessage_of_none hnext, Framing.Framer.drain_of_none (F := framer lib) hnext]
          exact ⟨rfl, rfl⟩
      | some taken =>
          obtain ⟨message, rest⟩ := taken
          obtain ⟨left, hleft, hloop⟩ := onMessage_of_some hnext
          have hshort : left.bytes.length < n := by
            rw [← hsize, hleft]
            exact Framing.Framer.next_length (F := framer lib) hnext
          obtain ⟨hmessages, hfinal⟩ := ih left.bytes.length hshort left rfl
          rw [hloop, Framing.Framer.drain_of_some (F := framer lib) hnext, ← hleft]
          exact ⟨congrArg (message :: ·) hmessages, hfinal⟩

/-- Chunk by chunk, `receive` feeds the framer. -/
theorem receive_feed (chunks : List (List UInt8)) (buffer : ByteQueue) :
    (receive lib chunks buffer).1 = ((framer lib).feed chunks buffer.bytes).1 ∧
      (receive lib chunks buffer).2.bytes = ((framer lib).feed chunks buffer.bytes).2 := by
  induction chunks generalizing buffer with
  | nil => exact ⟨rfl, rfl⟩
  | cons chunk rest ih =>
      obtain ⟨hmessages, hleft⟩ := onMessage_drain lib (buffer.append chunk)
      obtain ⟨hmore, hfinal⟩ := ih (onMessage lib (buffer.append chunk)).2
      rw [ByteQueue.bytes_append] at hmessages hleft
      rw [hleft] at hmore hfinal
      simp only [receive, Framing.Framer.feed, hmessages, hmore, hfinal, and_self]

theorem int32At_append {bytes : List UInt8} (h : 4 ≤ bytes.length) (more : List UInt8) :
    int32At (bytes ++ more) = int32At bytes := by
  rw [int32At, List.take_append_of_le_length h, int32At]

variable {lib}

/-- Nothing is taken from a stream that fails at the front, however it goes on. -/
theorem next_of_failsAtFront {bytes : List UInt8} (h : FailsAtFront lib bytes)
    (more : List UInt8) : next lib (bytes ++ more) = none := by
  obtain ⟨hheader, hfails⟩ := h
  have hlen := int32At_append hheader more
  simp only [next, hlen]
  split_ifs with hroom hlimit hframe hparse
  · rfl
  · exfalso
    rcases hfails with hlow | hhigh | ⟨hfits, hreject⟩
    · exact hlimit (.inr hlow)
    · exact hlimit (.inl hhigh)
    · apply hreject
      have hbody : ((bytes ++ more).drop KHeaderLen.toNat).take (int32At bytes).toNat =
          (bytes.drop KHeaderLen.toNat).take (int32At bytes).toNat := by
        have hcover : (int32At bytes).toNat ≤ (bytes.drop KHeaderLen.toNat).length := by
          have hfour : KHeaderLen = 4 := rfl
          rw [List.length_drop]
          omega
        rw [List.drop_append_of_le_length (by exact hheader),
          List.take_append_of_le_length hcover]
      rw [← hbody]
      exact hparse
  · rfl
  · rfl
  · rfl

variable (lib)

theorem receive_eq_drain {buffer : ByteQueue} (hempty : buffer.bytes = [])
    (chunks : List (List UInt8)) :
    (receive lib chunks buffer).1 = ((framer lib).drain chunks.flatten).1 ∧
      (receive lib chunks buffer).2.bytes = ((framer lib).drain chunks.flatten).2 := by
  have hnone : (framer lib).next [] = none := rfl
  obtain ⟨hmessages, hfinal⟩ := receive_feed lib chunks buffer
  rw [hempty, Framing.Framer.feed_eq_drain chunks hnone, List.nil_append] at hmessages hfinal
  exact ⟨hmessages, hfinal⟩

/-- The decoder delivers the longest run of frames at the front of the stream
and leaves the rest readable; how the stream was cut does not show; and after
a frame that fails nothing more comes out. -/
theorem receive_longest_frames {buffer : ByteQueue} (hempty : buffer.bytes = [])
    (chunks : List (List UInt8)) :
    Framing.Longest (IsFrame lib) chunks.flatten (receive lib chunks buffer).1
      (receive lib chunks buffer).2.bytes ∧
    (∀ (buffer' : ByteQueue) (chunks' : List (List UInt8)), buffer'.bytes = [] →
      chunks'.flatten = chunks.flatten →
        (receive lib chunks' buffer').1 = (receive lib chunks buffer).1 ∧
          (receive lib chunks' buffer').2.bytes = (receive lib chunks buffer).2.bytes) ∧
    (FailsAtFront lib (receive lib chunks buffer).2.bytes →
      ∀ later : List (List UInt8),
        (receive lib (chunks ++ later) buffer).1 = (receive lib chunks buffer).1 ∧
          (receive lib (chunks ++ later) buffer).2.bytes =
            (receive lib chunks buffer).2.bytes ++ later.flatten) := by
  obtain ⟨hmessages, hremainder⟩ := receive_eq_drain lib hempty chunks
  refine ⟨?_, ?_, ?_⟩
  · rw [hmessages, hremainder, ← framer_isFrame]
    exact Framing.Framer.drain_longest chunks.flatten
  · intro buffer' chunks' hempty' hsame
    obtain ⟨hmessages', hremainder'⟩ := receive_eq_drain lib hempty' chunks'
    rw [hmessages, hremainder, hmessages', hremainder', hsame]
    exact ⟨rfl, rfl⟩
  · intro hfails later
    obtain ⟨hall, hleft⟩ := receive_eq_drain lib hempty (chunks ++ later)
    rw [List.flatten_append, Framing.Framer.drain_append, ← hremainder, ← hmessages] at hall hleft
    have hstop := Framing.Framer.drain_of_none (F := framer lib)
      (next_of_failsAtFront hfails later.flatten)
    rw [hstop] at hall hleft
    exact ⟨by rw [hall, List.append_nil], hleft⟩

/-- A frame with no tag, which is delivered, and behind it a header that announces a
negative length. -/
theorem receive_longest_frames_negative :
    let chunks : List (List UInt8) :=
      [[0, 0, 0, 10, 0, 0], [0, 0, 8, 1, 0, 23, 0, 10, 255], [255, 255, 255]]
    let cut := receive MessageType.runtime chunks (ByteQueue.new 4)
    (cut.1 = [.RESPONSE] ∧ cut.2.bytes = [255, 255, 255, 255]) ∧
      Framing.Longest (IsFrame MessageType.runtime) chunks.flatten cut.1 cut.2.bytes ∧
      (receive MessageType.runtime [chunks.flatten.take 3, [], chunks.flatten.drop 3]
        (ByteQueue.new 0)).1 = cut.1 ∧
      (receive MessageType.runtime (chunks ++ [[82, 80, 67, 48]]) (ByteQueue.new 4)).1 =
        cut.1 := by
  intro chunks cut
  have hframe : IsFrame MessageType.runtime [0, 0, 0, 10, 0, 0, 0, 0, 8, 1, 0, 23, 0, 10]
      .RESPONSE := by
    refine ⟨[0, 0, 0, 0, 8, 1, 0, 23, 0, 10], by decide, by decide, by decide, ?_⟩
    unfold parse
    decide
  have hsplit : chunks.flatten =
      [0, 0, 0, 10, 0, 0, 0, 0, 8, 1, 0, 23, 0, 10] ++ [255, 255, 255, 255] := by
    decide
  have hdrain : (framer MessageType.runtime).drain chunks.flatten =
      ([.RESPONSE], [255, 255, 255, 255]) := by
    have hrest : (framer MessageType.runtime).drain [255, 255, 255, 255] =
        ([], [255, 255, 255, 255]) := Framing.Framer.drain_of_none rfl
    rw [hsplit, drain_of_isFrame hframe, hrest]
  obtain ⟨hmessages, hleft⟩ := receive_eq_drain MessageType.runtime (ByteQueue.bytes_new 4) chunks
  rw [hdrain] at hmessages hleft
  obtain ⟨hlongest, hcut, hstop⟩ := receive_longest_frames MessageType.runtime
    (ByteQueue.bytes_new 4) chunks
  have hfails : FailsAtFront MessageType.runtime cut.2.bytes := by
    rw [hleft]
    exact ⟨by decide, .inl (by decide)⟩
  exact ⟨⟨hmessages, hleft⟩, hlongest,
    (hcut _ [chunks.flatten.take 3, [], chunks.flatten.drop 3] (ByteQueue.bytes_new 0) rfl).1,
    (hstop hfails _).1⟩

end MuduoRpc.Rpc
