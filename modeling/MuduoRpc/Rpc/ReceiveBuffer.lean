import MuduoRpc.Net.BufferWindow
import MuduoRpc.Rpc.Stream

/-!
How much a connection holds whose message callback is the codec. A stream that goes on
decoding leaves less than one frame of the greatest length behind each read, and the vector
stays within a bound that does not depend on the length of the stream. A stream that has
failed is kept from there on.
-/

namespace MuduoRpc

theorem Buffer.buffer_retrieve {b b' : Buffer} {len : Nat} (h : b.retrieve len = some b') :
    b'.buffer_ = b.buffer_ := by
  unfold Buffer.retrieve at h
  split_ifs at h <;> cases h <;> rfl

namespace ByteQueue

/-- The size of the vector. -/
def size (q : ByteQueue) : Nat := q.buffer.buffer_.length

theorem size_retrieve (q : ByteQueue) {len : Nat} (h : len ≤ q.readableBytes) :
    (q.retrieve len h).size = q.size := by
  obtain ⟨b, hb, _⟩ := Buffer.retrieve_spec q.valid h
  rw [size, retrieve, ofResult_eq hb, Buffer.buffer_retrieve hb]
  rfl

/-- A read that `readv` can make grows the vector to no more than what was held before it
and four times the `extrabuf`. -/
theorem size_readFd_le (q : ByteQueue) {data : List UInt8}
    (hdata : data.length ≤ q.buffer.readRoom) :
    (q.readFd data).size ≤
      max q.size (q.bytes.length + 4 * (1024 * 1024) + KCheapPrependSize) := by
  obtain ⟨b, hb, _⟩ := Buffer.readFd_spec q.valid data
  have hheld : b.window.held = q.bytes.length + data.length := by
    have hlength := congrArg List.length (q.bytes_readFd data)
    rwa [length_bytes, readableBytes, readFd, ofResult_eq hb, List.length_append] at hlength
  have hfill : (q.buffer.window.fill KCheapPrependSize data.length).size ≤
      max q.buffer.window.size
        ((q.buffer.window.fill KCheapPrependSize data.length).held +
          2 * (data.length - q.buffer.window.free) + KCheapPrependSize) :=
    SlidingWindow.size_fill_le q.valid.inBounds.ordered
  rw [← Buffer.window_readFd q.valid.inBounds hb, hheld] at hfill
  have hroom : data.length ≤ q.buffer.window.free ∨
      q.buffer.window.free < 1024 * 1024 ∧
        data.length ≤ q.buffer.window.free + 1024 * 1024 := by
    rw [Buffer.readRoom] at hdata
    split_ifs at hdata with hsmall
    · exact .inr ⟨hsmall, hdata⟩
    · exact .inl hdata
  have hsize : (q.readFd data).size = b.window.size := by
    rw [size, readFd, ofResult_eq hb]
    rfl
  have hold : q.size = q.buffer.window.size := rfl
  rcases hroom with hfits | ⟨hfree, hextra⟩
  · have hsame : b.window.size = q.buffer.window.size := by
      rw [Buffer.window_readFd q.valid.inBounds hb, SlidingWindow.fill, if_pos hfits]
      rfl
    omega
  · omega

end ByteQueue

namespace Rpc

open Buffer (int32At)

variable {Msg : Type*} (lib : ProtoLib Msg)

/-- `TcpConnection::handleRead` for each of the reads: `readFd`, then the message callback. -/
def handleReads : List (List UInt8) → ByteQueue → List Msg × ByteQueue
  | [], buffer => ([], buffer)
  | data :: rest, buffer =>
      let (messages, left) := onMessage lib (buffer.readFd data)
      let (messages', final) := handleReads rest left
      (messages ++ messages', final)

/-- Read by read, `handleReads` feeds the framer. -/
theorem handleReads_feed (reads : List (List UInt8)) (buffer : ByteQueue) :
    (handleReads lib reads buffer).1 = ((framer lib).feed reads buffer.bytes).1 ∧
      (handleReads lib reads buffer).2.bytes = ((framer lib).feed reads buffer.bytes).2 := by
  induction reads generalizing buffer with
  | nil => exact ⟨rfl, rfl⟩
  | cons data rest ih =>
      obtain ⟨hmessages, hleft⟩ := onMessage_drain lib (buffer.readFd data)
      obtain ⟨hmore, hfinal⟩ := ih (onMessage lib (buffer.readFd data)).2
      rw [ByteQueue.bytes_readFd] at hmessages hleft
      rw [hleft] at hmore hfinal
      simp only [handleReads, Framing.Framer.feed, hmessages, hmore, hfinal, and_self]

theorem handleReads_drain (reads : List (List UInt8)) (initalsize : Nat) :
    (handleReads lib reads (ByteQueue.new initalsize)).1 =
        ((framer lib).drain reads.flatten).1 ∧
      (handleReads lib reads (ByteQueue.new initalsize)).2.bytes =
        ((framer lib).drain reads.flatten).2 := by
  have hnone : (framer lib).next [] = none := rfl
  have hfeed := handleReads_feed lib reads (ByteQueue.new initalsize)
  rwa [ByteQueue.bytes_new, Framing.Framer.feed_eq_drain reads hnone, List.nil_append] at hfeed

/-- The reads bring something, and no more than `readFd` asks for when they are made. -/
def Answers : List (List UInt8) → ByteQueue → Prop
  | [], _ => True
  | data :: rest, buffer =>
      (0 < data.length ∧ data.length ≤ buffer.buffer.readRoom) ∧
        Answers rest (onMessage lib (buffer.readFd data)).2

variable {lib}

/-- Reads of at most the length of `extrabuf` can always be made. -/
theorem answers_of_extrabuf {reads : List (List UInt8)}
    (h : ∀ data ∈ reads, 0 < data.length ∧ data.length ≤ 1024 * 1024) (buffer : ByteQueue) :
    Answers lib reads buffer := by
  induction reads generalizing buffer with
  | nil => trivial
  | cons data rest ih =>
      rw [List.forall_mem_cons] at h
      obtain ⟨⟨hpos, hextra⟩, hrest⟩ := h
      refine ⟨⟨hpos, ?_⟩, ih hrest _⟩
      rw [Buffer.readRoom]
      split_ifs <;> omega

/-- The loop takes bytes out and leaves the vector as it is. -/
theorem size_onMessage (buffer : ByteQueue) : (onMessage lib buffer).2.size = buffer.size := by
  induction hsize : buffer.bytes.length using Nat.strongRecOn generalizing buffer with
  | _ n ih =>
      cases hnext : next lib buffer.bytes with
      | none => rw [onMessage_of_none hnext]
      | some taken =>
          obtain ⟨message, rest⟩ := taken
          obtain ⟨len, hframe, hleft, hloop⟩ := onMessage_retrieve hnext
          have hshort : (buffer.retrieve len hframe).bytes.length < n := by
            rw [← hsize, hleft]
            exact Framing.Framer.next_length (F := framer lib) hnext
          rw [hloop, ih _ hshort _ rfl, ByteQueue.size_retrieve]

/-- What the loop stops at fails or is less than a frame. -/
theorem short_or_fails {bytes : List UInt8} (h : next lib bytes = none) :
    FailsAtFront lib bytes ∨ bytes.length < (KHeaderLen + KMaxMessageLen).toNat := by
  have hheader : KHeaderLen = 4 := rfl
  have hmax : KMaxMessageLen = 67108864 := rfl
  simp only [next] at h
  split_ifs at h with hroom hlimit hframe hparse
  · have hfour := header_room hroom
    rcases hlimit with hhigh | hlow
    · exact .inl ⟨hfour, .inr (.inl hhigh)⟩
    · exact .inl ⟨hfour, .inl hlow⟩
  · exact .inl ⟨header_room hroom, .inr (.inr ⟨hframe, hparse⟩)⟩
  · exact .inr (by omega)
  · have hcheck : KChecksumLen = 4 := rfl
    exact .inr (by omega)

/-- A stream that fails at the front still does when more has arrived. -/
theorem failsAtFront_append {bytes : List UInt8} (h : FailsAtFront lib bytes)
    (more : List UInt8) : FailsAtFront lib (bytes ++ more) := by
  obtain ⟨hheader, hfails⟩ := h
  have hfour : KHeaderLen = 4 := rfl
  refine ⟨?_, ?_⟩
  · rw [List.length_append]
    omega
  · rw [int32At_append hheader more]
    refine hfails.imp_right (Or.imp_right ?_)
    rintro ⟨hfits, hreject⟩
    have hcover : (int32At bytes).toNat ≤ (bytes.drop KHeaderLen.toNat).length := by
      rw [List.length_drop]
      omega
    rw [List.drop_append_of_le_length (by exact hheader),
      List.take_append_of_le_length hcover, List.length_append]
    exact ⟨by omega, hreject⟩

/-- The buffer between two reads, when the vector had `initial` bytes at first. -/
structure Held (initial : Nat) (buffer : ByteQueue) : Prop where
  bytes : buffer.bytes.length < (KHeaderLen + KMaxMessageLen).toNat
  size : buffer.size ≤
    max initial ((KHeaderLen + KMaxMessageLen).toNat + 4 * (1024 * 1024) + KCheapPrependSize)

/-- One read. -/
theorem Held.handleRead {initial : Nat} {buffer : ByteQueue} (h : Held initial buffer)
    {data : List UInt8} (hdata : data.length ≤ buffer.buffer.readRoom) :
    let left := (onMessage lib (buffer.readFd data)).2
    FailsAtFront lib left.bytes ∨ Held initial left := by
  have hstop : next lib (onMessage lib (buffer.readFd data)).2.bytes = none := by
    rw [(onMessage_drain lib (buffer.readFd data)).2]
    exact (Framing.Framer.drain_split (F := framer lib) _).2
  refine (short_or_fails hstop).imp_right fun hshort => ⟨hshort, ?_⟩
  have hgrown := buffer.size_readFd_le hdata
  have hbytes := h.bytes
  have hsize := h.size
  rw [size_onMessage]
  omega

theorem held_or_fails {initial : Nat} {reads : List (List UInt8)} {buffer : ByteQueue}
    (hreads : Answers lib reads buffer)
    (h : FailsAtFront lib buffer.bytes ∨ Held initial buffer) :
    let final := (handleReads lib reads buffer).2
    FailsAtFront lib final.bytes ∨ Held initial final := by
  induction reads generalizing buffer with
  | nil => exact h
  | cons data rest ih =>
      obtain ⟨⟨_, hdata⟩, hrest⟩ := hreads
      refine ih hrest ?_
      rcases h with hfails | hheld
      · have hnone : next lib (buffer.readFd data).bytes = none := by
          rw [ByteQueue.bytes_readFd]
          exact next_of_failsAtFront hfails data
        rw [onMessage_of_none hnone, ByteQueue.bytes_readFd]
        exact .inl (failsAtFront_append hfails data)
      · exact hheld.handleRead hdata

/-- A connection that starts with an empty buffer holds less than one frame of the greatest
length between two reads, in a vector that does not grow with the stream; or the stream has
failed, and then nothing more is delivered and every further byte is kept. -/
theorem receive_bounded {initalsize : Nat} {reads : List (List UInt8)}
    (hreads : Answers lib reads (ByteQueue.new initalsize)) :
    let start := ByteQueue.new initalsize
    let final := (handleReads lib reads start).2
    Held start.size final ∨ FailsAtFront lib final.bytes ∧ ∀ later : List (List UInt8),
      (handleReads lib (reads ++ later) start).1 = (handleReads lib reads start).1 ∧
        (handleReads lib (reads ++ later) start).2.bytes = final.bytes ++ later.flatten := by
  intro start final
  have hstart : Held start.size start := by
    refine ⟨?_, Nat.le_max_left _ _⟩
    have hempty : start.bytes = [] := ByteQueue.bytes_new initalsize
    have hheader : KHeaderLen = 4 := rfl
    have hmax : KMaxMessageLen = 67108864 := rfl
    rw [hempty, List.length_nil]
    omega
  rcases held_or_fails hreads (.inr hstart) with hfails | hheld
  · refine .inr ⟨hfails, fun later => ?_⟩
    obtain ⟨hmessages, hleft⟩ := handleReads_drain lib reads initalsize
    obtain ⟨hall, hkept⟩ := handleReads_drain lib (reads ++ later) initalsize
    rw [List.flatten_append, Framing.Framer.drain_append, ← hleft, ← hmessages] at hall hkept
    rw [Framing.Framer.drain_of_none (F := framer lib)
      (next_of_failsAtFront hfails later.flatten)] at hall hkept
    exact ⟨by rw [hall, List.append_nil], hkept⟩
  · exact .inl hheld

/-- A header that comes in two reads. -/
theorem receive_bounded_split_header :
    let start := ByteQueue.new 16
    let reads : List (List UInt8) := [[0, 0], [0, 10, 82, 80]]
    let final := (handleReads MessageType.runtime reads start).2
    Held start.size final ∨ FailsAtFront MessageType.runtime final.bytes ∧
      ∀ later : List (List UInt8),
        (handleReads MessageType.runtime (reads ++ later) start).1 =
            (handleReads MessageType.runtime reads start).1 ∧
          (handleReads MessageType.runtime (reads ++ later) start).2.bytes =
            final.bytes ++ later.flatten :=
  receive_bounded (answers_of_extrabuf (by decide) _)

end Rpc

end MuduoRpc
