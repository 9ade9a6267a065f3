import MuduoRpc.Lib.LengthPrefix
import MuduoRpc.Rpc.Lengths

/-!
A receiver for the frames that the sender builds, as the frame format asks for it: the
length, the tag, the checksum and the message, each of them checked. `parse` of the
repository compares the tag the other way.
-/

namespace MuduoRpc.Rpc

variable {Msg : Type} (lib : ProtoLib Msg)

/-- What is sent for a message. -/
def frame (message : Msg) : List UInt8 :=
  Endian.bigEndian 4 (body lib message).length ++ body lib message

variable {lib}

/-- What the sender can frame: the size and the checksum are added as `int`s. -/
theorem room_of_fillEmptyMessage {message : Msg} {buf buf' : Buffer}
    (h : fillEmptyMessage lib buf message = some buf') :
    lib.byteSizeLong message + 4 < 2 ^ 31 := by
  simp only [fillEmptyMessage, serializeToBuffer, toIntSize, intAdd, Option.bind_eq_bind,
    Option.bind_eq_some_iff, Option.ite_none_right_eq_some] at h
  obtain ⟨_, _, _, _, ⟨_, ⟨_, hsize⟩, _, ⟨hroom, _⟩, _⟩, _⟩ := h
  cases hsize
  have hfour : KChecksumLen = 4 := rfl
  omega

/-- To the decode loop of the repository no frame is one. -/
theorem next_frame (hsized : lib.Sized) {message : Msg}
    (hroom : lib.byteSizeLong message + 4 < 2 ^ 31) (more : List UInt8) :
    next lib (frame lib message ++ more) = none := by
  obtain ⟨buf, hfill⟩ := fillEmptyMessage_eq_some hsized hroom 1024
  have hreadable : buf.readable = frame lib message := readable_of_fillEmptyMessage hsized hfill
  have hencodes : Encodes lib message (frame lib message) := ⟨1024, buf, hfill, hreadable.symm⟩
  have hlength : (frame lib message).length = 4 + (lib.byteSizeLong message + 8) := by
    rw [frame, List.length_append, Endian.length_bigEndian, length_body_eq hsized]
  by_cases hsize : KMaxMessageLen < (lib.byteSizeLong message : Int) + 8
  · exact next_of_oversized hsized hencodes hsize hroom more
  · refine next_of_failsAtFront (failsAtFront_of_encodes hsized hencodes ?_) more
    have hheader : KHeaderLen = 4 := rfl
    omega

/-- The decode loop takes nothing from the front of a stream of frames. -/
theorem next_of_front (hsized : lib.Sized) {messages : List Msg}
    (hrooms : ∀ message ∈ messages, lib.byteSizeLong message + 4 < 2 ^ 31)
    {front back : List UInt8} (h : front ++ back = messages.flatMap (frame lib)) :
    next lib front = none := by
  cases messages with
  | nil =>
      rw [(List.append_eq_nil_iff.mp h).1]
      rfl
  | cons message messages =>
      cases htaken : next lib front with
      | none => rfl
      | some taken =>
          obtain ⟨bytes, _, rfl, hmore⟩ := (framer lib).selfDelimiting htaken
          have hframe := next_frame hsized (hrooms message List.mem_cons_self)
            (messages.flatMap (frame lib))
          rw [List.flatMap_cons, List.append_assoc] at h
          rw [← h] at hframe
          exact absurd ((hmore _).symm.trans hframe) (Option.some_ne_none _)

theorem receive_front (hsized : lib.Sized) {messages : List Msg}
    (hrooms : ∀ message ∈ messages, lib.byteSizeLong message + 4 < 2 ^ 31)
    {buffer : ByteQueue} (hempty : buffer.bytes = []) {chunks : List (List UInt8)}
    {back : List UInt8} (h : chunks.flatten ++ back = messages.flatMap (frame lib)) :
    (receive lib chunks buffer).1 = [] ∧
      (receive lib chunks buffer).2.bytes = chunks.flatten := by
  obtain ⟨hmessages, hleft⟩ := receive_eq_drain lib hempty chunks
  rw [Framing.Framer.drain_of_none (F := framer lib) (next_of_front hsized hrooms h)]
    at hmessages hleft
  exact ⟨hmessages, hleft⟩

end MuduoRpc.Rpc
