import MuduoRpc.Lib.SlidingWindow
import MuduoRpc.Net.ByteDeque
import MuduoRpc.Net.ReadFd

/-!
The indices of a buffer and the size of its vector, over any calls of its functions,
`readFd` included. They move as a window does that starts over behind the prepend reserve,
and the vector grows only to a size that what is read and asked for explains.
-/

namespace MuduoRpc

open Slice

namespace Buffer

/-- A call from outside: the operations and `readFd`, with what `readv` answers. -/
inductive Call
  | operation (op : Operation)
  | readFd (extrabuf : Extrabuf) (saveerrno : Int) (result : ReadvResult)

namespace Call

def Precondition (b : Buffer) : Call → Prop
  | .operation op => op.Precondition b
  | .readFd _ _ result => result.data.length ≤ b.iov.sum

instance (b : Buffer) (call : Call) : Decidable (call.Precondition b) := by
  cases call <;> unfold Precondition <;> infer_instance

def perform (b : Buffer) : Call → Option Buffer
  | .operation op => op.perform b
  | .readFd extrabuf saveerrno result =>
      (b.readFdSaving extrabuf saveerrno result).map Prod.fst

/-- A call whose assertions hold. -/
def next (b : Buffer) (call : Call) : Option Buffer :=
  if call.Precondition b then call.perform b else none

/-- The length for which the call calls `append` or `ensureWriteableBytes`; `readFd` appends
what the vector had no room for. -/
def asks (b : Buffer) : Call → Nat
  | .operation (.append data) => data.length
  | .operation (.appendInt64 _) => 8
  | .operation (.appendInt32 _) => 4
  | .operation (.appendInt16 _) => 2
  | .operation (.appendInt8 _) => 1
  | .operation (.ensureWriteableBytes len) => len
  | .readFd _ _ result => result.data.length - b.writeableBytes
  | _ => 0

end Call

def system (initalsize : Nat) : Transition.System Buffer Call where
  init b := b = new initalsize
  next b call := call.next b

def window (b : Buffer) : SlidingWindow := ⟨b.readerIndex_, b.writeIndex_, b.buffer_.length⟩

theorem InBounds.ordered {b : Buffer} (h : b.InBounds) : b.window.Ordered :=
  ⟨h.reader_le, h.write_le⟩

namespace Operation

/-- The operation on the indices. -/
def onWindow (w : SlidingWindow) : Operation → SlidingWindow
  | .append data => w.push KCheapPrependSize data.length
  | .appendInt64 _ => w.push KCheapPrependSize 8
  | .appendInt32 _ => w.push KCheapPrependSize 4
  | .appendInt16 _ => w.push KCheapPrependSize 2
  | .appendInt8 _ => w.push KCheapPrependSize 1
  | .prepend data => w.pushFront data.length
  | .retrieve len | .retrieveAsString len => w.drop KCheapPrependSize len
  | .retrieveInt64 => w.drop KCheapPrependSize 8
  | .retrieveInt32 => w.drop KCheapPrependSize 4
  | .retrieveInt16 => w.drop KCheapPrependSize 2
  | .retrieveInt8 => w.drop KCheapPrependSize 1
  | .retrieveAll => w.rewind KCheapPrependSize
  | .retrieveAllAsString => w.drop KCheapPrependSize w.held
  | .hasWritten data => w.extend data.length
  | .unWrite len => w.cutBack len
  | .ensureWriteableBytes len => w.makeRoom KCheapPrependSize len

end Operation

def Call.onWindow (w : SlidingWindow) : Call → SlidingWindow
  | .operation op => op.onWindow w
  | .readFd _ _ result => w.fill KCheapPrependSize result.data.length

section Windows

variable {b b' : Buffer}

theorem window_retrieve {len : Nat} (h : b.retrieve len = some b') :
    b'.window = b.window.drop KCheapPrependSize len := by
  unfold retrieve at h
  split_ifs at h with hlen hpart
  · cases h
    exact (if_pos hpart).symm
  · cases h
    exact (if_neg hpart).symm

theorem window_retrieveAsString {len : Nat} {result : List UInt8}
    (h : b.retrieveAsString len = some (result, b')) :
    b'.window = b.window.drop KCheapPrependSize len := by
  unfold retrieveAsString at h
  split_ifs at h with hlen
  obtain ⟨c, hretrieve, hresult⟩ := Option.bind_eq_some_iff.mp h
  cases hresult
  exact window_retrieve hretrieve

theorem window_makespace (h : b.InBounds) {len : Nat} (hneed : b.writeableBytes < len)
    (hspace : b.makespace len = some b') :
    b'.window = b.window.makeRoom KCheapPrependSize len := by
  have hreader := h.reader_le
  have hwrite := h.write_le
  have hfull : ¬len ≤ b.window.free := Nat.not_le_of_lt hneed
  rw [SlidingWindow.makeRoom, if_neg hfull]
  unfold makespace at hspace
  by_cases hshort : b.writeableBytes + b.prependableBytes < len + KCheapPrependSize
  · rw [if_pos hshort] at hspace
    cases hspace
    have hsize : b.buffer_.length ≤ b.writeIndex_ + len := by
      unfold writeableBytes at hneed
      omega
    rw [if_pos (show b.window.free + b.window.reader < len + KCheapPrependSize from hshort)]
    exact congrArg (SlidingWindow.mk b.readerIndex_ b.writeIndex_) (length_resize hsize)
  · have hdown : KCheapPrependSize < b.readerIndex_ := by
      unfold prependableBytes at hshort
      omega
    have hfit : KCheapPrependSize + b.readable.length ≤ b.buffer_.length := by
      rw [h.length_readable]
      unfold readableBytes
      omega
    simp only [if_neg hshort, if_pos hdown] at hspace
    split_ifs at hspace
    cases hspace
    rw [if_neg (show ¬b.window.free + b.window.reader < len + KCheapPrependSize from hshort)]
    exact congrArg (SlidingWindow.mk KCheapPrependSize (KCheapPrependSize + b.readableBytes))
      (length_overwrite hfit)

theorem window_ensureWriteableBytes (h : b.InBounds) {len : Nat}
    (hensure : b.ensureWriteableBytes len = some b') :
    b'.window = b.window.makeRoom KCheapPrependSize len := by
  by_cases hneed : b.writeableBytes < len
  · obtain ⟨c, hspace, _, hroom⟩ := makespace_extends h hneed
    have hsame : b.ensureWriteableBytes len = some c := by
      simp [ensureWriteableBytes, hneed, hspace, hroom]
    obtain rfl := Option.some.inj (hensure.symm.trans hsame)
    exact window_makespace h hneed hspace
  · have hroom : len ≤ b.writeableBytes := Nat.le_of_not_lt hneed
    have hsame : b.ensureWriteableBytes len = some b := by
      simp [ensureWriteableBytes, hneed, hroom]
    obtain rfl := Option.some.inj (hensure.symm.trans hsame)
    exact (if_pos hroom).symm

theorem window_store (h : b.InBounds) {data : List UInt8} (hroom : data.length ≤ b.writeableBytes) :
    (b.store data).window = b.window :=
  congrArg (SlidingWindow.mk b.readerIndex_ b.writeIndex_)
    (length_overwrite (h.write_add_le hroom))

theorem window_hasWritten_store (h : b.InBounds) {data : List UInt8}
    (hroom : data.length ≤ b.writeableBytes)
    (hwritten : (b.store data).hasWritten data.length = some b') :
    b'.window = b.window.extend data.length := by
  rw [hasWritten_store h hroom] at hwritten
  cases hwritten
  exact congrArg (SlidingWindow.extend · data.length) (window_store h hroom)

theorem window_append (h : b.InBounds) {data : List UInt8} (happend : b.append data = some b') :
    b'.window = b.window.push KCheapPrependSize data.length := by
  obtain ⟨c, hensure, hwritten⟩ := Option.bind_eq_some_iff.mp happend
  obtain ⟨c', hensure', hextends, hroom⟩ := ensureWriteableBytes_extends h data.length
  obtain rfl := Option.some.inj (hensure.symm.trans hensure')
  rw [window_hasWritten_store hextends.inBounds hroom hwritten,
    window_ensureWriteableBytes h hensure]
  rfl

/-- For the integers, which are appended as so many bytes. -/
theorem window_appended (h : b.InBounds) {result : Option Buffer} {data : List UInt8} {n : Nat}
    (heq : result = b.append data) (hlength : data.length = n) (hresult : result = some b') :
    b'.window = b.window.push KCheapPrependSize n := by
  subst hlength
  exact window_append h (heq.symm.trans hresult)

theorem window_prepend (h : b.InBounds) {data : List UInt8} (hprepend : b.prepend data = some b') :
    b'.window = b.window.pushFront data.length := by
  have hreader := h.reader_le
  have hwrite := h.write_le
  unfold prepend at hprepend
  split_ifs at hprepend with hroom
  cases hprepend
  have hfit : b.readerIndex_ - data.length + data.length ≤ b.buffer_.length := by
    unfold prependableBytes at hroom
    omega
  exact congrArg (SlidingWindow.mk (b.readerIndex_ - data.length) b.writeIndex_)
    (length_overwrite hfit)

theorem window_readFd (h : b.InBounds) {data : List UInt8} (hread : b.readFd data = some b') :
    b'.window = b.window.fill KCheapPrependSize data.length := by
  by_cases hfits : data.length ≤ b.writeableBytes
  · have hwhole : data.take b.writeableBytes = data := List.take_of_length_le hfits
    simp only [readFd, if_pos hfits, hwhole] at hread
    cases hread
    rw [SlidingWindow.fill, if_pos (show data.length ≤ b.window.free from hfits)]
    exact congrArg (SlidingWindow.extend · data.length) (window_store h hfits)
  · have htake : (data.take b.writeableBytes).length = b.writeableBytes := by
      rw [List.length_take]
      omega
    have hroom := Nat.le_of_eq htake
    have hstored := store_extends h hroom
    have hlast : (b.store (data.take b.writeableBytes)).buffer_.length =
        b.writeIndex_ + (data.take b.writeableBytes).length := by
      have hwrite := h.write_le
      change (overwrite b.buffer_ b.writeIndex_ _).length = _
      rw [length_overwrite (h.write_add_le hroom), htake, writeableBytes]
      omega
    simp only [readFd] at hread
    rw [if_neg hfits, hlast] at hread
    have hfull : SlidingWindow.extend (b.store (data.take b.writeableBytes)).window
        (data.take b.writeableBytes).length = b.window.extend b.window.free := by
      rw [window_store h hroom, htake]
      rfl
    have happended := window_append hstored.inBounds hread
    rw [SlidingWindow.fill, if_neg (show ¬data.length ≤ b.window.free from hfits), ← hfull,
      happended, List.length_drop]
    rfl

theorem window_perform (h : b.Valid) {op : Operation} (hpre : op.Precondition b)
    (hperform : op.perform b = some b') : b'.window = op.onWindow b.window := by
  have hin := h.inBounds
  cases op with
  | append data => exact window_append hin hperform
  | appendInt64 x =>
      exact window_appended hin (appendInt64_eq b x) (Endian.length_toMemory 8 _) hperform
  | appendInt32 x =>
      exact window_appended hin (appendInt32_eq b x) (Endian.length_bigEndian 4 _) hperform
  | appendInt16 x =>
      exact window_appended hin (appendInt16_eq b x) (Endian.length_bigEndian 2 _) hperform
  | appendInt8 x =>
      exact window_appended hin (appendInt8_eq b x) (Endian.length_bigEndian 1 _) hperform
  | prepend data => exact window_prepend hin hperform
  | retrieve len => exact window_retrieve hperform
  | retrieveInt64 | retrieveInt32 | retrieveInt16 | retrieveInt8 =>
      exact window_retrieve hperform
  | retrieveAll =>
      cases hperform
      rfl
  | retrieveAsString len | retrieveAllAsString =>
      obtain ⟨⟨result, c⟩, hstring, rfl⟩ := Option.map_eq_some_iff.mp hperform
      exact window_retrieveAsString hstring
  | hasWritten data => exact window_hasWritten_store hin hpre hperform
  | unWrite len =>
      simp only [Operation.perform, unWrite] at hperform
      split_ifs at hperform
      cases hperform
      rfl
  | ensureWriteableBytes len => exact window_ensureWriteableBytes hin hperform

/-- A call keeps the indices in order and moves them as it moves the window. -/
theorem next_spec (h : b.Valid) {call : Call} (hnext : call.next b = some b') :
    b'.Valid ∧ b'.window = call.onWindow b.window := by
  unfold Call.next at hnext
  split_ifs at hnext with hpre
  cases call with
  | operation op =>
      obtain ⟨c, hperformed, hvalid, _⟩ := perform_spec h hpre
      obtain rfl := Option.some.inj (hnext.symm.trans hperformed)
      exact ⟨hvalid, window_perform h hpre hnext⟩
  | readFd extrabuf saveerrno result =>
      obtain ⟨⟨c, returned⟩, hread, rfl⟩ := Option.map_eq_some_iff.mp hnext
      cases result with
      | received data =>
          rw [readFdSaving_received (show data.length ≤ b.iov.sum from hpre)] at hread
          obtain ⟨c', hread', hresult⟩ := Option.map_eq_some_iff.mp hread
          cases hresult
          obtain ⟨d, hd, hvalid, _⟩ := readFd_spec h data
          obtain rfl := Option.some.inj (hread'.symm.trans hd)
          exact ⟨hvalid, window_readFd h.inBounds hread'⟩
      | failed errno =>
          cases hread
          exact ⟨h, (SlidingWindow.fill_zero b.window).symm⟩

end Windows

section Growth

variable {b b' : Buffer}

/-- One call: the vector stays as it is, or is explained by what was asked for and by the
readable bytes before or after the call. -/
theorem length_next_le (h : b.Valid) {call : Call} (hnext : call.next b = some b') :
    b'.buffer_.length ≤ max b.buffer_.length
      (max b.readableBytes b'.readableBytes + 2 * call.asks b + KCheapPrependSize) := by
  have hordered := h.inBounds.ordered
  have hwindow := (next_spec h hnext).2
  have hsize : b'.buffer_.length = (call.onWindow b.window).size :=
    congrArg SlidingWindow.size hwindow
  have hheld : b'.readableBytes = (call.onWindow b.window).held :=
    congrArg SlidingWindow.held hwindow
  have hpush (n : Nat) : (b.window.push KCheapPrependSize n).size ≤ max b.buffer_.length
      (max b.readableBytes b'.readableBytes + 2 * n + KCheapPrependSize) := by
    have hgrown : (b.window.push KCheapPrependSize n).size ≤
        max b.buffer_.length (b.readableBytes + 2 * n + KCheapPrependSize) :=
      SlidingWindow.size_push_le hordered
    omega
  have hdrop (n bound : Nat) :
      (b.window.drop KCheapPrependSize n).size ≤ max b.buffer_.length bound := by
    unfold SlidingWindow.drop
    split_ifs <;> exact Nat.le_max_left _ _
  rw [hsize]
  cases call with
  | operation op =>
      cases op with
      | append data => exact hpush data.length
      | appendInt64 x => exact hpush 8
      | appendInt32 x => exact hpush 4
      | appendInt16 x => exact hpush 2
      | appendInt8 x => exact hpush 1
      | ensureWriteableBytes len => exact hpush len
      | retrieve len | retrieveAsString len => exact hdrop len _
      | retrieveInt64 | retrieveInt32 | retrieveInt16 | retrieveInt8 | retrieveAllAsString =>
          exact hdrop _ _
      | prepend _ | retrieveAll | hasWritten _ | unWrite _ => exact Nat.le_max_left _ _
  | readFd extrabuf saveerrno result =>
      have hfill : (b.window.fill KCheapPrependSize result.data.length).size ≤
          max b.buffer_.length ((b.window.fill KCheapPrependSize result.data.length).held +
            2 * (result.data.length - b.writeableBytes) + KCheapPrependSize) :=
        SlidingWindow.size_fill_le hordered
      change b'.readableBytes = (b.window.fill KCheapPrependSize result.data.length).held at hheld
      rw [← hheld] at hfill
      change (b.window.fill KCheapPrependSize result.data.length).size ≤ max b.buffer_.length
        (max b.readableBytes b'.readableBytes +
          2 * (result.data.length - b.writeableBytes) + KCheapPrependSize)
      omega

/-- No `append` or `ensureWriteableBytes` asks for more than `L` bytes, and after the call
at most `R` are readable. -/
def Within (R L : Nat) (b : Buffer) (call : Call) : Prop :=
  call.asks b ≤ L ∧ ∀ b' ∈ call.next b, b'.readableBytes ≤ R

instance (R L : Nat) (b : Buffer) (call : Call) : Decidable (Within R L b call) :=
  inferInstanceAs (Decidable (_ ∧ _))

/-- However long the run, the vector outgrows its first size only up to a bound that does
not depend on the run. -/
theorem length_le_of_within {R L initalsize : Nat}
    (h : (system initalsize).ReachableVia (Within R L) b) :
    b.buffer_.length ≤
      max (new initalsize).buffer_.length (R + 2 * L + KCheapPrependSize) := by
  have hinv : b.Valid ∧ b.readableBytes ≤ R ∧ b.buffer_.length ≤
      max (new initalsize).buffer_.length (R + 2 * L + KCheapPrependSize) := by
    apply h.invariant (I := fun b => b.Valid ∧ b.readableBytes ≤ R ∧ b.buffer_.length ≤
      max (new initalsize).buffer_.length (R + 2 * L + KCheapPrependSize))
    · rintro _ rfl
      exact ⟨new_valid initalsize, by simp [new, readableBytes], Nat.le_max_left _ _⟩
    · rintro b call b' ⟨hvalid, hreadable, hlength⟩ ⟨hasks, hafter⟩ hnext
      have hreadable' := hafter b' hnext
      have hgrown := length_next_le hvalid hnext
      exact ⟨(next_spec hvalid hnext).1, hreadable', by omega⟩
  exact hinv.2.2

/-- Ten bytes arrive, and then six are taken out and six arrive, twice: the consumed room
is used again. -/
theorem length_le_of_within_drained :
    ∃ b : Buffer, (b.readerIndex_ = KCheapPrependSize ∧ b.readableBytes = 10) ∧
      b.buffer_.length ≤ max (new 0).buffer_.length (10 + 2 * 10 + KCheapPrependSize) := by
  obtain ⟨b, hreach, hb⟩ : ∃ b, (system 0).ReachableVia (Within 10 10) b ∧
      b.readerIndex_ = KCheapPrependSize ∧ b.readableBytes = 10 :=
    Transition.System.exists_of_exec _ (new 0)
      [.operation (.append (List.replicate 10 1)), .operation (.retrieve 6),
        .operation (.append (List.replicate 6 2)), .operation (.retrieve 6),
        .operation (.append (List.replicate 6 3))] rfl (by decide)
  exact ⟨b, hb, length_le_of_within hreach⟩

end Growth

end Buffer

end MuduoRpc
