import MuduoRpc.Net.BufferWindow
import MuduoRpc.Rpc.Runtime

/-!
The prepend reserve of an empty buffer, on which `fillEmptyMessage` relies when it puts the
length in front. A buffer emptied by `retrieve` starts over behind the reserve; one emptied
by `unWrite` keeps its read index, which `prepend` may have moved into the reserve.
-/

namespace MuduoRpc

namespace Buffer

/-- `unWrite` takes back all that is readable while the reserve is in use. -/
def Call.StrandsReserve (b : Buffer) : Call → Prop
  | .operation (.unWrite len) =>
      len = b.readableBytes ∧ b.prependableBytes < KCheapPrependSize
  | _ => False

/-- No call of the run does. A run ends with the first call whose assertion fails. -/
def NeverStranded : Buffer → List Call → Prop
  | _, [] => True
  | b, call :: rest =>
      ¬call.StrandsReserve b ∧ ∀ b', call.next b = some b' → b'.NeverStranded rest

variable {b b' : Buffer}

/-- After a call an empty buffer has its reserve unless the call stranded it. -/
theorem rested_next_iff (h : b.Valid) (hrested : b.window.Rested KCheapPrependSize) {call : Call}
    (hnext : call.next b = some b') :
    b'.window.Rested KCheapPrependSize ↔ ¬call.StrandsReserve b := by
  have hordered := h.inBounds.ordered
  have hpre : call.Precondition b := by
    unfold Call.next at hnext
    split_ifs at hnext with hpre
    exact hpre
  rw [(next_spec h hnext).2]
  cases call with
  | operation op =>
      cases op with
      | append _ | appendInt64 _ | appendInt32 _ | appendInt16 _ | appendInt8 _ =>
          exact iff_of_true (hrested.push hordered) not_false
      | prepend data => exact iff_of_true (hrested.pushFront hordered hpre) not_false
      | retrieve _ | retrieveInt64 | retrieveInt32 | retrieveInt16 | retrieveInt8
      | retrieveAsString _ | retrieveAllAsString =>
          exact iff_of_true SlidingWindow.rested_drop not_false
      | retrieveAll => exact iff_of_true SlidingWindow.rested_rewind not_false
      | hasWritten _ => exact iff_of_true (hrested.extend hordered) not_false
      | ensureWriteableBytes _ => exact iff_of_true hrested.makeRoom not_false
      | unWrite len =>
          refine (SlidingWindow.rested_cutBack_iff hordered hpre).trans ?_
          change (len = b.readableBytes → KCheapPrependSize ≤ b.prependableBytes) ↔
            ¬(len = b.readableBytes ∧ b.prependableBytes < KCheapPrependSize)
          rw [not_and, Nat.not_lt]
  | readFd extrabuf saveerrno result => exact iff_of_true (hrested.fill hordered) not_false

/-- The `unWrite` that strands the reserve is one whose assertion holds. -/
theorem next_of_strands {call : Call} (h : call.StrandsReserve b) :
    ∃ b', call.next b = some b' := by
  cases call with
  | readFd extrabuf saveerrno result => exact h.elim
  | operation op =>
      cases op with
      | unWrite len =>
          have hlen : len ≤ b.readableBytes := Nat.le_of_eq h.1
          refine ⟨{ b with writeIndex_ := b.writeIndex_ - len }, ?_⟩
          rw [Call.next, if_pos (show (Call.operation (.unWrite len)).Precondition b from hlen)]
          exact if_pos hlen
      | _ => exact h.elim

/-- What keeps the reserve where it is there, whatever has been written. -/
def KeepsReserve (b b' : Buffer) : Prop :=
  KCheapPrependSize ≤ b.prependableBytes → KCheapPrependSize ≤ b'.prependableBytes

theorem keepsReserve_makespace {len : Nat} (h : b.makespace len = some b') :
    b.KeepsReserve b' := by
  intro hreserve
  simp only [makespace] at h
  split_ifs at h
  · cases h
    exact hreserve
  · cases h
    exact Nat.le_refl KCheapPrependSize

theorem keepsReserve_ensureWriteableBytes {len : Nat} (h : b.ensureWriteableBytes len = some b') :
    b.KeepsReserve b' := by
  by_cases hneed : b.writeableBytes < len
  · simp only [ensureWriteableBytes, if_pos hneed, Option.bind_eq_bind,
      Option.bind_eq_some_iff] at h
    obtain ⟨c, hspace, hroom⟩ := h
    split_ifs at hroom
    cases hroom
    exact keepsReserve_makespace hspace
  · simp only [ensureWriteableBytes, if_neg hneed, Option.bind_eq_bind, Option.bind_some] at h
    split_ifs at h
    cases h
    exact fun hreserve => hreserve

theorem keepsReserve_hasWritten {len : Nat} (h : b.hasWritten len = some b') :
    b.KeepsReserve b' := by
  unfold hasWritten at h
  split_ifs at h
  cases h
  exact fun hreserve => hreserve

theorem keepsReserve_append {data : List UInt8} (h : b.append data = some b') :
    b.KeepsReserve b' := by
  simp only [append, Option.bind_eq_bind, Option.bind_eq_some_iff] at h
  obtain ⟨c, hensure, hwritten⟩ := h
  have hstored : c.KeepsReserve (c.store data) := fun hreserve => hreserve
  intro hreserve
  exact keepsReserve_hasWritten hwritten
    (hstored (keepsReserve_ensureWriteableBytes hensure hreserve))

end Buffer

namespace Rpc

open Buffer (Call)

variable {Msg : Type*} (lib : ProtoLib Msg)

/-- `fillEmptyMessage` up to its last call: the buffer and the length field for `prepend`. -/
def fillUpToLength (buf : Buffer) (message : Msg) : Option (Buffer × List UInt8) :=
  if buf.readableBytes = 0 then do
    let buf ← buf.append tag_
    let (byte_size, buf) ← serializeToBuffer lib message buf
    let checkSum := checksum lib buf.readable buf.readableBytes
    let buf ← buf.appendInt32 checkSum
    if (buf.readableBytes : Int) = tag_.length + byte_size + KChecksumLen then
      let len := Endian.toSigned 32 (Endian.host_to_net_32
        (Endian.toUnsigned 32 (Endian.toSigned 32 buf.readableBytes)))
      some (buf, Endian.toMemory 4 (Endian.toUnsigned 32 len))
    else none
  else none

theorem fillEmptyMessage_eq_prepend (buf : Buffer) (message : Msg) :
    fillEmptyMessage lib buf message =
      (fillUpToLength lib buf message).bind fun handed => handed.1.prepend handed.2 := by
  unfold fillEmptyMessage fillUpToLength
  split_ifs
  · simp only [Option.bind_eq_bind, Option.bind_assoc]
    refine congrArg (Option.bind _) (funext fun tagged => ?_)
    refine congrArg (Option.bind _) (funext fun filled => ?_)
    refine congrArg (Option.bind _) (funext fun summed => ?_)
    split_ifs <;> rfl
  · rfl

/-- An empty buffer has its reserve, and the `prepend` with which `fillEmptyMessage` ends
goes through whenever it is called. -/
structure ReserveBack (b : Buffer) : Prop where
  reserve : b.readableBytes = 0 → KCheapPrependSize ≤ b.prependableBytes
  prepends : ∀ message handed, fillUpToLength lib b message = some handed →
    handed.2.length ≤ handed.1.prependableBytes ∧
      ∃ b', fillEmptyMessage lib b message = some b'

/-- In each state of the run. -/
def ReserveThroughout : Buffer → List Call → Prop
  | b, [] => ReserveBack lib b
  | b, call :: rest =>
      ReserveBack lib b ∧ ∀ b', call.next b = some b' → ReserveThroughout b' rest

variable {lib} {b : Buffer}

theorem keepsReserve_serializeToBuffer {message : Msg} {buf buf' : Buffer} {byte_size : Int}
    (h : serializeToBuffer lib message buf = some (byte_size, buf')) :
    buf.KeepsReserve buf' := by
  simp only [serializeToBuffer, Option.bind_eq_bind, Option.bind_eq_some_iff] at h
  obtain ⟨size, _, room, _, c, hensure, d, hwritten, hresult⟩ := h
  cases hresult
  have hstored : c.KeepsReserve (c.store (lib.serializeWithCachedSizesToArray message)) :=
    fun hreserve => hreserve
  intro hreserve
  exact Buffer.keepsReserve_hasWritten hwritten
    (hstored (Buffer.keepsReserve_ensureWriteableBytes hensure hreserve))

theorem keepsReserve_fillUpToLength {message : Msg} {buf buf' : Buffer} {field : List UInt8}
    (h : fillUpToLength lib buf message = some (buf', field)) :
    buf.readableBytes = 0 ∧ buf.KeepsReserve buf' ∧ field.length = 4 := by
  unfold fillUpToLength at h
  split_ifs at h with hempty
  simp only [Option.bind_eq_bind, Option.bind_eq_some_iff] at h
  obtain ⟨tagged, htag, ⟨byte_size, filled⟩, hserialize, summed, hsum, hfield⟩ := h
  split_ifs at hfield
  cases hfield
  refine ⟨hempty, ?_, Endian.length_toMemory 4 _⟩
  intro hreserve
  have htagged := Buffer.keepsReserve_append htag hreserve
  exact Buffer.keepsReserve_append hsum (keepsReserve_serializeToBuffer hserialize htagged)

theorem reserveBack_iff :
    ReserveBack lib b ↔ b.window.Rested KCheapPrependSize := by
  constructor
  · exact fun h => h.reserve
  · intro hrested
    refine ⟨hrested, ?_⟩
    rintro message ⟨b', field⟩ h
    obtain ⟨hempty, hkeeps, hlength⟩ := keepsReserve_fillUpToLength h
    have hroom : field.length ≤ b'.prependableBytes := by
      have hreserve := hkeeps (hrested hempty)
      rw [hlength]
      exact Nat.le_trans (by decide) hreserve
    refine ⟨hroom, ?_⟩
    rw [fillEmptyMessage_eq_prepend, h]
    exact ⟨_, if_pos hroom⟩

theorem ReserveThroughout.head {calls : List Call} (h : ReserveThroughout lib b calls) :
    ReserveBack lib b := by
  cases calls with
  | nil => exact h
  | cons call rest => exact h.1

theorem reserveThroughout_iff_of_rested (h : b.Valid)
    (hrested : b.window.Rested KCheapPrependSize) (calls : List Call) :
    ReserveThroughout lib b calls ↔ b.NeverStranded calls := by
  induction calls generalizing b with
  | nil => exact iff_of_true (reserveBack_iff.mpr hrested) trivial
  | cons call rest ih =>
      constructor
      · rintro ⟨_, hrest⟩
        have hkept : ¬call.StrandsReserve b := by
          intro hstrands
          obtain ⟨b', hnext⟩ := Buffer.next_of_strands hstrands
          have hrested' := reserveBack_iff.mp (hrest b' hnext).head
          exact (Buffer.rested_next_iff h hrested hnext).mp hrested' hstrands
        refine ⟨hkept, ?_⟩
        intro b' hnext
        have hrested' := (Buffer.rested_next_iff h hrested hnext).mpr hkept
        exact (ih (Buffer.next_spec h hnext).1 hrested').mp (hrest b' hnext)
      · rintro ⟨hkept, hrest⟩
        refine ⟨reserveBack_iff.mpr hrested, ?_⟩
        intro b' hnext
        have hrested' := (Buffer.rested_next_iff h hrested hnext).mpr hkept
        exact (ih (Buffer.next_spec h hnext).1 hrested').mpr (hrest b' hnext)

/-- For every run of calls on a new buffer: an empty buffer has its reserve in each state,
and `fillEmptyMessage` can write its length there, exactly if no `unWrite` of the run takes
back everything while the reserve is in use. -/
theorem reserveThroughout_iff (initalsize : Nat) (calls : List Call) :
    ReserveThroughout lib (Buffer.new initalsize) calls ↔
      (Buffer.new initalsize).NeverStranded calls :=
  reserveThroughout_iff_of_rested (Buffer.new_valid initalsize) (fun _ => Nat.le_refl _) calls

/-- A `prepend` of eight bytes and an `unWrite` of them leave an empty buffer without its
reserve, and the length of a message does not fit in front. -/
theorem reserve_stranded :
    (∃ b, (Buffer.system 0).Reachable b ∧ b.readableBytes = 0 ∧ b.prependableBytes = 0 ∧
      (∃ b' field, fillUpToLength MessageType.runtime b .REQUEST = some (b', field) ∧
        b'.prepend field = none) ∧
      fillEmptyMessage MessageType.runtime b .REQUEST = none) ∧
    ¬ReserveThroughout MessageType.runtime (Buffer.new 0)
      [.operation (.prepend (List.replicate 8 1)), .operation (.unWrite 8)] := by
  constructor
  · obtain ⟨b, hreach, rfl⟩ : ∃ b, (Buffer.system 0).Reachable b ∧
        b = ⟨List.replicate 8 1, 0, 0⟩ :=
      Transition.System.exists_of_exec _ (Buffer.new 0)
        [.operation (.prepend (List.replicate 8 1)), .operation (.unWrite 8)] rfl (by decide)
    exact ⟨_, hreach, rfl, rfl, ⟨_, _, rfl, rfl⟩, rfl⟩
  · intro h
    have hlast := (h.2 _ rfl).2 _ rfl
    exact absurd (hlast.reserve rfl) (by decide)

end Rpc

end MuduoRpc
