import MuduoRpc.Net.ByteDeque

/-!
The integers of a buffer on the wire. What is appended or prepended is meant to be the
big-endian two's complement of the value. It is for three of the four widths; the two
helpers for 64 bits are those of little-endian order, so that these integers still come
back as they went in.
-/

namespace MuduoRpc

open Endian

/-- The integer types that a buffer takes. -/
inductive Width
  | int8
  | int16
  | int32
  | int64
deriving DecidableEq, Repr

namespace Width

def bytes : Width → Nat
  | .int8 => 1
  | .int16 => 2
  | .int32 => 4
  | .int64 => 8

def bits (width : Width) : Nat := 8 * width.bytes

theorem bits_pos (width : Width) : 0 < width.bits := by cases width <;> decide

end Width

/-- A value of one of the types. -/
structure Integer where
  width : Width
  value : Int
  lower : -2 ^ (width.bits - 1) ≤ value
  upper : value < 2 ^ (width.bits - 1)

namespace Integer

/-- The two's complement of the value as the host stores it. -/
def memory (v : Integer) : List UInt8 := toMemory v.width.bytes (toUnsigned v.width.bits v.value)

/-- Network byte order. -/
def encoding (v : Integer) : List UInt8 := bigEndian v.width.bytes (toUnsigned v.width.bits v.value)

/-- What the buffer gets. -/
def stored (v : Integer) : List UInt8 :=
  match v.width with
  | .int64 => v.memory
  | _ => v.encoding

/-- If the integer has 64 bits, its bytes read the same in both directions. -/
def Palindromic (v : Integer) : Prop := v.width = .int64 → v.memory.reverse = v.memory

@[simp] theorem length_stored (v : Integer) : v.stored.length = v.width.bytes := by
  rcases v with ⟨width, value, hlower, hupper⟩
  cases width <;> simp [stored, memory, encoding]

theorem stored_eq_encoding_iff (v : Integer) : v.stored = v.encoding ↔ v.Palindromic := by
  rcases v with ⟨width, value, hlower, hupper⟩
  cases width with
  | int8 | int16 | int32 => simp [stored, Palindromic]
  | int64 =>
      simp only [stored, Palindromic, true_imp_iff]
      exact eq_comm

end Integer

namespace Buffer

def appendInt (b : Buffer) (v : Integer) : Option Buffer :=
  match v.width with
  | .int8 => b.appendInt8 v.value
  | .int16 => b.appendInt16 v.value
  | .int32 => b.appendInt32 v.value
  | .int64 => b.appendInt64 v.value

def prependInt (b : Buffer) (v : Integer) : Option Buffer :=
  match v.width with
  | .int8 => b.prependInt8 v.value
  | .int16 => b.prependInt16 v.value
  | .int32 => b.prependInt32 v.value
  | .int64 => b.prependInt64 v.value

def peekInt (b : Buffer) : Width → Option Int
  | .int8 => b.peekInt8
  | .int16 => b.peekInt16
  | .int32 => b.peekInt32
  | .int64 => b.peekInt64

def readInt (b : Buffer) : Width → Option (Int × Buffer)
  | .int8 => b.readInt8
  | .int16 => b.readInt16
  | .int32 => b.readInt32
  | .int64 => b.readInt64

def appendInts (b : Buffer) : List Integer → Option Buffer
  | [] => some b
  | v :: rest => do
      let b ← b.appendInt v
      b.appendInts rest

def readInts (b : Buffer) : List Width → Option (List Int × Buffer)
  | [] => some ([], b)
  | width :: rest => do
      let (value, b) ← b.readInt width
      let (values, b) ← b.readInts rest
      some (value :: values, b)

theorem appendInt_eq (b : Buffer) (v : Integer) : b.appendInt v = b.append v.stored := by
  rcases v with ⟨width, value, hlower, hupper⟩
  cases width with
  | int8 => exact appendInt8_eq b value
  | int16 => exact appendInt16_eq b value
  | int32 => exact appendInt32_eq b value
  | int64 => exact appendInt64_eq b value

theorem prependInt_eq (b : Buffer) (v : Integer) : b.prependInt v = b.prepend v.stored := by
  rcases v with ⟨width, value, hlower, hupper⟩
  cases width with
  | int8 => rfl
  | int16 =>
      have hstored := toMemory_toSigned 2 (bswap 2 (toUnsigned 16 value))
      rw [toMemory_bswap] at hstored
      exact congrArg b.prepend hstored
  | int32 =>
      have hstored := toMemory_toSigned 4 (bswap 4 (toUnsigned 32 value))
      rw [toMemory_bswap] at hstored
      exact congrArg b.prepend hstored
  | int64 => exact congrArg b.prepend (toMemory_toSigned 8 (toUnsigned 64 value))

/-- The value that the host makes of the first bytes. -/
def loaded (width : Width) (bytes : List UInt8) : Int :=
  match width with
  | .int64 => toSigned 64 (ofMemory bytes)
  | width => toSigned width.bits (ofMemory bytes.reverse)

theorem loaded_stored (v : Integer) : loaded v.width v.stored = v.value := by
  rcases v with ⟨width, value, hlower, hupper⟩
  have hrange : 256 ^ width.bytes = 2 ^ width.bits := (Nat.pow_mul 2 8 width.bytes).symm
  have hload : toSigned width.bits (ofMemory (toMemory width.bytes (toUnsigned width.bits value))) =
      value := by
    rw [ofMemory_toMemory, hrange, toSigned_mod]
    exact toSigned_toUnsigned width.bits_pos hlower hupper
  cases width with
  | int8 | int16 | int32 =>
      simp only [loaded, Integer.stored, Integer.encoding, bigEndian, List.reverse_reverse]
      exact hload
  | int64 => exact hload

theorem peekInt_eq {b : Buffer} (h : b.Valid) {width : Width}
    (hroom : width.bytes ≤ b.readableBytes) :
    b.peekInt width = some (loaded width (b.readable.take width.bytes)) := by
  have hlength : (b.readable.take width.bytes).length = width.bytes := by
    rw [List.length_take, length_readable h]
    omega
  cases width with
  | int8 =>
      have hone : 1 ≤ b.readableBytes := hroom
      obtain ⟨byte, hbyte⟩ := List.length_eq_one_iff.mp hlength
      have hreverse : (b.readable.take 1).reverse = b.readable.take 1 := by
        rw [show b.readable.take 1 = [byte] from hbyte]
        rfl
      rw [peekInt, peekInt8, if_pos hone, ← hreverse]
      rfl
  | int16 =>
      have htwo : 2 ≤ b.readableBytes := hroom
      have hswap : toSigned 16 (net_to_host_16 (toUnsigned 16 (toSigned 16
          (ofMemory (b.readable.take 2))))) = toSigned 16 (ofMemory (b.readable.take 2).reverse) :=
        toSigned_bswap hlength
      simp only [peekInt, peekInt16, if_pos htwo, hswap]
      rfl
  | int32 => exact peekInt32_eq h hroom
  | int64 =>
      have height : 8 ≤ b.readableBytes := hroom
      rw [peekInt, peekInt64, if_pos height]
      exact congrArg some (toSigned_net_to_host_64 _)

theorem readInt_eq (b : Buffer) (width : Width) :
    b.readInt width = (b.peekInt width).bind fun result =>
      (b.retrieve width.bytes).bind fun b => some (result, b) := by
  cases width <;> rfl

/-- Whatever the order of its bytes, an integer comes back as it was stored. -/
theorem readInt_stored {b : Buffer} (h : b.Valid) (v : Integer) {rest : List UInt8}
    (hreadable : b.readable = v.stored ++ rest) :
    ∃ b', b.readInt v.width = some (v.value, b') ∧ b'.Valid ∧ b'.readable = rest := by
  have hlength := v.length_stored
  have hroom : v.width.bytes ≤ b.readableBytes := by
    rw [← length_readable h, hreadable, List.length_append]
    omega
  have hfront : b.readable.take v.width.bytes = v.stored := by
    rw [hreadable, ← hlength, List.take_left]
  obtain ⟨b', hretrieve, hvalid, hdrop⟩ := retrieve_spec h hroom
  refine ⟨b', ?_, hvalid, ?_⟩
  · rw [readInt_eq, peekInt_eq h hroom, hfront, loaded_stored, hretrieve]
    rfl
  · rw [hdrop, hreadable, ← hlength, List.drop_left]

theorem readInts_stored {b : Buffer} (h : b.Valid) (vs : List Integer) {rest : List UInt8}
    (hreadable : b.readable = vs.flatMap Integer.stored ++ rest) :
    ∃ b', b.readInts (vs.map Integer.width) = some (vs.map Integer.value, b') ∧ b'.Valid ∧
      b'.readable = rest := by
  induction vs generalizing b with
  | nil => exact ⟨b, rfl, h, hreadable⟩
  | cons v vs ih =>
      rw [List.flatMap_cons, List.append_assoc] at hreadable
      obtain ⟨c, hread, hvalid, hrest⟩ := readInt_stored h v hreadable
      obtain ⟨b', hreads, hvalid', hrest'⟩ := ih hvalid hrest
      refine ⟨b', ?_, hvalid', hrest'⟩
      simp [readInts, hread, hreads]

theorem appendInts_stored {b : Buffer} (h : b.Valid) (vs : List Integer) :
    ∃ b', b.appendInts vs = some b' ∧ b.Appended (vs.flatMap Integer.stored) b' := by
  induction vs generalizing b with
  | nil => exact ⟨b, rfl, (Extends.refl h.inBounds).appended h⟩
  | cons v vs ih =>
      obtain ⟨c, happend, happended⟩ := append_spec h v.stored
      obtain ⟨b', happends, happended'⟩ := ih happended.valid
      refine ⟨b', ?_, happended'.valid, ?_,
        fun hkeep => happended'.reserve (happended.reserve hkeep)⟩
      · simp [appendInts, appendInt_eq, happend, happends]
      · rw [happended'.readable, happended.readable, List.flatMap_cons, List.append_assoc]

/-- The integers travel in network byte order. What is read back begins behind the bytes
that the buffer held before. -/
structure NetworkOrder (b : Buffer) (vs : List Integer) : Prop where
  appended : ∃ b', b.appendInts vs = some b' ∧
    b'.readable = b.readable ++ vs.flatMap Integer.encoding
  prepended : ∀ v ∈ vs, ∀ c : Buffer, c.Valid → v.width.bytes ≤ c.prependableBytes →
    ∃ c', c.prependInt v = some c' ∧ c'.readable = v.encoding ++ c.readable
  readBack : ∀ following, ∃ b₁ b₂ b₃ b₄, b.appendInts vs = some b₁ ∧
    b₁.append following = some b₂ ∧ b₂.retrieve b.readableBytes = some b₃ ∧
    b₃.readInts (vs.map Integer.width) = some (vs.map Integer.value, b₄) ∧
    b₄.readable = following

theorem readBack_stored {b : Buffer} (h : b.Valid) (vs : List Integer) (following : List UInt8) :
    ∃ b₁ b₂ b₃ b₄, b.appendInts vs = some b₁ ∧ b₁.append following = some b₂ ∧
      b₂.retrieve b.readableBytes = some b₃ ∧
      b₃.readInts (vs.map Integer.width) = some (vs.map Integer.value, b₄) ∧
      b₄.readable = following := by
  obtain ⟨b₁, happends, happended₁⟩ := appendInts_stored h vs
  obtain ⟨b₂, hfollowing, happended₂⟩ := append_spec happended₁.valid following
  have hreadable := happended₂.readable
  rw [happended₁.readable, List.append_assoc] at hreadable
  have hold : b.readableBytes ≤ b₂.readableBytes := by
    rw [← length_readable h, ← length_readable happended₂.valid, hreadable, List.length_append]
    omega
  obtain ⟨b₃, hretrieve, hvalid, hdrop⟩ := retrieve_spec happended₂.valid hold
  have hwritten : b₃.readable = vs.flatMap Integer.stored ++ following := by
    rw [hdrop, hreadable, ← length_readable h, List.drop_left]
  obtain ⟨b₄, hreads, _, hrest⟩ := readInts_stored hvalid vs hwritten
  exact ⟨b₁, b₂, b₃, b₄, happends, hfollowing, hretrieve, hreads, hrest⟩

theorem prependInt_stored {c : Buffer} (h : c.Valid) {v : Integer}
    (hroom : v.width.bytes ≤ c.prependableBytes) :
    ∃ c', c.prependInt v = some c' ∧ c'.readable = v.stored ++ c.readable := by
  have hlength : v.stored.length ≤ c.readerIndex_ := by
    rw [v.length_stored]
    exact hroom
  obtain ⟨c', hprepend, _, hreadable⟩ := prepend_spec h hlength
  exact ⟨c', (prependInt_eq c v).trans hprepend, hreadable⟩

/-- They do exactly if the bytes of every 64-bit one read the same in both directions. -/
theorem networkOrder_iff {b : Buffer} (h : b.Valid) (vs : List Integer) :
    b.NetworkOrder vs ↔ ∀ v ∈ vs, v.Palindromic := by
  constructor
  · intro horder v hv
    have hroom : v.width.bytes ≤ (new 0).prependableBytes := by
      cases v.width <;> decide
    obtain ⟨c, hprepend, hstored⟩ := prependInt_stored (new_valid 0) hroom
    obtain ⟨c', hprepend', hencoding⟩ := horder.prepended v hv (new 0) (new_valid 0) hroom
    obtain rfl := Option.some.inj (hprepend.symm.trans hprepend')
    rw [hencoding] at hstored
    exact v.stored_eq_encoding_iff.mp (List.append_cancel_right hstored).symm
  · intro hpalindromic
    have hsame : ∀ v ∈ vs, v.stored = v.encoding := fun v hv =>
      v.stored_eq_encoding_iff.mpr (hpalindromic v hv)
    refine ⟨?_, ?_, readBack_stored h vs⟩
    · obtain ⟨b', happends, happended⟩ := appendInts_stored h vs
      refine ⟨b', happends, ?_⟩
      rw [happended.readable, List.flatMap_congr hsame]
    · intro v hv c hvalid hroom
      rw [← hsame v hv]
      exact prependInt_stored hvalid hroom

/-- A 16-bit and a palindromic 64-bit integer. -/
theorem networkOrder_iff_mixed : (new 4).NetworkOrder
    [⟨.int16, -2, by decide, by decide⟩, ⟨.int64, -1, by decide, by decide⟩] := by
  apply (networkOrder_iff (new_valid 4) _).mpr
  intro v hv
  rcases List.mem_cons.mp hv with rfl | hlast
  · intro hwidth
    cases hwidth
  · rw [List.mem_singleton.mp hlast]
    exact fun _ => rfl

/-- `appendInt64(1)` puts the least significant byte first. -/
theorem appendInt64_one_not_networkOrder :
    ((new 8).appendInt64 1).map readable = some [1, 0, 0, 0, 0, 0, 0, 0] ∧
      ¬(new 8).NetworkOrder [⟨.int64, 1, by decide, by decide⟩] := by
  have hlittle : ((new 8).appendInt64 1).map readable = some [1, 0, 0, 0, 0, 0, 0, 0] := by decide
  refine ⟨hlittle, fun horder => ?_⟩
  obtain ⟨b', happend, hreadable⟩ := horder.appended
  have hb : (new 8).appendInt64 1 = some b' := by
    simpa [appendInts, appendInt] using happend
  rw [hb, Option.map_some, hreadable] at hlittle
  revert hlittle
  decide

end Buffer

end MuduoRpc
