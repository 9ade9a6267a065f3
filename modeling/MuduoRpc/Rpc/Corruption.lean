import Mathlib.Tactic.NormNum.Prime
import MuduoRpc.Lib.RollingSum
import MuduoRpc.Rpc.SubRanges

/-!
What the checksum detects. With zlib's `adler32` the two halves of the checksum
are two rolling sums of the bytes; a body that differs in one byte, or in two
bytes that changed places, no longer matches the checksum it carries.
-/

namespace MuduoRpc.Rpc

/-- One byte of `body` is changed, or two different bytes before the checksum
and less than 65521 positions apart are exchanged. -/
inductive Corrupted (body : List UInt8) : List UInt8 → Prop
  | changed {i : Nat} {byte : UInt8} (hi : i < body.length) (hne : body[i] ≠ byte) :
      Corrupted body (body.set i byte)
  | exchanged {i j : Nat} (hij : i < j) (hj : j < body.length)
      (hcovered : (j : Int) < body.length - KChecksumLen) (hnear : j - i < 65521)
      (hne : body[i] ≠ body[j]) :
      Corrupted body ((body.set i body[j]).set j body[i])

theorem Corrupted.length_eq {body body' : List UInt8} (h : Corrupted body body') :
    body'.length = body.length := by
  cases h with
  | changed => exact List.length_set
  | exchanged => rw [List.length_set, List.length_set]

theorem adler32_eq (adler : Nat) (bytes : List UInt8) :
    adler32 adler bytes =
      (RollingSum.run 65521 (adler % 65536, adler / 65536) (bytes.map UInt8.toNat)).2 * 65536 +
        (RollingSum.run 65521 (adler % 65536, adler / 65536) (bytes.map UInt8.toNat)).1 := by
  rw [adler32, RollingSum.run, List.foldl_map]
  rfl

/-- The two sums of the checksum that starts from one. -/
def sums (bytes : List UInt8) : Nat × Nat :=
  RollingSum.run 65521 (1, 0) (bytes.map UInt8.toNat)

theorem sums_lt (bytes : List UInt8) : (sums bytes).1 < 65521 ∧ (sums bytes).2 < 65521 :=
  RollingSum.run_lt (by omega) (by omega) (by omega) _

/-- The checksum stored in network order determines both sums. -/
theorem sums_of_bigEndian {bytes bytes' : List UInt8}
    (h : Endian.bigEndian 4 (adler32 1 bytes) = Endian.bigEndian 4 (adler32 1 bytes')) :
    sums bytes = sums bytes' := by
  have hmemory := congrArg Endian.ofMemory (List.reverse_injective h)
  rw [Endian.ofMemory_toMemory, Endian.ofMemory_toMemory] at hmemory
  have hbytes : adler32 1 bytes = (sums bytes).2 * 65536 + (sums bytes).1 := adler32_eq 1 bytes
  have hbytes' : adler32 1 bytes' = (sums bytes').2 * 65536 + (sums bytes').1 :=
    adler32_eq 1 bytes'
  obtain ⟨hfirst, hsecond⟩ := sums_lt bytes
  obtain ⟨hfirst', hsecond'⟩ := sums_lt bytes'
  have hrange : 256 ^ 4 = 4294967296 := by decide
  rw [hbytes, hbytes', hrange] at hmemory
  apply Prod.ext <;> omega

theorem toNat_lt_modulus (byte : UInt8) : byte.toNat < 65521 :=
  Nat.lt_trans byte.toNat_lt (by omega)

theorem sums_set_ne {bytes : List UInt8} {i : Nat} (hi : i < bytes.length) {byte : UInt8}
    (hne : bytes[i] ≠ byte) : sums (bytes.set i byte) ≠ sums bytes := by
  intro hsame
  have hmapped : i < (bytes.map UInt8.toNat).length := by
    rw [List.length_map]
    exact hi
  have hdigit : (bytes.map UInt8.toNat)[i] = bytes[i].toNat := List.getElem_map _
  rw [sums, List.map_set] at hsame
  apply RollingSum.run_set_ne hmapped _ (toNat_lt_modulus byte) _ (1, 0) (congrArg Prod.fst hsame)
  · rw [hdigit]
    exact toNat_lt_modulus _
  · rw [hdigit]
    exact fun hequal => hne (UInt8.toNat_inj.mp hequal)

theorem sums_swap_ne {bytes : List UInt8} {i j : Nat} (hij : i < j) (hj : j < bytes.length)
    (hnear : j - i < 65521) (hne : bytes[i] ≠ bytes[j]) :
    sums ((bytes.set i bytes[j]).set j bytes[i]) ≠ sums bytes := by
  intro hsame
  have hmapped : j < (bytes.map UInt8.toNat).length := by
    rw [List.length_map]
    exact hj
  have hfirst : (bytes.map UInt8.toNat)[i] = bytes[i].toNat := List.getElem_map _
  have hsecond : (bytes.map UInt8.toNat)[j] = bytes[j].toNat := List.getElem_map _
  have hswapped := RollingSum.run_swap_ne (by norm_num : (65521 : Nat).Prime) hij hmapped
    (hfirst ▸ toNat_lt_modulus _) (hsecond ▸ toNat_lt_modulus _)
    (by
      rw [hfirst, hsecond]
      exact fun hequal => hne (UInt8.toNat_inj.mp hequal)) hnear (1, 0)
  rw [sums, List.map_set, List.map_set] at hsame
  apply hswapped
  rw [hfirst, hsecond]
  exact congrArg Prod.snd hsame

/-- A changed byte is either among the checksummed bytes or in the checksum. -/
theorem take_or_drop_set {body : List UInt8} {i : Nat} (hi : i < body.length) {byte : UInt8}
    (hne : body[i] ≠ byte) (n : Nat) :
    (body.set i byte).drop n = body.drop n ∧
        sums ((body.set i byte).take n) ≠ sums (body.take n) ∨
      (body.set i byte).take n = body.take n ∧ (body.set i byte).drop n ≠ body.drop n := by
  rw [List.drop_set, List.take_set]
  split_ifs with hcovered
  · left
    refine ⟨rfl, ?_⟩
    have htake : i < (body.take n).length := by
      rw [List.length_take]
      omega
    apply sums_set_ne htake
    rw [List.getElem_take]
    exact hne
  · right
    have houtside : (body.take n).length ≤ i := by
      rw [List.length_take]
      omega
    refine ⟨List.set_eq_of_length_le houtside, ?_⟩
    intro hsame
    have hposition : i - n < (body.drop n).length := by
      rw [List.length_drop]
      omega
    have hindex : n + (i - n) = i := by omega
    have hget : body[i]? = some byte := by
      rw [← hindex, ← List.getElem?_drop, ← hsame, List.getElem?_set_self hposition]
    rw [List.getElem?_eq_getElem hi] at hget
    exact hne (Option.some.inj hget)

variable {Msg : Type*} {lib : ProtoLib Msg}

/-- A body that matches its checksum no longer does so when it is corrupted. -/
theorem vailddataChecksum_corrupted (hadler : lib.adler32 = adler32) {body body' : List UInt8}
    (hfour : 4 ≤ body.length) (hvalid : vailddataChecksum lib body body.length = true)
    (h : Corrupted body body') : vailddataChecksum lib body' body'.length = false := by
  apply Bool.eq_false_iff.mpr
  intro hvalid'
  have hlength := h.length_eq
  rw [vailddataChecksum_iff hfour, hadler] at hvalid
  rw [vailddataChecksum_iff (by omega), hadler, hlength] at hvalid'
  generalize hn : body.length - 4 = n at hvalid hvalid'
  cases h with
  | @changed i byte hi hne =>
      rcases take_or_drop_set hi hne n with ⟨hdrop, hsums⟩ | ⟨htake, hdrop⟩
      · rw [hdrop] at hvalid'
        exact hsums (sums_of_bigEndian (hvalid'.symm.trans hvalid))
      · rw [htake] at hvalid'
        exact hdrop (hvalid'.trans hvalid.symm)
  | @exchanged i j hij hj hcovered hnear hne =>
      have hcovered' : j < n := by
        have hchecksum : KChecksumLen = 4 := rfl
        omega
      have htake : j < (body.take n).length := by
        rw [List.length_take]
        omega
      rw [List.drop_set, if_pos hcovered', List.drop_set, if_pos (Nat.lt_trans hij hcovered'),
        List.take_set, List.take_set] at hvalid'
      apply sums_swap_ne hij htake hnear _
      · rw [List.getElem_take, List.getElem_take]
        exact sums_of_bigEndian (hvalid'.symm.trans hvalid)
      · rw [List.getElem_take, List.getElem_take]
        exact hne

/-- A single wrong byte, or two exchanged ones, in the body of a frame that
`fillEmptyMessage` wrote is reported as a checksum error. -/
theorem parse_corrupted (hsized : lib.Sized) (hadler : lib.adler32 = adler32) {message : Msg}
    {frame body' : List UInt8} (h : Encodes lib message frame)
    (hbody' : Corrupted (frame.drop KHeaderLen.toNat) body') :
    vailddataChecksum lib body' body'.length = false ∧
      (parse lib body' body'.length).1 = .KcheckSumError := by
  have hbody : frame.drop KHeaderLen.toNat = body lib message := by
    rw [encodes_eq hsized h]
    exact List.drop_left' (Endian.length_bigEndian 4 _)
  rw [hbody] at hbody'
  have hfour : 4 ≤ (body lib message).length := by
    rw [length_body]
    omega
  have hinvalid := vailddataChecksum_corrupted hadler hfour (vailddataChecksum_body message) hbody'
  refine ⟨hinvalid, ?_⟩
  unfold parse
  rw [hinvalid]
  rfl

/-- The last byte of the checksum of a frame, changed. -/
theorem parse_corrupted_response :
    vailddataChecksum MessageType.runtime [82, 80, 67, 48, 8, 1, 5, 47, 1, 30] 10 = false ∧
      (parse MessageType.runtime [82, 80, 67, 48, 8, 1, 5, 47, 1, 30] 10).1 = .KcheckSumError := by
  have hchanged : Corrupted (responseFrame.drop KHeaderLen.toNat)
      [82, 80, 67, 48, 8, 1, 5, 47, 1, 30] :=
    @Corrupted.changed _ 9 30 (by decide) (by decide)
  exact parse_corrupted MessageType.runtime_sized rfl encodes_responseFrame hchanged

end MuduoRpc.Rpc
