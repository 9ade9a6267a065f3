import Mathlib.Data.UInt
import Mathlib.Tactic.SplitIfs
import MuduoRpc.Lib.Records

/-!
Numbers in base 128, the lowest digit first. The top bit of a byte says that more digits
follow. A reader takes a bounded number of digits, and reads back what has no more.
-/

namespace Varint

open Records

/-- The recursion is on a bound of the number, so that the encoding can be evaluated. -/
def encodeBelow : Nat → Nat → List UInt8
  | 0, _ => []
  | bound + 1, n =>
      if n < 128 then [UInt8.ofNat n]
      else UInt8.ofNat (n % 128 + 128) :: encodeBelow bound (n / 128)

def encode (n : Nat) : List UInt8 := encodeBelow (n + 1) n

theorem encodeBelow_eq {bound n : Nat} (h : n < bound) : encodeBelow bound n = encode n := by
  induction bound using Nat.strongRecOn generalizing n with
  | _ bound ih =>
      obtain ⟨bound, rfl⟩ := Nat.exists_eq_add_of_lt h
      rw [encode, encodeBelow, encodeBelow]
      split_ifs with hsmall
      · rfl
      · rw [ih (n + bound) (by omega) (by omega), ih n (by omega) (by omega)]

theorem encode_eq (n : Nat) : encode n =
    if n < 128 then [UInt8.ofNat n] else UInt8.ofNat (n % 128 + 128) :: encode (n / 128) := by
  rw [encode, encodeBelow]
  split_ifs with hsmall
  · rfl
  · rw [encodeBelow_eq (by omega)]

/-- At most `digits` digits. -/
def decode : Nat → Reader UInt8 Nat
  | 0 => failure
  | digits + 1 => fun bytes =>
      match bytes with
      | [] => none
      | byte :: rest =>
          if byte.toNat < 128 then some (byte.toNat, rest)
          else (decode digits rest).map fun (high, rest) => (byte.toNat - 128 + 128 * high, rest)

theorem decode_encode {digits n : Nat} (h : n < 128 ^ digits) (hdigits : 0 < digits)
    (rest : List UInt8) : (decode digits).run (encode n ++ rest) = some (n, rest) := by
  induction digits generalizing n with
  | zero => exact absurd hdigits (Nat.lt_irrefl 0)
  | succ digits ih =>
      rw [encode_eq]
      split_ifs with hsmall
      · have hbyte : (UInt8.ofNat n).toNat = n := by
          rw [UInt8.toNat_ofNat']
          omega
        change (if (UInt8.ofNat n).toNat < 128 then some ((UInt8.ofNat n).toNat, rest) else _) = _
        rw [hbyte, if_pos hsmall]
      · have hbyte : (UInt8.ofNat (n % 128 + 128)).toNat = n % 128 + 128 := by
          rw [UInt8.toNat_ofNat']
          omega
        have hhigh : n / 128 < 128 ^ digits := by
          rw [Nat.pow_succ] at h
          exact Nat.div_lt_of_lt_mul (Nat.mul_comm _ _ ▸ h)
        have hmore : 0 < digits := by
          rcases Nat.eq_zero_or_pos digits with rfl | hpos
          · omega
          · exact hpos
        have hrest := ih hhigh hmore
        change (if (UInt8.ofNat (n % 128 + 128)).toNat < 128 then _
          else ((decode digits).run (encode (n / 128) ++ rest)).map _) = _
        rw [hbyte, if_neg (by omega), hrest]
        simp only [Option.map_some, Option.some.injEq, Prod.mk.injEq, and_true]
        omega

theorem decode_consumes {digits n : Nat} {bytes rest : List UInt8}
    (h : (decode digits).run bytes = some (n, rest)) :
    ∃ taken, taken ≠ [] ∧ bytes = taken ++ rest ∧
      ∀ more, (decode digits).run (taken ++ more) = some (n, more) := by
  induction digits generalizing n bytes rest with
  | zero => cases h
  | succ digits ih =>
      cases bytes with
      | nil => cases h
      | cons byte bytes =>
          change (if byte.toNat < 128 then some (byte.toNat, bytes)
            else ((decode digits).run bytes).map _) = _ at h
          split_ifs at h with hlast
          · cases h
            refine ⟨[byte], List.cons_ne_nil _ _, rfl, fun more => ?_⟩
            change (if _ then some (byte.toNat, more) else _) = _
            rw [if_pos hlast]
          · obtain ⟨⟨high, tail⟩, hhigh, heq⟩ := Option.map_eq_some_iff.mp h
            cases heq
            obtain ⟨taken, _, rfl, hmore⟩ := ih hhigh
            refine ⟨byte :: taken, List.cons_ne_nil _ _, rfl, fun more => ?_⟩
            change (if _ then _ else ((decode digits).run (taken ++ more)).map _) = _
            rw [if_neg hlast, hmore]
            rfl

theorem delimits_decode (digits : Nat) : Delimits (decode digits) := by
  intro bytes n rest h
  obtain ⟨taken, _, hsplit, hmore⟩ := decode_consumes h
  exact ⟨taken, hsplit, hmore⟩

end Varint
