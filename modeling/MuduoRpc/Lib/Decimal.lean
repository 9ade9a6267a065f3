import Mathlib.Algebra.Group.Nat.Defs
import Mathlib.Logic.Function.Defs

/-!
Formatted text in a fixed buffer. A C string is the list of its characters
before the terminating zero. `snprintf` writes as much of the text as fits in
front of the terminator.
-/

namespace Decimal

/-- What `%d` prints; for a natural number also what `%u` prints. -/
def decimal : Int → List Char
  | .ofNat n => Nat.toDigits 10 n
  | .negSucc n => '-' :: Nat.toDigits 10 (n + 1)

def snprintf (size : Nat) (text : List Char) : List Char := text.take (size - 1)

theorem toDigits_inj {m n : Nat} (h : Nat.toDigits 10 m = Nat.toDigits 10 n) : m = n := by
  have hvalue := congrArg (fun digits => Nat.ofDigitChars 10 digits 0) h
  simpa [Nat.ofDigitChars_ten_toDigits] using hvalue

theorem not_mem_toDigits {c : Char} (h : c.isDigit = false) (n : Nat) :
    c ∉ Nat.toDigits 10 n := by
  intro hmem
  have hdigit := Nat.isDigit_of_mem_toDigits (by decide) (by decide) hmem
  rw [h] at hdigit
  cases hdigit

theorem minus_not_mem (n : Nat) : '-' ∉ Nat.toDigits 10 n := not_mem_toDigits (by decide) n

theorem not_mem_decimal {c : Char} (h : c.isDigit = false) (n : Nat) : c ∉ decimal n :=
  not_mem_toDigits h n

theorem decimal_injective : Function.Injective decimal := by
  intro i j h
  cases i with
  | ofNat m =>
      cases j with
      | ofNat n => rw [toDigits_inj h]
      | negSucc n =>
          refine absurd ?_ (minus_not_mem m)
          rw [show Nat.toDigits 10 m = '-' :: Nat.toDigits 10 (n + 1) from h]
          exact List.mem_cons_self
  | negSucc m =>
      cases j with
      | ofNat n =>
          refine absurd ?_ (minus_not_mem n)
          rw [show Nat.toDigits 10 n = '-' :: Nat.toDigits 10 (m + 1) from h.symm]
          exact List.mem_cons_self
      | negSucc n =>
          have htail := toDigits_inj (List.cons.inj h).2
          rw [Nat.succ.inj htail]

theorem length_decimal_le {n k : Nat} (hk : 0 < k) (h : n < 10 ^ k) :
    (decimal n).length ≤ k :=
  (Nat.length_toDigits_le_iff (by decide) hk).mpr h

/-- An `int` counter as `%d` takes it. -/
theorem toInt_ofNat_of_lt {n : Nat} (h : n < 2 ^ 31) : (BitVec.ofNat 32 n).toInt = n := by
  rw [BitVec.toInt_eq_toNat_of_lt] <;> rw [BitVec.toNat_ofNat] <;> omega

theorem length_decimal_of_int {n : Nat} (h : n < 2 ^ 31) : (decimal n).length ≤ 10 := by
  apply length_decimal_le (by decide)
  omega

theorem snprintf_of_fits {size : Nat} {text : List Char} (h : text.length < size) :
    snprintf size text = text := by
  apply List.take_of_length_le
  omega

/-- What follows a separator is complete exactly if everything fits: of a text that is cut
off only a proper front of it can be left. -/
theorem suffix_snprintf_iff {front text rest : List Char} {c : Char} {size : Nat}
    (hc : c ∉ text) (hrest : rest.length + 1 < size) :
    c :: rest <:+ front ++ snprintf size (text ++ c :: rest) ↔
      (text ++ c :: rest).length < size := by
  constructor
  · intro hsuffix
    apply Nat.lt_of_not_le
    intro hlong
    have hcut : (snprintf size (text ++ c :: rest)).length = size - 1 := by
      rw [snprintf, List.length_take]
      omega
    obtain ⟨before, hbefore⟩ : c :: rest <:+ snprintf size (text ++ c :: rest) := by
      apply List.suffix_of_suffix_length_le hsuffix (List.suffix_append _ _)
      rw [hcut, List.length_cons]
      omega
    have hlength := congrArg List.length hbefore
    rw [hcut, List.length_append, List.length_cons] at hlength
    rw [List.length_append, List.length_cons] at hlong
    have hhere : (snprintf size (text ++ c :: rest))[before.length]? = some c := by
      rw [← hbefore, List.getElem?_append_right (Nat.le_refl _), Nat.sub_self]
      rfl
    rw [snprintf, List.getElem?_take_of_lt (by omega), List.getElem?_append_left (by omega)] at hhere
    exact hc (List.mem_of_getElem? hhere)
  · intro hfits
    rw [snprintf_of_fits hfits, ← List.append_assoc]
    exact List.suffix_append _ _

end Decimal
