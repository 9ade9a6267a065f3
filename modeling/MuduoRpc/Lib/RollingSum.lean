import Mathlib.Data.Nat.ModEq
import Mathlib.Data.Nat.Prime.Defs
import Mathlib.Tactic.Ring

/-!
Checksums made of two sums modulo `m`: the sum of the digits, and the sum of
the running sums. The second is a weighted sum in which an earlier digit counts
more often. A single changed digit shows in the first sum, and two exchanged
digits show in the second if `m` is prime and they are near enough.
-/

namespace RollingSum

/-- One digit is added to the first sum, and that to the second. -/
def step (m : Nat) (sums : Nat × Nat) (digit : Nat) : Nat × Nat :=
  ((sums.1 + digit) % m, (sums.2 + (sums.1 + digit) % m) % m)

def run (m : Nat) (start : Nat × Nat) (digits : List Nat) : Nat × Nat :=
  digits.foldl (step m) start

/-- Every digit counts once for itself and once for each digit behind it. -/
def weighted : List Nat → Nat
  | [] => 0
  | digit :: rest => (rest.length + 1) * digit + weighted rest

theorem run_cons (m : Nat) (start : Nat × Nat) (digit : Nat) (rest : List Nat) :
    run m start (digit :: rest) = run m (step m start digit) rest := rfl

theorem run_fst (m : Nat) (start : Nat × Nat) (digits : List Nat) :
    (run m start digits).1 ≡ start.1 + digits.sum [MOD m] := by
  induction digits generalizing start with
  | nil => exact Nat.ModEq.refl _
  | cons digit rest ih =>
      have hstep : (step m start digit).1 ≡ start.1 + digit [MOD m] := Nat.mod_modEq _ _
      rw [run_cons, List.sum_cons, ← Nat.add_assoc]
      exact (ih (step m start digit)).trans (hstep.add_right _)

theorem run_snd (m : Nat) (start : Nat × Nat) (digits : List Nat) :
    (run m start digits).2 ≡ start.2 + digits.length * start.1 + weighted digits [MOD m] := by
  induction digits generalizing start with
  | nil =>
      rw [List.length_nil, Nat.zero_mul]
      exact Nat.ModEq.refl _
  | cons digit rest ih =>
      have hfirst : (step m start digit).1 ≡ start.1 + digit [MOD m] := Nat.mod_modEq _ _
      have hsecond : (step m start digit).2 ≡ start.2 + (start.1 + digit) [MOD m] :=
        (Nat.mod_modEq _ _).trans (hfirst.add_left start.2)
      have hsum := (hsecond.add (hfirst.mul_left rest.length)).add_right (weighted rest)
      have hregroup : start.2 + (start.1 + digit) + rest.length * (start.1 + digit) +
          weighted rest =
          start.2 + (rest.length + 1) * start.1 + ((rest.length + 1) * digit + weighted rest) := by
        ring
      rw [run_cons, List.length_cons, weighted, ← hregroup]
      exact (ih (step m start digit)).trans hsum

theorem run_lt {m : Nat} {start : Nat × Nat} (hpos : 0 < m) (hfirst : start.1 < m)
    (hsecond : start.2 < m) (digits : List Nat) :
    (run m start digits).1 < m ∧ (run m start digits).2 < m := by
  induction digits generalizing start with
  | nil => exact ⟨hfirst, hsecond⟩
  | cons digit rest ih => exact ih (Nat.mod_lt _ hpos) (Nat.mod_lt _ hpos)

theorem sum_set {digits : List Nat} {i : Nat} (hi : i < digits.length) (digit : Nat) :
    (digits.set i digit).sum + digits[i] = digits.sum + digit := by
  induction digits generalizing i with
  | nil => cases hi
  | cons first rest ih =>
      cases i with
      | zero =>
          simp only [List.set_cons_zero, List.sum_cons, List.getElem_cons_zero]
          omega
      | succ i =>
          have hrest := ih (Nat.lt_of_succ_lt_succ hi)
          simp only [List.set_cons_succ, List.sum_cons, List.getElem_cons_succ]
          omega

theorem weighted_set {digits : List Nat} {i : Nat} (hi : i < digits.length) (digit : Nat) :
    weighted (digits.set i digit) + (digits.length - i) * digits[i] =
      weighted digits + (digits.length - i) * digit := by
  induction digits generalizing i with
  | nil => cases hi
  | cons first rest ih =>
      cases i with
      | zero =>
          simp only [List.set_cons_zero, List.getElem_cons_zero, List.length_cons, weighted,
            Nat.sub_zero]
          omega
      | succ i =>
          have hrest := ih (Nat.lt_of_succ_lt_succ hi)
          simp only [List.set_cons_succ, List.getElem_cons_succ, List.length_cons, weighted,
            List.length_set, Nat.add_sub_add_right]
          omega

/-- A digit changed to another one changes the first sum. -/
theorem run_set_ne {m : Nat} {digits : List Nat} {i : Nat} (hi : i < digits.length)
    (hold : digits[i] < m) {digit : Nat} (hnew : digit < m) (hne : digits[i] ≠ digit)
    (start : Nat × Nat) :
    (run m start (digits.set i digit)).1 ≠ (run m start digits).1 := by
  intro hsame
  have hsums : start.1 + (digits.set i digit).sum ≡ start.1 + digits.sum [MOD m] := by
    have hchanged := run_fst m start (digits.set i digit)
    rw [hsame] at hchanged
    exact hchanged.symm.trans (run_fst m start digits)
  have hdigits : digits.sum + digit ≡ digits.sum + digits[i] [MOD m] := by
    rw [← sum_set hi digit]
    exact (Nat.ModEq.add_left_cancel' _ hsums).add_right _
  exact hne ((Nat.ModEq.add_left_cancel' _ hdigits).eq_of_lt_of_lt hnew hold).symm

/-- Exchanging two digits moves the weighted sum by their distance times their
difference. -/
theorem weighted_swap {digits : List Nat} {i j : Nat} (hij : i < j) (hj : j < digits.length) :
    weighted ((digits.set i digits[j]).set j digits[i]) + (j - i) * digits[i] =
      weighted digits + (j - i) * digits[j] := by
  have hi : i < digits.length := Nat.lt_trans hij hj
  have hj' : j < (digits.set i digits[j]).length := by
    rw [List.length_set]
    exact hj
  have hkept : (digits.set i digits[j])[j] = digits[j] :=
    List.getElem_set_ne (Nat.ne_of_lt hij) hj'
  have hfirst := weighted_set hi digits[j]
  have hsecond := weighted_set hj' digits[i]
  rw [hkept, List.length_set] at hsecond
  have hweight : digits.length - i = (digits.length - j) + (j - i) := by omega
  rw [hweight, Nat.add_mul, Nat.add_mul] at hfirst
  omega

/-- Two different digits exchanged over less than a prime modulus change the
second sum. -/
theorem run_swap_ne {m : Nat} (hprime : m.Prime) {digits : List Nat} {i j : Nat} (hij : i < j)
    (hj : j < digits.length) (hi' : digits[i] < m) (hj' : digits[j] < m)
    (hne : digits[i] ≠ digits[j]) (hnear : j - i < m) (start : Nat × Nat) :
    (run m start ((digits.set i digits[j]).set j digits[i])).2 ≠ (run m start digits).2 := by
  intro hsame
  have hweighted : weighted ((digits.set i digits[j]).set j digits[i]) ≡
      weighted digits [MOD m] := by
    have hchanged := run_snd m start ((digits.set i digits[j]).set j digits[i])
    rw [hsame, List.length_set, List.length_set] at hchanged
    exact Nat.ModEq.add_left_cancel' _ (hchanged.symm.trans (run_snd m start digits))
  have hproducts : (j - i) * digits[j] ≡ (j - i) * digits[i] [MOD m] := by
    have hmoved := hweighted.add_right ((j - i) * digits[i])
    rw [weighted_swap hij hj] at hmoved
    exact Nat.ModEq.add_left_cancel' _ hmoved
  have hcoprime : m.gcd (j - i) = 1 := by
    apply hprime.coprime_iff_not_dvd.mpr
    intro hdvd
    have hle := Nat.le_of_dvd (by omega) hdvd
    omega
  have hdigits := Nat.ModEq.cancel_left_of_coprime hcoprime hproducts
  exact hne (hdigits.eq_of_lt_of_lt hj' hi').symm

end RollingSum
