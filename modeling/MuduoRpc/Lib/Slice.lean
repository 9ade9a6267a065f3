import Mathlib.Data.List.Basic

/-!
A contiguous range of a list read with `List.extract`, and the in-place
overwrite of a range. Both act on the underlying list of a growable array;
the lemmas say how reads, writes and growth at the end compose.
-/

namespace Slice

variable {α : Type*}

/-- Replace the elements of `v` from index `i` on by `xs`. -/
def overwrite (v : List α) (i : Nat) (xs : List α) : List α :=
  v.take i ++ xs ++ v.drop (i + xs.length)

theorem length_overwrite {v xs : List α} {i : Nat}
    (h : i + xs.length ≤ v.length) : (overwrite v i xs).length = v.length := by
  simp only [overwrite, List.length_append, List.length_take, List.length_drop]
  omega

theorem length_extract {v : List α} {i j : Nat} (h : j ≤ v.length) :
    (v.extract i j).length = j - i := by
  simp only [List.extract_eq_take_drop, List.length_take, List.length_drop]
  omega

theorem extract_self (v : List α) (i : Nat) : v.extract i i = [] := by
  simp [List.extract_eq_take_drop]

/-- Two adjacent ranges join to one. -/
theorem extract_append_extract {v : List α} {i j k : Nat} (hij : i ≤ j) (hjk : j ≤ k) :
    v.extract i j ++ v.extract j k = v.extract i k := by
  have hj : v.drop j = (v.drop i).drop (j - i) := by
    rw [List.drop_drop]
    congr 1
    omega
  have hk : k - i = (j - i) + (k - j) := by omega
  simp only [List.extract_eq_take_drop]
  rw [hj, hk, ← List.take_add]

theorem drop_extract {v : List α} {i j n : Nat} :
    (v.extract i j).drop n = v.extract (i + n) j := by
  simp only [List.extract_eq_take_drop, List.drop_take, List.drop_drop]
  congr 1
  omega

theorem take_extract {v : List α} {i j n : Nat} (h : i + n ≤ j) :
    (v.extract i j).take n = v.extract i (i + n) := by
  simp only [List.extract_eq_take_drop, List.take_take]
  congr 1
  omega

theorem extract_append_left {v w : List α} {i j : Nat} (h : j ≤ v.length) :
    (v ++ w).extract i j = v.extract i j := by
  simp only [List.extract_eq_take_drop]
  rcases Nat.lt_or_ge j i with hji | hij
  · simp [show j - i = 0 by omega]
  · rw [List.drop_append_of_le_length (by omega),
      List.take_append_of_le_length (by rw [List.length_drop]; omega)]

/-- A write leaves the ranges before it as they were. -/
theorem extract_overwrite_before {v xs : List α} {i j k : Nat} (hk : k ≤ i)
    (h : i ≤ v.length) : (overwrite v i xs).extract j k = v.extract j k := by
  have hlen : (v.take i).length = i := by
    rw [List.length_take]
    omega
  rw [overwrite, List.append_assoc, extract_append_left (by omega)]
  simp only [List.extract_eq_take_drop, List.drop_take, List.take_take]
  congr 1
  omega

/-- A write leaves the ranges after it as they were. -/
theorem extract_overwrite_after {v xs : List α} {i j k : Nat}
    (hj : i + xs.length ≤ j) (h : i ≤ v.length) :
    (overwrite v i xs).extract j k = v.extract j k := by
  have hlen : (v.take i ++ xs).length = i + xs.length := by
    rw [List.length_append, List.length_take]
    omega
  have hdrop : (overwrite v i xs).drop j = v.drop j := by
    rw [overwrite, List.drop_append, hlen, List.drop_drop,
      List.drop_eq_nil_of_le (by omega), List.nil_append]
    congr 1
    omega
  simp only [List.extract_eq_take_drop, hdrop]

/-- Reading back the range just written. -/
theorem extract_overwrite_same {v xs : List α} {i : Nat} (h : i ≤ v.length) :
    (overwrite v i xs).extract i (i + xs.length) = xs := by
  have hlen : (v.take i).length = i := by
    rw [List.length_take]
    omega
  have hdrop : (overwrite v i xs).drop i = xs ++ v.drop (i + xs.length) := by
    rw [overwrite, List.append_assoc, List.drop_append, hlen,
      List.drop_eq_nil_of_le (by omega), Nat.sub_self]
    simp
  simp only [List.extract_eq_take_drop, hdrop, Nat.add_sub_cancel_left, List.take_left]

/-- Writing at the end of a range extends it. -/
theorem extract_overwrite_extend {v xs : List α} {i j : Nat} (hij : i ≤ j)
    (h : j ≤ v.length) :
    (overwrite v j xs).extract i (j + xs.length) = v.extract i j ++ xs := by
  rw [← extract_append_extract hij (Nat.le_add_right j xs.length),
    extract_overwrite_before (Nat.le_refl j) h, extract_overwrite_same h]

/-- Writing right before a range extends it to the front. -/
theorem extract_overwrite_front {v xs : List α} {i k : Nat}
    (hk : i + xs.length ≤ k) (h : i ≤ v.length) :
    (overwrite v i xs).extract i k = xs ++ v.extract (i + xs.length) k := by
  rw [← extract_append_extract (Nat.le_add_right i xs.length) hk,
    extract_overwrite_same h, extract_overwrite_after (Nat.le_refl _) h]

end Slice
