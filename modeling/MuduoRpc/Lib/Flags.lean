import Mathlib.Data.BitVec

/-!
Sets of flags in a machine word. `has` is the C test `word & flags`.
-/

namespace Flags

variable {w : Nat}

def has (word flags : BitVec w) : Bool := word &&& flags ≠ 0

theorem has_zero (flags : BitVec w) : has 0 flags = false := by
  simp [has]

theorem has_or (x y flags : BitVec w) : has (x ||| y) flags = (has x flags || has y flags) := by
  rw [has, BitVec.and_or_distrib_right]
  simp [has]

theorem has_flags_or (x f g : BitVec w) : has x (f ||| g) = (has x f || has x g) := by
  rw [has, BitVec.and_or_distrib_left]
  simp [has]

/-- Masking keeps the flags inside the mask. -/
theorem has_and_of_subset {x mask flags : BitVec w} (h : mask &&& flags = flags) :
    has (x &&& mask) flags = has x flags := by
  rw [has, BitVec.and_assoc, h, has]

/-- Masking clears the flags outside the mask. -/
theorem has_and_of_disjoint {x mask flags : BitVec w} (h : mask &&& flags = 0) :
    has (x &&& mask) flags = false := by
  simp [has, BitVec.and_assoc, h]

end Flags
