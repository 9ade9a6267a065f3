import Mathlib.Algebra.Order.Ring.Nat
import Mathlib.Tactic.Common

/-!
Binary trees in an array: the children of the node `p` are `2 * p` and `2 * p + 1`.
What one subtree stores is apart from what the other one does.
-/

namespace HeapIndex

/-- The node `q` is `p` or lies under it. -/
def Below (p q : Nat) : Prop := ∃ depth, q / 2 ^ depth = p

variable {p p' q : Nat}

theorem Below.refl (p : Nat) : Below p p := ⟨0, by simp⟩

theorem Below.of_left (h : Below (p * 2) q) : Below p q := by
  obtain ⟨depth, hdepth⟩ := h
  refine ⟨depth + 1, ?_⟩
  rw [Nat.pow_succ, ← Nat.div_div_eq_div_mul, hdepth]
  omega

theorem Below.of_right (h : Below (p * 2 + 1) q) : Below p q := by
  obtain ⟨depth, hdepth⟩ := h
  refine ⟨depth + 1, ?_⟩
  rw [Nat.pow_succ, ← Nat.div_div_eq_div_mul, hdepth]
  omega

theorem Below.le (h : Below p q) : p ≤ q := by
  obtain ⟨depth, rfl⟩ := h
  exact Nat.div_le_self q _

/-- A proper ancestor is at most half of the node. -/
theorem Below.eq_or_double_le (h : Below p q) : p = q ∨ p * 2 ≤ q := by
  obtain ⟨depth, rfl⟩ := h
  cases depth with
  | zero => exact .inl (by simp)
  | succ depth =>
      right
      rw [Nat.pow_succ, ← Nat.div_div_eq_div_mul]
      have hself := Nat.div_le_self q (2 ^ depth)
      omega

/-- The nodes over one node form a chain. -/
theorem Below.chain (h : Below p q) (h' : Below p' q) : Below p p' ∨ Below p' p := by
  obtain ⟨depth, rfl⟩ := h
  obtain ⟨depth', rfl⟩ := h'
  obtain hle | hle := Nat.le_total depth depth'
  · refine .inr ⟨depth' - depth, ?_⟩
    rw [Nat.div_div_eq_div_mul, ← Nat.pow_add, Nat.add_sub_of_le hle]
  · refine .inl ⟨depth - depth', ?_⟩
    rw [Nat.div_div_eq_div_mul, ← Nat.pow_add, Nat.add_sub_of_le hle]

/-- A node is not under its children. -/
theorem not_below_left (hp : 1 ≤ p) : ¬Below (p * 2) p := by
  intro h
  have hle := h.le
  omega

theorem not_below_right : ¬Below (p * 2 + 1) p := by
  intro h
  have hle := h.le
  omega

/-- Nothing lies under both children. -/
theorem not_below_right_of_left (hp : 1 ≤ p) (h : Below (p * 2) q) :
    ¬Below (p * 2 + 1) q := by
  intro h'
  obtain hunder | hunder := h.chain h'
  · obtain heq | hle := hunder.eq_or_double_le <;> omega
  · have hle := hunder.le
    omega

end HeapIndex
