import Mathlib.Data.List.Basic
import Mathlib.Data.List.Nodup

/-!
Accounting for handles that are acquired, used and released. Handles are
numbered in the order of their acquisition. A history is balanced against a
list of held handles when the held ones have not been released, every other
one has been released exactly once, and nothing is used after its release.
-/

namespace Ledger

variable {U R : Type*}

/-- `how` tells the kinds of use, and the kinds of release, apart. -/
inductive Op (U R : Type*)
  | acquire (handle : Nat)
  | use (how : U) (handle : Nat)
  | release (how : R) (handle : Nat)
deriving DecidableEq, Repr

def Op.handle : Op U R → Nat
  | .acquire h | .use _ h | .release _ h => h

def Op.releases (h : Nat) : Op U R → Bool
  | .release _ h' => h' = h
  | _ => false

/-- How often the handle has been released, one way or another. -/
def released (ops : List (Op U R)) (h : Nat) : Nat := ops.countP (Op.releases h)

/-- The second operation may follow the first: it is no use of the handle the
first one released. -/
def Follows (earlier later : Op U R) : Prop :=
  ∀ h how, earlier.releases h = true → later ≠ .use how h

structure Balanced (ops : List (Op U R)) (next : Nat) (held : List Nat) : Prop where
  bounded : ∀ op ∈ ops, op.handle < next
  held_lt : ∀ h ∈ held, h < next
  nodup : held.Nodup
  held_open : ∀ h ∈ held, released ops h = 0
  settled : ∀ h, h < next → h ∉ held → released ops h = 1
  ordered : ops.Pairwise Follows

variable {ops : List (Op U R)} {next : Nat} {held : List Nat}

theorem released_append (ops more : List (Op U R)) (h : Nat) :
    released (ops ++ more) h = released ops h + released more h :=
  List.countP_append

theorem released_le_append (ops more : List (Op U R)) (h : Nat) :
    released ops h ≤ released (ops ++ more) h := by
  rw [released_append]
  exact Nat.le_add_right _ _

theorem released_of_ne {op : Op U R} {h : Nat} (hop : op.releases h = false) :
    released (ops ++ [op]) h = released ops h := by
  rw [released_append, released, released, List.countP_singleton, hop]
  rfl

theorem releases_lt {op : Op U R} {h : Nat} (hop : op.releases h = true) : op.handle = h := by
  cases op with
  | acquire _ => cases hop
  | use _ _ => cases hop
  | release _ _ => exact of_decide_eq_true hop

theorem releases_of_released {h : Nat} (hzero : released ops h = 0) {op : Op U R}
    (hop : op ∈ ops) : op.releases h = false :=
  Bool.eq_false_iff.mpr (List.countP_eq_zero.mp hzero op hop)

theorem Balanced.empty : Balanced ([] : List (Op U R)) 0 [] := by
  constructor <;> simp

/-- Handles not yet given out have not been released. -/
theorem Balanced.released_fresh (h : Balanced ops next held) {handle : Nat}
    (hfresh : next ≤ handle) : released ops handle = 0 := by
  refine List.countP_eq_zero.mpr fun op hop hreleases => ?_
  have hlt := h.bounded op hop
  rw [releases_lt hreleases] at hlt
  exact Nat.lt_irrefl next (Nat.lt_of_le_of_lt hfresh hlt)

theorem Balanced.acquire (h : Balanced ops next held) :
    Balanced (ops ++ [.acquire next]) (next + 1) (next :: held) := by
  have hsame (x : Nat) : released (ops ++ [.acquire next]) x = released ops x :=
    released_of_ne rfl
  have hnew : next ∉ held := fun hmem => Nat.lt_irrefl next (h.held_lt next hmem)
  constructor
  · intro op hop
    rcases List.mem_append.mp hop |>.imp_right List.mem_singleton.mp with hold | rfl
    · exact Nat.lt_succ_of_lt (h.bounded op hold)
    · exact Nat.lt_succ_self next
  · intro x hx
    rcases List.mem_cons.mp hx with rfl | hold
    · exact Nat.lt_succ_self x
    · exact Nat.lt_succ_of_lt (h.held_lt x hold)
  · exact List.nodup_cons.mpr ⟨hnew, h.nodup⟩
  · intro x hx
    rw [hsame]
    rcases List.mem_cons.mp hx with rfl | hold
    · exact h.released_fresh (Nat.le_refl x)
    · exact h.held_open x hold
  · intro x hlt hx
    rw [List.mem_cons, not_or] at hx
    rw [hsame]
    exact h.settled x (by omega) hx.2
  · refine List.pairwise_append.mpr ⟨h.ordered, List.pairwise_singleton _ _, ?_⟩
    intro earlier _ later hlater
    obtain rfl := List.mem_singleton.mp hlater
    exact fun _ _ _ heq => by cases heq

theorem Balanced.use (h : Balanced ops next held) {handle : Nat} (hheld : handle ∈ held)
    (how : U) : Balanced (ops ++ [.use how handle]) next held := by
  have hsame (x : Nat) : released (ops ++ [.use how handle]) x = released ops x :=
    released_of_ne rfl
  refine ⟨?_, h.held_lt, h.nodup, ?_, ?_, ?_⟩
  · intro op hop
    rcases List.mem_append.mp hop |>.imp_right List.mem_singleton.mp with hold | rfl
    · exact h.bounded op hold
    · exact h.held_lt handle hheld
  · intro x hx
    rw [hsame]
    exact h.held_open x hx
  · intro x hlt hx
    rw [hsame]
    exact h.settled x hlt hx
  · refine List.pairwise_append.mpr ⟨h.ordered, List.pairwise_singleton _ _, ?_⟩
    intro earlier hearlier later hlater x how' hreleases heq
    obtain rfl := List.mem_singleton.mp hlater
    -- the handle in use is held, so nothing earlier released it
    have hopen := releases_of_released (h.held_open handle hheld) hearlier
    cases heq
    rw [hreleases] at hopen
    cases hopen

theorem Balanced.release (h : Balanced ops next held) {handle : Nat} (hheld : handle ∈ held)
    (how : R) : Balanced (ops ++ [.release how handle]) next (held.erase handle) := by
  have hother {x : Nat} (hne : x ≠ handle) :
      released (ops ++ [.release how handle]) x = released ops x :=
    released_of_ne (decide_eq_false (Ne.symm hne))
  have herase {x : Nat} : x ∈ held.erase handle ↔ x ≠ handle ∧ x ∈ held := h.nodup.mem_erase_iff
  constructor
  · intro op hop
    rcases List.mem_append.mp hop |>.imp_right List.mem_singleton.mp with hold | rfl
    · exact h.bounded op hold
    · exact h.held_lt handle hheld
  · exact fun x hx => h.held_lt x (herase.mp hx).2
  · exact h.nodup.erase handle
  · intro x hx
    obtain ⟨hne, hold⟩ := herase.mp hx
    rw [hother hne]
    exact h.held_open x hold
  · intro x hlt hx
    by_cases hne : x = handle
    · subst hne
      rw [released_append, h.held_open x hheld]
      simp [released, Op.releases]
    · rw [hother hne]
      exact h.settled x hlt fun hold => hx (herase.mpr ⟨hne, hold⟩)
  · refine List.pairwise_append.mpr ⟨h.ordered, List.pairwise_singleton _ _, ?_⟩
    intro earlier _ later hlater
    obtain rfl := List.mem_singleton.mp hlater
    exact fun _ _ _ heq => by cases heq

end Ledger
