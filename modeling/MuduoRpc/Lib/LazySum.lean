import Mathlib.Algebra.BigOperators.Group.Finset.Basic
import Mathlib.Algebra.Module.NatInt
import Mathlib.Algebra.Order.Group.Int
import Mathlib.Tactic.Abel
import MuduoRpc.Lib.HeapIndex

/-!
Sums over the segments of an array, kept in a binary tree whose nodes may carry a
pending addend. The sum of a node counts its own addend, the nodes under it do not
know of it yet.
-/

namespace LazySum

open HeapIndex

variable {M : Type*}

/-- What the arrays of the tree hold for each node. -/
structure Store (M : Type*) where
  sum : Nat → M
  mark : Nat → M

namespace Store

def setSum (h : Store M) (p : Nat) (x : M) : Store M :=
  { h with sum := Function.update h.sum p x }

def setMark (h : Store M) (p : Nat) (x : M) : Store M :=
  { h with mark := Function.update h.mark p x }

@[simp]
theorem setSum_mark (h : Store M) (p : Nat) (x : M) : (h.setSum p x).mark = h.mark := rfl

@[simp]
theorem setMark_sum (h : Store M) (p : Nat) (x : M) : (h.setMark p x).sum = h.sum := rfl

@[simp]
theorem setSum_sum (h : Store M) (p q : Nat) (x : M) :
    (h.setSum p x).sum q = if q = p then x else h.sum q := Function.update_apply h.sum p x q

@[simp]
theorem setMark_mark (h : Store M) (p q : Nat) (x : M) :
    (h.setMark p x).mark q = if q = p then x else h.mark q := Function.update_apply h.mark p x q

/-- The two stores hold the same at the nodes of the set. -/
def AgreeOn (nodes : Nat → Prop) (h h' : Store M) : Prop :=
  ∀ q, nodes q → h'.sum q = h.sum q ∧ h'.mark q = h.mark q

/-- Only the subtree of `p` may differ. -/
def SameOutside (p : Nat) : Store M → Store M → Prop := AgreeOn fun q => ¬Below p q

theorem AgreeOn.mono {nodes nodes' : Nat → Prop} {h h' : Store M} (hsame : AgreeOn nodes h h')
    (hsub : ∀ q, nodes' q → nodes q) : AgreeOn nodes' h h' :=
  fun q hq => hsame q (hsub q hq)

theorem AgreeOn.trans {nodes : Nat → Prop} {h h' h'' : Store M} (hsame : AgreeOn nodes h h')
    (hsame' : AgreeOn nodes h' h'') : AgreeOn nodes h h'' :=
  fun q hq => ⟨(hsame' q hq).1.trans (hsame q hq).1, (hsame' q hq).2.trans (hsame q hq).2⟩

theorem agreeOn_setSum {nodes : Nat → Prop} {p : Nat} (hp : ¬nodes p) (h : Store M) (x : M) :
    AgreeOn nodes h (h.setSum p x) := by
  intro q hq
  have hne : q ≠ p := fun heq => hp (heq ▸ hq)
  simp [hne]

theorem agreeOn_setMark {nodes : Nat → Prop} {p : Nat} (hp : ¬nodes p) (h : Store M) (x : M) :
    AgreeOn nodes h (h.setMark p x) := by
  intro q hq
  have hne : q ≠ p := fun heq => hp (heq ▸ hq)
  simp [hne]

namespace SameOutside

variable {h h' : Store M} {p : Nat}

theorem refl (p : Nat) (h : Store M) : SameOutside p h h := fun _ _ => ⟨rfl, rfl⟩

theorem of_left (hsame : SameOutside (p * 2) h h') : SameOutside p h h' :=
  hsame.mono fun _ hq hbelow => hq hbelow.of_left

theorem of_right (hsame : SameOutside (p * 2 + 1) h h') : SameOutside p h h' :=
  hsame.mono fun _ hq hbelow => hq hbelow.of_right

theorem setSum (p : Nat) (h : Store M) (x : M) : SameOutside p h (h.setSum p x) :=
  agreeOn_setSum (fun hp => hp (Below.refl p)) h x

theorem setMark (p : Nat) (h : Store M) (x : M) : SameOutside p h (h.setMark p x) :=
  agreeOn_setMark (fun hp => hp (Below.refl p)) h x

end SameOutside

end Store

variable [AddCommGroup M]

/-- The sum of `f` from `s` up to and including `t`. -/
def rangeSum (f : Int → M) (s t : Int) : M := ∑ k ∈ Finset.range (t + 1 - s).toNat, f (s + k)

/-- The sum over the part of `[l, r]` that lies in `[s, t]`. -/
def clippedSum (f : Int → M) (l r s t : Int) : M := rangeSum f (max l s) (min r t)

/-- `x` is added to every element of `[l, r]`. -/
def addOn (l r : Int) (x : M) (f : Int → M) : Int → M :=
  fun i => if l ≤ i ∧ i ≤ r then f i + x else f i

section Ranges

variable {f g : Int → M} {l r s t m : Int}

theorem rangeSum_self (f : Int → M) (s : Int) : rangeSum f s s = f s := by
  have hone : (s + 1 - s).toNat = 1 := by omega
  rw [rangeSum, hone, Finset.sum_range_one, Nat.cast_zero, add_zero]

theorem rangeSum_empty (f : Int → M) (h : t < s) : rangeSum f s t = 0 := by
  have hnone : (t + 1 - s).toNat = 0 := by omega
  rw [rangeSum, hnone, Finset.sum_range_zero]

theorem rangeSum_congr (h : ∀ i, s ≤ i → i ≤ t → f i = g i) :
    rangeSum f s t = rangeSum g s t := by
  apply Finset.sum_congr rfl
  intro k hk
  have hlt := Finset.mem_range.mp hk
  exact h (s + k) (by omega) (by omega)

theorem rangeSum_split (f : Int → M) (hs : s ≤ m + 1) (ht : m ≤ t) :
    rangeSum f s t = rangeSum f s m + rangeSum f (m + 1) t := by
  have hcount : (t + 1 - s).toNat = (m + 1 - s).toNat + (t + 1 - (m + 1)).toNat := by omega
  rw [rangeSum, hcount, Finset.sum_range_add]
  congr 1
  apply Finset.sum_congr rfl
  intro k _
  have hplace : s + ((m + 1 - s).toNat + k : Nat) = m + 1 + k := by omega
  rw [hplace]

theorem rangeSum_add_const (f : Int → M) (x : M) (h : s ≤ t) :
    rangeSum (fun i => f i + x) s t = rangeSum f s t + (t - s + 1) • x := by
  have hcount : ((t + 1 - s).toNat : Int) = t - s + 1 := by omega
  rw [rangeSum, Finset.sum_add_distrib, Finset.sum_const, Finset.card_range, ← natCast_zsmul,
    hcount]
  rfl

theorem clippedSum_contained (f : Int → M) (hl : l ≤ s) (hr : t ≤ r) :
    clippedSum f l r s t = rangeSum f s t := by
  rw [clippedSum, max_eq_right hl, min_eq_right hr]

/-- Only the elements that the range and the segment share matter. -/
theorem clippedSum_congr (h : ∀ i, s ≤ i → i ≤ t → l ≤ i → i ≤ r → f i = g i) :
    clippedSum f l r s t = clippedSum g l r s t :=
  rangeSum_congr fun i hi hi' => h i (by omega) (by omega) (by omega) (by omega)

theorem clippedSum_sub (f g : Int → M) :
    clippedSum (fun i => f i - g i) l r s t = clippedSum f l r s t - clippedSum g l r s t := by
  simp only [clippedSum, rangeSum]
  exact Finset.sum_sub_distrib _ _

theorem clippedSum_apart (f : Int → M) (h : r < s ∨ t < l) : clippedSum f l r s t = 0 :=
  rangeSum_empty f (by omega)

theorem clippedSum_split (f : Int → M) (hs : s ≤ m) (ht : m < t) :
    clippedSum f l r s t = clippedSum f l r s m + clippedSum f l r (m + 1) t := by
  by_cases hl : l ≤ m
  · by_cases hr : m < r
    · have hleft : min r m = m := by omega
      have hright : max l (m + 1) = m + 1 := by omega
      rw [clippedSum, clippedSum, clippedSum, hleft, hright]
      exact rangeSum_split f (by omega) (by omega)
    · have hsame : min r t = min r m := by omega
      rw [clippedSum_apart f (s := m + 1) (.inl (by omega)), add_zero, clippedSum, clippedSum,
        hsame]
  · have hsame : max l s = max l (m + 1) := by omega
    rw [clippedSum_apart f (s := s) (t := m) (.inr (by omega)), zero_add, clippedSum,
      clippedSum, hsame]

theorem addOn_inside {x : M} {i : Int} (hl : l ≤ i) (hr : i ≤ r) :
    addOn l r x f i = f i + x := if_pos ⟨hl, hr⟩

theorem addOn_outside {x : M} {i : Int} (h : i < l ∨ r < i) : addOn l r x f i = f i :=
  if_neg (by omega)

end Ranges

def mid (s t : Int) : Int := s + (t - s) / 2

theorem le_mid {s t : Int} (h : s < t) : s ≤ mid s t := by
  unfold mid
  omega

theorem mid_lt {s t : Int} (h : s < t) : mid s t < t := by
  unfold mid
  omega

/-- The subtree of `p` holds the elements `f` of `[s, t]`. The children hold what is
left without the addend of `p`. -/
inductive Represents (h : Store M) : Int → Int → Nat → (Int → M) → Prop
  | leaf {s : Int} {p : Nat} {f : Int → M} (hsum : h.sum p = f s) : Represents h s s p f
  | node {s t : Int} {p : Nat} {f : Int → M} (hlt : s < t) (hsum : h.sum p = rangeSum f s t)
      (left : Represents h s (mid s t) (p * 2) (fun i => f i - h.mark p))
      (right : Represents h (mid s t + 1) t (p * 2 + 1) (fun i => f i - h.mark p)) :
      Represents h s t p f

namespace Store

/-- `x` is added to the elements of `p`, which are `total` together. -/
def add (h : Store M) (p : Nat) (total x : M) : Store M :=
  (h.setSum p (h.sum p + total)).setMark p (h.mark p + x)

/-- The addend of `p` goes to its children. -/
def push (h : Store M) (s t : Int) (p : Nat) : Store M :=
  let x := h.mark p
  let left := h.add (p * 2) ((mid s t - s + 1) • x) x
  let both := left.add (p * 2 + 1) ((t - mid s t) • x) x
  both.setMark p 0

/-- The element `i` of `[s, t]` as the leaf and the addends over it give it. -/
def value (h : Store M) (s t : Int) (p : Nat) (i : Int) : M :=
  if s < t then
    h.mark p +
      if i ≤ mid s t then h.value s (mid s t) (p * 2) i
      else h.value (mid s t + 1) t (p * 2 + 1) i
  else h.sum p
termination_by (t - s).toNat
decreasing_by
  · have hmid := mid_lt (by assumption)
    omega
  · have hmid := le_mid (by assumption)
    omega

/-- A sum over `[l, r]` is put together from the nodes whose segments lie inside. The
addends over the one of these that the element `i` belongs to. -/
def pending (h : Store M) (l r s t : Int) (p : Nat) (i : Int) : M :=
  if s < t ∧ ¬(l ≤ s ∧ t ≤ r) then
    h.mark p +
      if i ≤ mid s t then h.pending l r s (mid s t) (p * 2) i
      else h.pending l r (mid s t + 1) t (p * 2 + 1) i
  else 0
termination_by (t - s).toNat
decreasing_by
  · have hmid := mid_lt (And.left (by assumption))
    omega
  · have hmid := le_mid (And.left (by assumption))
    omega

section Pending

variable {h h' : Store M} {l r s t i : Int} {p : Nat}

theorem pending_inside (hl : l ≤ s) (hr : t ≤ r) : h.pending l r s t p i = 0 := by
  rw [pending, if_neg fun hpart => hpart.2 ⟨hl, hr⟩]

theorem pending_left (hlt : s < t) (hpart : ¬(l ≤ s ∧ t ≤ r)) (hi : i ≤ mid s t) :
    h.pending l r s t p i = h.mark p + h.pending l r s (mid s t) (p * 2) i := by
  rw [pending, if_pos ⟨hlt, hpart⟩, if_pos hi]

theorem pending_right (hlt : s < t) (hpart : ¬(l ≤ s ∧ t ≤ r)) (hi : mid s t < i) :
    h.pending l r s t p i = h.mark p + h.pending l r (mid s t + 1) t (p * 2 + 1) i := by
  rw [pending, if_pos ⟨hlt, hpart⟩, if_neg (Int.not_le_of_gt hi)]

/-- Only the marks of the subtree matter. -/
theorem pending_frame (hsame : AgreeOn (Below p) h h') :
    h'.pending l r s t p i = h.pending l r s t p i := by
  fun_induction h.pending l r s t p i with
  | case1 s t p hpart ihl ihr =>
      rw [pending, if_pos hpart, (hsame p (Below.refl p)).2,
        ihl (hsame.mono fun _ => Below.of_left), ihr (hsame.mono fun _ => Below.of_right)]
  | case2 s t p hinside => rw [pending, if_neg hinside]

end Pending

theorem agreeOn_add {nodes : Nat → Prop} {p : Nat} (hp : ¬nodes p) (h : Store M) (total x : M) :
    AgreeOn nodes h (h.add p total x) :=
  (agreeOn_setSum hp h _).trans (agreeOn_setMark hp _ _)

namespace SameOutside

theorem add (p : Nat) (h : Store M) (total x : M) : SameOutside p h (h.add p total x) :=
  agreeOn_add (fun hp => hp (Below.refl p)) h total x

theorem push (s t : Int) (p : Nat) (h : Store M) : SameOutside p h (h.push s t p) :=
  ((add (p * 2) h _ _).of_left.trans (add (p * 2 + 1) _ _ _).of_right).trans (setMark p _ 0)

end SameOutside

theorem push_sum_self {p : Nat} (hp : 1 ≤ p) (h : Store M) (s t : Int) :
    (h.push s t p).sum p = h.sum p := by
  have hleft : p ≠ p * 2 := by omega
  have hright : p ≠ p * 2 + 1 := by omega
  simp [push, add, hleft, hright]

end Store

open Store

variable {h h' : Store M} {s t : Int} {p : Nat} {f g : Int → M}

namespace Represents

theorem le (hrep : Represents h s t p f) : s ≤ t := by
  cases hrep with
  | leaf _ => exact Int.le_refl _
  | node hlt _ _ _ => exact Int.le_of_lt hlt

theorem sum_eq (hrep : Represents h s t p f) : h.sum p = rangeSum f s t := by
  cases hrep with
  | leaf hsum => rw [hsum, rangeSum_self]
  | node _ hsum _ _ => exact hsum

/-- Only the elements of the segment matter. -/
theorem congr (hrep : Represents h s t p f) (hfg : ∀ i, s ≤ i → i ≤ t → f i = g i) :
    Represents h s t p g := by
  induction hrep generalizing g with
  | leaf hsum =>
      refine .leaf ?_
      rw [hsum]
      exact hfg _ (Int.le_refl _) (Int.le_refl _)
  | node hlt hsum _ _ ihl ihr =>
      have hmid := le_mid hlt
      have hmid' := mid_lt hlt
      refine .node hlt (hsum.trans (rangeSum_congr hfg)) (ihl ?_) (ihr ?_)
      · intro i hs ht
        exact congrArg (· - h.mark _) (hfg i hs (by omega))
      · intro i hs ht
        exact congrArg (· - h.mark _) (hfg i (by omega) ht)

/-- Only the nodes of the subtree matter. -/
theorem frame (hrep : Represents h s t p f) (hsame : AgreeOn (Below p) h h') :
    Represents h' s t p f := by
  induction hrep with
  | @leaf s p f hsum =>
      refine .leaf ?_
      rw [(hsame p (Below.refl p)).1, hsum]
  | @node s t p f hlt hsum _ _ ihl ihr =>
      obtain ⟨hsum', hmark'⟩ := hsame p (Below.refl p)
      refine .node hlt (hsum'.trans hsum) ?_ ?_
      · rw [hmark']
        exact ihl (hsame.mono fun _ => Below.of_left)
      · rw [hmark']
        exact ihr (hsame.mono fun _ => Below.of_right)

/-- The element that the tree gives is the one that it represents. -/
theorem value_eq (hrep : Represents h s t p f) {i : Int} (hs : s ≤ i) (ht : i ≤ t) :
    h.value s t p i = f i := by
  induction hrep with
  | @leaf s p f hsum =>
      have heq : i = s := by omega
      rw [value, if_neg (Int.lt_irrefl s), hsum, heq]
  | node hlt _ _ _ ihl ihr =>
      rw [value, if_pos hlt]
      split
      case isTrue hle =>
        rw [ihl hs hle]
        exact add_sub_cancel _ _
      case isFalse hle =>
        rw [ihr (by omega) ht]
        exact add_sub_cancel _ _

theorem add (hrep : Represents h s t p f) (hp : 1 ≤ p) (x : M) :
    Represents (h.add p ((t - s + 1) • x) x) s t p (fun i => f i + x) := by
  cases hrep with
  | leaf hsum =>
      refine .leaf ?_
      simp [Store.add, hsum]
  | node hlt hsum left right =>
      have hchild (i : Int) : f i + x - (h.mark p + x) = f i - h.mark p := by abel
      have hmark : (h.add p ((t - s + 1) • x) x).mark p = h.mark p + x := by simp [Store.add]
      refine .node hlt ?_ ?_ ?_
      · rw [rangeSum_add_const f x (Int.le_of_lt hlt), ← hsum]
        simp [Store.add]
      · simp only [hmark, hchild]
        exact left.frame (agreeOn_add (not_below_left hp) h _ _)
      · simp only [hmark, hchild]
        exact right.frame (agreeOn_add not_below_right h _ _)

end Represents

/-- The node passes nothing on, and its children hold `f` and `g`. -/
structure Children (h : Store M) (s t : Int) (p : Nat) (f g : Int → M) : Prop where
  mark : h.mark p = 0
  left : Represents h s (mid s t) (p * 2) f
  right : Represents h (mid s t + 1) t (p * 2 + 1) g

namespace Represents

/-- The children hold what is left without the addend. -/
theorem halves (hrep : Represents h s t p f) (hlt : s < t) :
    Represents h s (mid s t) (p * 2) (fun i => f i - h.mark p) ∧
      Represents h (mid s t + 1) t (p * 2 + 1) (fun i => f i - h.mark p) := by
  cases hrep with
  | leaf _ => exact absurd hlt (Int.lt_irrefl _)
  | node _ _ left right => exact ⟨left, right⟩

theorem children (hrep : Represents h s t p f) (hlt : s < t) (hmark : h.mark p = 0) :
    Children h s t p f f := by
  cases hrep with
  | leaf _ => exact absurd hlt (Int.lt_irrefl _)
  | node _ _ left right =>
      simp only [hmark, sub_zero] at left right
      exact ⟨hmark, left, right⟩

/-- After the addend is passed on the children hold the elements themselves. -/
theorem push_children (hrep : Represents h s t p f) (hp : 1 ≤ p) (hlt : s < t) :
    Children (h.push s t p) s t p f f := by
  cases hrep with
  | leaf _ => exact absurd hlt (Int.lt_irrefl _)
  | node _ hsum left right =>
      have hcount : t - (mid s t + 1) + 1 = t - mid s t := by omega
      have hcancel : (fun i => f i - h.mark p + h.mark p) = f :=
        funext fun i => sub_add_cancel (f i) (h.mark p)
      -- the left child first, which leaves the right one as it is
      have left' := left.add (by omega) (h.mark p)
      have right' := (right.frame (agreeOn_add (fun hbelow =>
        not_below_right_of_left hp (Below.refl _) hbelow) h
          ((mid s t - s + 1) • h.mark p) (h.mark p))).add (by omega) (h.mark p)
      rw [hcancel] at left'
      rw [hcancel, hcount] at right'
      refine ⟨by simp [Store.push], ?_, ?_⟩
      · exact (left'.frame (agreeOn_add (fun hbelow =>
          not_below_right_of_left hp hbelow (Below.refl _)) _ _ _)).frame
            (agreeOn_setMark (not_below_left hp) _ _)
      · exact right'.frame (agreeOn_setMark not_below_right _ _)

end Represents

namespace Children

theorem of_left (hchildren : Children h s t p f g) (hp : 1 ≤ p)
    (hsame : SameOutside (p * 2) h h') {f' : Int → M}
    (left : Represents h' s (mid s t) (p * 2) f') : Children h' s t p f' g where
  mark := (hsame p (not_below_left hp)).2.trans hchildren.mark
  left := left
  right := hchildren.right.frame
    (hsame.mono fun _ hright hleft => not_below_right_of_left hp hleft hright)

theorem of_right (hchildren : Children h s t p f g) (hp : 1 ≤ p)
    (hsame : SameOutside (p * 2 + 1) h h') {g' : Int → M}
    (right : Represents h' (mid s t + 1) t (p * 2 + 1) g') : Children h' s t p f g' where
  mark := (hsame p not_below_right).2.trans hchildren.mark
  left := hchildren.left.frame
    (hsame.mono fun _ hleft hright => not_below_right_of_left hp hleft hright)
  right := right

theorem represents (hchildren : Children h s t p f f) (hlt : s < t)
    (hsum : h.sum p = rangeSum f s t) : Represents h s t p f := by
  refine .node hlt hsum ?_ ?_
  · simp only [hchildren.mark, sub_zero]
    exact hchildren.left
  · simp only [hchildren.mark, sub_zero]
    exact hchildren.right

/-- The sum of a node from its children. -/
theorem join (hchildren : Children h s t p f f) (hp : 1 ≤ p) (hlt : s < t) :
    Represents (h.setSum p (h.sum (p * 2) + h.sum (p * 2 + 1))) s t p f := by
  have hmid := le_mid hlt
  have hmid' := mid_lt hlt
  refine represents ⟨hchildren.mark, ?_, ?_⟩ hlt ?_
  · exact hchildren.left.frame (agreeOn_setSum (not_below_left hp) h _)
  · exact hchildren.right.frame (agreeOn_setSum not_below_right h _)
  · rw [rangeSum_split f (by omega : s ≤ mid s t + 1) (Int.le_of_lt hmid'),
      ← hchildren.left.sum_eq, ← hchildren.right.sum_eq]
    simp

end Children

end LazySum
