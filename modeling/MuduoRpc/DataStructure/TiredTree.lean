import Mathlib.Tactic.Linarith
import MuduoRpc.Lib.LazySum
import MuduoRpc.Lib.TotalRun

/-!
The segment tree of `tiredtree.cc` with lazy marks. The arrays are as long as in the
source, and an access outside of them has no result. The recursions take fuel.
-/

namespace MuduoRpc

/-- `d` holds the sums, `b` the marks; nodes count from 1. -/
structure TiredTree (SIZE : Nat) where
  a : Vector Int SIZE
  d : Vector Int (SIZE <<< 2)
  b : Vector Int (SIZE <<< 2)

namespace TiredTree

open TotalRun LazySum HeapIndex

variable {SIZE : Nat}

/-- Globals start as zero; only `a` is filled. -/
def new (a : Vector Int SIZE) : TiredTree SIZE :=
  ⟨a, Vector.replicate _ 0, Vector.replicate _ 0⟩

abbrev Run (SIZE : Nat) := StateT (TiredTree SIZE) Option

def readA (s : Int) : Run SIZE Int :=
  fun tree => if 0 ≤ s then tree.a[s.toNat]?.map (·, tree) else none

def readD (p : Nat) : Run SIZE Int := fun tree => tree.d[p]?.map (·, tree)

def readB (p : Nat) : Run SIZE Int := fun tree => tree.b[p]?.map (·, tree)

def writeD (p : Nat) (x : Int) : Run SIZE Unit := fun tree =>
  if p < SIZE <<< 2 then some ((), { tree with d := tree.d.setIfInBounds p x }) else none

def writeB (p : Nat) (x : Int) : Run SIZE Unit := fun tree =>
  if p < SIZE <<< 2 then some ((), { tree with b := tree.b.setIfInBounds p x }) else none

def addD (p : Nat) (x : Int) : Run SIZE Unit := do
  writeD p ((← readD p) + x)

def addB (p : Nat) (x : Int) : Run SIZE Unit := do
  writeB p ((← readB p) + x)

/-- `[s, t]` is the segment of the node `p`. -/
def build : Nat → Int → Int → Nat → Run SIZE Unit
  | 0, _, _, _ => failure
  | fuel + 1, s, t, p => do
      if s = t then
        writeD p (← readA s)
      else
        let m := s + ((t - s) >>> (1 : Nat))
        build fuel s m (p * 2)
        build fuel (m + 1) t (p * 2 + 1)
        writeD p ((← readD (p * 2)) + (← readD (p * 2 + 1)))

/-- The sum over `[l, r]` if no node is marked. -/
def getsum1 : Nat → Int → Int → Int → Int → Nat → Run SIZE Int
  | 0, _, _, _, _, _ => failure
  | fuel + 1, l, r, s, t, p =>
      if l ≤ s ∧ t ≤ r then
        readD p
      else do
        let m := s + ((t - s) >>> (1 : Nat))
        let sum ← (if l ≤ m then getsum1 fuel l r s m (p * 2) else pure 0)
        if r > m then
          return sum + (← getsum1 fuel l r (m + 1) t (p * 2 + 1))
        else
          return sum

/-- The mark of `p` goes to both children; `m` is the middle of `[s, t]`. -/
def pushdown (s t m : Int) (p : Nat) : Run SIZE Unit := do
  addD (p * 2) ((← readB p) * (m - s + 1))
  addD (p * 2 + 1) ((← readB p) * (t - m))
  addB (p * 2) (← readB p)
  addB (p * 2 + 1) (← readB p)
  writeB p 0

/-- Adds `c` to the elements of `[l, r]`. -/
def update : Nat → Int → Int → Int → Int → Int → Nat → Run SIZE Unit
  | 0, _, _, _, _, _, _ => failure
  | fuel + 1, l, r, c, s, t, p =>
      if l ≤ s ∧ t ≤ r then do
        addD p ((t - s + 1) * c)
        addB p c
      else do
        let m := s + ((t - s) >>> (1 : Nat))
        onlyIf ((← readB p) ≠ 0 ∧ s ≠ t) (pushdown s t m p)
        onlyIf (l ≤ m) (update fuel l r c s m (p * 2))
        onlyIf (r > m) (update fuel l r c (m + 1) t (p * 2 + 1))
        writeD p ((← readD (p * 2)) + (← readD (p * 2 + 1)))

/-- The sum over `[l, r]`; marks on the way are passed on. -/
def getsum2 : Nat → Int → Int → Int → Int → Nat → Run SIZE Int
  | 0, _, _, _, _, _ => failure
  | fuel + 1, l, r, s, t, p =>
      if l ≤ s ∧ t ≤ r then
        readD p
      else do
        let m := s + ((t - s) >>> (1 : Nat))
        onlyIf ((← readB p) ≠ 0) (pushdown s t m p)
        let sum ← (if l ≤ m then getsum2 fuel l r s m (p * 2) else pure 0)
        if r > m then
          return sum + (← getsum2 fuel l r (m + 1) t (p * 2 + 1))
        else
          return sum

/-- The two arrays as the sums and marks of the nodes. -/
def nodes (tree : TiredTree SIZE) : Store Int :=
  ⟨fun p => tree.d[p]?.getD 0, fun p => tree.b[p]?.getD 0⟩

/-- The array of the source. -/
def elem (tree : TiredTree SIZE) (i : Int) : Int := tree.a[i.toNat]?.getD 0

/-- The node `p` and its descendants have their indices in the arrays: a segment of two
elements or more is wide enough for its depth. -/
structure InHeap (SIZE : Nat) (s t : Int) (p : Nat) : Prop where
  le : s ≤ t
  low : 1 ≤ p
  high : p < SIZE <<< 2
  width : (t - s) * (p + 1) ≤ 2 * (SIZE - 2)

section Accesses

variable {tree : TiredTree SIZE} {p : Nat} {x : Int}

theorem ends_readA {s : Int} {post : Int → TiredTree SIZE → Prop} (hlow : 0 ≤ s)
    (hhigh : s < SIZE) (h : post (tree.elem s) tree) : Ends (readA s) tree post := by
  have hindex : s.toNat < SIZE := by omega
  refine ⟨tree.elem s, tree, ?_, h⟩
  simp [StateT.run, readA, elem, hlow, hindex]

theorem ends_readD {post : Int → TiredTree SIZE → Prop} (hp : p < SIZE <<< 2)
    (h : post (tree.nodes.sum p) tree) : Ends (readD p) tree post := by
  refine ⟨tree.nodes.sum p, tree, ?_, h⟩
  simp [StateT.run, readD, nodes, hp]

theorem ends_readB {post : Int → TiredTree SIZE → Prop} (hp : p < SIZE <<< 2)
    (h : post (tree.nodes.mark p) tree) : Ends (readB p) tree post := by
  refine ⟨tree.nodes.mark p, tree, ?_, h⟩
  simp [StateT.run, readB, nodes, hp]

theorem getD_setIfInBounds {n : Nat} (xs : Vector Int n) (hp : p < n) (q : Nat) :
    (xs.setIfInBounds p x)[q]?.getD 0 = if q = p then x else xs[q]?.getD 0 := by
  rw [Vector.getElem?_setIfInBounds]
  by_cases hqp : q = p
  · simp [hqp, hp]
  · simp [hqp, Ne.symm hqp]

theorem ends_writeD {post : Unit → TiredTree SIZE → Prop} (hp : p < SIZE <<< 2)
    (h : ∀ tree', tree'.nodes = tree.nodes.setSum p x → tree'.a = tree.a → post () tree') :
    Ends (writeD p x) tree post := by
  refine ⟨(), { tree with d := tree.d.setIfInBounds p x }, if_pos hp, h _ ?_ rfl⟩
  have hsum : (fun q => (tree.d.setIfInBounds p x)[q]?.getD 0) =
      (tree.nodes.setSum p x).sum := by
    funext q
    rw [getD_setIfInBounds tree.d hp, Store.setSum_sum]
    rfl
  exact congrArg (Store.mk · tree.nodes.mark) hsum

theorem ends_writeB {post : Unit → TiredTree SIZE → Prop} (hp : p < SIZE <<< 2)
    (h : ∀ tree', tree'.nodes = tree.nodes.setMark p x → tree'.a = tree.a → post () tree') :
    Ends (writeB p x) tree post := by
  refine ⟨(), { tree with b := tree.b.setIfInBounds p x }, if_pos hp, h _ ?_ rfl⟩
  have hmark : (fun q => (tree.b.setIfInBounds p x)[q]?.getD 0) =
      (tree.nodes.setMark p x).mark := by
    funext q
    rw [getD_setIfInBounds tree.b hp, Store.setMark_mark]
    rfl
  exact congrArg (Store.mk tree.nodes.sum) hmark

theorem ends_addD {post : Unit → TiredTree SIZE → Prop} (hp : p < SIZE <<< 2)
    (h : ∀ tree', tree'.nodes = tree.nodes.setSum p (tree.nodes.sum p + x) →
      tree'.a = tree.a → post () tree') : Ends (addD p x) tree post :=
  ends_bind (ends_readD hp (ends_writeD hp h))

theorem ends_addB {post : Unit → TiredTree SIZE → Prop} (hp : p < SIZE <<< 2)
    (h : ∀ tree', tree'.nodes = tree.nodes.setMark p (tree.nodes.mark p + x) →
      tree'.a = tree.a → post () tree') : Ends (addB p x) tree post :=
  ends_bind (ends_readB hp (ends_writeB hp h))

/-- What `pushdown` writes is the step that passes a mark on. -/
theorem ends_pushdown {s t : Int} {post : Unit → TiredTree SIZE → Prop} (hlow : 1 ≤ p)
    (hhigh : p * 2 + 1 < SIZE <<< 2)
    (h : ∀ tree', tree'.nodes = tree.nodes.push s t p → post () tree') :
    Ends (pushdown s t (mid s t) p) tree post := by
  have hleft : p ≠ p * 2 := by omega
  refine ends_bind (ends_readB (by omega) (ends_bind (ends_addD (by omega) ?_)))
  intro tree₁ h₁ _
  refine ends_bind (ends_readB (by omega) (ends_bind (ends_addD hhigh ?_)))
  intro tree₂ h₂ _
  refine ends_bind (ends_readB (by omega) (ends_bind (ends_addB (by omega) ?_)))
  intro tree₃ h₃ _
  refine ends_bind (ends_readB (by omega) (ends_bind (ends_addB hhigh ?_)))
  intro tree₄ h₄ _
  refine ends_writeB (by omega) ?_
  intro tree₅ h₅ _
  apply h tree₅
  rw [h₅, h₄, h₃, h₂, h₁]
  simp [Store.push, Store.add, hleft, mul_comm]
  rfl

end Accesses

namespace InHeap

variable {s t : Int} {p : Nat}

theorem root (hsize : 2 ≤ SIZE) : InHeap SIZE 1 (SIZE - 1) 1 where
  le := by omega
  low := by omega
  high := by
    rw [Nat.shiftLeft_eq]
    omega
  width := by
    push_cast
    omega

/-- A range that meets a segment and does not cover it: the segment has a middle. -/
theorem lt_of_part (h : InHeap SIZE s t p) {l r : Int} (hl : l ≤ t) (hr : s ≤ r)
    (hpart : ¬(l ≤ s ∧ t ≤ r)) : s < t := by
  have hle := h.le
  omega

theorem children_high (h : InHeap SIZE s t p) (hlt : s < t) : p * 2 + 1 < SIZE <<< 2 := by
  have hwide : (1 : Int) * (p + 1) ≤ (t - s) * (p + 1) :=
    Int.mul_le_mul_of_nonneg_right (by omega) (by omega)
  have hwidth := h.width
  rw [Nat.shiftLeft_eq]
  omega

theorem left (h : InHeap SIZE s t p) (hlt : s < t) : InHeap SIZE s (mid s t) (p * 2) where
  le := le_mid hlt
  low := by
    have hlow := h.low
    omega
  high := by
    have hhigh := h.children_high hlt
    omega
  width := by
    have hhalf : 2 * (mid s t - s) ≤ t - s := by
      unfold mid
      omega
    have hwide := Int.mul_le_mul_of_nonneg_right hhalf (by omega : (0 : Int) ≤ p + 1)
    have hwidth := h.width
    have hle := le_mid hlt
    push_cast
    linarith

theorem right (h : InHeap SIZE s t p) (hlt : s < t) :
    InHeap SIZE (mid s t + 1) t (p * 2 + 1) where
  le := mid_lt hlt
  low := by omega
  high := h.children_high hlt
  width := by
    have hhalf : 2 * (t - (mid s t + 1)) ≤ t - s := by
      unfold mid
      omega
    have hwide := Int.mul_le_mul_of_nonneg_right hhalf (by omega : (0 : Int) ≤ p + 1)
    have hwidth := h.width
    push_cast
    linarith

end InHeap

section Operations

variable {tree : TiredTree SIZE} {fuel : Nat} {l r s t : Int} {p : Nat} {f : Int → Int}

theorem shift_eq_mid (s t : Int) : s + ((t - s) >>> (1 : Nat)) = mid s t := by
  rw [Int.shiftRight_eq_div_pow]
  rfl

/-- The last line of `build` and of `update` makes the sum of `p` fit its children. -/
theorem ends_join (hheap : InHeap SIZE s t p) (hlt : s < t)
    (hchildren : Children tree.nodes s t p f f) :
    Ends (do writeD p ((← readD (p * 2)) + (← readD (p * 2 + 1)))) tree fun _ tree' =>
      Represents tree'.nodes s t p f ∧ Store.SameOutside p tree.nodes tree'.nodes ∧
        tree'.nodes.mark = tree.nodes.mark ∧ tree'.a = tree.a := by
  have hhigh := hheap.children_high hlt
  refine ends_bind (ends_readD (by omega) (ends_bind (ends_readD hhigh
    (ends_writeD hheap.high ?_))))
  intro tree' h ha
  rw [h]
  exact ⟨hchildren.join hheap.low hlt, .setSum p _ _, rfl, ha⟩

/-- What `build` leaves, from a tree without marks. -/
structure Built (s t : Int) (p : Nat) (tree tree' : TiredTree SIZE) : Prop where
  represents : Represents tree'.nodes s t p tree.elem
  same : Store.SameOutside p tree.nodes tree'.nodes
  marks : tree'.nodes.mark = tree.nodes.mark
  source : tree'.a = tree.a

theorem build_ends (hfuel : (t - s).toNat < fuel) (hheap : InHeap SIZE s t p) (hs : 0 ≤ s)
    (ht : t < SIZE) (hmarks : tree.nodes.mark = fun _ => 0) :
    Ends (build fuel s t p) tree fun _ tree' => Built s t p tree tree' := by
  induction fuel generalizing s t p tree with
  | zero => omega
  | succ fuel ih =>
      rw [build]
      apply ends_ite
      · rintro rfl
        refine ends_bind (ends_readA hs ht (ends_writeD hheap.high ?_))
        intro tree' h ha
        refine ⟨.leaf ?_, ?_, ?_, ha⟩
        · simp [h]
        · rw [h]
          exact .setSum p _ _
        · rw [h, Store.setSum_mark]
      · intro hne
        have hlt : s < t := by
          have hle := hheap.le
          omega
        have hmid := le_mid hlt
        have hmid' := mid_lt hlt
        rw [shift_eq_mid]
        refine ends_seq _ (ih (by omega) (hheap.left hlt) hs (by omega) hmarks) ?_
        intro _ tree₁ hleft
        refine ends_seq _ (ih (by omega) (hheap.right hlt) (by omega) ht
          (hleft.marks.trans hmarks)) ?_
        intro _ tree₂ hright
        have helem : tree₁.elem = tree.elem := by
          unfold elem
          rw [hleft.source]
        have hmark : tree₂.nodes.mark p = 0 := by
          rw [hright.marks, hleft.marks, hmarks]
        have hchildren : Children tree₂.nodes s t p tree.elem tree.elem :=
          ⟨hmark, hleft.represents.frame (hright.same.mono fun _ hbelow hbelow' =>
            not_below_right_of_left hheap.low hbelow hbelow'), helem ▸ hright.represents⟩
        refine (ends_join hheap hlt hchildren).mono ?_
        rintro _ tree₃ ⟨hrep, hsame, hmarks₃, ha₃⟩
        refine ⟨hrep, (hleft.same.of_left.trans hright.same.of_right).trans hsame, ?_, ?_⟩
        · rw [hmarks₃, hright.marks, hleft.marks]
        · rw [ha₃, hright.source, hleft.source]

/-- Both queries add what they find in the halves of a segment that `[l, r]` covers only
in part. -/
theorem ends_sumHalves {left right : Run SIZE Int} {after : TiredTree SIZE → Prop}
    (between : TiredTree SIZE → Prop) (hlt : s < t)
    (hleft : l ≤ mid s t → Ends left tree fun sum tree' =>
      sum = clippedSum f l r s (mid s t) ∧ between tree')
    (hnoleft : between tree)
    (hright : r > mid s t → ∀ tree', between tree' → Ends right tree' fun sum tree'' =>
      sum = clippedSum f l r (mid s t + 1) t ∧ after tree'')
    (hnoright : ∀ tree', between tree' → after tree') :
    Ends (do
      let sum ← (if l ≤ mid s t then left else pure 0)
      if r > mid s t then return sum + (← right) else return sum) tree fun sum tree' =>
        sum = clippedSum f l r s t ∧ after tree' := by
  rw [clippedSum_split f (le_mid hlt) (mid_lt hlt)]
  refine ends_seq (fun sum tree' => sum = clippedSum f l r s (mid s t) ∧ between tree')
    (ends_ite hleft ?_) ?_
  · intro hlm
    refine ends_pure ⟨?_, hnoleft⟩
    rw [clippedSum_apart f (.inr (by omega))]
  · rintro _ tree₁ ⟨rfl, hbetween⟩
    refine ends_ite ?_ ?_
    · intro hrm
      refine ends_seq _ (hright hrm tree₁ hbetween) ?_
      rintro _ tree₂ ⟨rfl, hafter⟩
      exact ends_pure ⟨rfl, hafter⟩
    · intro hrm
      refine ends_pure ⟨?_, hnoright tree₁ hbetween⟩
      rw [clippedSum_apart f (s := mid s t + 1) (.inl (by omega)), add_zero]

theorem getsum1_ends (hfuel : (t - s).toNat < fuel) (hheap : InHeap SIZE s t p) (hl : l ≤ t)
    (hr : s ≤ r) (hrep : Represents tree.nodes s t p f)
    (hmarks : ∀ q, tree.nodes.mark q = 0) :
    Ends (getsum1 fuel l r s t p) tree fun sum tree' =>
      sum = clippedSum f l r s t ∧ tree' = tree := by
  induction fuel generalizing s t p with
  | zero => omega
  | succ fuel ih =>
      rw [getsum1]
      apply ends_ite
      · intro hinside
        refine ends_readD hheap.high ⟨?_, rfl⟩
        rw [hrep.sum_eq, clippedSum_contained f hinside.1 hinside.2]
      · intro hpart
        have hlt := hheap.lt_of_part hl hr hpart
        have hmid := le_mid hlt
        have hmid' := mid_lt hlt
        have hchildren := hrep.children hlt (hmarks p)
        rw [shift_eq_mid]
        refine ends_sumHalves (· = tree) hlt ?_ rfl ?_ fun _ h => h
        · intro hlm
          exact ih (by omega) (hheap.left hlt) hlm hr hchildren.left
        · rintro hrm _ rfl
          exact ih (by omega) (hheap.right hlt) hl (by omega) hchildren.right

/-- The mark of `p` is passed on, and at most the subtree of `p` has changed. -/
structure Passed (s t : Int) (p : Nat) (f : Int → Int) (tree tree' : TiredTree SIZE) : Prop where
  children : Children tree'.nodes s t p f f
  same : Store.SameOutside p tree.nodes tree'.nodes
  sum : tree'.nodes.sum p = tree.nodes.sum p
  unmarked : (∀ q, tree.nodes.mark q = 0) → tree' = tree

theorem ends_passOn {cond : Prop} [Decidable cond] (hheap : InHeap SIZE s t p) (hlt : s < t)
    (hrep : Represents tree.nodes s t p f) (hcond : cond ↔ tree.nodes.mark p ≠ 0) :
    Ends (onlyIf cond (pushdown s t (mid s t) p)) tree fun _ tree' =>
      Passed s t p f tree tree' := by
  refine ends_onlyIf ?_ ?_
  · intro hpass
    refine ends_pushdown hheap.low (hheap.children_high hlt) ?_
    intro tree' h
    refine ⟨?_, ?_, ?_, fun hmarks => absurd (hmarks p) (hcond.mp hpass)⟩
    · rw [h]
      exact hrep.push_children hheap.low hlt
    · rw [h]
      exact .push s t p _
    · rw [h]
      exact Store.push_sum_self hheap.low _ _ _
  · intro hkept
    have hmark : tree.nodes.mark p = 0 := by
      by_contra hne
      exact hkept (hcond.mpr hne)
    exact ⟨hrep.children hlt hmark, .refl p _, rfl, fun _ => rfl⟩

/-- The part of an update that falls into the left half. -/
theorem ends_updateLeft {c : Int} {g : Int → Int} {body : Run SIZE Unit}
    (hheap : InHeap SIZE s t p) (hchildren : Children tree.nodes s t p f g)
    (hbody : l ≤ mid s t → Ends body tree fun _ tree' =>
      Represents tree'.nodes s (mid s t) (p * 2) (addOn l r c f) ∧
        Store.SameOutside (p * 2) tree.nodes tree'.nodes) :
    Ends (onlyIf (l ≤ mid s t) body) tree fun _ tree' =>
      Children tree'.nodes s t p (addOn l r c f) g ∧
        Store.SameOutside p tree.nodes tree'.nodes := by
  refine ends_onlyIf ?_ ?_
  · intro hlm
    refine (hbody hlm).mono ?_
    rintro _ tree' ⟨hleft, hsame⟩
    exact ⟨hchildren.of_left hheap.low hsame hleft, hsame.of_left⟩
  · intro hlm
    refine ⟨⟨hchildren.mark, hchildren.left.congr ?_, hchildren.right⟩, .refl p _⟩
    intro i hi hi'
    exact (addOn_outside (by omega)).symm

theorem ends_updateRight {c : Int} {g : Int → Int} {body : Run SIZE Unit}
    (hheap : InHeap SIZE s t p) (hchildren : Children tree.nodes s t p g f)
    (hbody : r > mid s t → Ends body tree fun _ tree' =>
      Represents tree'.nodes (mid s t + 1) t (p * 2 + 1) (addOn l r c f) ∧
        Store.SameOutside (p * 2 + 1) tree.nodes tree'.nodes) :
    Ends (onlyIf (r > mid s t) body) tree fun _ tree' =>
      Children tree'.nodes s t p g (addOn l r c f) ∧
        Store.SameOutside p tree.nodes tree'.nodes := by
  refine ends_onlyIf ?_ ?_
  · intro hrm
    refine (hbody hrm).mono ?_
    rintro _ tree' ⟨hright, hsame⟩
    exact ⟨hchildren.of_right hheap.low hsame hright, hsame.of_right⟩
  · intro hrm
    refine ⟨⟨hchildren.mark, hchildren.left, hchildren.right.congr ?_⟩, .refl p _⟩
    intro i hi hi'
    exact (addOn_outside (by omega)).symm

theorem update_ends {c : Int} (hfuel : (t - s).toNat < fuel) (hheap : InHeap SIZE s t p)
    (hl : l ≤ t) (hr : s ≤ r) (hrep : Represents tree.nodes s t p f) :
    Ends (update fuel l r c s t p) tree fun _ tree' =>
      Represents tree'.nodes s t p (addOn l r c f) ∧
        Store.SameOutside p tree.nodes tree'.nodes := by
  induction fuel generalizing s t p tree f with
  | zero => omega
  | succ fuel ih =>
      rw [update]
      apply ends_ite
      · intro hinside
        refine ends_bind (ends_addD hheap.high ?_)
        intro tree₁ h₁ _
        refine ends_addB hheap.high ?_
        intro tree₂ h₂ _
        have hadd : tree₂.nodes = tree.nodes.add p ((t - s + 1) • c) c := by
          rw [h₂, h₁]
          rfl
        rw [hadd]
        refine ⟨(hrep.add hheap.low c).congr ?_, .add p _ _ _⟩
        intro i hi hi'
        exact (addOn_inside (by omega) (by omega)).symm
      · intro hpart
        have hlt := hheap.lt_of_part hl hr hpart
        have hmid := le_mid hlt
        have hmid' := mid_lt hlt
        rw [shift_eq_mid]
        refine ends_bind (ends_readB hheap.high ?_)
        refine ends_seq _ (ends_passOn hheap hlt hrep (by omega)) ?_
        intro _ tree₁ hpassed
        refine ends_seq _ (ends_updateLeft hheap hpassed.children fun hlm =>
          ih (by omega) (hheap.left hlt) hlm hr hpassed.children.left) ?_
        rintro _ tree₂ ⟨hchildren, hsame₂⟩
        refine ends_seq _ (ends_updateRight hheap hchildren fun hrm =>
          ih (by omega) (hheap.right hlt) hl (by omega) hchildren.right) ?_
        rintro _ tree₃ ⟨hchildren, hsame₃⟩
        refine (ends_join hheap hlt hchildren).mono ?_
        rintro _ tree₄ ⟨hrep, hsame₄, -, -⟩
        exact ⟨hrep, ((hpassed.same.trans hsame₂).trans hsame₃).trans hsame₄⟩

/-- A query leaves the elements as they are, with their marks further down. -/
structure Queried (s t : Int) (p : Nat) (f : Int → Int) (tree tree' : TiredTree SIZE) :
    Prop where
  represents : Represents tree'.nodes s t p f
  same : Store.SameOutside p tree.nodes tree'.nodes
  unmarked : (∀ q, tree.nodes.mark q = 0) → tree' = tree

theorem Passed.left {tree₁ tree₂ : TiredTree SIZE} (h : Passed s t p f tree tree₁)
    (hp : 1 ≤ p) (hleft : Queried s (mid s t) (p * 2) f tree₁ tree₂) :
    Passed s t p f tree tree₂ where
  children := h.children.of_left hp hleft.same hleft.represents
  same := h.same.trans hleft.same.of_left
  sum := (hleft.same p (not_below_left hp)).1.trans h.sum
  unmarked hmarks := by
    have heq := h.unmarked hmarks
    exact (hleft.unmarked (heq ▸ hmarks)).trans heq

theorem Passed.right {tree₁ tree₂ : TiredTree SIZE} (h : Passed s t p f tree tree₁)
    (hp : 1 ≤ p) (hright : Queried (mid s t + 1) t (p * 2 + 1) f tree₁ tree₂) :
    Passed s t p f tree tree₂ where
  children := h.children.of_right hp hright.same hright.represents
  same := h.same.trans hright.same.of_right
  sum := (hright.same p not_below_right).1.trans h.sum
  unmarked hmarks := by
    have heq := h.unmarked hmarks
    exact (hright.unmarked (heq ▸ hmarks)).trans heq

theorem Passed.queried {tree' : TiredTree SIZE} (h : Passed s t p f tree tree') (hlt : s < t)
    (hrep : Represents tree.nodes s t p f) : Queried s t p f tree tree' where
  represents := h.children.represents hlt (h.sum.trans hrep.sum_eq)
  same := h.same
  unmarked := h.unmarked

theorem getsum2_ends (hfuel : (t - s).toNat < fuel) (hheap : InHeap SIZE s t p) (hl : l ≤ t)
    (hr : s ≤ r) (hrep : Represents tree.nodes s t p f) :
    Ends (getsum2 fuel l r s t p) tree fun sum tree' =>
      sum = clippedSum f l r s t ∧ Queried s t p f tree tree' := by
  induction fuel generalizing s t p tree f with
  | zero => omega
  | succ fuel ih =>
      rw [getsum2]
      apply ends_ite
      · intro hinside
        refine ends_readD hheap.high ⟨?_, hrep, .refl p _, fun _ => rfl⟩
        rw [hrep.sum_eq, clippedSum_contained f hinside.1 hinside.2]
      · intro hpart
        have hlt := hheap.lt_of_part hl hr hpart
        have hmid := le_mid hlt
        have hmid' := mid_lt hlt
        rw [shift_eq_mid]
        refine ends_bind (ends_readB hheap.high ?_)
        refine ends_seq _ (ends_passOn hheap hlt hrep Iff.rfl) ?_
        intro _ tree₁ hpassed
        refine ends_sumHalves (Passed s t p f tree) hlt ?_ hpassed ?_
          fun _ h => h.queried hlt hrep
        · intro hlm
          refine (ih (by omega) (hheap.left hlt) hlm hr hpassed.children.left).mono ?_
          rintro sum tree₂ ⟨hsum, hleft⟩
          exact ⟨hsum, hpassed.left hheap.low hleft⟩
        · intro hrm tree₂ hpassed
          refine (ih (by omega) (hheap.right hlt) hl (by omega) hpassed.children.right).mono ?_
          rintro sum tree₃ ⟨hsum, hright⟩
          exact ⟨hsum, (hpassed.right hheap.low hright).queried hlt hrep⟩

end Operations

end TiredTree

end MuduoRpc
