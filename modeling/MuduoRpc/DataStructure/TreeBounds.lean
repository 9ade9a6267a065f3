import MuduoRpc.DataStructure.ArrayRefinement
import MuduoRpc.Lib.Tracing

/-!
What the recursions of `tiredtree.cc` touch. The functions are written down once more with
a note at each call and at each access to an array; without the notes they are the
functions of the model. Whatever the arrays hold, a call on the root ends, its segments
are not empty and its indices lie in the arrays.
-/

namespace MuduoRpc.TiredTree

open TotalRun Tracing LazySum

/-- A call for the segment `[s, t]`, or an access to an element of an array. -/
inductive Access
  | visit (s t : Int)
  | a (s : Int)
  | d (p : Nat)
  | b (p : Nat)
deriving DecidableEq, Repr

/-- `SIZE << 2` is the length of `d` and `b`, whose element 0 is not used. -/
def Access.InBounds (SIZE : Nat) : Access → Prop
  | .visit s t => s ≤ t
  | .a s => 0 ≤ s ∧ s < SIZE
  | .d p | .b p => 1 ≤ p ∧ p < 4 * SIZE

namespace Noted

variable {SIZE : Nat}

abbrev Run (SIZE : Nat) := Traced (TiredTree SIZE) Access

def readA (s : Int) : Run SIZE Int := do
  note (.a s)
  silently (TiredTree.readA s)

def readD (p : Nat) : Run SIZE Int := do
  note (.d p)
  silently (TiredTree.readD p)

def readB (p : Nat) : Run SIZE Int := do
  note (.b p)
  silently (TiredTree.readB p)

def writeD (p : Nat) (x : Int) : Run SIZE Unit := do
  note (.d p)
  silently (TiredTree.writeD p x)

def writeB (p : Nat) (x : Int) : Run SIZE Unit := do
  note (.b p)
  silently (TiredTree.writeB p x)

def addD (p : Nat) (x : Int) : Run SIZE Unit := do
  writeD p ((← readD p) + x)

def addB (p : Nat) (x : Int) : Run SIZE Unit := do
  writeB p ((← readB p) + x)

def build : Nat → Int → Int → Nat → Run SIZE Unit
  | 0, _, _, _ => failure
  | fuel + 1, s, t, p => do
      note (.visit s t)
      if s = t then
        writeD p (← readA s)
      else
        let m := s + ((t - s) >>> (1 : Nat))
        build fuel s m (p * 2)
        build fuel (m + 1) t (p * 2 + 1)
        writeD p ((← readD (p * 2)) + (← readD (p * 2 + 1)))

def getsum1 : Nat → Int → Int → Int → Int → Nat → Run SIZE Int
  | 0, _, _, _, _, _ => failure
  | fuel + 1, l, r, s, t, p => do
      note (.visit s t)
      if l ≤ s ∧ t ≤ r then
        readD p
      else
        let m := s + ((t - s) >>> (1 : Nat))
        let sum ← (if l ≤ m then getsum1 fuel l r s m (p * 2) else pure 0)
        if r > m then
          return sum + (← getsum1 fuel l r (m + 1) t (p * 2 + 1))
        else
          return sum

def pushdown (s t m : Int) (p : Nat) : Run SIZE Unit := do
  addD (p * 2) ((← readB p) * (m - s + 1))
  addD (p * 2 + 1) ((← readB p) * (t - m))
  addB (p * 2) (← readB p)
  addB (p * 2 + 1) (← readB p)
  writeB p 0

def update : Nat → Int → Int → Int → Int → Int → Nat → Run SIZE Unit
  | 0, _, _, _, _, _, _ => failure
  | fuel + 1, l, r, c, s, t, p => do
      note (.visit s t)
      if l ≤ s ∧ t ≤ r then
        addD p ((t - s + 1) * c)
        addB p c
      else
        let m := s + ((t - s) >>> (1 : Nat))
        onlyIf ((← readB p) ≠ 0 ∧ s ≠ t) (pushdown s t m p)
        onlyIf (l ≤ m) (update fuel l r c s m (p * 2))
        onlyIf (r > m) (update fuel l r c (m + 1) t (p * 2 + 1))
        writeD p ((← readD (p * 2)) + (← readD (p * 2 + 1)))

def getsum2 : Nat → Int → Int → Int → Int → Nat → Run SIZE Int
  | 0, _, _, _, _, _ => failure
  | fuel + 1, l, r, s, t, p => do
      note (.visit s t)
      if l ≤ s ∧ t ≤ r then
        readD p
      else
        let m := s + ((t - s) >>> (1 : Nat))
        onlyIf ((← readB p) ≠ 0) (pushdown s t m p)
        let sum ← (if l ≤ m then getsum2 fuel l r s m (p * 2) else pure 0)
        if r > m then
          return sum + (← getsum2 fuel l r (m + 1) t (p * 2 + 1))
        else
          return sum

section Erasure

theorem readA_erases (s : Int) : Erases (readA s : Run SIZE Int) (TiredTree.readA s) :=
  erases_note (erases_silently _)

theorem readD_erases (p : Nat) : Erases (readD p : Run SIZE Int) (TiredTree.readD p) :=
  erases_note (erases_silently _)

theorem readB_erases (p : Nat) : Erases (readB p : Run SIZE Int) (TiredTree.readB p) :=
  erases_note (erases_silently _)

theorem writeD_erases (p : Nat) (x : Int) :
    Erases (writeD p x : Run SIZE Unit) (TiredTree.writeD p x) :=
  erases_note (erases_silently _)

theorem writeB_erases (p : Nat) (x : Int) :
    Erases (writeB p x : Run SIZE Unit) (TiredTree.writeB p x) :=
  erases_note (erases_silently _)

theorem addD_erases (p : Nat) (x : Int) :
    Erases (addD p x : Run SIZE Unit) (TiredTree.addD p x) :=
  erases_bind (readD_erases p) fun _ => writeD_erases p _

theorem addB_erases (p : Nat) (x : Int) :
    Erases (addB p x : Run SIZE Unit) (TiredTree.addB p x) :=
  erases_bind (readB_erases p) fun _ => writeB_erases p _

theorem join_erases (p : Nat) :
    Erases (do writeD p ((← readD (p * 2)) + (← readD (p * 2 + 1))) : Run SIZE Unit)
      (do TiredTree.writeD p ((← TiredTree.readD (p * 2)) + (← TiredTree.readD (p * 2 + 1)))) :=
  erases_bind (readD_erases _) fun _ => erases_bind (readD_erases _) fun _ => writeD_erases p _

theorem pushdown_erases (s t m : Int) (p : Nat) :
    Erases (pushdown s t m p : Run SIZE Unit) (TiredTree.pushdown s t m p) := by
  refine erases_bind (readB_erases p) fun _ => erases_bind (addD_erases _ _) fun _ => ?_
  refine erases_bind (readB_erases p) fun _ => erases_bind (addD_erases _ _) fun _ => ?_
  refine erases_bind (readB_erases p) fun _ => erases_bind (addB_erases _ _) fun _ => ?_
  refine erases_bind (readB_erases p) fun _ => erases_bind (addB_erases _ _) fun _ => ?_
  exact writeB_erases p 0

theorem build_erases (fuel : Nat) (s t : Int) (p : Nat) :
    Erases (build fuel s t p : Run SIZE Unit) (TiredTree.build fuel s t p) := by
  induction fuel generalizing s t p with
  | zero => exact erases_failure
  | succ fuel ih =>
      rw [build, TiredTree.build]
      refine erases_note (erases_ite ?_ ?_)
      · exact erases_bind (readA_erases s) fun _ => writeD_erases p _
      · exact erases_bind (ih _ _ _) fun _ => erases_bind (ih _ _ _) fun _ => join_erases p

theorem sumHalves_erases {cond cond' : Prop} [Decidable cond] [Decidable cond']
    {left right : Run SIZE Int} {left' right' : TiredTree.Run SIZE Int}
    (hleft : Erases left left') (hright : Erases right right') :
    Erases (do
        let sum ← (if cond then left else pure 0)
        if cond' then return sum + (← right) else return sum)
      (do
        let sum ← (if cond then left' else pure 0)
        if cond' then return sum + (← right') else return sum) := by
  refine erases_bind (erases_ite hleft (erases_pure 0)) fun sum => ?_
  exact erases_ite (erases_bind hright fun _ => erases_pure _) (erases_pure sum)

theorem getsum1_erases (fuel : Nat) (l r s t : Int) (p : Nat) :
    Erases (getsum1 fuel l r s t p : Run SIZE Int) (TiredTree.getsum1 fuel l r s t p) := by
  induction fuel generalizing s t p with
  | zero => exact erases_failure
  | succ fuel ih =>
      rw [getsum1, TiredTree.getsum1]
      refine erases_note (erases_ite (readD_erases p) ?_)
      exact sumHalves_erases (ih _ _ _) (ih _ _ _)

theorem update_erases (fuel : Nat) (l r c s t : Int) (p : Nat) :
    Erases (update fuel l r c s t p : Run SIZE Unit) (TiredTree.update fuel l r c s t p) := by
  induction fuel generalizing s t p with
  | zero => exact erases_failure
  | succ fuel ih =>
      rw [update, TiredTree.update]
      refine erases_note (erases_ite ?_ ?_)
      · exact erases_bind (addD_erases p _) fun _ => addB_erases p c
      · refine erases_bind (readB_erases p) fun _ => ?_
        refine erases_bind (erases_onlyIf (pushdown_erases _ _ _ p)) fun _ => ?_
        refine erases_bind (erases_onlyIf (ih _ _ _)) fun _ => ?_
        exact erases_bind (erases_onlyIf (ih _ _ _)) fun _ => join_erases p

theorem getsum2_erases (fuel : Nat) (l r s t : Int) (p : Nat) :
    Erases (getsum2 fuel l r s t p : Run SIZE Int) (TiredTree.getsum2 fuel l r s t p) := by
  induction fuel generalizing s t p with
  | zero => exact erases_failure
  | succ fuel ih =>
      rw [getsum2, TiredTree.getsum2]
      refine erases_note (erases_ite (readD_erases p) ?_)
      refine erases_bind (readB_erases p) fun _ => ?_
      refine erases_bind (erases_onlyIf (pushdown_erases _ _ _ p)) fun _ => ?_
      exact sumHalves_erases (ih _ _ _) (ih _ _ _)

end Erasure

section Safety

variable {fuel : Nat} {l r s t : Int} {p : Nat}

/-- `p` is a node of the tree. -/
abbrev IsNode (SIZE p : Nat) : Prop := 1 ≤ p ∧ p < SIZE <<< 2

theorem inBounds_of_isNode (h : IsNode SIZE p) : 1 ≤ p ∧ p < 4 * SIZE := by
  obtain ⟨hlow, hhigh⟩ := h
  rw [Nat.shiftLeft_eq] at hhigh
  omega

theorem isNode (hheap : InHeap SIZE s t p) : IsNode SIZE p := ⟨hheap.low, hheap.high⟩

theorem readA_safe (hs : 0 ≤ s) (ht : s < SIZE) :
    Safe (Access.InBounds SIZE) (readA s : Run SIZE Int) :=
  safe_note ⟨hs, ht⟩ (safe_silently fun _ => ends_readA hs ht trivial)

theorem readD_safe (h : IsNode SIZE p) : Safe (Access.InBounds SIZE) (readD p : Run SIZE Int) :=
  safe_note (inBounds_of_isNode h) (safe_silently fun _ => ends_readD h.2 trivial)

theorem readB_safe (h : IsNode SIZE p) : Safe (Access.InBounds SIZE) (readB p : Run SIZE Int) :=
  safe_note (inBounds_of_isNode h) (safe_silently fun _ => ends_readB h.2 trivial)

theorem writeD_safe (h : IsNode SIZE p) (x : Int) :
    Safe (Access.InBounds SIZE) (writeD p x : Run SIZE Unit) :=
  safe_note (inBounds_of_isNode h)
    (safe_silently fun _ => ends_writeD h.2 fun _ _ _ => trivial)

theorem writeB_safe (h : IsNode SIZE p) (x : Int) :
    Safe (Access.InBounds SIZE) (writeB p x : Run SIZE Unit) :=
  safe_note (inBounds_of_isNode h)
    (safe_silently fun _ => ends_writeB h.2 fun _ _ _ => trivial)

theorem addD_safe (h : IsNode SIZE p) (x : Int) :
    Safe (Access.InBounds SIZE) (addD p x : Run SIZE Unit) :=
  safe_bind (readD_safe h) fun _ => writeD_safe h _

theorem addB_safe (h : IsNode SIZE p) (x : Int) :
    Safe (Access.InBounds SIZE) (addB p x : Run SIZE Unit) :=
  safe_bind (readB_safe h) fun _ => writeB_safe h _

theorem join_safe (hheap : InHeap SIZE s t p) (hlt : s < t) :
    Safe (Access.InBounds SIZE)
      (do writeD p ((← readD (p * 2)) + (← readD (p * 2 + 1))) : Run SIZE Unit) :=
  safe_bind (readD_safe (isNode (hheap.left hlt))) fun _ =>
    safe_bind (readD_safe (isNode (hheap.right hlt))) fun _ => writeD_safe (isNode hheap) _

theorem pushdown_safe (hheap : InHeap SIZE s t p) (hlt : s < t) (m : Int) :
    Safe (Access.InBounds SIZE) (pushdown s t m p : Run SIZE Unit) := by
  have hnode := isNode hheap
  have hleft := isNode (hheap.left hlt)
  have hright := isNode (hheap.right hlt)
  refine safe_bind (readB_safe hnode) fun _ => safe_bind (addD_safe hleft _) fun _ => ?_
  refine safe_bind (readB_safe hnode) fun _ => safe_bind (addD_safe hright _) fun _ => ?_
  refine safe_bind (readB_safe hnode) fun _ => safe_bind (addB_safe hleft _) fun _ => ?_
  refine safe_bind (readB_safe hnode) fun _ => safe_bind (addB_safe hright _) fun _ => ?_
  exact writeB_safe hnode 0

theorem build_safe (hfuel : (t - s).toNat < fuel) (hheap : InHeap SIZE s t p) (hs : 0 ≤ s)
    (ht : t < SIZE) : Safe (Access.InBounds SIZE) (build fuel s t p : Run SIZE Unit) := by
  induction fuel generalizing s t p with
  | zero => omega
  | succ fuel ih =>
      rw [build]
      refine safe_note hheap.le (safe_ite ?_ ?_)
      · rintro rfl
        exact safe_bind (readA_safe hs ht) fun _ => writeD_safe (isNode hheap) _
      · intro hne
        have hlt : s < t := by
          have hle := hheap.le
          omega
        have hmid := le_mid hlt
        have hmid' := mid_lt hlt
        rw [shift_eq_mid]
        refine safe_bind (ih (by omega) (hheap.left hlt) hs (by omega)) fun _ => ?_
        refine safe_bind (ih (by omega) (hheap.right hlt) (by omega) ht) fun _ => ?_
        exact join_safe hheap hlt

theorem sumHalves_safe {ok : Access → Prop} {cond cond' : Prop} [Decidable cond]
    [Decidable cond'] {left right : Run SIZE Int} (hleft : cond → Safe ok left)
    (hright : cond' → Safe ok right) :
    Safe ok (do
      let sum ← (if cond then left else pure 0)
      if cond' then return sum + (← right) else return sum) := by
  refine safe_bind (safe_ite hleft fun _ => safe_pure 0) fun sum => ?_
  exact safe_ite (fun h => safe_bind (hright h) fun _ => safe_pure _) fun _ => safe_pure sum

theorem getsum1_safe (hfuel : (t - s).toNat < fuel) (hheap : InHeap SIZE s t p) (hl : l ≤ t)
    (hr : s ≤ r) : Safe (Access.InBounds SIZE) (getsum1 fuel l r s t p : Run SIZE Int) := by
  induction fuel generalizing s t p with
  | zero => omega
  | succ fuel ih =>
      rw [getsum1]
      refine safe_note hheap.le (safe_ite (fun _ => readD_safe (isNode hheap)) ?_)
      intro hpart
      have hlt := hheap.lt_of_part hl hr hpart
      have hmid := le_mid hlt
      have hmid' := mid_lt hlt
      rw [shift_eq_mid]
      refine sumHalves_safe ?_ ?_
      · intro hlm
        exact ih (by omega) (hheap.left hlt) hlm hr
      · intro hrm
        exact ih (by omega) (hheap.right hlt) hl hrm

theorem update_safe {c : Int} (hfuel : (t - s).toNat < fuel) (hheap : InHeap SIZE s t p)
    (hl : l ≤ t) (hr : s ≤ r) :
    Safe (Access.InBounds SIZE) (update fuel l r c s t p : Run SIZE Unit) := by
  induction fuel generalizing s t p with
  | zero => omega
  | succ fuel ih =>
      rw [update]
      refine safe_note hheap.le (safe_ite ?_ ?_)
      · intro _
        exact safe_bind (addD_safe (isNode hheap) _) fun _ => addB_safe (isNode hheap) c
      · intro hpart
        have hlt := hheap.lt_of_part hl hr hpart
        have hmid := le_mid hlt
        have hmid' := mid_lt hlt
        rw [shift_eq_mid]
        refine safe_bind (readB_safe (isNode hheap)) fun _ => ?_
        refine safe_bind (safe_onlyIf fun _ => pushdown_safe hheap hlt _) fun _ => ?_
        refine safe_bind (safe_onlyIf fun hlm => ?_) fun _ => ?_
        · exact ih (by omega) (hheap.left hlt) hlm hr
        refine safe_bind (safe_onlyIf fun hrm => ?_) fun _ => ?_
        · exact ih (by omega) (hheap.right hlt) hl hrm
        exact join_safe hheap hlt

theorem getsum2_safe (hfuel : (t - s).toNat < fuel) (hheap : InHeap SIZE s t p) (hl : l ≤ t)
    (hr : s ≤ r) : Safe (Access.InBounds SIZE) (getsum2 fuel l r s t p : Run SIZE Int) := by
  induction fuel generalizing s t p with
  | zero => omega
  | succ fuel ih =>
      rw [getsum2]
      refine safe_note hheap.le (safe_ite (fun _ => readD_safe (isNode hheap)) ?_)
      intro hpart
      have hlt := hheap.lt_of_part hl hr hpart
      have hmid := le_mid hlt
      have hmid' := mid_lt hlt
      rw [shift_eq_mid]
      refine safe_bind (readB_safe (isNode hheap)) fun _ => ?_
      refine safe_bind (safe_onlyIf fun _ => pushdown_safe hheap hlt _) fun _ => ?_
      refine sumHalves_safe ?_ ?_
      · intro hlm
        exact ih (by omega) (hheap.left hlt) hlm hr
      · intro hrm
        exact ih (by omega) (hheap.right hlt) hl hrm

end Safety

end Noted

/-- The call ends, and what it notes on its way is in bounds. -/
def StaysInBounds {SIZE : Nat} {α : Type} (noted : Noted.Run SIZE α) (call : Run SIZE α)
    (tree : TiredTree SIZE) : Prop :=
  ∃ result tree' accesses, noted.run (tree, []) = some (result, tree', accesses) ∧
    call.run tree = some (result, tree') ∧ ∀ access ∈ accesses, access.InBounds SIZE

/-- Every call on the root ends, from any contents of the arrays; the segments that it
visits are not empty, and each index of `d` and `b` that it reads or writes is at least 1
and less than four times the size. -/
theorem root_calls_stay_in_bounds {SIZE : Nat} (hsize : 2 ≤ SIZE) (tree : TiredTree SIZE)
    (fuel : Nat) (hfuel : SIZE ≤ fuel) :
    StaysInBounds (Noted.build fuel 1 (SIZE - 1) 1) (build fuel 1 (SIZE - 1) 1) tree ∧
    ∀ l r, Meets SIZE l r →
      StaysInBounds (Noted.getsum1 fuel l r 1 (SIZE - 1) 1)
        (getsum1 fuel l r 1 (SIZE - 1) 1) tree ∧
      StaysInBounds (Noted.getsum2 fuel l r 1 (SIZE - 1) 1)
        (getsum2 fuel l r 1 (SIZE - 1) 1) tree ∧
      ∀ c, StaysInBounds (Noted.update fuel l r c 1 (SIZE - 1) 1)
        (update fuel l r c 1 (SIZE - 1) 1) tree := by
  have hroot : InHeap SIZE 1 (SIZE - 1) 1 := .root hsize
  have hwidth : ((SIZE : Int) - 1 - 1).toNat < fuel := by omega
  refine ⟨?_, ?_⟩
  · exact (Noted.build_safe hwidth hroot (by omega) (by omega)).trace
      (Noted.build_erases _ _ _ _) tree
  · rintro l r ⟨_, hl, hr⟩
    refine ⟨?_, ?_, ?_⟩
    · exact (Noted.getsum1_safe hwidth hroot hl hr).trace (Noted.getsum1_erases _ _ _ _ _ _) tree
    · exact (Noted.getsum2_safe hwidth hroot hl hr).trace (Noted.getsum2_erases _ _ _ _ _ _) tree
    · intro c
      exact (Noted.update_safe hwidth hroot hl hr).trace (Noted.update_erases _ _ _ _ _ _ _) tree

/-- A query over three of four elements that passes on a mark of the root. -/
theorem root_calls_stay_in_bounds_marked :
    let tree : TiredTree 5 :=
      { new #v[0, 1, 2, 3, 4] with b := (Vector.replicate 20 0).set 1 7 }
    StaysInBounds (Noted.getsum2 5 2 4 1 4 1) (getsum2 5 2 4 1 4 1) tree := by
  intro tree
  have hrange : Meets 5 2 4 := ⟨by decide, by decide, by decide⟩
  exact ((root_calls_stay_in_bounds (by decide) tree 5 (by decide)).2 2 4 hrange).2.1

end MuduoRpc.TiredTree
