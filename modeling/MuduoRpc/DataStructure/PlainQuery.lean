import MuduoRpc.DataStructure.ArrayRefinement

/-!
The two queries of `tiredtree.cc` against each other. `getsum1` passes no marks on, and so
misses those that wait over the nodes it reads. `getsum2` brings them down to these nodes
first; afterwards both queries give the same answer.
-/

namespace MuduoRpc.TiredTree

open TotalRun LazySum HeapIndex

variable {SIZE : Nat} {tree : TiredTree SIZE} {fuel : Nat} {l r s t : Int} {p : Nat}
  {f : Int → Int}

/-- `getsum1` sums the elements without the marks that wait over them. -/
theorem getsum1_pending (hfuel : (t - s).toNat < fuel) (hheap : InHeap SIZE s t p) (hl : l ≤ t)
    (hr : s ≤ r) (hrep : Represents tree.nodes s t p f) :
    Ends (getsum1 fuel l r s t p) tree fun sum tree' =>
      sum = clippedSum (fun i => f i - tree.nodes.pending l r s t p i) l r s t ∧ tree' = tree := by
  induction fuel generalizing s t p f with
  | zero => omega
  | succ fuel ih =>
      rw [getsum1]
      apply ends_ite
      · intro hinside
        refine ends_readD hheap.high ⟨?_, rfl⟩
        simp only [Store.pending_inside hinside.1 hinside.2, sub_zero]
        rw [hrep.sum_eq, clippedSum_contained f hinside.1 hinside.2]
      · intro hpart
        have hlt := hheap.lt_of_part hl hr hpart
        have hmid := le_mid hlt
        have hmid' := mid_lt hlt
        obtain ⟨hleft, hright⟩ := hrep.halves hlt
        rw [shift_eq_mid]
        refine ends_sumHalves (· = tree) hlt ?_ rfl ?_ fun _ h => h
        · intro hlm
          refine (ih (by omega) (hheap.left hlt) hlm hr hleft).mono ?_
          rintro sum tree' ⟨rfl, rfl⟩
          refine ⟨clippedSum_congr fun i _ hi _ _ => ?_, rfl⟩
          rw [Store.pending_left hlt hpart hi, sub_sub]
        · rintro hrm _ rfl
          refine (ih (by omega) (hheap.right hlt) hl (by omega) hright).mono ?_
          rintro sum tree' ⟨rfl, rfl⟩
          refine ⟨clippedSum_congr fun i hi _ _ _ => ?_, rfl⟩
          rw [Store.pending_right hlt hpart (by omega), sub_sub]

/-- No mark waits over the nodes that a query of `[l, r]` reads. -/
def Settled (l r s t : Int) (p : Nat) (tree : TiredTree SIZE) : Prop :=
  ∀ i, s ≤ i → i ≤ t → l ≤ i → i ≤ r → tree.nodes.pending l r s t p i = 0

theorem Settled.frame {tree' : TiredTree SIZE} (h : Settled l r s t p tree)
    (hsame : Store.AgreeOn (Below p) tree.nodes tree'.nodes) : Settled l r s t p tree' := by
  intro i hs ht hl hr
  rw [Store.pending_frame hsame]
  exact h i hs ht hl hr

theorem Settled.of_halves (hlt : s < t) (hpart : ¬(l ≤ s ∧ t ≤ r))
    (hmark : tree.nodes.mark p = 0) (hleft : Settled l r s (mid s t) (p * 2) tree)
    (hright : Settled l r (mid s t + 1) t (p * 2 + 1) tree) : Settled l r s t p tree := by
  intro i hs ht hl hr
  by_cases hi : i ≤ mid s t
  · rw [Store.pending_left hlt hpart hi, hmark, hleft i hs hi hl hr, add_zero]
  · rw [Store.pending_right hlt hpart (by omega), hmark, hright i (by omega) ht hl hr, add_zero]

/-- The mark of a node that is gone through is passed on, if there is one. -/
theorem ends_clearMark (hheap : InHeap SIZE s t p) (hlt : s < t) :
    Ends (onlyIf (tree.nodes.mark p ≠ 0) (pushdown s t (mid s t) p)) tree fun _ tree' =>
      tree'.nodes.mark p = 0 ∧ Store.SameOutside p tree.nodes tree'.nodes := by
  refine ends_onlyIf ?_ ?_
  · intro _
    refine ends_pushdown hheap.low (hheap.children_high hlt) ?_
    intro tree' h
    rw [h]
    exact ⟨by simp [Store.push], .push s t p _⟩
  · intro hkept
    exact ⟨not_not.mp hkept, .refl p _⟩

theorem getsum2_settles (hfuel : (t - s).toNat < fuel) (hheap : InHeap SIZE s t p) (hl : l ≤ t)
    (hr : s ≤ r) :
    Ends (getsum2 fuel l r s t p) tree fun _ tree' =>
      Settled l r s t p tree' ∧ Store.SameOutside p tree.nodes tree'.nodes := by
  induction fuel generalizing s t p tree with
  | zero => omega
  | succ fuel ih =>
      rw [getsum2]
      apply ends_ite
      · intro hinside
        refine ends_readD hheap.high ⟨fun i _ _ _ _ => ?_, .refl p _⟩
        exact Store.pending_inside hinside.1 hinside.2
      · intro hpart
        have hlt := hheap.lt_of_part hl hr hpart
        have hmid := le_mid hlt
        have hmid' := mid_lt hlt
        rw [shift_eq_mid]
        refine ends_bind (ends_readB hheap.high ?_)
        refine ends_seq _ (ends_clearMark hheap hlt) ?_
        rintro _ tree₁ ⟨hmark₁, hsame₁⟩
        refine ends_seq (fun _ tree₂ => tree₂.nodes.mark p = 0 ∧
          Store.SameOutside p tree.nodes tree₂.nodes ∧
          Settled l r s (mid s t) (p * 2) tree₂) (ends_ite ?_ ?_) ?_
        · intro hlm
          refine (ih (by omega) (hheap.left hlt) hlm hr).mono ?_
          rintro _ tree₂ ⟨hleft, hsame₂⟩
          exact ⟨(hsame₂ p (not_below_left hheap.low)).2.trans hmark₁,
            hsame₁.trans hsame₂.of_left, hleft⟩
        · intro hlm
          exact ends_pure ⟨hmark₁, hsame₁, fun i _ hi hli _ => absurd (hli.trans hi) hlm⟩
        · rintro _ tree₂ ⟨hmark₂, hsame₂, hleft⟩
          refine ends_ite ?_ ?_
          · intro hrm
            refine ends_seq _ (ih (by omega) (hheap.right hlt) hl (by omega)) ?_
            rintro _ tree₃ ⟨hright, hsame₃⟩
            -- the right half does not touch what the left one has settled
            have hkept := hleft.frame (hsame₃.mono fun _ hbelow hbelow' =>
              not_below_right_of_left hheap.low hbelow hbelow')
            exact ends_pure ⟨.of_halves hlt hpart ((hsame₃ p not_below_right).2.trans hmark₂) hkept
              hright, hsame₂.trans hsame₃.of_right⟩
          · intro hrm
            have hright : Settled l r (mid s t + 1) t (p * 2 + 1) tree₂ :=
              fun i hi _ _ hir => absurd hir (by omega)
            exact ends_pure ⟨.of_halves hlt hpart hmark₂ hleft hright, hsame₂⟩

/-- In every state that a session leaves, `getsum1` changes nothing and misses exactly the
marks that wait over the nodes it reads. Behind a `getsum2` of the same range it gives the
sum of the array. -/
theorem getsum1_after_session (a : Vector Int SIZE) (calls : List Call) (fuel : Nat)
    (hsize : 2 ≤ SIZE) (hfuel : SIZE ≤ fuel) (hranges : ∀ call ∈ calls, call.Meets SIZE) :
    Ends (do build fuel 1 (SIZE - 1) 1; session fuel calls) (new a) fun _ tree =>
      ∀ l r, Meets SIZE l r →
        let sum := clippedSum (plainSession SIZE calls (new a).elem).2 l r 1 (SIZE - 1)
        Ends (getsum1 fuel l r 1 (SIZE - 1) 1) tree (fun answer tree' => tree' = tree ∧
          answer = sum - clippedSum (tree.nodes.pending l r 1 (SIZE - 1) 1) l r 1 (SIZE - 1)) ∧
        Ends (do let _ ← getsum2 fuel l r 1 (SIZE - 1) 1; getsum1 fuel l r 1 (SIZE - 1) 1) tree
          fun answer _ => answer = sum := by
  refine ends_seq _ (build_standsFor a hsize hfuel) ?_
  rintro _ built ⟨hbuilt, -⟩
  refine (session_standsFor hsize hfuel hranges hbuilt).mono ?_
  rintro _ tree ⟨-, h⟩ l r hrange sum
  have hdepth : ((SIZE : Int) - 1 - 1).toNat < fuel := by omega
  have hplain {tree : TiredTree SIZE} {f : Int → Int} (h : tree.StandsFor f) :=
    getsum1_pending hdepth (.root hsize) hrange.2.1 hrange.2.2 h
  constructor
  · refine (hplain h).mono ?_
    rintro _ tree' ⟨rfl, rfl⟩
    exact ⟨rfl, clippedSum_sub _ _⟩
  · refine ends_seq _ ((getsum2_standsFor hsize hfuel hrange h).and
      (getsum2_settles hdepth (.root hsize) hrange.2.1 hrange.2.2)) ?_
    rintro _ tree' ⟨⟨rfl, hqueried⟩, hsettled, -⟩
    refine (hplain hqueried.represents).mono ?_
    rintro _ _ ⟨rfl, -⟩
    refine clippedSum_congr fun i hs ht hl hr => ?_
    rw [hsettled i hs ht hl hr, sub_zero]

/-- After the update of `Test` the mark waits at the root: `getsum1` gives 9, and 12 behind
`getsum2`. -/
theorem getsum1_after_session_test : ∃ answers tree,
    (do build 5 1 4 1; session 5 [.update 1 4 1] : Run 5 _).run (new #v[0, 1, 2, 3, 4]) =
      some (answers, tree) ∧
    ((getsum1 5 2 4 1 4 1).run tree).map Prod.fst = some 9 ∧
    ((do let _ ← getsum2 5 2 4 1 4 1; getsum1 5 2 4 1 4 1 : Run 5 Int).run tree).map Prod.fst =
      some 12 := by
  obtain ⟨answers, tree, hrun, hqueries⟩ := getsum1_after_session #v[0, 1, 2, 3, 4]
    [.update 1 4 1] 5 (by decide) (by decide) (by simp [Call.Meets, Meets])
  obtain ⟨-, answer, tree', hbehind, hanswer⟩ := hqueries 2 4 (by simp [Meets])
  have hsum : answer = 12 := hanswer
  have hsession : (do build 5 1 4 1; session 5 [.update 1 4 1] : Run 5 _).run
      (new #v[0, 1, 2, 3, 4]) = some (answers, tree) := hrun
  have hmissed : ((do build 5 1 4 1; let _ ← session 5 [.update 1 4 1]; getsum1 5 2 4 1 4 1 :
      Run 5 Int).run (new #v[0, 1, 2, 3, 4])).map Prod.fst = some 9 := by
    decide +kernel
  rw [← bind_assoc, StateT.run_bind, hsession] at hmissed
  refine ⟨answers, tree, hsession, hmissed, ?_⟩
  rw [hsum] at hbehind
  exact congrArg (Option.map Prod.fst) hbehind

end MuduoRpc.TiredTree
