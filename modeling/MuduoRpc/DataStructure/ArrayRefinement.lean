import MuduoRpc.DataStructure.TiredTree

/-!
The tree of `tiredtree.cc` against the plain array that it stands for: after `build`, a
session of updates and queries answers as the array does to which every update is made at
once.
-/

namespace MuduoRpc.TiredTree

open TotalRun LazySum

variable {SIZE : Nat}

/-- `[l, r]` meets the segment of the root. -/
def Meets (SIZE : Nat) (l r : Int) : Prop := l ≤ r ∧ l ≤ SIZE - 1 ∧ 1 ≤ r

/-- A call on the root. -/
inductive Call
  | update (l r c : Int)
  | getsum2 (l r : Int)

namespace Call

def Meets (SIZE : Nat) : Call → Prop
  | .update l r _ => TiredTree.Meets SIZE l r
  | .getsum2 l r => TiredTree.Meets SIZE l r

def IsQuery : Call → Prop
  | .update _ _ _ => False
  | .getsum2 _ _ => True

/-- What the call does to a plain array with the elements `1` to `SIZE - 1`. -/
def plain (SIZE : Nat) : Call → (Int → Int) → List Int × (Int → Int)
  | .update l r c, f => ([], addOn (max l 1) (min r (SIZE - 1)) c f)
  | .getsum2 l r, f => ([clippedSum f l r 1 (SIZE - 1)], f)

end Call

/-- With the answers that the call gives. -/
def perform (fuel : Nat) : Call → Run SIZE (List Int)
  | .update l r c => do
      update fuel l r c 1 (SIZE - 1) 1
      return []
  | .getsum2 l r => do
      return [← getsum2 fuel l r 1 (SIZE - 1) 1]

def session (fuel : Nat) : List Call → Run SIZE (List Int)
  | [] => return []
  | call :: rest => do
      let answers ← perform fuel call
      return answers ++ (← session fuel rest)

def plainSession (SIZE : Nat) : List Call → (Int → Int) → List Int × (Int → Int)
  | [], f => ([], f)
  | call :: rest, f =>
      let (answers, g) := call.plain SIZE f
      let (later, h) := plainSession SIZE rest g
      (answers ++ later, h)

/-- The elements as the leaves and the marks over them give them. -/
def element (tree : TiredTree SIZE) (i : Int) : Int := tree.nodes.value 1 (SIZE - 1) 1 i

/-- The tree stands for the array `f`. -/
abbrev StandsFor (tree : TiredTree SIZE) (f : Int → Int) : Prop :=
  Represents tree.nodes 1 (SIZE - 1) 1 f

section Sessions

variable {tree : TiredTree SIZE} {fuel : Nat} {f : Int → Int} {l r : Int}

theorem StandsFor.element_eq (h : tree.StandsFor f) {i : Int} (hlow : 1 ≤ i)
    (hhigh : i ≤ SIZE - 1) : tree.element i = f i :=
  h.value_eq hlow hhigh

theorem build_standsFor (a : Vector Int SIZE) (hsize : 2 ≤ SIZE) (hfuel : SIZE ≤ fuel) :
    Ends (build fuel 1 (SIZE - 1) 1) (new a) fun _ tree =>
      tree.StandsFor (new a).elem ∧ ∀ q, tree.nodes.mark q = 0 := by
  have hmarks : (new a).nodes.mark = fun _ => 0 := by
    funext q
    simp [new, nodes, Vector.getElem?_replicate]
    split <;> rfl
  refine (build_ends (by omega) (.root hsize) (by omega) (by omega) hmarks).mono ?_
  intro _ tree hbuilt
  refine ⟨hbuilt.represents, fun q => ?_⟩
  rw [hbuilt.marks, hmarks]

theorem getsum2_standsFor (hsize : 2 ≤ SIZE) (hfuel : SIZE ≤ fuel) (hrange : Meets SIZE l r)
    (h : tree.StandsFor f) :
    Ends (getsum2 fuel l r 1 (SIZE - 1) 1) tree fun sum tree' =>
      sum = clippedSum f l r 1 (SIZE - 1) ∧ Queried 1 (SIZE - 1) 1 f tree tree' :=
  getsum2_ends (by omega) (.root hsize) hrange.2.1 hrange.2.2 h

theorem perform_standsFor {call : Call} (hsize : 2 ≤ SIZE) (hfuel : SIZE ≤ fuel)
    (hrange : call.Meets SIZE) (h : tree.StandsFor f) :
    Ends (perform fuel call) tree fun answers tree' =>
      answers = (call.plain SIZE f).1 ∧ tree'.StandsFor (call.plain SIZE f).2 := by
  cases call with
  | update l r c =>
      refine ends_seq _ (update_ends (by omega) (.root hsize) hrange.2.1 hrange.2.2 h) ?_
      rintro _ tree' ⟨hrep, -⟩
      refine ends_pure ⟨rfl, hrep.congr ?_⟩
      -- the array is changed on the clipped range only
      intro i hlow hhigh
      by_cases hinside : l ≤ i ∧ i ≤ r
      · rw [addOn_inside hinside.1 hinside.2]
        exact (addOn_inside (by omega) (by omega)).symm
      · rw [addOn_outside (by omega)]
        exact (addOn_outside (by omega)).symm
  | getsum2 l r =>
      refine ends_seq _ (getsum2_standsFor hsize hfuel hrange h) ?_
      rintro _ tree' ⟨rfl, hqueried⟩
      exact ends_pure ⟨rfl, hqueried.represents⟩

theorem session_standsFor {calls : List Call} (hsize : 2 ≤ SIZE) (hfuel : SIZE ≤ fuel)
    (hranges : ∀ call ∈ calls, call.Meets SIZE) (h : tree.StandsFor f) :
    Ends (session fuel calls) tree fun answers tree' =>
      answers = (plainSession SIZE calls f).1 ∧ tree'.StandsFor (plainSession SIZE calls f).2 := by
  induction calls generalizing tree f with
  | nil => exact ends_pure ⟨rfl, h⟩
  | cons call rest ih =>
      refine ends_seq _ (perform_standsFor hsize hfuel
        (hranges call List.mem_cons_self) h) ?_
      rintro _ tree₁ ⟨rfl, h₁⟩
      refine ends_seq _ (ih (fun later hlater => hranges later
        (List.mem_cons_of_mem call hlater)) h₁) ?_
      rintro _ tree₂ ⟨rfl, h₂⟩
      exact ends_pure ⟨rfl, h₂⟩

/-- Queries alone find no mark to pass on. -/
theorem session_unmarked {calls : List Call} (hsize : 2 ≤ SIZE) (hfuel : SIZE ≤ fuel)
    (hranges : ∀ call ∈ calls, call.Meets SIZE) (hqueries : ∀ call ∈ calls, call.IsQuery)
    (h : tree.StandsFor f) (hmarks : ∀ q, tree.nodes.mark q = 0) :
    Ends (session fuel calls) tree fun _ tree' => tree' = tree := by
  induction calls with
  | nil => exact ends_pure rfl
  | cons call rest ih =>
      cases call with
      | update l r c => exact (hqueries _ List.mem_cons_self).elim
      | getsum2 l r =>
          have hrange : TiredTree.Meets SIZE l r := hranges _ List.mem_cons_self
          refine ends_bind (ends_seq _ (getsum2_standsFor hsize hfuel hrange h) ?_)
          rintro _ tree₁ ⟨rfl, hqueried⟩
          obtain rfl := hqueried.unmarked hmarks
          refine ends_pure (ends_seq _ (ih ?_ ?_) ?_)
          · exact fun later hlater => hranges later (List.mem_cons_of_mem _ hlater)
          · exact fun later hlater => hqueries later (List.mem_cons_of_mem _ hlater)
          · rintro _ _ rfl
            exact ends_pure rfl

end Sessions

/-- After `build` the answers of a session are those of the array, and in every state that
a session leaves the elements are the array's. A further query changes none of them, and
as long as there was no update `getsum1` gives the sums, too. -/
theorem session_refines_array (a : Vector Int SIZE) (calls : List Call) (fuel : Nat)
    (hsize : 2 ≤ SIZE) (hfuel : SIZE ≤ fuel) (hranges : ∀ call ∈ calls, call.Meets SIZE) :
    Ends (do build fuel 1 (SIZE - 1) 1; session fuel calls) (new a) fun answers tree =>
      answers = (plainSession SIZE calls (new a).elem).1 ∧
      (∀ i : Int, 1 ≤ i → i ≤ SIZE - 1 →
        tree.element i = (plainSession SIZE calls (new a).elem).2 i) ∧
      (∀ l r, Meets SIZE l r → Ends (getsum2 fuel l r 1 (SIZE - 1) 1) tree fun _ tree' =>
        ∀ i : Int, 1 ≤ i → i ≤ SIZE - 1 → tree'.element i = tree.element i) ∧
      ((∀ call ∈ calls, call.IsQuery) → ∀ l r, Meets SIZE l r →
        Ends (getsum1 fuel l r 1 (SIZE - 1) 1) tree fun sum _ =>
          sum = clippedSum (new a).elem l r 1 (SIZE - 1)) := by
  refine ends_seq _ (build_standsFor a hsize hfuel) ?_
  rintro _ built ⟨hbuilt, hmarks⟩
  obtain ⟨answers, tree, hrun, rfl, h⟩ := session_standsFor hsize hfuel hranges hbuilt
  refine ⟨_, tree, hrun, rfl, ?_, ?_, ?_⟩
  · exact fun i => h.element_eq
  · intro l r hrange
    refine (getsum2_standsFor hsize hfuel hrange h).mono ?_
    rintro _ tree' ⟨-, hqueried⟩ i hlow hhigh
    rw [StandsFor.element_eq hqueried.represents hlow hhigh, h.element_eq hlow hhigh]
  · intro hqueries l r hrange
    obtain ⟨_, _, hrun', rfl⟩ := session_unmarked hsize hfuel hranges hqueries hbuilt hmarks
    obtain ⟨-, rfl⟩ := Prod.ext_iff.mp (Option.some.inj (hrun.symm.trans hrun'))
    exact (getsum1_ends (by omega) (.root hsize) hrange.2.1 hrange.2.2 hbuilt hmarks).mono
      fun _ _ h => h.1

/-- The session of `Test`. -/
theorem session_refines_array_test :
    ∃ tree, (do build 5 1 4 1; session 5 [.update 1 4 1, .getsum2 2 4] : Run 5 _).run
        (new #v[0, 1, 2, 3, 4]) = some ([12], tree) ∧
      tree.element 1 = 2 ∧ tree.element 4 = 5 := by
  obtain ⟨answers, tree, hrun, rfl, helements, -⟩ := session_refines_array #v[0, 1, 2, 3, 4]
    [.update 1 4 1, .getsum2 2 4] 5 (by decide) (by decide) (by simp [Call.Meets, Meets])
  exact ⟨tree, hrun, helements 1 (by decide) (by decide), helements 4 (by decide) (by decide)⟩

end MuduoRpc.TiredTree
