import Mathlib.Tactic.Common

/-!
Total correctness of programs over a state that may stop without a result: a program
ends, and what holds then is a relation between its result and the state it leaves.
-/

namespace TotalRun

universe u

variable {σ α β : Type u}

/-- The run from `s` has a result, and result and state meet the postcondition. -/
def Ends (program : StateT σ Option α) (s : σ) (post : α → σ → Prop) : Prop :=
  ∃ result s', program.run s = some (result, s') ∧ post result s'

variable {s : σ} {program : StateT σ Option α} {post post' : α → σ → Prop}

theorem Ends.mono (h : Ends program s post) (himp : ∀ result s', post result s' → post' result s') :
    Ends program s post' := by
  obtain ⟨result, s', hrun, hpost⟩ := h
  exact ⟨result, s', hrun, himp result s' hpost⟩

/-- A run has one result. -/
theorem Ends.and (h : Ends program s post) (h' : Ends program s post') :
    Ends program s fun result s' => post result s' ∧ post' result s' := by
  obtain ⟨result, s', hrun, hpost⟩ := h
  obtain ⟨_, _, hrun', hpost'⟩ := h'
  obtain ⟨rfl, rfl⟩ := Prod.mk.inj (Option.some.inj (hrun.symm.trans hrun'))
  exact ⟨result, s', hrun, hpost, hpost'⟩

theorem ends_pure {result : α} (h : post result s) : Ends (pure result) s post :=
  ⟨result, s, rfl, h⟩

theorem ends_bind {rest : α → StateT σ Option β} {post : β → σ → Prop}
    (h : Ends program s fun result s' => Ends (rest result) s' post) :
    Ends (program >>= rest) s post := by
  obtain ⟨first, s', hfirst, result, s'', hrest, hpost⟩ := h
  refine ⟨result, s'', ?_, hpost⟩
  rw [StateT.run_bind, hfirst]
  exact hrest

/-- With what holds between the two parts. -/
theorem ends_seq {rest : α → StateT σ Option β} {post : β → σ → Prop}
    (between : α → σ → Prop) (h : Ends program s between)
    (hrest : ∀ result s', between result s' → Ends (rest result) s' post) :
    Ends (program >>= rest) s post :=
  ends_bind (h.mono hrest)

theorem ends_ite {cond : Prop} [Decidable cond] {program' : StateT σ Option α}
    (htrue : cond → Ends program s post) (hfalse : ¬cond → Ends program' s post) :
    Ends (if cond then program else program') s post := by
  split
  case isTrue h => exact htrue h
  case isFalse h => exact hfalse h

/-- An `if` without an `else`. -/
def onlyIf (cond : Prop) [Decidable cond] (program : StateT σ Option PUnit) :
    StateT σ Option PUnit :=
  if cond then program else pure ⟨⟩

theorem ends_onlyIf {cond : Prop} [Decidable cond] {program : StateT σ Option PUnit}
    {post : PUnit → σ → Prop} (htrue : cond → Ends program s post) (hfalse : ¬cond → post ⟨⟩ s) :
    Ends (onlyIf cond program) s post :=
  ends_ite htrue fun h => ends_pure (hfalse h)

end TotalRun
