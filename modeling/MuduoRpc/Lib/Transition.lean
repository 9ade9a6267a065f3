import Mathlib.Logic.Relation

/-!
Labelled transition systems with an executable step. A step is a partial
function of the state and the action, so a run of any concrete system can be
evaluated; `none` means that the action is not possible in that state.

Reachability takes a guard on the pair of state and action. The trivial guard
gives all runs. Other guards restrict a result to the runs whose steps all
meet a condition.
-/

namespace Transition

structure System (σ α : Type*) where
  init : σ → Prop
  next : σ → α → Option σ

namespace System

variable {σ α : Type*} (M : System σ α)

def Step (guard : σ → α → Prop) (s s' : σ) : Prop :=
  ∃ a, guard s a ∧ M.next s a = some s'

/-- States reached from an initial state by steps that all meet the guard. -/
def ReachableVia (guard : σ → α → Prop) (s : σ) : Prop :=
  ∃ s₀, M.init s₀ ∧ Relation.ReflTransGen (M.Step guard) s₀ s

def Reachable (s : σ) : Prop :=
  M.ReachableVia (fun _ _ => True) s

variable {M} {guard : σ → α → Prop}

theorem ReachableVia.start {s : σ} (h : M.init s) : M.ReachableVia guard s :=
  ⟨s, h, .refl⟩

theorem ReachableVia.step {s s' : σ} {a : α} (h : M.ReachableVia guard s)
    (hguard : guard s a) (hnext : M.next s a = some s') :
    M.ReachableVia guard s' := by
  obtain ⟨s₀, hinit, hrun⟩ := h
  exact ⟨s₀, hinit, hrun.tail ⟨a, hguard, hnext⟩⟩

/-- The invariant rule: what holds initially and survives every allowed step
holds in every reached state. -/
theorem ReachableVia.invariant {I : σ → Prop}
    (hinit : ∀ s, M.init s → I s)
    (hstep : ∀ s a s', I s → guard s a → M.next s a = some s' → I s')
    {s : σ} (h : M.ReachableVia guard s) : I s := by
  obtain ⟨s₀, h₀, hrun⟩ := h
  induction hrun with
  | refl => exact hinit s₀ h₀
  | tail _ hlast ih =>
      obtain ⟨a, hguard, hnext⟩ := hlast
      exact hstep _ a _ ih hguard hnext

theorem ReachableVia.mono {guard' : σ → α → Prop}
    (himp : ∀ s a, guard s a → guard' s a) {s : σ}
    (h : M.ReachableVia guard s) : M.ReachableVia guard' s := by
  obtain ⟨s₀, hinit, hrun⟩ := h
  refine ⟨s₀, hinit, Relation.ReflTransGen.mono ?_ s₀ s hrun⟩
  rintro t t' ⟨a, hguard, hnext⟩
  exact ⟨a, himp t a hguard, hnext⟩

/-- The view of a component: each step is a step of the component or leaves it as it is. -/
theorem ReachableVia.project {τ β : Type*} {N : System τ β} {guard' : τ → β → Prop} (view : σ → τ)
    (hinit : ∀ s, M.init s → N.init (view s))
    (hstep : ∀ s a s', guard s a → M.next s a = some s' →
      view s' = view s ∨ ∃ b, guard' (view s) b ∧ N.next (view s) b = some (view s'))
    {s : σ} (h : M.ReachableVia guard s) : N.ReachableVia guard' (view s) := by
  apply h.invariant (I := fun s => N.ReachableVia guard' (view s))
  · exact fun s h₀ => .start (hinit s h₀)
  · intro s a s' hs hguard hnext
    rcases hstep s a s' hguard hnext with hsame | ⟨b, hb, hview⟩
    · rw [hsame]
      exact hs
    · exact hs.step hb hview

theorem ReachableVia.reachable {s : σ} (h : M.ReachableVia guard s) :
    M.Reachable s :=
  h.mono fun _ _ _ => trivial

variable (M) (guard)

/-- Execute a list of actions, refusing those the guard rules out. -/
def exec [∀ s a, Decidable (guard s a)] (s : σ) (actions : List α) : Option σ :=
  actions.foldlM (fun t a => if guard t a then M.next t a else none) s

variable {M} {guard}

theorem ReachableVia.exec [∀ s a, Decidable (guard s a)] {s s' : σ}
    {actions : List α} (h : M.ReachableVia guard s)
    (hrun : M.exec guard s actions = some s') : M.ReachableVia guard s' := by
  induction actions generalizing s with
  | nil =>
      obtain rfl : s = s' := by simpa [System.exec] using hrun
      exact h
  | cons a rest ih =>
      have hrun' : ((if guard s a then M.next s a else none) >>=
          fun t => M.exec guard t rest) = some s' := by
        simpa [System.exec, List.foldlM_cons] using hrun
      by_cases hguard : guard s a
      · rw [if_pos hguard] at hrun'
        obtain ⟨t, hnext, hrest⟩ := Option.bind_eq_some_iff.mp hrun'
        exact ih (h.step hguard hnext) hrest
      · simp [hguard] at hrun'

/-- A concrete run whose last state passes a decidable test reaches a state
with the tested property. -/
theorem exists_of_exec [∀ s a, Decidable (guard s a)] (p : σ → Prop) [DecidablePred p]
    (s₀ : σ) (actions : List α) (hinit : M.init s₀)
    (hrun : (M.exec guard s₀ actions).any (fun s => decide (p s)) = true) :
    ∃ s, M.ReachableVia guard s ∧ p s := by
  cases hs : M.exec guard s₀ actions with
  | none => simp [hs] at hrun
  | some s =>
      have hp : p s := by simpa [hs] using hrun
      exact ⟨s, (ReachableVia.start hinit).exec hs, hp⟩

end System

end Transition
