import MuduoRpc.Lib.TotalRun

/-!
Programs that write down what they are about to do. A traced program is a program with
notes between its parts: without the notes it is the program, and what it notes on every
run is a matter of its parts.
-/

namespace Tracing

open TotalRun

universe u

variable {σ ε α β : Type u}

/-- The state and the notes so far. -/
abbrev Traced (σ ε α : Type u) := StateT (σ × List ε) Option α

def note (e : ε) : Traced σ ε PUnit := fun s => some (⟨⟩, s.1, s.2 ++ [e])

/-- A part that notes nothing. -/
def silently (program : StateT σ Option α) : Traced σ ε α :=
  fun s => (program s.1).map fun end_ => (end_.1, end_.2, s.2)

/-- Without the notes the traced program is this one. -/
def Erases (traced : Traced σ ε α) (program : StateT σ Option α) : Prop :=
  ∀ s notes, (traced.run (s, notes)).map (fun end_ => (end_.1, end_.2.1)) = program.run s

/-- From every state the program ends, and it notes nothing but what is in order. -/
def Safe (ok : ε → Prop) (traced : Traced σ ε α) : Prop :=
  ∀ s notes, (∀ e ∈ notes, ok e) → Ends traced (s, notes) fun _ s' => ∀ e ∈ s'.2, ok e

section Erasure

variable {traced : Traced σ ε α} {program : StateT σ Option α}

theorem erases_pure (result : α) :
    Erases (pure result : Traced σ ε α) (pure result) := fun _ _ => rfl

theorem erases_failure : Erases (failure : Traced σ ε α) failure := fun _ _ => rfl

theorem erases_silently (program : StateT σ Option α) :
    Erases (silently program : Traced σ ε α) program := by
  intro s notes
  change ((program s).map fun end_ => (end_.1, end_.2, notes)).map _ = program s
  cases program s <;> rfl

theorem erases_note {e : ε} {rest : Traced σ ε α} (h : Erases rest program) :
    Erases (note e >>= fun _ => rest) program :=
  fun s notes => h s (notes ++ [e])

theorem erases_bind {rest : α → Traced σ ε β} {rest' : α → StateT σ Option β}
    (h : Erases traced program) (hrest : ∀ result, Erases (rest result) (rest' result)) :
    Erases (traced >>= rest) (program >>= rest') := by
  intro s notes
  rw [StateT.run_bind, StateT.run_bind, ← h s notes]
  cases traced.run (s, notes) with
  | none => rfl
  | some end_ => exact hrest end_.1 end_.2.1 end_.2.2

theorem erases_ite {cond : Prop} [Decidable cond] {traced' : Traced σ ε α}
    {program' : StateT σ Option α} (h : Erases traced program) (h' : Erases traced' program') :
    Erases (if cond then traced else traced') (if cond then program else program') := by
  split
  case isTrue => exact h
  case isFalse => exact h'

theorem erases_onlyIf {cond : Prop} [Decidable cond] {traced : Traced σ ε PUnit}
    {program : StateT σ Option PUnit} (h : Erases traced program) :
    Erases (onlyIf cond traced) (onlyIf cond program) :=
  erases_ite h (erases_pure _)

end Erasure

section Safety

variable {ok : ε → Prop} {traced : Traced σ ε α}

theorem safe_pure (result : α) : Safe ok (pure result : Traced σ ε α) :=
  fun _ _ hnotes => ends_pure hnotes

theorem safe_note {e : ε} {rest : Traced σ ε α} (he : ok e) (h : Safe ok rest) :
    Safe ok (note e >>= fun _ => rest) := by
  intro s notes hnotes
  refine h s (notes ++ [e]) ?_
  intro e' hmember
  rcases List.mem_append.mp hmember with hbefore | hlast
  · exact hnotes e' hbefore
  · exact List.eq_of_mem_singleton hlast ▸ he

theorem safe_silently {program : StateT σ Option α}
    (h : ∀ s, Ends program s fun _ _ => True) :
    Safe ok (silently program : Traced σ ε α) := by
  intro s notes hnotes
  obtain ⟨result, s', hrun, _⟩ := h s
  refine ⟨result, (s', notes), ?_, hnotes⟩
  change (program.run s).map _ = _
  rw [hrun]
  rfl

theorem safe_bind {rest : α → Traced σ ε β} (h : Safe ok traced)
    (hrest : ∀ result, Safe ok (rest result)) : Safe ok (traced >>= rest) := by
  intro s notes hnotes
  refine ends_seq _ (h s notes hnotes) ?_
  exact fun result s' hnotes' => hrest result s'.1 s'.2 hnotes'

theorem safe_ite {cond : Prop} [Decidable cond] {traced' : Traced σ ε α}
    (h : cond → Safe ok traced) (h' : ¬cond → Safe ok traced') :
    Safe ok (if cond then traced else traced') := by
  split
  case isTrue hcond => exact h hcond
  case isFalse hcond => exact h' hcond

theorem safe_onlyIf {cond : Prop} [Decidable cond] {traced : Traced σ ε PUnit}
    (h : cond → Safe ok traced) : Safe ok (onlyIf cond traced) :=
  safe_ite h fun _ => safe_pure _

/-- The run of the program, with the notes of the traced one. -/
theorem Safe.trace {program : StateT σ Option α} (h : Safe ok traced)
    (herases : Erases traced program) (s : σ) :
    ∃ result s' notes, traced.run (s, []) = some (result, s', notes) ∧
      program.run s = some (result, s') ∧ ∀ e ∈ notes, ok e := by
  obtain ⟨result, ⟨s', notes⟩, hrun, hnotes⟩ := h s [] (by simp)
  refine ⟨result, s', notes, hrun, ?_, hnotes⟩
  rw [← herases s [], hrun]
  rfl

end Safety

end Tracing
