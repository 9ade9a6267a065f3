import Mathlib.Data.List.Basic

/-!
Past events of a run, kept in the order in which they happened. `Since p q` says
that an event of one kind has happened and none of the other kind after it, and
`Bars p q r` that an event of the third kind never comes in such a period. Both
are followed along a run by the one event that a step adds.
-/

namespace History

variable {α : Type*}

/-- An event meeting `p` has happened, and none meeting `q` after it. -/
def Since (p q : α → Prop) (log : List α) : Prop :=
  ∃ earlier x later, log = earlier ++ x :: later ∧ p x ∧ ∀ y ∈ later, ¬q y

/-- Between an event meeting `p` and a later one meeting `r` there is one meeting `q`. -/
def Bars (p q r : α → Prop) (log : List α) : Prop :=
  ∀ earlier x between y later, log = earlier ++ x :: (between ++ y :: later) → p x → r y →
    ∃ z ∈ between, q z

variable {p q r : α → Prop} {log : List α} {e : α}

theorem since_nil : ¬Since p q [] := by
  rintro ⟨earlier, x, later, hlog, _⟩
  simp at hlog

theorem since_concat : Since p q (log ++ [e]) ↔ p e ∨ (Since p q log ∧ ¬q e) := by
  constructor
  · rintro ⟨earlier, x, later, hlog, hx, hnone⟩
    rcases List.eq_nil_or_concat later with rfl | ⟨later, last, rfl⟩
    · obtain ⟨_, hlast⟩ := List.append_inj' hlog rfl
      cases hlast
      exact .inl hx
    · have hsplit : log ++ [e] = (earlier ++ x :: later) ++ [last] := by simpa using hlog
      obtain ⟨rfl, hlast⟩ := List.append_inj' hsplit rfl
      cases hlast
      refine .inr ⟨⟨earlier, x, later, rfl, hx, fun y hy => ?_⟩, hnone _ (by simp)⟩
      exact hnone y (by simp [hy])
  · rintro (he | ⟨⟨earlier, x, later, rfl, hx, hnone⟩, he⟩)
    · exact ⟨log, e, [], rfl, he, by simp⟩
    · refine ⟨earlier, x, later ++ [e], by simp, hx, fun y hy => ?_⟩
      rcases List.mem_append.mp hy with hlater | hlast
      · exact hnone y hlater
      · rw [List.mem_singleton.mp hlast]
        exact he

theorem bars_nil : Bars p q r [] := by
  intro earlier x between y later hlog
  simp at hlog

/-- The rule for one more event. -/
theorem Bars.concat (h : Bars p q r log) (he : r e → ¬Since p q log) :
    Bars p q r (log ++ [e]) := by
  intro earlier x between y later hlog hx hy
  rcases List.eq_nil_or_concat later with rfl | ⟨later, last, rfl⟩
  · have hsplit : log ++ [e] = (earlier ++ x :: between) ++ [y] := by simpa using hlog
    obtain ⟨rfl, hlast⟩ := List.append_inj' hsplit rfl
    cases hlast
    by_contra hnone
    refine he hy ⟨earlier, x, between, rfl, hx, fun z hz hq => ?_⟩
    exact hnone ⟨z, hz, hq⟩
  · have hsplit : log ++ [e] = (earlier ++ x :: (between ++ y :: later)) ++ [last] := by
      simpa using hlog
    obtain ⟨hlog, _⟩ := List.append_inj' hsplit rfl
    exact h earlier x between y later hlog hx hy

end History
