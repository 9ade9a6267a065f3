import Mathlib.Data.List.Basic

/-!
Reading records off the front of a list. A reader delimits what it reads if it decides
from the elements it takes alone, whatever stands behind them. A loop reads record after
record into a state; on input that it accepts it can be cut at the end and continued.
-/

namespace Records

universe u

variable {β σ τ : Type*} {α γ : Type u}

/-- What stands at the front, and what is left. -/
abbrev Reader (β : Type u) (α : Type u) := StateT (List β) Option α

section Readers

variable {β : Type u}

theorem run_bind_eq_some {read : Reader β α} {read' : α → Reader β γ} {bytes rest : List β}
    {result : γ} : (read >>= read').run bytes = some (result, rest) ↔
      ∃ first middle, read.run bytes = some (first, middle) ∧
        (read' first).run middle = some (result, rest) := by
  constructor
  · intro h
    obtain ⟨⟨first, middle⟩, hfirst, hsecond⟩ := Option.bind_eq_some_iff.mp h
    exact ⟨first, middle, hfirst, hsecond⟩
  · rintro ⟨first, middle, hfirst, hsecond⟩
    exact Option.bind_eq_some_iff.mpr ⟨(first, middle), hfirst, hsecond⟩

def Delimits (read : Reader β α) : Prop :=
  ∀ bytes result rest, read.run bytes = some (result, rest) →
    ∃ taken, bytes = taken ++ rest ∧ ∀ more, read.run (taken ++ more) = some (result, more)

theorem delimits_pure (result : α) : Delimits (pure result : Reader β α) := by
  intro bytes result' rest h
  cases h
  exact ⟨[], rfl, fun _ => rfl⟩

theorem delimits_failure : Delimits (failure : Reader β α) := by
  intro bytes result rest h
  cases h

theorem delimits_bind {read : Reader β α} {read' : α → Reader β γ} (h : Delimits read)
    (h' : ∀ result, Delimits (read' result)) : Delimits (read >>= read') := by
  intro bytes result rest hread
  obtain ⟨first, middle, hfirst, hsecond⟩ := run_bind_eq_some.mp hread
  obtain ⟨taken, rfl, hmore⟩ := h _ _ _ hfirst
  obtain ⟨taken', rfl, hmore'⟩ := h' first _ _ _ hsecond
  refine ⟨taken ++ taken', (List.append_assoc _ _ _).symm, fun more => ?_⟩
  rw [List.append_assoc]
  exact run_bind_eq_some.mpr ⟨first, taken' ++ more, hmore _, hmore' more⟩

theorem delimits_ite {cond : Prop} [Decidable cond] {read read' : Reader β α} (h : Delimits read)
    (h' : Delimits read') : Delimits (if cond then read else read') := by
  split
  case isTrue => exact h
  case isFalse => exact h'

/-- The next `count` elements. -/
def takeExactly (count : Nat) : Reader β (List β) := fun bytes =>
  if count ≤ bytes.length then some (bytes.take count, bytes.drop count) else none

theorem takeExactly_eq_some {count : Nat} {bytes taken rest : List β} :
    (takeExactly count).run bytes = some (taken, rest) ↔
      taken.length = count ∧ bytes = taken ++ rest := by
  change (if count ≤ bytes.length then some (bytes.take count, bytes.drop count) else none) = _ ↔ _
  constructor
  · intro h
    split_ifs at h with hlength
    cases h
    exact ⟨List.length_take_of_le hlength, (List.take_append_drop _ _).symm⟩
  · rintro ⟨rfl, rfl⟩
    have hlength : taken.length ≤ (taken ++ rest).length := by
      rw [List.length_append]
      omega
    rw [if_pos hlength, List.take_left, List.drop_left]

theorem run_takeExactly (taken rest : List β) :
    (takeExactly taken.length).run (taken ++ rest) = some (taken, rest) :=
  takeExactly_eq_some.mpr ⟨rfl, rfl⟩

theorem delimits_takeExactly (count : Nat) : Delimits (takeExactly count : Reader β (List β)) := by
  intro bytes taken rest h
  obtain ⟨hlength, rfl⟩ := takeExactly_eq_some.mp h
  exact ⟨taken, rfl, fun more => takeExactly_eq_some.mpr ⟨hlength, rfl⟩⟩

end Readers

/-- One turn of a loop: a record has been read into the state, the loop is left, or the
input is refused. -/
inductive Turn (β σ τ : Type*)
  | next (s : σ) (rest : List β)
  | stop (s : σ) (why : τ) (rest : List β)
  | fail

inductive Outcome (β σ τ : Type*)
  | ended (s : σ)
  | stopped (s : σ) (why : τ) (rest : List β)
  | failed

structure Loop (β σ τ : Type*) where
  turn : σ → List β → Turn β σ τ
  selfDelimiting : ∀ {s s' bytes rest}, turn s bytes = .next s' rest →
    ∃ record, record ≠ [] ∧ bytes = record ++ rest ∧
      ∀ more, turn s (record ++ more) = .next s' more

namespace Loop

variable (L : Loop β σ τ)

theorem next_length {L : Loop β σ τ} {s s' : σ} {bytes rest : List β}
    (h : L.turn s bytes = .next s' rest) : rest.length < bytes.length := by
  obtain ⟨record, hrecord, rfl, _⟩ := L.selfDelimiting h
  have hpos := List.length_pos_iff.mpr hrecord
  rw [List.length_append]
  omega

/-- Turn after turn until the input is used up. -/
def run (s : σ) (bytes : List β) : Outcome β σ τ :=
  if bytes.isEmpty then .ended s
  else
    match _h : L.turn s bytes with
    | .next s' rest => run s' rest
    | .stop s' why rest => .stopped s' why rest
    | .fail => .failed
  termination_by bytes.length
  decreasing_by exact next_length _h

variable {L} {s s' : σ} {bytes rest : List β}

theorem run_nil : L.run s [] = .ended s := by
  rw [run]
  rfl

theorem run_of_next (h : L.turn s bytes = .next s' rest) : L.run s bytes = L.run s' rest := by
  have hfull : bytes ≠ [] := by
    intro hnil
    have hlength := next_length h
    rw [hnil] at hlength
    exact absurd hlength (Nat.not_lt_zero _)
  rw [run, if_neg (by rwa [List.isEmpty_iff])]
  split <;> rename_i heq <;> rw [h] at heq <;> cases heq
  rfl

theorem ended_iff : L.run s bytes = .ended s' ↔ bytes = [] ∧ s = s' ∨
    ∃ t rest, L.turn s bytes = .next t rest ∧ L.run t rest = .ended s' := by
  constructor
  · intro h
    by_cases hnil : bytes = []
    · subst hnil
      rw [run_nil] at h
      cases h
      exact .inl ⟨rfl, rfl⟩
    · rw [run, if_neg (by rwa [List.isEmpty_iff])] at h
      split at h <;> rename_i hturn <;> try cases h
      exact .inr ⟨_, _, hturn, h⟩
  · rintro (⟨rfl, rfl⟩ | ⟨t, rest, hturn, hrun⟩)
    · exact run_nil
    · rw [run_of_next hturn, hrun]

/-- The rule of a run that ends: what is so at the start and is kept by each turn. -/
theorem ended_induction {P : σ → List β → Prop} (hdone : P s' [])
    (hturn : ∀ t t' bytes rest, L.turn t bytes = .next t' rest → L.run t' rest = .ended s' →
      P t' rest → P t bytes) (h : L.run s bytes = .ended s') : P s bytes := by
  induction hlength : bytes.length using Nat.strongRecOn generalizing s bytes with
  | _ n ih =>
      rcases ended_iff.mp h with ⟨rfl, rfl⟩ | ⟨t, rest, hnext, hrun⟩
      · exact hdone
      · have hshort : rest.length < n := hlength ▸ next_length hnext
        exact hturn _ _ _ _ hnext hrun (ih rest.length hshort hrun rfl)

/-- Input that is used up to its end can be continued. -/
theorem run_append (h : L.run s bytes = .ended s') (more : List β) :
    L.run s (bytes ++ more) = L.run s' more := by
  refine ended_induction (P := fun t bytes => L.run t (bytes ++ more) = L.run s' more)
    rfl ?_ h
  intro t t' bytes rest hturn _ ih
  obtain ⟨record, _, rfl, hmore⟩ := L.selfDelimiting hturn
  rw [List.append_assoc, run_of_next (hmore _), ih]

theorem run_invariant {I : σ → Prop} (hstart : I s)
    (hturn : ∀ t t' bytes rest, I t → L.turn t bytes = .next t' rest → I t')
    (h : L.run s bytes = .ended s') : I s' := by
  refine ended_induction (P := fun t _ => I t → I s') id ?_ h hstart
  intro t t' bytes rest hnext _ ih ht
  exact ih (hturn t t' bytes rest ht hnext)

end Loop

end Records
