import Mathlib.Data.List.AList
import Mathlib.Logic.Function.Basic

/-!
Tables with at most one entry for a key. `Lists` says that a table lists
exactly the entries of a relation. Writing under a key without entries adds to
the relation, and erasing a key takes its entries out. An entry that is found
after a write, be it at one place of a function or at the end of a list, was
there before or is the one written.
-/

namespace Table

variable {K V : Type*} [DecidableEq K]

/-- How many entries erasing the key removes. -/
def erased (table : AList fun _ : K => V) (key : K) : Nat := table.keys.count key

def Lists (table : AList fun _ : K => V) (entry : K → V → Prop) : Prop :=
  ∀ key value, table.lookup key = some value ↔ entry key value

variable {table : AList fun _ : K => V} {entry entry' : K → V → Prop} {key : K}

theorem Lists.empty : Lists (∅ : AList fun _ : K => V) fun _ _ => False := by
  intro key value
  simp

theorem Lists.congr (h : Lists table entry) (hsame : ∀ k v, entry k v ↔ entry' k v) :
    Lists table entry' := by
  intro key value
  rw [h key value, hsame]

theorem Lists.not_mem (h : Lists table entry) (hfree : ∀ v, ¬entry key v) : key ∉ table := by
  rw [← AList.lookup_eq_none]
  cases hlookup : table.lookup key with
  | none => rfl
  | some v => exact absurd ((h key v).mp hlookup) (hfree v)

theorem Lists.insert (h : Lists table entry) (hfree : ∀ v, ¬entry key v) (value : V) :
    Lists (table.insert key value) fun k v => entry k v ∨ k = key ∧ v = value := by
  intro k v
  by_cases hsame : k = key
  · subst hsame
    rw [AList.lookup_insert]
    constructor
    · intro hvalue
      exact .inr ⟨rfl, (Option.some.inj hvalue).symm⟩
    · rintro (hentry | ⟨_, rfl⟩)
      · exact absurd hentry (hfree v)
      · rfl
  · rw [AList.lookup_insert_ne hsame, h k v]
    simp [hsame]

theorem Lists.erase (h : Lists table entry) (key : K) :
    Lists (table.erase key) fun k v => entry k v ∧ k ≠ key := by
  intro k v
  by_cases hsame : k = key
  · subst hsame
    rw [AList.lookup_erase]
    simp
  · rw [AList.lookup_erase_ne hsame, h k v]
    simp [hsame]

theorem Lists.erased_eq_one (h : Lists table entry) {value : V} (hentry : entry key value) :
    erased table key = 1 := by
  have hmem : key ∈ table := by
    rw [← AList.lookup_isSome, (h key value).mpr hentry]
    rfl
  exact List.count_eq_one_of_mem table.keys_nodup hmem

theorem update_eq_some {f : K → Option V} {entry : Option V} {k : K} {v : V}
    (h : Function.update f key entry k = some v) : f k = some v ∨ entry = some v := by
  by_cases hsame : k = key
  · subst hsame
    rw [Function.update_self] at h
    exact .inr h
  · rw [Function.update_of_ne hsame] at h
    exact .inl h

omit [DecidableEq K] in
theorem getElem?_concat_eq_some {list : List V} {value v : V} {n : Nat}
    (h : (list ++ [value])[n]? = some v) : list[n]? = some v ∨ n = list.length ∧ value = v := by
  rcases Nat.lt_trichotomy n list.length with hold | rfl | hbeyond
  · rw [List.getElem?_append_left hold] at h
    exact .inl h
  · rw [List.getElem?_concat_length] at h
    exact .inr ⟨rfl, Option.some.inj h⟩
  · rw [List.getElem?_eq_none] at h
    · cases h
    · rw [List.length_append, List.length_singleton]
      omega

end Table
