import Mathlib.Data.List.Count
import Mathlib.Data.List.Perm.Subperm

/-!
Lists of labelled items that keep the order of the items of each label, and lists of
images of other items.
-/

namespace Interleaving

variable {T α β : Type*}

/-- If the items of each label are among those of that label, no item comes more often. -/
theorem subperm_of_sublists [DecidableEq T] {l l' : List (T × α)}
    (h : ∀ t, (l.filter fun item => item.1 = t).Sublist (l'.filter fun item => item.1 = t)) :
    l.Subperm l' := by
  classical
  refine List.subperm_ext_iff.mpr fun item _ => ?_
  have hlabel : decide (item.1 = item.1) = true := decide_eq_true rfl
  have hcount (list : List (T × α)) :
      (list.filter fun other => other.1 = item.1).count item = list.count item :=
    List.count_filter hlabel
  rw [← hcount l, ← hcount l']
  exact (h item.1).count_le item

theorem subperm_map (f : α → β) {l l' : List α} (h : l.Subperm l') :
    (l.map f).Subperm (l'.map f) := by
  obtain ⟨chosen, hperm, hsublist⟩ := h
  exact ⟨chosen.map f, hperm.map f, hsublist.map f⟩

/-- A list that has the same elements as the images of `items` consists of the images of
these items in another order. -/
theorem exists_map_eq_of_perm {f : α → β} {images : List β} {items : List α}
    (h : images.Perm (items.map f)) : ∃ items' : List α, items'.Perm items ∧ images = items'.map f := by
  generalize hmap : items.map f = list at h
  induction h generalizing items with
  | nil => exact ⟨items, .refl _, hmap.symm⟩
  | @cons image _ _ _ ih =>
      obtain ⟨item, rest, rfl, rfl, hrest⟩ := List.map_eq_cons_iff.mp hmap
      obtain ⟨rest', hperm, rfl⟩ := ih hrest
      exact ⟨item :: rest', hperm.cons item, rfl⟩
  | swap image image' list =>
      obtain ⟨item, rest, rfl, rfl, hrest⟩ := List.map_eq_cons_iff.mp hmap
      obtain ⟨item', rest', rfl, rfl, rfl⟩ := List.map_eq_cons_iff.mp hrest
      exact ⟨item' :: item :: rest', .swap _ _ _, rfl⟩
  | trans _ _ ih ih' =>
      obtain ⟨middle, hperm, hmiddle⟩ := ih' hmap
      obtain ⟨items', hperm', rfl⟩ := ih hmiddle.symm
      exact ⟨items', hperm'.trans hperm, rfl⟩

/-- The same of a list that has only some of the images. -/
theorem exists_map_eq_of_subperm {f : α → β} {images : List β} {items : List α}
    (h : images.Subperm (items.map f)) :
    ∃ items' : List α, items'.Subperm items ∧ images = items'.map f := by
  obtain ⟨chosen, hperm, hsublist⟩ := h
  obtain ⟨items', hitems, rfl⟩ := List.sublist_map_iff.mp hsublist
  obtain ⟨items'', hperm', rfl⟩ := exists_map_eq_of_perm hperm.symm
  exact ⟨items'', ⟨items', hperm'.symm, hitems⟩, rfl⟩

end Interleaving
