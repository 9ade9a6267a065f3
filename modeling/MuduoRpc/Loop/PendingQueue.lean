import Mathlib.Data.List.Basic

/-!
The functor queue of a loop. `queueInLoop` pushes at the back of
`pendingFunctors_`; `dopendingFunctors` swaps the vector out and runs what it
took from the front. Together the two vectors are one first-in first-out
queue.
-/

namespace MuduoRpc

structure PendingQueue (F : Type*) where
  functors : List F
  pendingFunctors_ : List F
deriving DecidableEq, Repr

namespace PendingQueue

variable {F : Type*}

def empty : PendingQueue F := ⟨[], []⟩

def push (q : PendingQueue F) (cb : F) : PendingQueue F :=
  { q with pendingFunctors_ := q.pendingFunctors_ ++ [cb] }

/-- The swap of a `dopendingFunctors` call. The vector it swaps with is local
to the call and empty. -/
def swap (q : PendingQueue F) : Option (PendingQueue F) :=
  if q.functors = [] then some ⟨q.pendingFunctors_, []⟩ else none

def pop (q : PendingQueue F) : Option (F × PendingQueue F) :=
  match q.functors with
  | [] => none
  | cb :: rest => some (cb, { q with functors := rest })

/-- What is still to be run, in the order in which it will be. -/
def toList (q : PendingQueue F) : List F := q.functors ++ q.pendingFunctors_

@[simp] theorem toList_empty : (empty : PendingQueue F).toList = [] := rfl

@[simp] theorem toList_push (q : PendingQueue F) (cb : F) :
    (q.push cb).toList = q.toList ++ [cb] := by
  simp [toList, push]

theorem swap_eq_some {q q' : PendingQueue F} :
    q.swap = some q' ↔ q.functors = [] ∧ q' = ⟨q.pendingFunctors_, []⟩ := by
  simp [swap, eq_comm]

theorem pop_eq_some {q q' : PendingQueue F} {cb : F} :
    q.pop = some (cb, q') ↔ q.functors = cb :: q'.functors ∧
      q'.pendingFunctors_ = q.pendingFunctors_ := by
  obtain ⟨functors, pending⟩ := q
  obtain ⟨functors', pending'⟩ := q'
  cases functors with
  | nil => simp [pop]
  | cons cb' rest => simp [pop, and_assoc, eq_comm]

theorem head?_of_pop {q q' : PendingQueue F} {cb : F} (h : q.pop = some (cb, q')) :
    q.functors.head? = some cb := by
  rw [(pop_eq_some.mp h).1, List.head?_cons]

theorem toList_swap {q q' : PendingQueue F} (h : q.swap = some q') : q'.toList = q.toList := by
  obtain ⟨hempty, rfl⟩ := swap_eq_some.mp h
  simp [toList, hempty]

theorem toList_pop {q q' : PendingQueue F} {cb : F} (h : q.pop = some (cb, q')) :
    q.toList = cb :: q'.toList := by
  obtain ⟨hhead, htail⟩ := pop_eq_some.mp h
  simp [toList, hhead, htail]

end PendingQueue

end MuduoRpc
