import Mathlib.Data.List.Perm.Basic

/-!
`EventLoopThreadPool`: the io loops of a server and the index of the next one. The
index is meant to wrap at the number of loops, but the test lets it reach that number
first. A failed assertion or an access beyond the end of `loops_` is `none`; the base
loop's thread guard is taken as passing.
-/

namespace MuduoRpc

/-- Loops are named by identifiers that stand for their addresses. -/
structure EventLoopThreadPool (ι : Type*) where
  baseloop_ : ι
  started_ : Bool
  numThreads_ : Int
  next_ : Nat
  loops_ : List ι
deriving Repr

namespace EventLoopThreadPool

variable {ι : Type*}

def new (baseloop : ι) : EventLoopThreadPool ι where
  baseloop_ := baseloop
  started_ := false
  numThreads_ := 0
  next_ := 0
  loops_ := []

def serthreadnum (p : EventLoopThreadPool ι) (num : Int) : EventLoopThreadPool ι :=
  { p with numThreads_ := num }

/-- `startLoop` gives the loop of each new thread. The second result is the loop that the
callback is called with here, if one was given and there are no threads. -/
def start (p : EventLoopThreadPool ι) (startLoop : Nat → ι) (cb : Bool) :
    Option (EventLoopThreadPool ι × Option ι) :=
  if p.started_ then none
  else
    let loops := (List.range p.numThreads_.toNat).map startLoop
    some ({ p with started_ := true, loops_ := p.loops_ ++ loops },
      if p.numThreads_ = 0 ∧ cb then some p.baseloop_ else none)

def getNextEventLoop (p : EventLoopThreadPool ι) : Option (ι × EventLoopThreadPool ι) :=
  if p.started_ then
    if p.loops_.isEmpty then some (p.baseloop_, p)
    else do
      let loop ← p.loops_[p.next_]?
      let next := p.next_ + 1
      some (loop, { p with next_ := if p.loops_.length < next then 0 else next })
  else none

/-- The loops that so many calls return. -/
def getNextEventLoops (p : EventLoopThreadPool ι) :
    Nat → Option (List ι × EventLoopThreadPool ι)
  | 0 => some ([], p)
  | k + 1 => do
      let (loop, p) ← p.getNextEventLoop
      let (loops, p) ← p.getNextEventLoops k
      some (loop :: loops, p)

/-- The loop that a call returns after so many others. -/
def eventLoopAfter (p : EventLoopThreadPool ι) (k : Nat) : Option ι := do
  let (_, p) ← p.getNextEventLoops k
  let (loop, _) ← p.getNextEventLoop
  some loop

/-- The call after `k` others returns the loop whose turn it is. -/
def TakesTurn (p : EventLoopThreadPool ι) (k : Nat) : Prop :=
  ∃ loop, p.loops_[k % p.loops_.length]? = some loop ∧ p.eventLoopAfter k = some loop

/-- After `w` calls, as many calls as there are loops return each of them once. -/
def TakesRound (p : EventLoopThreadPool ι) (w : Nat) : Prop :=
  ∃ before q loops q', p.getNextEventLoops w = some (before, q) ∧
    q.getNextEventLoops p.loops_.length = some (loops, q') ∧ loops.Perm p.loops_

/-- A started pool whose index is not beyond the end. -/
structure Ready (p : EventLoopThreadPool ι) : Prop where
  started : p.started_ = true
  loops : p.loops_ ≠ []
  next_le : p.next_ ≤ p.loops_.length

/-- The index moves by one for as long as it is in bounds: it does not wrap. -/
theorem getNextEventLoop_eq {p : EventLoopThreadPool ι} (h : p.Ready) :
    p.getNextEventLoop = (p.loops_[p.next_]?).map fun loop =>
      (loop, { p with next_ := p.next_ + 1 }) := by
  have hsome : p.loops_.isEmpty = false := by
    rw [List.isEmpty_eq_false_iff]
    exact h.loops
  rw [getNextEventLoop, if_pos h.started, hsome]
  cases hloop : p.loops_[p.next_]? with
  | none => rfl
  | some loop =>
      have hbound := (List.getElem?_eq_some_iff.mp hloop).1
      have hkept : ¬p.loops_.length < p.next_ + 1 := Nat.not_lt_of_le hbound
      simp [hkept]

theorem getNextEventLoops_eq {p : EventLoopThreadPool ι} (h : p.Ready) (k : Nat) :
    p.getNextEventLoops k =
      if p.next_ + k ≤ p.loops_.length then
        some ((p.loops_.drop p.next_).take k, { p with next_ := p.next_ + k })
      else none := by
  induction k generalizing p with
  | zero =>
      rw [Nat.add_zero, if_pos h.next_le]
      rfl
  | succ k ih =>
      rw [getNextEventLoops, getNextEventLoop_eq h]
      cases hloop : p.loops_[p.next_]? with
      | none =>
          have hend := List.getElem?_eq_none_iff.mp hloop
          rw [if_neg (by omega)]
          rfl
      | some loop =>
          obtain ⟨hbound, hget⟩ := List.getElem?_eq_some_iff.mp hloop
          have hready : Ready { p with next_ := p.next_ + 1 } := ⟨h.started, h.loops, hbound⟩
          have hfront : p.loops_.drop p.next_ = loop :: p.loops_.drop (p.next_ + 1) := by
            rw [← hget]
            exact List.drop_eq_getElem_cons hbound
          have hsum : p.next_ + 1 + k = p.next_ + (k + 1) := by omega
          simp only [Option.map_some, Option.bind_eq_bind, Option.bind_some, ih hready, hsum, hfront]
          split_ifs <;> rfl

/-- The pool that `start` leaves, with at least one thread. -/
theorem ready_of_start {baseloop : ι} {num : Int} (hnum : 1 ≤ num) {startLoop : Nat → ι}
    {cb : Bool} {p : EventLoopThreadPool ι} {called : Option ι}
    (h : ((new baseloop).serthreadnum num).start startLoop cb = some (p, called)) :
    p.Ready ∧ p.next_ = 0 ∧ (p.loops_.length : Int) = num := by
  cases h
  have hlength : (((List.range num.toNat).map startLoop).length : Int) = num := by
    rw [List.length_map, List.length_range]
    omega
  refine ⟨⟨rfl, fun hempty => ?_, Nat.zero_le _⟩, rfl, hlength⟩
  have hnone : (List.range num.toNat).map startLoop = [] := hempty
  rw [hnone, List.length_nil] at hlength
  omega

theorem eventLoopAfter_eq {p : EventLoopThreadPool ι} (h : p.Ready) (hnext : p.next_ = 0) (k : Nat) :
    p.eventLoopAfter k = p.loops_[k]? := by
  rw [eventLoopAfter, getNextEventLoops_eq h, hnext, Nat.zero_add]
  by_cases hk : k ≤ p.loops_.length
  · have hready : Ready { p with next_ := k } := ⟨h.started, h.loops, hk⟩
    simp only [if_pos hk, Option.bind_eq_bind, Option.bind_some, getNextEventLoop_eq hready]
    cases p.loops_[k]? <;> rfl
  · rw [if_neg hk, List.getElem?_eq_none (by omega)]
    rfl

/-- A pool of any size started with its loops takes turns for exactly one round: the call
after it reads beyond the end. -/
theorem takesTurn_iff {baseloop : ι} {num : Int} (hnum : 1 ≤ num) {startLoop : Nat → ι}
    {cb : Bool} {p : EventLoopThreadPool ι} {called : Option ι}
    (h : ((new baseloop).serthreadnum num).start startLoop cb = some (p, called)) :
    (∀ k : Nat, p.TakesTurn k ↔ k < num) ∧ ∀ w : Nat, p.TakesRound w ↔ w = 0 := by
  obtain ⟨hready, hnext, hlength⟩ := ready_of_start hnum h
  constructor
  · intro k
    rw [TakesTurn, eventLoopAfter_eq hready hnext]
    constructor
    · rintro ⟨loop, _, hloop⟩
      have hbound := (List.getElem?_eq_some_iff.mp hloop).1
      omega
    · intro hk
      have hbound : k < p.loops_.length := by omega
      rw [Nat.mod_eq_of_lt hbound]
      exact ⟨_, List.getElem?_eq_getElem hbound, List.getElem?_eq_getElem hbound⟩
  · intro w
    constructor
    · rintro ⟨before, q, loops, q', hbefore, hloops, _⟩
      rw [getNextEventLoops_eq hready, hnext, Nat.zero_add] at hbefore
      split_ifs at hbefore with hw
      cases hbefore
      have hready' : Ready { p with next_ := w } := ⟨hready.started, hready.loops, hw⟩
      rw [getNextEventLoops_eq hready'] at hloops
      split_ifs at hloops with hround
      have hsum : w + p.loops_.length ≤ p.loops_.length := hround
      omega
    · rintro rfl
      refine ⟨[], p, p.loops_, { p with next_ := p.loops_.length }, rfl, ?_, List.Perm.refl _⟩
      rw [getNextEventLoops_eq hready, hnext, Nat.zero_add, if_pos (Nat.le_refl _), List.drop_zero,
        List.take_length]

/-- Three loops, each asked for once. -/
theorem takesTurn_iff_three :
    ∃ p called, ((new 0).serthreadnum 3).start (fun i => i + 10) true = some (p, called) ∧
      p.TakesTurn 2 ∧ p.TakesRound 0 := by
  obtain ⟨p, hstart⟩ : ∃ p, ((new 0).serthreadnum 3).start (fun i => i + 10) true =
      some (p, none) := ⟨_, rfl⟩
  obtain ⟨hturns, hrounds⟩ := takesTurn_iff (by decide) hstart
  exact ⟨p, none, hstart, (hturns 2).mpr (by decide), (hrounds 0).mpr rfl⟩

/-- With two threads the third connection reads `loops_[2]`. -/
theorem third_call_out_of_bounds :
    ∃ p called, ((new 0).serthreadnum 2).start (fun i => i + 10) false = some (p, called) ∧
      p.loops_ = [10, 11] ∧ (p.getNextEventLoops 2).map Prod.fst = some [10, 11] ∧
      p.eventLoopAfter 2 = none ∧ ¬p.TakesTurn 2 ∧ ¬p.TakesRound 1 := by
  refine ⟨_, _, rfl, rfl, rfl, rfl, ?_, ?_⟩
  · rintro ⟨loop, _, hloop⟩
    cases hloop
  · rintro ⟨before, q, loops, q', hbefore, hloops, _⟩
    cases hbefore
    cases hloops

end EventLoopThreadPool

end MuduoRpc
