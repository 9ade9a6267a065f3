import Mathlib.Algebra.Group.Nat.Defs
import MuduoRpc.Lib.Transition
import MuduoRpc.Loop.PendingQueue

/-!
`EventLoop` as a transition system. The loop thread moves through `loop()` and
`dopendingFunctors`; any thread may call `queueInLoop`, `runInLoop` and
`quit`, and those calls are cut where another thread can act in between. The
commented-out `Poller_->poll` is the point where the loop blocks; it can
return at any time, since a channel may be ready or the timeout may expire.
-/

namespace MuduoRpc

/-- Where the loop thread stands. User code runs on it outside `loop()`, in
event handlers and in functors. -/
inductive EventLoop.Pc
  | outside
  | starting
  | testing
  | polling
  | handling
  | entered
  | running
deriving DecidableEq, Repr

/-- A functor in the queue, with the thread that pushed it, the call of
`dopendingFunctors` that was in progress then, if any, and whether that call
had already swapped. -/
structure EventLoop.Task (T F : Type*) where
  functor : F
  caller : T
  during : Option Nat
  swapped : Bool
deriving DecidableEq, Repr

/-- A functor run from the queue: by which thread and in which call. -/
structure EventLoop.Ran (T F : Type*) where
  task : EventLoop.Task T F
  thread : T
  call : Nat
deriving DecidableEq, Repr

/-- The members of the loop, the wakeup counter, and the calls in progress:
`pushing` holds the threads between the push of `queueInLoop` and its wakeup
test, `quitting` those between `quit_ = true` and the wakeup of `quit`. The
last group is history. -/
structure EventLoop (T F : Type*) where
  pc : EventLoop.Pc
  looping_ : Bool
  quit_ : Bool
  eventHanding_ : Bool
  callingPendingFunctors_ : Bool
  iteration_ : Nat
  wakeupfd_ : Nat
  wakeupActive : Bool
  queue : PendingQueue (EventLoop.Task T F)
  pushing : List T
  quitting : List T
  calls : Nat
  pushed : List (EventLoop.Task T F)
  executed : List (EventLoop.Ran T F)
  direct : List (F × T)
  quitRequested : Bool
deriving DecidableEq, Repr

namespace EventLoop

variable {T F : Type*} [DecidableEq T]

def new : EventLoop T F where
  pc := .outside
  looping_ := false
  quit_ := false
  eventHanding_ := false
  callingPendingFunctors_ := false
  iteration_ := 0
  wakeupfd_ := 0
  wakeupActive := false
  queue := .empty
  pushing := []
  quitting := []
  calls := 0
  pushed := []
  executed := []
  direct := []
  quitRequested := false

inductive Action (T F : Type*)
  | loop (t : T)
  | assignQuit
  | test
  | poll
  | handleRead
  | dopendingFunctors
  | swap
  | run
  | leave
  | queueInLoop (t : T) (cb : F)
  | runInLoop (t : T) (cb : F)
  | wakeupTest (t : T)
  | quit (t : T)
  | quitWakeup (t : T)
deriving DecidableEq, Repr

/-- Whether the thread may make a call: it is not inside another one, and the
loop thread is running user code. -/
def canCall (threadPid t : T) (s : EventLoop T F) : Bool :=
  t ∉ s.pushing && t ∉ s.quitting &&
    (t ≠ threadPid || s.pc = .outside || s.pc = .handling || s.pc = .running)

/-- The eventfd counter. A write that would pass the maximum fails and is only
logged. -/
def wakeup (s : EventLoop T F) : EventLoop T F :=
  { s with wakeupfd_ := min (s.wakeupfd_ + 1) (2 ^ 64 - 2) }

def pushFunctor (t : T) (cb : F) (s : EventLoop T F) : EventLoop T F :=
  let task : Task T F :=
    { functor := cb
      caller := t
      during := if s.callingPendingFunctors_ then some s.calls else none
      swapped := s.pc = .running }
  { s with
    queue := s.queue.push task
    pushing := t :: s.pushing
    pushed := s.pushed ++ [task] }

variable (threadPid : T)

/-- Taken as passing on the loop thread and aborting elsewhere. As written in
the header it is the other way round. -/
def assertInLoopThread (t : T) : Bool := t = threadPid

/-- The thread of the loop makes its next step unless it is in the middle of
`queueInLoop`. -/
def loopAt (pc : Pc) (s : EventLoop T F) : Bool := s.pc = pc && threadPid ∉ s.pushing

def next (s : EventLoop T F) : Action T F → Option (EventLoop T F)
  | .loop t =>
      if loopAt threadPid .outside s ∧ !s.looping_ ∧ assertInLoopThread threadPid t then
        some { s with pc := .starting, looping_ := true }
      else none
  | .assignQuit =>
      if loopAt threadPid .starting s then
        some { s with pc := .testing, quit_ := false }
      else none
  | .test =>
      if loopAt threadPid .testing s then
        if s.quit_ then
          some { s with pc := .outside, looping_ := false, quitRequested := false }
        else some { s with pc := .polling }
      else none
  | .poll =>
      if loopAt threadPid .polling s then
        some { s with
          pc := .handling
          iteration_ := s.iteration_ + 1
          eventHanding_ := true
          wakeupActive := decide (s.wakeupfd_ ≠ 0) }
      else none
  | .handleRead =>
      if loopAt threadPid .handling s ∧ s.wakeupActive then
        some { s with wakeupfd_ := 0, wakeupActive := false }
      else none
  | .dopendingFunctors =>
      if loopAt threadPid .handling s ∧ !s.wakeupActive then
        some { s with
          pc := .entered
          eventHanding_ := false
          callingPendingFunctors_ := true
          calls := s.calls + 1 }
      else none
  | .swap =>
      if loopAt threadPid .entered s then do
        let queue ← s.queue.swap
        some { s with pc := .running, queue := queue }
      else none
  | .run =>
      if loopAt threadPid .running s then do
        let (task, queue) ← s.queue.pop
        some { s with
          queue := queue
          executed := s.executed ++ [⟨task, threadPid, s.calls⟩] }
      else none
  | .leave =>
      if loopAt threadPid .running s ∧ s.queue.functors.isEmpty then
        some { s with pc := .testing, callingPendingFunctors_ := false }
      else none
  | .queueInLoop t cb =>
      if canCall threadPid t s then some (pushFunctor t cb s) else none
  | .runInLoop t cb =>
      if canCall threadPid t s then
        if t = threadPid then some { s with direct := s.direct ++ [(cb, t)] }
        else some (pushFunctor t cb s)
      else none
  | .wakeupTest t =>
      if t ∈ s.pushing then
        let s' := { s with pushing := s.pushing.erase t }
        if t ≠ threadPid ∨ s.callingPendingFunctors_ then some (wakeup s') else some s'
      else none
  | .quit t =>
      if canCall threadPid t s then
        let s' := { s with quit_ := true, quitRequested := true }
        if t ≠ threadPid then some { s' with quitting := t :: s.quitting } else some s'
      else none
  | .quitWakeup t =>
      if t ∈ s.quitting then some (wakeup { s with quitting := s.quitting.erase t }) else none

variable {threadPid}

theorem loopAt_iff {pc : Pc} {s : EventLoop T F} :
    loopAt threadPid pc s = true ↔ s.pc = pc ∧ threadPid ∉ s.pushing := by
  simp [loopAt]

/-- The loop thread makes calls outside `dopendingFunctors` or after its
swap. -/
theorem pc_of_canCall {s : EventLoop T F} (h : canCall threadPid threadPid s = true) :
    s.pc = .outside ∨ s.pc = .handling ∨ s.pc = .running := by
  simp only [canCall, ne_eq, not_true_eq_false, decide_false, Bool.false_or, Bool.and_eq_true,
    Bool.or_eq_true, decide_eq_true_eq] at h
  tauto

variable (threadPid)

def system : Transition.System (EventLoop T F) (Action T F) where
  init s := s = new
  next := next threadPid

end EventLoop

end MuduoRpc
