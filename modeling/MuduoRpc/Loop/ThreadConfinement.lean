import Mathlib.Tactic.ByContra
import Mathlib.Tactic.SplitIfs
import MuduoRpc.Lib.Transition

/-!
The guard of loop-owned state. `assertInLoopThread` aborts when the caller is
the loop's thread and lets every other thread pass, and the constructor makes
its own guarded call before it has recorded the thread.

Threads are named by their ids. What an operation does behind the guard is a
parameter, and so is the value `threadPid` has before it is assigned.
-/

namespace MuduoRpc

/-- The thread-local cache `t_pid` is zero on every thread: nothing assigns it. -/
def t_pid (_tid : Int) : Int := 0

/-- `GetThreadId()` on the thread with this id. -/
def GetThreadId (tid : Int) : Int := if t_pid tid ≠ 0 then t_pid tid else tid

theorem getThreadId_eq (tid : Int) : GetThreadId tid = tid := by
  simp [GetThreadId, t_pid]

/-- The operations that begin with the guard. -/
inductive Confinement.Guarded
  | updateChannel
  | removeChannel
  | hasChannel
  | pollerUpdateChannel
  | pollerRemoveChannel
  | sendInLoop
  | shutdownInLoop
  | forceCloseInLoop
  | startReadInLoop
  | stopReadInLoop
  | connectEstablished
  | connectDestroyed
  | handleRead
  | handleWrite
  | handleClose
  | startInLoop
  | stopInLoop
  | restart
  | newConnection
  | removeConnectionInLoop
  | getNextEventLoop
  | getEventLoopHash
  | getallEventLoops
deriving DecidableEq, Repr

inductive Confinement.Phase
  | registering
  | assigning
  | constructed
deriving DecidableEq, Repr

/-- A guarded call, and the rest of one that passed. -/
inductive Confinement.Event
  | guard (constructing : Bool) (thread : Int) (operation : Confinement.Guarded) (passed : Bool)
  | body (thread : Int) (operation : Confinement.Guarded)
deriving DecidableEq, Repr

/-- `owned` is the loop-owned state; `inside` holds the calls that have passed the
guard and not gone on yet. -/
structure Confinement (S : Type*) where
  phase : Confinement.Phase
  threadPid : Int
  inside : List (Int × Confinement.Guarded)
  owned : S
  aborted : Bool
  log : List Confinement.Event
deriving DecidableEq, Repr

namespace Confinement

variable {S : Type*}

inductive Action
  | registerWakeup
  | assignThreadPid
  | call (thread : Int) (operation : Guarded)
  | body (thread : Int) (operation : Guarded)
deriving DecidableEq, Repr

def new (threadPid : Int) (owned : S) : Confinement S where
  phase := .registering
  threadPid := threadPid
  inside := []
  owned := owned
  aborted := false
  log := []

def isInloopthread (s : Confinement S) (thread : Int) : Bool :=
  s.threadPid = GetThreadId thread

/-- Whether the caller gets past the guard. -/
def assertInLoopThread (s : Confinement S) (thread : Int) : Bool :=
  if s.isInloopthread thread then false else true

/-- One guarded call up to the end of its guard. -/
def guard (s : Confinement S) (constructing : Bool) (thread : Int) (operation : Guarded) :
    Confinement S :=
  let passed := s.assertInLoopThread thread
  { s with
    aborted := !passed
    inside := if passed then s.inside ++ [(thread, operation)] else s.inside
    log := s.log ++ [.guard constructing thread operation passed] }

/-- The constructor runs on `owner`; other threads may call once it is done. -/
def next (effect : Guarded → S → S) (owner : Int) (s : Confinement S) :
    Action → Option (Confinement S)
  | .registerWakeup =>
      if s.aborted = false ∧ s.phase = .registering then
        some { s.guard true owner .updateChannel with phase := .assigning }
      else none
  | .assignThreadPid =>
      if s.aborted = false ∧ s.phase = .assigning ∧ s.inside = [] then
        some { s with phase := .constructed, threadPid := GetThreadId owner }
      else none
  | .call thread operation =>
      if s.aborted = false ∧ s.phase = .constructed then some (s.guard false thread operation)
      else none
  | .body thread operation =>
      if s.aborted = false ∧ (thread, operation) ∈ s.inside then
        some { s with
          inside := s.inside.erase (thread, operation)
          owned := effect operation s.owned
          log := s.log ++ [.body thread operation] }
      else none

def system (effect : Guarded → S → S) (owner indeterminate : Int) :
    Transition.System (Confinement S) Action where
  init s := ∃ owned, s = new indeterminate owned
  next := next effect owner

/-- The owner passes every guard, any other thread is stopped by it, and only the
owner gets to change what the loop owns. -/
structure Confined (owner : Int) (s : Confinement S) : Prop where
  own : ∀ constructing operation passed,
    .guard constructing owner operation passed ∈ s.log → passed = true
  foreign : ∀ constructing thread operation passed, thread ≠ owner →
    .guard constructing thread operation passed ∈ s.log → passed = false
  unchanged : ∀ thread operation, .body thread operation ∈ s.log → thread = owner

/-- What the guard has done: during the construction it compared the owner with the
indeterminate value, and afterwards every thread with the owner. -/
structure Invariant (owner indeterminate : Int) (s : Confinement S) : Prop where
  threadPid : s.threadPid = if s.phase = .constructed then owner else indeterminate
  constructing : ∀ thread operation passed, .guard true thread operation passed ∈ s.log →
    thread = owner ∧ (passed = true ↔ indeterminate ≠ owner)
  called : ∀ thread operation passed, .guard false thread operation passed ∈ s.log →
    (passed = true ↔ thread ≠ owner)
  inside : ∀ thread operation, (thread, operation) ∈ s.inside →
    ∃ constructing, .guard constructing thread operation true ∈ s.log
  body : ∀ thread operation, .body thread operation ∈ s.log →
    ∃ constructing, .guard constructing thread operation true ∈ s.log

theorem assertInLoopThread_eq (s : Confinement S) (thread : Int) :
    s.assertInLoopThread thread = true ↔ s.threadPid ≠ thread := by
  rw [assertInLoopThread, isInloopthread, getThreadId_eq]
  simp

theorem invariant_new (owner indeterminate : Int) (owned : S) :
    Invariant owner indeterminate (new indeterminate owned) := by
  constructor <;> simp [new]

/-- During the construction only the owner is guarded, afterwards any thread. -/
theorem guard_invariant {owner indeterminate : Int} {s : Confinement S}
    (h : Invariant owner indeterminate s) {constructing : Bool} {thread : Int}
    (operation : Guarded) (hphase : constructing = true ↔ s.phase ≠ .constructed)
    (howner : constructing = true → thread = owner) :
    Invariant owner indeterminate (s.guard constructing thread operation) := by
  have hpassed := s.assertInLoopThread_eq thread
  rw [h.threadPid] at hpassed
  have hlog {e : Event} (he : e ∈ (s.guard constructing thread operation).log) :
      e ∈ s.log ∨ e = .guard constructing thread operation (s.assertInLoopThread thread) := by
    simpa [guard] using he
  constructor
  · exact h.threadPid
  · intro thread' operation' passed hmem
    rcases hlog hmem with hold | heq
    · exact h.constructing thread' operation' passed hold
    · cases heq
      rw [howner rfl, if_neg (hphase.mp rfl)] at hpassed
      exact ⟨howner rfl, by rw [howner rfl, hpassed]⟩
  · intro thread' operation' passed hmem
    rcases hlog hmem with hold | heq
    · exact h.called thread' operation' passed hold
    · cases heq
      have hdone : s.phase = .constructed := by
        by_contra hnot
        cases hphase.mpr hnot
      rw [hpassed, if_pos hdone]
      exact ne_comm
  · intro thread' operation' hmem
    by_cases hin : (thread', operation') ∈ s.inside
    · obtain ⟨constructing', hguard⟩ := h.inside thread' operation' hin
      exact ⟨constructing', List.mem_append_left _ hguard⟩
    · have hnew : s.assertInLoopThread thread = true ∧
          (thread', operation') = (thread, operation) := by
        simp only [guard] at hmem
        split_ifs at hmem with hpass
        · exact ⟨hpass, List.mem_singleton.mp ((List.mem_append.mp hmem).resolve_left hin)⟩
        · exact absurd hmem hin
      obtain ⟨hpass, heq⟩ := hnew
      cases heq
      refine ⟨constructing, List.mem_append_right _ ?_⟩
      rw [hpass]
      exact List.mem_singleton_self _
  · intro thread' operation' hmem
    rcases hlog hmem with hold | heq
    · obtain ⟨constructing', hguard⟩ := h.body thread' operation' hold
      exact ⟨constructing', List.mem_append_left _ hguard⟩
    · cases heq

theorem body_invariant {owner indeterminate : Int} {s : Confinement S}
    (h : Invariant owner indeterminate s) {thread : Int} {operation : Guarded}
    (hinside : (thread, operation) ∈ s.inside) (owned : S) :
    Invariant owner indeterminate { s with
      inside := s.inside.erase (thread, operation)
      owned := owned
      log := s.log ++ [.body thread operation] } := by
  have hguards {constructing : Bool} {t : Int} {o : Guarded} {passed : Bool}
      (hmem : .guard constructing t o passed ∈ s.log ++ [Event.body thread operation]) :
      .guard constructing t o passed ∈ s.log := by
    simpa using hmem
  constructor
  · exact h.threadPid
  · intro t o passed hmem
    exact h.constructing t o passed (hguards hmem)
  · intro t o passed hmem
    exact h.called t o passed (hguards hmem)
  · intro t o hmem
    obtain ⟨constructing, hguard⟩ := h.inside t o (List.mem_of_mem_erase hmem)
    exact ⟨constructing, List.mem_append_left _ hguard⟩
  · intro t o hmem
    have hpassed : ∃ constructing, .guard constructing t o true ∈ s.log := by
      rcases List.mem_append.mp hmem with hold | hnew
      · exact h.body t o hold
      · cases List.mem_singleton.mp hnew
        exact h.inside thread operation hinside
    obtain ⟨constructing, hguard⟩ := hpassed
    exact ⟨constructing, List.mem_append_left _ hguard⟩

theorem invariant {effect : Guarded → S → S} {owner indeterminate : Int} {s : Confinement S}
    (h : (system effect owner indeterminate).Reachable s) : Invariant owner indeterminate s := by
  apply h.invariant (I := Invariant owner indeterminate)
  · rintro _ ⟨owned, rfl⟩
    exact invariant_new owner indeterminate owned
  · intro s action s' hi _ hnext
    cases action with
    | registerWakeup =>
        simp only [system, next] at hnext
        split_ifs at hnext with hready
        cases hnext
        have hphase : s.phase ≠ .constructed := by
          rw [hready.2]
          simp
        have hguard : Invariant owner indeterminate (s.guard true owner .updateChannel) :=
          guard_invariant hi .updateChannel (iff_of_true rfl hphase) fun _ => rfl
        refine ⟨?_, hguard.constructing, hguard.called, hguard.inside, hguard.body⟩
        exact hi.threadPid.trans (by rw [if_neg hphase]; rfl)
    | assignThreadPid =>
        simp only [system, next] at hnext
        split_ifs at hnext
        cases hnext
        exact ⟨getThreadId_eq owner, hi.constructing, hi.called, hi.inside, hi.body⟩
    | call thread operation =>
        simp only [system, next] at hnext
        split_ifs at hnext with hready
        cases hnext
        apply guard_invariant hi
        · simp [hready.2]
        · intro hfalse
          cases hfalse
    | body thread operation =>
        simp only [system, next] at hnext
        split_ifs at hnext with hready
        cases hnext
        exact body_invariant hi hready.2 _

/-- A run is confined exactly when it makes no guarded call but the one of the
constructor, and that one compares with a value other than the owner's id. -/
theorem confined_iff {effect : Guarded → S → S} {owner indeterminate : Int}
    {s : Confinement S} (h : (system effect owner indeterminate).Reachable s) :
    Confined owner s ↔ ∀ constructing thread operation passed,
      .guard constructing thread operation passed ∈ s.log →
        constructing = true ∧ indeterminate ≠ owner := by
  have hi := invariant h
  constructor
  · intro hconfined constructing thread operation passed hmem
    cases constructing with
    | true =>
        obtain ⟨rfl, hpassed⟩ := hi.constructing thread operation passed hmem
        exact ⟨rfl, hpassed.mp (hconfined.own true operation passed hmem)⟩
    | false =>
        have hpassed := hi.called thread operation passed hmem
        by_cases howner : thread = owner
        · subst howner
          exact absurd rfl (hpassed.mp (hconfined.own false operation passed hmem))
        · have hstopped := hconfined.foreign false thread operation passed howner hmem
          rw [hpassed.mpr howner] at hstopped
          cases hstopped
  · intro honly
    have hguard {constructing passed : Bool} {thread : Int} {operation : Guarded}
        (hmem : .guard constructing thread operation passed ∈ s.log) :
        thread = owner ∧ passed = true := by
      obtain ⟨rfl, hne⟩ := honly constructing thread operation passed hmem
      obtain ⟨howner, hpassed⟩ := hi.constructing thread operation passed hmem
      exact ⟨howner, hpassed.mpr hne⟩
    constructor
    · intro constructing operation passed hmem
      exact (hguard hmem).2
    · intro constructing thread operation passed hforeign hmem
      exact absurd (hguard hmem).1 hforeign
    · intro thread operation hmem
      obtain ⟨constructing, hpassed⟩ := hi.body thread operation hmem
      exact (hguard hpassed).1

/-- The construction alone, with a lucky value. -/
theorem confined_iff_constructed :
    ∃ s : Confinement Nat, s.phase = .constructed ∧ Confined 42 s := by
  obtain ⟨s, hreach, hphase, hlog⟩ : ∃ s : Confinement Nat,
      (system (fun _ n => n + 1) 42 0).Reachable s ∧ s.phase = .constructed ∧
      s.log = [.guard true 42 .updateChannel true, .body 42 .updateChannel] :=
    Transition.System.exists_of_exec (M := system (fun _ n => n + 1) 42 0) _ (new 0 0)
      [.registerWakeup, .body 42 .updateChannel, .assignThreadPid] ⟨0, rfl⟩ (by decide)
  refine ⟨s, hphase, (confined_iff hreach).mpr fun constructing thread operation passed hmem => ?_⟩
  rw [hlog] at hmem
  simp only [List.mem_cons, Event.guard.injEq, reduceCtorEq, List.not_mem_nil, or_false] at hmem
  exact ⟨hmem.1, by decide⟩

/-- Another thread passes the guard and changes what the loop owns; then the owner is
stopped by it. -/
theorem foreign_passes_owner_aborts :
    ∃ s : Confinement Nat, (system (fun _ n => n + 1) 42 0).Reachable s ∧
      s.log = [.guard true 42 .updateChannel true, .body 42 .updateChannel,
        .guard false 43 .updateChannel true, .body 43 .updateChannel,
        .guard false 42 .updateChannel false] ∧
      s.owned = 2 ∧ s.aborted = true ∧ ¬Confined 42 s := by
  obtain ⟨s, hreach, hlog, howned, haborted⟩ : ∃ s : Confinement Nat,
      (system (fun _ n => n + 1) 42 0).Reachable s ∧
      s.log = [.guard true 42 .updateChannel true, .body 42 .updateChannel,
        .guard false 43 .updateChannel true, .body 43 .updateChannel,
        .guard false 42 .updateChannel false] ∧ s.owned = 2 ∧ s.aborted = true :=
    Transition.System.exists_of_exec (M := system (fun _ n => n + 1) 42 0) _ (new 0 0)
      [.registerWakeup, .body 42 .updateChannel, .assignThreadPid, .call 43 .updateChannel,
        .body 43 .updateChannel, .call 42 .updateChannel] ⟨0, rfl⟩ (by decide)
  refine ⟨s, hreach, hlog, howned, haborted, fun hconfined => ?_⟩
  have hpassed := hconfined.own false .updateChannel false (by rw [hlog]; simp)
  cases hpassed

end Confinement

end MuduoRpc
