import MuduoRpc.Loop.Steps

/-!
Functors are run exactly once and in the order of their pushes. The run so far
followed by the two vectors of the queue is the list of pushes, through every
interleaving; and each call of `dopendingFunctors` runs what was pushed before
its swap.
-/

namespace MuduoRpc.EventLoop

variable {T F : Type*}

/-- The call of `dopendingFunctors` whose swap will take what is pending now. -/
def round (s : EventLoop T F) : Nat := if s.pc = .entered then s.calls else s.calls + 1

/-- A task that is run by a call of `dopendingFunctors` was not pushed after
the swap of that call, and not by a functor of that call; pushed by another
thread before the swap of a call, it is run by that call. -/
structure Dated (threadPid : T) (call : Nat) (task : Task T F) : Prop where
  during : ∀ during, task.during = some during → during ≤ call
  swapped : ∀ during, task.during = some during → task.swapped = true → during < call
  onLoop : ∀ during, task.during = some during → task.caller = threadPid → during < call
  sameRound : ∀ during, task.during = some during → task.swapped = false →
    task.caller ≠ threadPid → during = call

/-- The bookkeeping behind the queue. -/
structure Accounted (threadPid : T) (s : EventLoop T F) : Prop where
  sequence : s.executed.map Ran.task ++ s.queue.toList = s.pushed
  calling : s.callingPendingFunctors_ = true ↔ s.pc = .entered ∨ s.pc = .running
  idle : s.pc ≠ .running → s.queue.functors = []
  ran : ∀ ran ∈ s.executed, ran.thread = threadPid ∧ Dated threadPid ran.call ran.task
  functors : ∀ task ∈ s.queue.functors, Dated threadPid s.calls task
  pending : ∀ task ∈ s.queue.pendingFunctors_, Dated threadPid (round s) task
  direct : ∀ called ∈ s.direct, called.2 = threadPid

variable {threadPid : T} {s s' : EventLoop T F}

theorem accounted_new : Accounted threadPid (new : EventLoop T F) := by
  constructor <;> simp [new, PendingQueue.empty, PendingQueue.toList]

/-- Steps that touch neither the queue nor the position in
`dopendingFunctors`. -/
theorem Accounted.frame (h : Accounted threadPid s) (hexecuted : s'.executed = s.executed)
    (hqueue : s'.queue = s.queue) (hpushed : s'.pushed = s.pushed) (hcalls : s'.calls = s.calls)
    (hdirect : s'.direct = s.direct)
    (hcalling : s'.callingPendingFunctors_ = s.callingPendingFunctors_)
    (hentered : s'.pc = .entered ↔ s.pc = .entered)
    (hrunning : s'.pc = .running ↔ s.pc = .running) : Accounted threadPid s' := by
  have hround : round s' = round s := by
    simp only [round, hentered, hcalls]
  constructor
  · rw [hexecuted, hqueue, hpushed]
    exact h.sequence
  · rw [hcalling, hentered, hrunning]
    exact h.calling
  · rw [hqueue, ne_eq, hrunning]
    exact h.idle
  · rw [hexecuted]
    exact h.ran
  · rw [hqueue, hcalls]
    exact h.functors
  · rw [hqueue, hround]
    exact h.pending
  · rw [hdirect]
    exact h.direct

variable [DecidableEq T]

/-- A push during `dopendingFunctors` is dated by the swap: the loop thread
can push only after it. -/
theorem accounted_pushFunctor {t : T} {cb : F} (h : Accounted threadPid s)
    (hcall : canCall threadPid t s = true) : Accounted threadPid (pushFunctor t cb s) := by
  have hround : round (pushFunctor t cb s) = round s := rfl
  refine ⟨?_, h.calling, h.idle, h.ran, h.functors, ?_, h.direct⟩
  · simp only [pushFunctor, PendingQueue.toList_push, ← List.append_assoc, h.sequence]
  · intro task htask
    simp only [pushFunctor, PendingQueue.push, List.mem_append, List.mem_singleton] at htask
    rw [hround]
    rcases htask with hold | rfl
    · exact h.pending task hold
    · have hduring (during : Nat)
          (hsome : (if s.callingPendingFunctors_ = true then some s.calls else none) =
            some during) : during = s.calls ∧ (s.pc = .entered ∨ s.pc = .running) := by
        split_ifs at hsome with hcalling
        exact ⟨(Option.some.inj hsome).symm, h.calling.mp hcalling⟩
      constructor
      · intro during hsome
        obtain ⟨rfl, _⟩ := hduring during hsome
        unfold round
        split_ifs <;> omega
      · intro during hsome hswapped
        obtain ⟨rfl, _⟩ := hduring during hsome
        have hpc : s.pc = .running := of_decide_eq_true hswapped
        simp [round, hpc]
      · intro during hsome hcaller
        obtain ⟨rfl, hpc⟩ := hduring during hsome
        cases hcaller
        have huser := pc_of_canCall hcall
        have hrunning : s.pc = .running := by
          rcases hpc with hentered | hrunning
          · simp [hentered] at huser
          · exact hrunning
        simp [round, hrunning]
      · intro during hsome hswapped _
        obtain ⟨rfl, hpc⟩ := hduring during hsome
        have hnot : s.pc ≠ .running := of_decide_eq_false hswapped
        have hentered : s.pc = .entered := hpc.resolve_right hnot
        simp [round, hentered]

theorem accounted_step {a : Action T F} (h : Accounted threadPid s)
    (hnext : next threadPid s a = some s') : Accounted threadPid s' := by
  cases next_steps hnext with
  | loop hpc | assignQuit hpc | exit hpc | iterate hpc | poll hpc =>
      exact h.frame rfl rfl rfl rfl rfl rfl (by simp [hpc]) (by simp [hpc])
  | handleRead | wakeup | pass | quitHere | quit | quitWakeup =>
      exact h.frame rfl rfl rfl rfl rfl rfl .rfl .rfl
  | dopendingFunctors hpc =>
      have hempty := h.idle (by simp [hpc])
      refine ⟨h.sequence, by simp, fun _ => hempty, h.ran, by simp [hempty], ?_, h.direct⟩
      simpa [round, hpc] using h.pending
  | swap hpc _ hqueue =>
      have hsame := PendingQueue.toList_swap hqueue
      obtain ⟨_, rfl⟩ := PendingQueue.swap_eq_some.mp hqueue
      have hround : round s = s.calls := by simp [round, hpc]
      have hcalling : s.callingPendingFunctors_ = true := h.calling.mpr (.inl hpc)
      refine ⟨?_, by simp [hcalling], by simp, h.ran, ?_, ?_, h.direct⟩
      · simpa only [hsame] using h.sequence
      · simpa [hround] using h.pending
      · simp
  | @run task queue hpc _ hqueue =>
      have hsame := PendingQueue.toList_pop hqueue
      obtain ⟨hhead, htail⟩ := PendingQueue.pop_eq_some.mp hqueue
      refine ⟨?_, h.calling, fun hnot => absurd hpc hnot, ?_, ?_, ?_, h.direct⟩
      · simpa [hsame] using h.sequence
      · intro ran hran
        rcases List.mem_append.mp hran with hold | hnew
        · exact h.ran ran hold
        · rw [List.mem_singleton.mp hnew]
          exact ⟨rfl, h.functors task (by simp [hhead])⟩
      · intro later hlater
        exact h.functors later (by simp [hhead, hlater])
      · rw [htail]
        exact h.pending
  | leave hpc _ hempty =>
      refine ⟨h.sequence, by simp, fun _ => hempty, h.ran, h.functors, ?_, h.direct⟩
      simpa [round, hpc] using h.pending
  | queueInLoop hcall | runInLoop hcall => exact accounted_pushFunctor h hcall
  | runHere =>
      refine ⟨h.sequence, h.calling, h.idle, h.ran, h.functors, h.pending, ?_⟩
      intro called hcalled
      rcases List.mem_append.mp hcalled with hold | hnew
      · exact h.direct called hold
      · rw [List.mem_singleton.mp hnew]

theorem accounted (h : (system (F := F) threadPid).Reachable s) : Accounted threadPid s := by
  apply h.invariant (I := Accounted threadPid)
  · rintro _ rfl
    exact accounted_new
  · intro _ _ _ hi _ hnext
    exact accounted_step hi hnext

/-- Functors run once each, in push order and on the loop thread; one pushed
during a call of `dopendingFunctors` waits for a later call if the swap was
done or a functor of that call pushed it, and is run by that very call if
another thread pushed it before the swap. -/
theorem executed_in_push_order (h : (system (F := F) threadPid).Reachable s) :
    s.executed.map Ran.task ++ s.queue.functors ++ s.queue.pendingFunctors_ = s.pushed ∧
    (∀ ran ∈ s.executed, ran.thread = threadPid ∧
      ∀ during, ran.task.during = some during → during ≤ ran.call ∧
        (ran.task.swapped = true ∨ ran.task.caller = threadPid → during < ran.call) ∧
        (ran.task.swapped = false → ran.task.caller ≠ threadPid → during = ran.call)) ∧
    (∀ called ∈ s.direct, called.2 = threadPid) := by
  have hi := accounted h
  refine ⟨?_, ?_, hi.direct⟩
  · rw [List.append_assoc]
    exact hi.sequence
  · intro ran hran
    obtain ⟨hthread, hdated⟩ := hi.ran ran hran
    refine ⟨hthread, fun during hduring => ⟨hdated.during during hduring, ?_,
      hdated.sameRound during hduring⟩⟩
    rintro (hswapped | hcaller)
    · exact hdated.swapped during hduring hswapped
    · exact hdated.onLoop during hduring hcaller

/-- Two functors from another thread; the first pushes a third, which runs in
the second round. -/
theorem executed_in_push_order_reentrant :
    ∃ s, (system (F := Nat) false).Reachable s ∧
      s.executed.map (fun ran => (ran.task.functor, ran.call)) = [(1, 1), (2, 1), (3, 2)] ∧
      s.executed.map Ran.task ++ s.queue.functors ++ s.queue.pendingFunctors_ = s.pushed := by
  obtain ⟨s, hreach, hran⟩ : ∃ s, (system (F := Nat) false).Reachable s ∧
      s.executed.map (fun ran => (ran.task.functor, ran.call)) = [(1, 1), (2, 1), (3, 2)] :=
    Transition.System.exists_of_exec _ new
      [.queueInLoop true 1, .wakeupTest true, .loop false, .assignQuit, .test, .poll,
        .runInLoop true 2, .handleRead, .wakeupTest true, .dopendingFunctors, .swap, .run,
        .queueInLoop false 3, .wakeupTest false, .run, .leave, .test, .poll, .handleRead,
        .dopendingFunctors, .swap, .run] rfl (by decide)
  exact ⟨s, hreach, hran, (executed_in_push_order hreach).1⟩

/-- A functor pushed between the entry of `dopendingFunctors` and its swap is
run by that very call. -/
theorem executed_in_same_round :
    ∃ s, (system (F := Nat) false).Reachable s ∧
      ∃ ran ∈ s.executed, ran.task.caller = true ∧ ran.task.during = some ran.call := by
  exact Transition.System.exists_of_exec _ new [.loop false, .assignQuit, .test, .poll,
    .dopendingFunctors, .queueInLoop true 1, .swap, .run] rfl (by decide)

end MuduoRpc.EventLoop
