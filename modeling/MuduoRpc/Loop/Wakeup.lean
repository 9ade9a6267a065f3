import MuduoRpc.Loop.Functors

/-!
Whether a pushed functor wakes the loop. `queueInLoop` writes the eventfd
unless the loop thread itself pushes outside `dopendingFunctors`: in an event
handler, where the same iteration runs the functor, or outside `loop()`, where
nothing does.
-/

namespace MuduoRpc.EventLoop

variable {T F : Type*}

/-- When the loop blocks with functors pending, the counter is up or another
thread is about to write it. -/
def WillWake (threadPid : T) (s : EventLoop T F) : Prop :=
  s.pc = .polling → s.queue.pendingFunctors_ ≠ [] →
    s.wakeupfd_ ≠ 0 ∨ ∃ t ∈ s.pushing, t ≠ threadPid

/-- The invariant behind it: outside the span from the return of poll to the
swap, whatever is pending has a wakeup written or on its way. -/
def Covered (threadPid : T) (s : EventLoop T F) : Prop :=
  s.pc ≠ .handling → s.pc ≠ .entered → s.queue.pendingFunctors_ ≠ [] →
    s.wakeupfd_ ≠ 0 ∨ ∃ t ∈ s.pushing, t ≠ threadPid ∨ s.callingPendingFunctors_ = true

variable {threadPid : T} {s s' : EventLoop T F}

theorem wakeup_ne_zero (s : EventLoop T F) : (wakeup s).wakeupfd_ ≠ 0 := by
  change min (s.wakeupfd_ + 1) (2 ^ 64 - 2) ≠ 0
  omega

/-- Steps that leave the queue, the counter and the threads between push and
wakeup alone. -/
theorem Covered.frame (h : Covered threadPid s)
    (hqueue : s'.queue.pendingFunctors_ = s.queue.pendingFunctors_)
    (hcounter : s'.wakeupfd_ = s.wakeupfd_) (hpushing : s'.pushing = s.pushing)
    (hcalling : s'.callingPendingFunctors_ = s.callingPendingFunctors_)
    (hhandling : s.pc ≠ .handling) (hentered : s.pc ≠ .entered) : Covered threadPid s' := by
  intro _ _ hpending
  rw [hqueue] at hpending
  rw [hcounter, hpushing, hcalling]
  exact h hhandling hentered hpending

variable [DecidableEq T]

/-- The loop thread calls `queueInLoop` only from inside `loop()`. -/
def pushesInsideLoop (threadPid : T) (s : EventLoop T F) : Action T F → Bool
  | .queueInLoop t _ => t ≠ threadPid || s.pc ≠ .outside
  | _ => true

theorem covered_pushFunctor {t : T} {cb : F} (hi : Accounted threadPid s)
    (hcall : canCall threadPid t s = true) (hinside : t = threadPid → s.pc ≠ .outside) :
    Covered threadPid (pushFunctor t cb s) := by
  intro hhandling _ _
  refine .inr ⟨t, List.mem_cons_self, ?_⟩
  by_cases hloop : t = threadPid
  · subst hloop
    have hrunning : s.pc = .running := by
      rcases pc_of_canCall hcall with houtside | hhandler | hrunning
      · exact absurd houtside (hinside rfl)
      · exact absurd hhandler hhandling
      · exact hrunning
    exact .inr (hi.calling.mpr (.inr hrunning))
  · exact .inl hloop

theorem covered_step {a : Action T F} (hi : Accounted threadPid s) (h : Covered threadPid s)
    (hinside : pushesInsideLoop threadPid s a = true)
    (hnext : next threadPid s a = some s') : Covered threadPid s' := by
  cases next_steps hnext with
  | loop hpc | assignQuit hpc | exit hpc | iterate hpc =>
      exact h.frame rfl rfl rfl rfl (by simp [hpc]) (by simp [hpc])
  | poll => exact fun hhandling => absurd rfl hhandling
  | handleRead hpc => exact fun hhandling => absurd hpc hhandling
  | dopendingFunctors => exact fun _ hentered => absurd rfl hentered
  | swap _ _ hqueue =>
      obtain ⟨_, rfl⟩ := PendingQueue.swap_eq_some.mp hqueue
      exact fun _ _ hpending => absurd rfl hpending
  | run hpc _ hqueue =>
      obtain ⟨_, htail⟩ := PendingQueue.pop_eq_some.mp hqueue
      exact h.frame htail rfl rfl rfl (by simp [hpc]) (by simp [hpc])
  | leave hpc hidle _ =>
      intro _ _ hpending
      rcases h (by simp [hpc]) (by simp [hpc]) hpending with hcounter | ⟨t, ht, _⟩
      · exact .inl hcounter
      · -- the loop thread has left the functor that pushed
        exact .inr ⟨t, ht, .inl (fun hloop => hidle (hloop ▸ ht))⟩
  | queueInLoop hcall =>
      apply covered_pushFunctor hi hcall
      rintro rfl
      simpa [pushesInsideLoop] using hinside
  | runInLoop hcall hloop =>
      exact covered_pushFunctor hi hcall (fun heq => absurd heq hloop)
  | runHere | quitHere | quit => exact h
  | wakeup | quitWakeup => exact fun _ _ _ => .inl (wakeup_ne_zero _)
  | pass _ hcalling =>
      intro hhandling hentered hpending
      rcases h hhandling hentered hpending with hcounter | ⟨u, hu, hother | hcalling'⟩
      · exact .inl hcounter
      · exact .inr ⟨u, (List.mem_erase_of_ne hother).mpr hu, .inl hother⟩
      · rw [hcalling] at hcalling'
        cases hcalling'

/-- If the loop thread pushes only from inside `loop()`, no pending functor
waits for the timeout of poll. -/
theorem willWake_of_pushesInsideLoop
    (h : (system (F := F) threadPid).ReachableVia
      (fun s a => pushesInsideLoop threadPid s a = true) s) : WillWake threadPid s := by
  obtain ⟨hi, hcovered⟩ : Accounted threadPid s ∧ Covered threadPid s := by
    apply h.invariant (I := fun s => Accounted threadPid s ∧ Covered threadPid s)
    · rintro _ rfl
      exact ⟨accounted_new, fun _ _ hpending => absurd rfl hpending⟩
    · rintro s a s' ⟨hi, hcovered⟩ hinside hnext
      exact ⟨accounted_step hi hnext, covered_step hi hcovered hinside hnext⟩
  intro hpc hpending
  rcases hcovered (by simp [hpc]) (by simp [hpc]) hpending with
      hcounter | ⟨t, ht, hother | hcalling⟩
  · exact .inl hcounter
  · exact .inr ⟨t, ht, hother⟩
  · have hinner := hi.calling.mp hcalling
    simp [hpc] at hinner

/-- A functor pushes another one; its wakeup is there when the loop blocks. -/
theorem willWake_of_pushesInsideLoop_functor :
    ∃ s, (system (F := Nat) false).Reachable s ∧
      (s.pc = .polling ∧ s.queue.pendingFunctors_ ≠ [] ∧ s.pushing = []) ∧ s.wakeupfd_ ≠ 0 := by
  obtain ⟨s, hreach, hpc, hpending, hpushing⟩ : ∃ s, (system (F := Nat) false).ReachableVia
      (fun s a => pushesInsideLoop false s a = true) s ∧
      s.pc = .polling ∧ s.queue.pendingFunctors_ ≠ [] ∧ s.pushing = [] :=
    Transition.System.exists_of_exec _ new
      [.loop false, .assignQuit, .test, .queueInLoop true 1, .wakeupTest true, .poll,
        .handleRead, .dopendingFunctors, .swap, .run, .queueInLoop false 2, .wakeupTest false,
        .leave, .test] rfl (by decide)
  refine ⟨s, hreach.reachable, ⟨hpc, hpending, hpushing⟩, ?_⟩
  rcases willWake_of_pushesInsideLoop hreach hpc hpending with hcounter | ⟨t, ht, _⟩
  · exact hcounter
  · simp [hpushing] at ht

/-- The loop thread queues a functor before it calls `loop()`: the loop blocks
with the functor pending, the counter at zero and nobody about to write it. -/
theorem blocked_with_pending :
    ∃ s, (system (F := Nat) false).Reachable s ∧ ¬WillWake false s ∧
      s.pc = .polling ∧ s.queue.pendingFunctors_ ≠ [] ∧ s.wakeupfd_ = 0 ∧ s.pushing = [] := by
  obtain ⟨s, hreach, hpc, hpending, hcounter, hpushing⟩ : ∃ s,
      (system (F := Nat) false).Reachable s ∧ s.pc = .polling ∧
        s.queue.pendingFunctors_ ≠ [] ∧ s.wakeupfd_ = 0 ∧ s.pushing = [] :=
    Transition.System.exists_of_exec _ new
      [.queueInLoop false 1, .wakeupTest false, .loop false, .assignQuit, .test] rfl (by decide)
  refine ⟨s, hreach, fun hwakes => ?_, hpc, hpending, hcounter, hpushing⟩
  rcases hwakes hpc hpending with hne | ⟨t, ht, _⟩
  · exact hne hcounter
  · simp [hpushing] at ht

end MuduoRpc.EventLoop
