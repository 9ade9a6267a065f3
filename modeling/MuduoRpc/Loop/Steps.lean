import MuduoRpc.Loop.EventLoop

/-!
What the steps of an event loop can do, stated once for the proofs about its
runs.
-/

namespace MuduoRpc.EventLoop

variable {T F : Type*} [DecidableEq T] (threadPid : T)

/-- What a step can do, one constructor for each outcome. -/
inductive Steps (s : EventLoop T F) : Action T F → EventLoop T F → Prop
  | loop : s.pc = .outside → threadPid ∉ s.pushing → s.looping_ = false →
      Steps s (.loop threadPid) { s with pc := .starting, looping_ := true }
  | assignQuit : s.pc = .starting → threadPid ∉ s.pushing →
      Steps s .assignQuit { s with pc := .testing, quit_ := false }
  | exit : s.pc = .testing → threadPid ∉ s.pushing → s.quit_ = true →
      Steps s .test { s with pc := .outside, looping_ := false, quitRequested := false }
  | iterate : s.pc = .testing → threadPid ∉ s.pushing → s.quit_ = false →
      Steps s .test { s with pc := .polling }
  | poll : s.pc = .polling → threadPid ∉ s.pushing →
      Steps s .poll { s with
        pc := .handling
        iteration_ := s.iteration_ + 1
        eventHanding_ := true
        wakeupActive := decide (s.wakeupfd_ ≠ 0) }
  | handleRead : s.pc = .handling → threadPid ∉ s.pushing → s.wakeupActive = true →
      Steps s .handleRead { s with wakeupfd_ := 0, wakeupActive := false }
  | dopendingFunctors : s.pc = .handling → threadPid ∉ s.pushing → s.wakeupActive = false →
      Steps s .dopendingFunctors { s with
        pc := .entered
        eventHanding_ := false
        callingPendingFunctors_ := true
        calls := s.calls + 1 }
  | swap {queue : PendingQueue (Task T F)} : s.pc = .entered → threadPid ∉ s.pushing →
      s.queue.swap = some queue → Steps s .swap { s with pc := .running, queue := queue }
  | run {task : Task T F} {queue : PendingQueue (Task T F)} : s.pc = .running →
      threadPid ∉ s.pushing → s.queue.pop = some (task, queue) →
      Steps s .run { s with
        queue := queue
        executed := s.executed ++ [⟨task, threadPid, s.calls⟩] }
  | leave : s.pc = .running → threadPid ∉ s.pushing → s.queue.functors = [] →
      Steps s .leave { s with pc := .testing, callingPendingFunctors_ := false }
  | queueInLoop {t : T} {cb : F} : canCall threadPid t s = true →
      Steps s (.queueInLoop t cb) (pushFunctor t cb s)
  | runHere {cb : F} : canCall threadPid threadPid s = true →
      Steps s (.runInLoop threadPid cb) { s with direct := s.direct ++ [(cb, threadPid)] }
  | runInLoop {t : T} {cb : F} : canCall threadPid t s = true → t ≠ threadPid →
      Steps s (.runInLoop t cb) (pushFunctor t cb s)
  | wakeup {t : T} : t ∈ s.pushing → t ≠ threadPid ∨ s.callingPendingFunctors_ = true →
      Steps s (.wakeupTest t) (wakeup { s with pushing := s.pushing.erase t })
  | pass : threadPid ∈ s.pushing → s.callingPendingFunctors_ = false →
      Steps s (.wakeupTest threadPid) { s with pushing := s.pushing.erase threadPid }
  | quitHere : canCall threadPid threadPid s = true →
      Steps s (.quit threadPid) { s with quit_ := true, quitRequested := true }
  | quit {t : T} : canCall threadPid t s = true → t ≠ threadPid →
      Steps s (.quit t)
        { s with quit_ := true, quitRequested := true, quitting := t :: s.quitting }
  | quitWakeup {t : T} : t ∈ s.quitting →
      Steps s (.quitWakeup t) (wakeup { s with quitting := s.quitting.erase t })

variable {threadPid}

theorem next_steps {s s' : EventLoop T F} {a : Action T F} (h : next threadPid s a = some s') :
    Steps threadPid s a s' := by
  cases a <;> simp only [next, Option.ite_none_right_eq_some, Option.some.injEq, loopAt_iff,
    Bool.not_eq_true'] at h
  case loop t =>
    obtain ⟨⟨⟨hpc, hfree⟩, hlooping, hthread⟩, rfl⟩ := h
    obtain rfl := of_decide_eq_true hthread
    exact .loop hpc hfree hlooping
  case assignQuit =>
    obtain ⟨⟨hpc, hfree⟩, rfl⟩ := h
    exact .assignQuit hpc hfree
  case test =>
    obtain ⟨⟨hpc, hfree⟩, htest⟩ := h
    split_ifs at htest with hquit <;> cases htest
    · exact .exit hpc hfree hquit
    · exact .iterate hpc hfree (Bool.eq_false_iff.mpr hquit)
  case poll =>
    obtain ⟨⟨hpc, hfree⟩, rfl⟩ := h
    exact .poll hpc hfree
  case handleRead =>
    obtain ⟨⟨⟨hpc, hfree⟩, hactive⟩, rfl⟩ := h
    exact .handleRead hpc hfree hactive
  case dopendingFunctors =>
    obtain ⟨⟨⟨hpc, hfree⟩, hactive⟩, rfl⟩ := h
    exact .dopendingFunctors hpc hfree hactive
  case swap =>
    obtain ⟨⟨hpc, hfree⟩, hswap⟩ := h
    obtain ⟨queue, hqueue, hstate⟩ := Option.bind_eq_some_iff.mp hswap
    cases hstate
    exact .swap hpc hfree hqueue
  case run =>
    obtain ⟨⟨hpc, hfree⟩, hrun⟩ := h
    obtain ⟨⟨task, queue⟩, hqueue, hstate⟩ := Option.bind_eq_some_iff.mp hrun
    cases hstate
    exact .run hpc hfree hqueue
  case leave =>
    obtain ⟨⟨⟨hpc, hfree⟩, hdone⟩, rfl⟩ := h
    exact .leave hpc hfree (List.isEmpty_iff.mp hdone)
  case queueInLoop t cb =>
    obtain ⟨hcall, rfl⟩ := h
    exact .queueInLoop hcall
  case runInLoop t cb =>
    obtain ⟨hcall, hrun⟩ := h
    split_ifs at hrun with hloop <;> cases hrun
    · subst hloop
      exact .runHere hcall
    · exact .runInLoop hcall hloop
  case wakeupTest t =>
    obtain ⟨hpushing, htest⟩ := h
    split_ifs at htest with hwrite <;> cases htest
    · exact .wakeup hpushing hwrite
    · obtain ⟨rfl, hcalling⟩ : t = threadPid ∧ s.callingPendingFunctors_ = false := by
        simpa using hwrite
      exact .pass hpushing hcalling
  case quit t =>
    obtain ⟨hcall, hquit⟩ := h
    split_ifs at hquit with hother <;> cases hquit
    · exact .quit hcall hother
    · obtain rfl := not_ne_iff.mp hother
      exact .quitHere hcall
  case quitWakeup t =>
    obtain ⟨hquitting, rfl⟩ := h
    exact .quitWakeup hquitting

end MuduoRpc.EventLoop
