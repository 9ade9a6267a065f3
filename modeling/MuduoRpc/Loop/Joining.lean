import MuduoRpc.Loop.EventLoopThread

/-!
Joining the worker. `~EventLoopThread` joins only if it still finds the loop
published in `loop_`, and the worker clears `loop_` by itself when its loop
ends. After a `quit()` from elsewhere the destructor may therefore come too
late to join.
-/

namespace MuduoRpc.EventLoopThread

variable {T F : Type*}

/-- The thread with the record of its `join()`. -/
structure Recorded (T F : Type*) where
  thread : EventLoopThread T F
  joined : Bool

/-- The destructor is through, and the worker was started and never joined:
`~std::thread` ends the process. -/
def Terminates (s : Recorded T F) : Prop :=
  s.thread.owner = .destroyed ∧ s.thread.worker ≠ .absent ∧ s.joined = false

def Action.isJoin : Action T F → Bool
  | .join => true
  | _ => false

section Model

variable [DecidableEq T] (workerPid ownerPid : T)

def Recorded.system : Transition.System (Recorded T F) (Action T F) where
  init s := s.thread = new ∧ s.joined = false
  next s a := do
    let thread ← s.thread.next workerPid ownerPid a
    some ⟨thread, s.joined || a.isJoin⟩

end Model

/-- When the destructor tests `loop_`, the worker has not yet come to the end
of `threadFunc`. -/
def destroysInTime (s : Recorded T F) (a : Action T F) : Prop :=
  a = .destructor → s.thread.worker ≠ .finished

/-- The loop is published while the worker is in it, and the owner gets hold
of it only then. -/
structure Published (s : EventLoopThread T F) : Prop where
  loop_ : s.loop_ = true ↔ s.worker = .published ∨ s.worker = .looping ∨ s.worker = .returned
  idle : s.owner = .idle → s.worker = .absent
  started : s.owner = .started →
    s.worker ≠ .absent ∧ s.worker ≠ .spawned ∧ s.worker ≠ .constructed

/-- The destructor has ended only after a `join()` or without a worker. -/
def Joined (s : Recorded T F) : Prop :=
  s.thread.owner = .destroyed →
    s.thread.worker = .absent ∨ s.thread.worker = .finished ∧ s.joined = true

variable {s s' : EventLoopThread T F}

/-- What a step can do to the two threads and to `loop_`. -/
inductive Hands (s s' : EventLoopThread T F) : Action T F → Prop
  | startLoop : s.owner = .idle → s' = { s with owner := .waiting, worker := .spawned } →
      Hands s s' .startLoop
  | startLoopReturns : s.owner = .waiting → s.loop_ = true → s' = { s with owner := .started } →
      Hands s s' .startLoopReturns
  | closing : s.owner = .idle ∨ s.owner = .started → s.loop_ = true →
      s' = { s with owner := .closing } → Hands s s' .destructor
  | destroyed : s.owner = .idle ∨ s.owner = .started → s.loop_ = false →
      s' = { s with owner := .destroyed } → Hands s s' .destructor
  | join : s.owner = .joining → s.worker = .finished → s' = { s with owner := .destroyed } →
      Hands s s' .join
  | quit {a : Action T F} : s.owner = .closing → s'.owner = .quitting → s'.worker = s.worker →
      s'.loop_ = s.loop_ → a.isJoin = false → Hands s s' a
  | quitWakeup {a : Action T F} : s.owner = .quitting → s'.owner = .joining →
      s'.worker = s.worker → s'.loop_ = s.loop_ → a.isJoin = false → Hands s s' a
  | construct : s.worker = .spawned → s'.owner = s.owner → s'.worker = .constructed →
      s'.loop_ = s.loop_ → Hands s s' .construct
  | publish : s.worker = .constructed → s'.owner = s.owner → s'.worker = .published →
      s'.loop_ = true → Hands s s' .publish
  | enter {a : EventLoop.Action T F} : s.worker = .published → s'.owner = s.owner →
      s'.worker = .looping → s'.loop_ = s.loop_ → Hands s s' (.eventLoop a)
  | loopReturns : s.worker = .looping → s'.owner = s.owner → s'.worker = .returned →
      s'.loop_ = s.loop_ → Hands s s' .loopReturns
  | clear : s.worker = .returned → s'.owner = s.owner → s'.worker = .finished →
      s'.loop_ = false → Hands s s' .clear
  | eventLoop {a : EventLoop.Action T F} : s'.owner = s.owner → s'.worker = s.worker →
      s'.loop_ = s.loop_ → Hands s s' (.eventLoop a)

theorem Published.step {a : Action T F} (h : Published s) (hands : Hands s s' a) :
    Published s' := by
  have hloop := h.loop_
  cases hands with
  | startLoop howner hs =>
      have habsent := h.idle howner
      subst hs
      refine ⟨?_, nofun, nofun⟩
      simpa [habsent] using hloop
  | startLoopReturns howner hset hs =>
      subst hs
      refine ⟨hloop, nofun, fun _ => ?_⟩
      rcases hloop.mp hset with hworker | hworker | hworker <;> simp [hworker]
  | closing _ _ hs | destroyed _ _ hs | join _ _ hs =>
      subst hs
      exact ⟨hloop, nofun, nofun⟩
  | quit _ howner' hworker' hloop' | quitWakeup _ howner' hworker' hloop' =>
      refine ⟨by rw [hloop', hworker']; exact hloop, ?_, ?_⟩ <;> rw [howner'] <;> exact nofun
  | construct hworker howner' hworker' hloop' =>
      refine ⟨by rw [hloop', hworker']; simpa [hworker] using hloop, ?_, ?_⟩
      · rw [howner']
        exact fun howner => absurd (h.idle howner) (by simp [hworker])
      · rw [howner']
        exact fun howner => absurd hworker (h.started howner).2.1
  | publish hworker howner' hworker' hloop' =>
      refine ⟨by simp [hloop', hworker'], ?_, by simp [hworker']⟩
      rw [howner']
      exact fun howner => absurd (h.idle howner) (by simp [hworker])
  | enter hworker howner' hworker' hloop' =>
      refine ⟨by rw [hloop', hworker']; simpa [hworker] using hloop, ?_, by simp [hworker']⟩
      rw [howner']
      exact fun howner => absurd (h.idle howner) (by simp [hworker])
  | loopReturns hworker howner' hworker' hloop' =>
      refine ⟨by rw [hloop', hworker']; simpa [hworker] using hloop, ?_, by simp [hworker']⟩
      rw [howner']
      exact fun howner => absurd (h.idle howner) (by simp [hworker])
  | clear hworker howner' hworker' hloop' =>
      refine ⟨by simp [hloop', hworker'], ?_, by simp [hworker']⟩
      rw [howner']
      exact fun howner => absurd (h.idle howner) (by simp [hworker])
  | eventLoop howner' hworker' hloop' =>
      refine ⟨by rw [hloop', hworker']; exact hloop, ?_, ?_⟩ <;> rw [howner', hworker']
      · exact h.idle
      · exact h.started

/-- What no step undoes: an absent worker stays absent once the owner is
through, and a finished one stays finished. -/
theorem Hands.kept {a : Action T F} (h : Hands s s' a) (howner : s.owner = .destroyed)
    (hworker : s.worker = .absent ∨ s.worker = .finished) :
    s'.owner = .destroyed ∧ s'.worker = s.worker := by
  cases h with
  | startLoop hidle _ => cases howner.symm.trans hidle
  | startLoopReturns hwaiting _ _ => cases howner.symm.trans hwaiting
  | closing hbefore _ _ | destroyed hbefore _ _ =>
      rcases hbefore with hbefore | hbefore <;> cases howner.symm.trans hbefore
  | join hjoining _ _ => cases howner.symm.trans hjoining
  | quit hclosing _ _ _ _ => cases howner.symm.trans hclosing
  | quitWakeup hquitting _ _ _ _ => cases howner.symm.trans hquitting
  | construct hbefore _ _ _ | publish hbefore _ _ _ | enter hbefore _ _ _
  | loopReturns hbefore _ _ _ | clear hbefore _ _ _ =>
      rcases hworker with hworker | hworker <;> cases hworker.symm.trans hbefore
  | eventLoop howner' hworker' _ => exact ⟨howner'.trans howner, hworker'⟩

/-- A step after which the owner is through. -/
theorem Hands.destroys {a : Action T F} (h : Hands s s' a) (hbefore : s.owner ≠ .destroyed)
    (hafter : s'.owner = .destroyed) :
    a = .destructor ∧ (s.owner = .idle ∨ s.owner = .started) ∧ s.loop_ = false ∧
        s'.worker = s.worker ∨ a.isJoin = true ∧ s'.worker = .finished := by
  cases h with
  | startLoop _ hs | startLoopReturns _ _ hs | closing _ _ hs =>
      subst hs
      cases hafter
  | destroyed howner hloop hs =>
      subst hs
      exact .inl ⟨rfl, howner, hloop, rfl⟩
  | join _ hworker hs =>
      subst hs
      exact .inr ⟨rfl, hworker⟩
  | quit _ howner' _ _ _ | quitWakeup _ howner' _ _ _ => cases howner'.symm.trans hafter
  | construct _ howner' _ _ | publish _ howner' _ _ | enter _ howner' _ _
  | loopReturns _ howner' _ _ | clear _ howner' _ _ | eventLoop howner' _ _ =>
      exact absurd (howner'.symm.trans hafter) hbefore

/-- A destructor that finds `loop_` cleared and a worker that is not through
finds no worker at all. -/
theorem Published.absent (h : Published s) (howner : s.owner = .idle ∨ s.owner = .started)
    (hloop : s.loop_ = false) (hworker : s.worker ≠ .finished) : s.worker = .absent := by
  rcases howner with hidle | hstarted
  · exact h.idle hidle
  · obtain ⟨habsent, hspawned, hconstructed⟩ := h.started hstarted
    have hunset : ¬(s.worker = .published ∨ s.worker = .looping ∨ s.worker = .returned) := by
      intro hin
      rw [h.loop_.mpr hin] at hloop
      cases hloop
    cases hw : s.worker <;> simp_all

variable [DecidableEq T] {workerPid ownerPid : T}

theorem next_hands {a : Action T F} (hnext : next workerPid ownerPid s a = some s') :
    Hands s s' a := by
  cases a
  case eventLoop a =>
    by_cases henter : ∃ t, a = .loop t
    · obtain ⟨t, rfl⟩ := henter
      simp only [next, Option.ite_none_right_eq_some] at hnext
      obtain ⟨loop, _, hstate⟩ := Option.bind_eq_some_iff.mp hnext.2
      cases hstate
      exact .enter hnext.1 rfl rfl rfl
    · obtain ⟨loop, _, rfl⟩ := eventLoop_spec (fun t heq => henter ⟨t, heq⟩) hnext
      exact .eventLoop rfl rfl rfl
  all_goals simp only [next, Option.ite_none_right_eq_some, Option.some.injEq] at hnext
  case startLoop => exact .startLoop hnext.1 hnext.2.symm
  case startLoopReturns => exact .startLoopReturns hnext.1.1 hnext.1.2 hnext.2.symm
  case destructor =>
    obtain ⟨⟨howner, _⟩, htest⟩ := hnext
    split_ifs at htest with hloop <;> cases htest
    · exact .closing howner hloop rfl
    · exact .destroyed howner (Bool.eq_false_iff.mpr hloop) rfl
  case quit =>
    obtain ⟨⟨howner, _⟩, hquit⟩ := hnext
    obtain ⟨loop, _, hstate⟩ := Option.bind_eq_some_iff.mp hquit
    cases hstate
    exact .quit howner rfl rfl rfl rfl
  case quitWakeup =>
    obtain ⟨⟨howner, _⟩, hwake⟩ := hnext
    obtain ⟨loop, _, hstate⟩ := Option.bind_eq_some_iff.mp hwake
    cases hstate
    exact .quitWakeup howner rfl rfl rfl rfl
  case join => exact .join hnext.1.1 hnext.1.2 hnext.2.symm
  case construct =>
    obtain ⟨hworker, rfl⟩ := hnext
    exact .construct hworker rfl rfl rfl
  case publish =>
    obtain ⟨⟨hworker, _⟩, rfl⟩ := hnext
    exact .publish hworker rfl rfl rfl
  case loopReturns =>
    obtain ⟨⟨hworker, _⟩, rfl⟩ := hnext
    exact .loopReturns hworker rfl rfl rfl
  case clear =>
    obtain ⟨hworker, rfl⟩ := hnext
    exact .clear hworker rfl rfl rfl

/-- If the worker has not ended by itself when the destructor tests `loop_`,
the destructor joins it. -/
theorem joined_of_destroysInTime {r : Recorded T F}
    (h : (Recorded.system workerPid ownerPid).ReachableVia destroysInTime r) :
    Joined r ∧ ¬Terminates r := by
  have hjoined : Published r.thread ∧ Joined r := by
    apply h.invariant (I := fun r => Published r.thread ∧ Joined r)
    · rintro ⟨_, _⟩ ⟨rfl, rfl⟩
      exact ⟨⟨by simp [new], fun _ => rfl, nofun⟩, nofun⟩
    · rintro ⟨s, joined⟩ a r' ⟨hpublished, hi⟩ hguard hnext
      obtain ⟨s', hthread, hstate⟩ := Option.bind_eq_some_iff.mp hnext
      cases hstate
      have hands := next_hands hthread
      refine ⟨hpublished.step hands, ?_⟩
      intro hafter
      by_cases hbefore : s.owner = .destroyed
      · rcases hi hbefore with habsent | ⟨hfinished, hset⟩
        · exact .inl ((hands.kept hbefore (.inl habsent)).2.trans habsent)
        · right
          refine ⟨(hands.kept hbefore (.inr hfinished)).2.trans hfinished, ?_⟩
          exact Bool.or_eq_true_iff.mpr (.inl hset)
      · rcases hands.destroys hbefore hafter with ⟨rfl, howner, hloop, hsame⟩ | ⟨hjoin, hfinished⟩
        · left
          exact hsame.trans (hpublished.absent howner hloop (hguard rfl))
        · exact .inr ⟨hfinished, Bool.or_eq_true_iff.mpr (.inr hjoin)⟩
  refine ⟨hjoined.2, ?_⟩
  rintro ⟨howner, hworker, hset⟩
  rcases hjoined.2 howner with habsent | ⟨_, hjoin⟩
  · exact hworker habsent
  · cases hset.symm.trans hjoin

instance [DecidableEq F] (r : Recorded T F) (a : Action T F) : Decidable (destroysInTime r a) :=
  inferInstanceAs (Decidable (_ → _))

/-- The owner destroys the thread while the worker polls, and joins it. -/
theorem joined_of_destroysInTime_polling : ∃ r : Recorded Nat Nat,
    (r.thread.owner = .destroyed ∧ r.thread.worker = .finished) ∧ Joined r ∧ ¬Terminates r := by
  obtain ⟨r, hreach, hr⟩ : ∃ r, (Recorded.system (F := Nat) 0 1).ReachableVia destroysInTime r ∧
      (r.thread.owner = .destroyed ∧ r.thread.worker = .finished) :=
    Transition.System.exists_of_exec _ ⟨new, false⟩
      [.startLoop, .construct, .publish, .startLoopReturns, .eventLoop (.loop 0),
        .eventLoop .assignQuit, .eventLoop .test, .destructor, .quit, .quitWakeup,
        .eventLoop .poll, .eventLoop .handleRead, .eventLoop .dopendingFunctors,
        .eventLoop .swap, .eventLoop .leave, .eventLoop .test, .loopReturns, .clear, .join]
      ⟨rfl, rfl⟩ (by decide)
  exact ⟨r, hr, joined_of_destroysInTime hreach⟩

/-- A third thread quits the loop and the worker returns before the owner
destroys the thread: `loop_` is null, and nothing is joined. -/
theorem not_joined_after_quit : ∃ r : Recorded Nat Nat,
    (Recorded.system 0 1).Reachable r ∧ r.thread.worker = .finished ∧ Terminates r := by
  obtain ⟨r, hreach, howner, hworker, hjoined⟩ : ∃ r, (Recorded.system (F := Nat) 0 1).Reachable r ∧
      r.thread.owner = .destroyed ∧ r.thread.worker = .finished ∧ r.joined = false :=
    Transition.System.exists_of_exec _ ⟨new, false⟩
      [.startLoop, .construct, .publish, .startLoopReturns, .eventLoop (.loop 0),
        .eventLoop .assignQuit, .eventLoop .test, .eventLoop (.quit 2),
        .eventLoop (.quitWakeup 2), .eventLoop .poll, .eventLoop .handleRead,
        .eventLoop .dopendingFunctors, .eventLoop .swap, .eventLoop .leave, .eventLoop .test,
        .loopReturns, .clear, .destructor] ⟨rfl, rfl⟩ (by decide)
  exact ⟨r, hreach, hworker, howner, by simp [hworker], hjoined⟩

/-- The call `quit()` on the published loop, other than by the destructor. -/
def Action.quitsLoop : Action T F → Bool
  | .eventLoop (.quit _) => true
  | _ => false

/-- The destructor has called `quit()`. -/
def Quitting (s : EventLoopThread T F) : Prop :=
  s.owner = .quitting ∨ s.owner = .joining ∨ s.owner = .destroyed

/-- Only the destructor ends the loop. -/
structure EndsByOwner (s : EventLoopThread T F) : Prop where
  quit_ : s.loop.quit_ = true → Quitting s
  looping : s.worker = .looping → s.loop.pc = .outside → Quitting s
  ended : s.worker = .returned ∨ s.worker = .finished → Quitting s

section Loop

variable {threadPid : T} {loop loop' : EventLoop T F}

/-- Only `quit()` sets the flag. -/
theorem quit_of_step {a : EventLoop.Action T F} (hnext : loop.next threadPid a = some loop')
    (hquit : ∀ t, a ≠ .quit t) (hafter : loop'.quit_ = true) : loop.quit_ = true := by
  cases EventLoop.next_steps hnext with
  | assignQuit => cases hafter
  | quitHere | quit => exact absurd rfl (hquit _)
  | _ => exact hafter

/-- `loop()` returns only with the flag set. -/
theorem quit_of_exit {a : EventLoop.Action T F} (hnext : loop.next threadPid a = some loop')
    (hbefore : loop.pc ≠ .outside) (hafter : loop'.pc = .outside) : loop.quit_ = true := by
  cases EventLoop.next_steps hnext with
  | exit _ _ hquit => exact hquit
  | loop | assignQuit | iterate | poll | dopendingFunctors | swap | leave => cases hafter
  | _ => exact absurd hafter hbefore

end Loop

omit [DecidableEq T] in
theorem Hands.quitting {a : Action T F} (h : Hands s s' a) (hquitting : Quitting s) :
    Quitting s' := by
  have hnot : ∀ owner, s.owner = owner → owner ≠ .idle ∧ owner ≠ .waiting ∧ owner ≠ .started ∧
      owner ≠ .closing := by
    rintro owner rfl
    rcases hquitting with howner | howner | howner <;> simp [howner]
  cases h with
  | startLoop howner _ => exact absurd rfl (hnot _ howner).1
  | startLoopReturns howner _ _ => exact absurd rfl (hnot _ howner).2.1
  | closing howner _ _ | destroyed howner _ _ =>
      rcases howner with howner | howner
      · exact absurd rfl (hnot _ howner).1
      · exact absurd rfl (hnot _ howner).2.2.1
  | join _ _ hs =>
      subst hs
      exact .inr (.inr rfl)
  | quit howner _ _ _ _ => exact absurd rfl (hnot _ howner).2.2.2
  | quitWakeup _ howner' _ _ _ => exact .inr (.inl howner')
  | construct _ howner' _ _ | publish _ howner' _ _ | enter _ howner' _ _
  | loopReturns _ howner' _ _ | clear _ howner' _ _ | eventLoop howner' _ _ =>
      rw [Quitting, howner']
      exact hquitting

/-- A step of the loop alone. -/
theorem EndsByOwner.eventLoop {a : EventLoop.Action T F} {loop : EventLoop T F}
    (h : EndsByOwner s) (hnext : s.loop.next workerPid a = some loop)
    (hquit : ∀ t, a ≠ .quit t) : EndsByOwner { s with loop := loop } := by
  refine ⟨fun hset => h.quit_ (quit_of_step hnext hquit hset), ?_, h.ended⟩
  intro hworker hafter
  by_cases hbefore : s.loop.pc = .outside
  · exact h.looping hworker hbefore
  · exact h.quit_ (quit_of_exit hnext hbefore hafter)

theorem EndsByOwner.step {a : Action T F} (h : EndsByOwner s) (hquit : a.quitsLoop = false)
    (hnext : next workerPid ownerPid s a = some s') : EndsByOwner s' := by
  have hquitting := (next_hands hnext).quitting
  cases a
  case eventLoop a =>
    by_cases henter : ∃ t, a = .loop t
    · obtain ⟨t, rfl⟩ := henter
      simp only [next, Option.ite_none_right_eq_some] at hnext
      obtain ⟨loop, hloop, hstate⟩ := Option.bind_eq_some_iff.mp hnext.2
      cases hstate
      obtain ⟨hpc, _, hflag⟩ := EventLoop.loop_spec hloop
      refine ⟨fun hset => h.quit_ (hflag ▸ hset), ?_, by simp⟩
      intro _ hafter
      cases hpc.symm.trans hafter
    · have hloop : ∀ t, a ≠ .loop t := fun t heq => henter ⟨t, heq⟩
      obtain ⟨loop, hstep, rfl⟩ := eventLoop_spec hloop hnext
      apply h.eventLoop hstep
      rintro t rfl
      cases hquit
  all_goals simp only [next, Option.ite_none_right_eq_some, Option.some.injEq] at hnext
  case startLoop =>
    obtain ⟨_, rfl⟩ := hnext
    exact ⟨fun hset => hquitting (h.quit_ hset), by simp, by simp⟩
  case startLoopReturns | join =>
    obtain ⟨_, rfl⟩ := hnext
    exact ⟨fun hset => hquitting (h.quit_ hset), fun hworker hpc => hquitting (h.looping hworker hpc),
      fun hended => hquitting (h.ended hended)⟩
  case destructor =>
    obtain ⟨_, htest⟩ := hnext
    split_ifs at htest <;> cases htest <;>
      exact ⟨fun hset => hquitting (h.quit_ hset),
        fun hworker hpc => hquitting (h.looping hworker hpc), fun hended => hquitting (h.ended hended)⟩
  case quit =>
    obtain ⟨_, hcall⟩ := hnext
    obtain ⟨loop, _, hstate⟩ := Option.bind_eq_some_iff.mp hcall
    cases hstate
    exact ⟨fun _ => .inl rfl, fun _ _ => .inl rfl, fun _ => .inl rfl⟩
  case quitWakeup =>
    obtain ⟨_, hcall⟩ := hnext
    obtain ⟨loop, _, hstate⟩ := Option.bind_eq_some_iff.mp hcall
    cases hstate
    exact ⟨fun _ => .inr (.inl rfl), fun _ _ => .inr (.inl rfl), fun _ => .inr (.inl rfl)⟩
  case construct =>
    obtain ⟨_, rfl⟩ := hnext
    exact ⟨by simp [EventLoop.new], by simp, by simp⟩
  case publish =>
    obtain ⟨_, rfl⟩ := hnext
    exact ⟨h.quit_, by simp, by simp⟩
  case loopReturns =>
    obtain ⟨⟨hworker, hpc⟩, rfl⟩ := hnext
    exact ⟨h.quit_, by simp, fun _ => h.looping hworker hpc⟩
  case clear =>
    obtain ⟨hworker, rfl⟩ := hnext
    exact ⟨h.quit_, by simp, fun _ => h.ended (.inl hworker)⟩

/-- The destructor runs only before it has called `quit()`. -/
theorem not_quitting_of_destructor (hnext : next workerPid ownerPid s .destructor = some s') :
    ¬Quitting s := by
  have howner : s.owner = .idle ∨ s.owner = .started := by
    cases next_hands hnext with
    | closing howner _ _ | destroyed howner _ _ => exact howner
    | quit _ _ _ _ hjoin | quitWakeup _ _ _ _ hjoin =>
        simp only [next, Option.ite_none_right_eq_some] at hnext
        exact hnext.1.1
  rintro (hquitting | hjoining | hdestroyed) <;> rcases howner with howner | howner <;> simp_all

/-- Without a `quit()` from elsewhere the destructor always comes in time. -/
theorem joined_of_no_quit {r : Recorded T F}
    (h : (Recorded.system workerPid ownerPid).ReachableVia
      (fun _ a => a.quitsLoop = false) r) : Joined r ∧ ¬Terminates r := by
  have hboth : EndsByOwner r.thread ∧
      (Recorded.system workerPid ownerPid).ReachableVia destroysInTime r := by
    apply h.invariant (I := fun r => EndsByOwner r.thread ∧
      (Recorded.system workerPid ownerPid).ReachableVia destroysInTime r)
    · rintro ⟨_, _⟩ ⟨rfl, rfl⟩
      exact ⟨⟨nofun, nofun, by simp [new]⟩, .start ⟨rfl, rfl⟩⟩
    · rintro r a r' ⟨hends, hreach⟩ hquit hnext
      obtain ⟨s', hthread, hstate⟩ := Option.bind_eq_some_iff.mp hnext
      have hintime : destroysInTime r a := by
        rintro rfl hfinished
        exact not_quitting_of_destructor hthread (hends.ended (.inr hfinished))
      refine ⟨?_, hreach.step hintime hnext⟩
      cases hstate
      exact hends.step hquit hthread
  exact joined_of_destroysInTime hboth.2

end MuduoRpc.EventLoopThread
