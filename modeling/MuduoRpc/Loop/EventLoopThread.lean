import MuduoRpc.Loop.Steps

/-!
`EventLoopThread`: an owner that starts a worker, and a worker that constructs
an `EventLoop`, publishes it in `loop_` and runs it. `startLoop` returns as
soon as the loop is published, so the owner's `quit()` may come before the
worker has entered `loop()`, whose `quit_ = false` then undoes it.
-/

namespace MuduoRpc

/-- What the worker has done in `threadFunc`. From `constructed` on the loop
exists and its init callback runs. -/
inductive EventLoopThread.Worker
  | absent
  | spawned
  | constructed
  | published
  | looping
  | returned
  | finished
deriving DecidableEq, Repr

/-- Where the owner stands in `startLoop` and the destructor. -/
inductive EventLoopThread.Owner
  | idle
  | waiting
  | started
  | closing
  | quitting
  | joining
  | destroyed
deriving DecidableEq, Repr

structure EventLoopThread (T F : Type*) where
  loop : EventLoop T F
  loop_ : Bool
  worker : EventLoopThread.Worker
  owner : EventLoopThread.Owner
deriving DecidableEq, Repr

namespace EventLoop

variable {T F : Type*} [DecidableEq T] {threadPid : T} {s s' : EventLoop T F}

/-- The loop thread is past the assignment `quit_ = false` of `loop()`. -/
def InWhile (pc : Pc) : Prop := pc ≠ .outside ∧ pc ≠ .starting

/-- What a step can do to the position in `loop()` and to the quit flag. -/
inductive Control (s s' : EventLoop T F) : Action T F → Prop
  | enter {t : T} : s.pc = .outside → s'.pc = .starting →
      s'.quitRequested = s.quitRequested → s'.quit_ = s.quit_ → Control s s' (.loop t)
  | assign : s.pc = .starting → InWhile s'.pc →
      s'.quitRequested = s.quitRequested → s'.quit_ = false → Control s s' .assignQuit
  | exit : InWhile s.pc → s'.pc = .outside → s'.quitRequested = false → Control s s' .test
  | quit {t : T} : s'.pc = s.pc → s'.quitRequested = true → s'.quit_ = true →
      Control s s' (.quit t)
  | iterate {a : Action T F} : InWhile s.pc → InWhile s'.pc →
      s'.quitRequested = s.quitRequested → s'.quit_ = s.quit_ → Control s s' a
  | call {a : Action T F} : s'.pc = s.pc → s'.quitRequested = s.quitRequested →
      s'.quit_ = s.quit_ → Control s s' a

theorem loop_spec {t : T} (hnext : next threadPid s (.loop t) = some s') :
    s'.pc = .starting ∧ s'.quitRequested = s.quitRequested ∧ s'.quit_ = s.quit_ := by
  cases next_steps hnext with
  | loop => exact ⟨rfl, rfl, rfl⟩

theorem quit_spec {t : T} (hnext : next threadPid s (.quit t) = some s') :
    s'.pc = s.pc ∧ s'.quitRequested = true ∧ s'.quit_ = true := by
  cases next_steps hnext with
  | quitHere | quit => exact ⟨rfl, rfl, rfl⟩

theorem control_step {a : Action T F} (hnext : next threadPid s a = some s') :
    Control s s' a := by
  cases next_steps hnext with
  | loop hpc => exact .enter hpc rfl rfl rfl
  | assignQuit hpc => exact .assign hpc (by simp [InWhile]) rfl rfl
  | exit hpc => exact .exit (by simp [InWhile, hpc]) rfl rfl
  | iterate hpc | poll hpc | dopendingFunctors hpc | swap hpc | leave hpc =>
      exact .iterate (by simp [InWhile, hpc]) (by simp [InWhile]) rfl rfl
  | quitHere | quit => exact .quit rfl rfl rfl
  | handleRead | run | queueInLoop | runHere | runInLoop | wakeup | pass | quitWakeup =>
      exact .call rfl rfl rfl

end EventLoop

namespace EventLoopThread

open EventLoop (InWhile Control)

variable {T F : Type*}

def new : EventLoopThread T F where
  loop := .new
  loop_ := false
  worker := .absent
  owner := .idle

/-- The steps of the owner and of the worker outside `loop()`. `eventLoop` is
a step inside `loop()`, or of a call on the loop by any thread. -/
inductive Action (T F : Type*)
  | startLoop
  | startLoopReturns
  | destructor
  | quit
  | quitWakeup
  | join
  | construct
  | publish
  | loopReturns
  | clear
  | eventLoop (a : EventLoop.Action T F)
deriving DecidableEq, Repr

/-- The thread that makes the call, for the calls on the loop. -/
def caller : EventLoop.Action T F → Option T
  | .queueInLoop t _ | .runInLoop t _ | .wakeupTest t | .quit t | .quitWakeup t => some t
  | _ => none

def alive (s : EventLoopThread T F) : Bool :=
  s.worker = .constructed || s.worker = .published || s.worker = .looping ||
    s.worker = .returned

section Model

variable [DecidableEq T] (workerPid ownerPid : T)

/-- `loop_` is read without the lock in the destructor. A call on a loop that
the worker has already destroyed has no defined result and is not a step. -/
def next (s : EventLoopThread T F) : Action T F → Option (EventLoopThread T F)
  | .startLoop =>
      if s.owner = .idle then some { s with owner := .waiting, worker := .spawned } else none
  | .startLoopReturns =>
      if s.owner = .waiting ∧ s.loop_ then some { s with owner := .started } else none
  | .destructor =>
      if (s.owner = .idle ∨ s.owner = .started) ∧ ownerPid ∉ s.loop.pushing ∧
          ownerPid ∉ s.loop.quitting then
        if s.loop_ then some { s with owner := .closing }
        else some { s with owner := .destroyed }
      else none
  | .quit =>
      if s.owner = .closing ∧ alive s then do
        let loop ← s.loop.next workerPid (.quit ownerPid)
        some { s with owner := .quitting, loop := loop }
      else none
  | .quitWakeup =>
      if s.owner = .quitting ∧ alive s then do
        let loop ← s.loop.next workerPid (.quitWakeup ownerPid)
        some { s with owner := .joining, loop := loop }
      else none
  | .join =>
      if s.owner = .joining ∧ s.worker = .finished then some { s with owner := .destroyed }
      else none
  | .construct =>
      if s.worker = .spawned then some { s with worker := .constructed, loop := .new } else none
  | .publish =>
      if s.worker = .constructed ∧ workerPid ∉ s.loop.pushing then
        some { s with worker := .published, loop_ := true }
      else none
  | .loopReturns =>
      if s.worker = .looping ∧ s.loop.pc = .outside then some { s with worker := .returned }
      else none
  | .clear =>
      if s.worker = .returned then some { s with worker := .finished, loop_ := false } else none
  | .eventLoop (.loop t) =>
      if s.worker = .published then do
        let loop ← s.loop.next workerPid (.loop t)
        some { s with worker := .looping, loop := loop }
      else none
  | .eventLoop a =>
      if alive s ∧ (caller a = some ownerPid → s.owner = .started) then do
        let loop ← s.loop.next workerPid a
        some { s with loop := loop }
      else none

def system : Transition.System (EventLoopThread T F) (Action T F) where
  init s := s = new
  next := next workerPid ownerPid

end Model

variable {s s' : EventLoopThread T F}

/-- `quit()` is executed on the loop only when `loop()` is past its assignment
`quit_ = false`. -/
def quitsAfterStart (s : EventLoopThread T F) : Action T F → Bool
  | .quit | .eventLoop (.quit _) =>
      (s.worker = .looping || s.worker = .returned) && s.loop.pc ≠ .starting
  | _ => true

/-- The owner waits in `join()` while the worker iterates and has not been
told to stop. -/
def Hangs (s : EventLoopThread T F) : Prop :=
  s.owner = .joining ∧ s.worker = .looping ∧ InWhile s.loop.pc ∧ s.loop.quit_ = false

/-- The loop has not been entered yet. -/
def Early (s : EventLoopThread T F) : Prop :=
  s.worker ≠ .looping ∧ s.worker ≠ .returned ∧ s.worker ≠ .finished

structure QuitKept (s : EventLoopThread T F) : Prop where
  early : Early s → s.loop.pc = .outside ∧ s.loop.quitRequested = false
  starting : s.loop.pc = .starting → s.loop.quitRequested = false
  kept : s.loop.quitRequested = true → s.loop.quit_ = true
  looping : s.loop.pc ≠ .outside → s.worker = .looping
  joining : s.owner = .quitting ∨ s.owner = .joining →
    ¬Early s ∧ s.loop.pc ≠ .starting ∧ (s.loop.pc = .outside ∨ s.loop.quitRequested = true)
  idle : s.owner = .idle → s.worker = .absent

/-- A step of the loop other than the call of `loop()`. -/
theorem QuitKept.control (h : QuitKept s) {loop : EventLoop T F} {a : EventLoop.Action T F}
    (hcontrol : Control s.loop loop a) (hloop : ∀ t, a ≠ .loop t)
    (hquit : ∀ t, a = .quit t → ¬Early s ∧ s.loop.pc ≠ .starting) :
    QuitKept { s with loop := loop } := by
  cases hcontrol with
  | @enter t => exact absurd rfl (hloop t)
  | assign hpc hin hrequested hflag =>
      have hnot := h.starting hpc
      have hworker := h.looping (by simp [hpc])
      refine ⟨fun hearly => absurd hworker hearly.1, fun hstart => absurd hstart hin.2, ?_,
        fun _ => hworker, fun howner => absurd hpc (h.joining howner).2.1, h.idle⟩
      intro hset
      rw [hrequested, hnot] at hset
      cases hset
  | exit hin hpc hrequested =>
      have hworker := h.looping hin.1
      refine ⟨fun hearly => absurd hworker hearly.1, fun _ => hrequested, ?_,
        fun hout => absurd hpc hout, ?_, h.idle⟩
      · intro hset
        rw [hrequested] at hset
        cases hset
      · exact fun howner => ⟨(h.joining howner).1, by simp [hpc], .inl hpc⟩
  | @quit t hpc hrequested hflag =>
      obtain ⟨hentered, hstarted⟩ := hquit t rfl
      refine ⟨fun hearly => absurd hearly hentered, ?_, fun _ => hflag, ?_, ?_, h.idle⟩
      · exact fun hstart => absurd (hpc ▸ hstart) hstarted
      · exact fun hout => h.looping (hpc ▸ hout)
      · exact fun _ => ⟨hentered, by rwa [hpc], .inr hrequested⟩
  | iterate hin hin' hrequested hflag =>
      have hworker := h.looping hin.1
      refine ⟨fun hearly => absurd hworker hearly.1, fun hstart => absurd hstart hin'.2, ?_,
        fun _ => hworker, ?_, h.idle⟩
      · rw [hrequested, hflag]
        exact h.kept
      · intro howner
        rcases h.joining howner with ⟨hentered, _, hout | hset⟩
        · exact absurd hout hin.1
        · exact ⟨hentered, hin'.2, .inr (hrequested ▸ hset)⟩
  | call hpc hrequested hflag =>
      refine ⟨?_, ?_, ?_, ?_, ?_, h.idle⟩
      · rw [hpc, hrequested]
        exact h.early
      · rw [hpc, hrequested]
        exact h.starting
      · rw [hrequested, hflag]
        exact h.kept
      · rw [hpc]
        exact h.looping
      · rw [hpc, hrequested]
        exact h.joining

theorem late_of_guard {t : T} (hguard : quitsAfterStart s (.eventLoop (.quit t)) = true) :
    ¬Early s ∧ s.loop.pc ≠ .starting := by
  simp only [quitsAfterStart, Bool.and_eq_true, Bool.or_eq_true, decide_eq_true_eq] at hguard
  obtain ⟨hworker, hpc⟩ := hguard
  exact ⟨fun hearly => hworker.elim hearly.1 hearly.2.1, hpc⟩

variable [DecidableEq T] {workerPid ownerPid : T}

theorem eventLoop_spec {a : EventLoop.Action T F} (hloop : ∀ t, a ≠ .loop t)
    (hnext : next workerPid ownerPid s (.eventLoop a) = some s') :
    ∃ loop, s.loop.next workerPid a = some loop ∧ s' = { s with loop := loop } := by
  cases a
  case loop t => exact absurd rfl (hloop t)
  all_goals
    simp only [next, Option.ite_none_right_eq_some] at hnext
    obtain ⟨loop, hstep, hstate⟩ := Option.bind_eq_some_iff.mp hnext.2
    exact ⟨loop, hstep, (Option.some.inj hstate).symm⟩

theorem quitKept_eventLoop {a : EventLoop.Action T F} (h : QuitKept s)
    (hguard : quitsAfterStart s (.eventLoop a) = true)
    (hnext : next workerPid ownerPid s (.eventLoop a) = some s') : QuitKept s' := by
  by_cases henter : ∃ t, a = .loop t
  · obtain ⟨t, rfl⟩ := henter
    simp only [next, Option.ite_none_right_eq_some] at hnext
    obtain ⟨hworker, hcall⟩ := hnext
    obtain ⟨loop, hloop, hstate⟩ := Option.bind_eq_some_iff.mp hcall
    cases hstate
    obtain ⟨hpc, hrequested, hflag⟩ := EventLoop.loop_spec hloop
    have hearly : Early s := by simp [Early, hworker]
    have hnot : loop.quitRequested = false := hrequested.trans (h.early hearly).2
    refine ⟨by simp [Early], fun _ => hnot, by simp [hnot], fun _ => rfl, ?_, ?_⟩
    · exact fun howner => absurd hearly (h.joining howner).1
    · exact fun howner => absurd (h.idle howner) (by simp [hworker])
  · have hloop : ∀ t, a ≠ .loop t := fun t heq => henter ⟨t, heq⟩
    obtain ⟨loop, hstep, rfl⟩ := eventLoop_spec hloop hnext
    refine h.control (EventLoop.control_step hstep) hloop ?_
    rintro t rfl
    exact late_of_guard hguard

theorem quitKept_step {a : Action T F} (h : QuitKept s) (hguard : quitsAfterStart s a = true)
    (hnext : next workerPid ownerPid s a = some s') : QuitKept s' := by
  cases a
  case eventLoop a => exact quitKept_eventLoop h hguard hnext
  all_goals simp only [next, Option.ite_none_right_eq_some, Option.some.injEq] at hnext
  case startLoop =>
    obtain ⟨howner, rfl⟩ := hnext
    have hearly := h.early (by simp [Early, h.idle howner])
    refine ⟨fun _ => hearly, ?_, ?_, ?_, ?_, ?_⟩ <;> simp [hearly]
  case startLoopReturns =>
    obtain ⟨_, rfl⟩ := hnext
    exact ⟨h.early, h.starting, h.kept, h.looping, by simp, by simp⟩
  case destructor =>
    obtain ⟨_, hclose⟩ := hnext
    split_ifs at hclose <;> cases hclose <;>
      exact ⟨h.early, h.starting, h.kept, h.looping, by simp, by simp⟩
  case quit =>
    obtain ⟨_, hquit⟩ := hnext
    obtain ⟨loop, hloop, hstate⟩ := Option.bind_eq_some_iff.mp hquit
    cases hstate
    obtain ⟨hpc, hrequested, _⟩ := EventLoop.quit_spec hloop
    obtain ⟨hlate, hstarted⟩ := late_of_guard (t := ownerPid) hguard
    have hcontrol := h.control (EventLoop.control_step hloop) (by simp)
      fun _ _ => ⟨hlate, hstarted⟩
    exact ⟨hcontrol.early, hcontrol.starting, hcontrol.kept, hcontrol.looping,
      fun _ => ⟨hlate, fun hstart => hstarted (hpc ▸ hstart), .inr hrequested⟩, by simp⟩
  case quitWakeup =>
    obtain ⟨⟨howner, _⟩, hwake⟩ := hnext
    obtain ⟨loop, hloop, hstate⟩ := Option.bind_eq_some_iff.mp hwake
    cases hstate
    have hcontrol := h.control (EventLoop.control_step hloop) (by simp) (by simp)
    exact ⟨hcontrol.early, hcontrol.starting, hcontrol.kept, hcontrol.looping,
      fun _ => hcontrol.joining (.inl howner), by simp⟩
  case join =>
    obtain ⟨_, rfl⟩ := hnext
    exact ⟨h.early, h.starting, h.kept, h.looping, by simp, by simp⟩
  case construct =>
    obtain ⟨hworker, rfl⟩ := hnext
    have hearly : Early s := by simp [Early, hworker]
    refine ⟨fun _ => ⟨rfl, rfl⟩, fun _ => rfl, ?_, fun hout => absurd rfl hout, ?_, ?_⟩
    · exact fun hset => by cases hset
    · exact fun howner => absurd hearly (h.joining howner).1
    · exact fun howner => absurd (h.idle howner) (by simp [hworker])
  case publish =>
    obtain ⟨⟨hworker, _⟩, rfl⟩ := hnext
    have hearly : Early s := by simp [Early, hworker]
    refine ⟨fun _ => h.early hearly, h.starting, h.kept, ?_, ?_, ?_⟩
    · exact fun hout => absurd (h.early hearly).1 hout
    · exact fun howner => absurd hearly (h.joining howner).1
    · exact fun howner => absurd (h.idle howner) (by simp [hworker])
  case loopReturns =>
    obtain ⟨⟨hworker, hpc⟩, rfl⟩ := hnext
    refine ⟨by simp [Early], h.starting, h.kept, fun hout => absurd hpc hout, ?_, ?_⟩
    · exact fun howner => ⟨by simp [Early], (h.joining howner).2⟩
    · exact fun howner => absurd (h.idle howner) (by simp [hworker])
  case clear =>
    obtain ⟨hworker, rfl⟩ := hnext
    refine ⟨by simp [Early], h.starting, h.kept, ?_, ?_, ?_⟩
    · exact fun hout => absurd (h.looping hout) (by simp [hworker])
    · exact fun howner => ⟨by simp [Early], (h.joining howner).2⟩
    · exact fun howner => absurd (h.idle howner) (by simp [hworker])

/-- If `quit()` comes only after `quit_ = false` of `loop()`, it is not lost
and the owner does not hang. -/
theorem quit_kept_of_quitsAfterStart
    (h : (system (F := F) workerPid ownerPid).ReachableVia
      (fun s a => quitsAfterStart s a = true) s) :
    (s.loop.quitRequested = true → s.loop.quit_ = true) ∧ ¬Hangs s := by
  have hkept : QuitKept s := by
    apply h.invariant (I := QuitKept)
    · rintro _ rfl
      constructor <;> simp [new, EventLoop.new]
    · intro _ _ _ hi hguard hnext
      exact quitKept_step hi hguard hnext
  refine ⟨hkept.kept, ?_⟩
  rintro ⟨howner, _, hin, hflag⟩
  rcases hkept.joining (.inr howner) with ⟨_, _, hout | hset⟩
  · exact hin.1 hout
  · rw [hkept.kept hset] at hflag
    cases hflag

/-- The owner destroys the thread after the worker has entered its loop. -/
theorem quit_kept_of_quitsAfterStart_joining :
    ∃ s, (system (F := Nat) false true).Reachable s ∧
      (s.owner = .joining ∧ s.loop.quitRequested = true) ∧ s.loop.quit_ = true := by
  obtain ⟨s, hreach, howner, hset⟩ : ∃ s, (system (F := Nat) false true).ReachableVia
      (fun s a => quitsAfterStart s a = true) s ∧
      s.owner = .joining ∧ s.loop.quitRequested = true :=
    Transition.System.exists_of_exec _ new
      [.startLoop, .construct, .publish, .eventLoop (.loop false), .startLoopReturns,
        .eventLoop .assignQuit, .eventLoop .test, .destructor, .quit, .quitWakeup]
      rfl (by decide)
  exact ⟨s, hreach.reachable, ⟨howner, hset⟩, (quit_kept_of_quitsAfterStart hreach).1 hset⟩

/-- The owner's `quit()` falls between the publication of the loop and
`quit_ = false`: the worker iterates with the request lost while the owner
waits in `join()`. -/
theorem quit_lost : ∃ s, (system (F := Nat) false true).Reachable s ∧
    s.loop.quitRequested = true ∧ s.loop.quit_ = false ∧ Hangs s := by
  obtain ⟨s, hreach, hset, hflag, howner, hworker, hpc⟩ : ∃ s,
      (system (F := Nat) false true).Reachable s ∧ s.loop.quitRequested = true ∧
        s.loop.quit_ = false ∧ s.owner = .joining ∧ s.worker = .looping ∧
        s.loop.pc = .polling :=
    Transition.System.exists_of_exec _ new
      [.startLoop, .construct, .publish, .startLoopReturns, .destructor, .quit, .quitWakeup,
        .eventLoop (.loop false), .eventLoop .assignQuit, .eventLoop .test] rfl (by decide)
  exact ⟨s, hreach, hset, hflag, howner, hworker, by simp [InWhile, hpc], hflag⟩

end EventLoopThread

end MuduoRpc
