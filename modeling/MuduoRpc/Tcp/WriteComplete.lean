import MuduoRpc.Tcp.OutputStream

/-!
The write-complete callback. A send is completed by the direct write of
`sendInLoop` or by the `retrieve` of `handleWrite`, and each queues a functor. The
one of `sendInLoop` calls the callback; the one of `handleWrite` was built from a
pointer to the data member and calls nothing.
-/

namespace MuduoRpc.TcpConnection

variable {T : Type}

/-- The two places where a send becomes fully written. -/
inductive Completion
  | sendInLoop
  | handleWrite
deriving DecidableEq, Repr

/-- The functor that is queued there. -/
def Completion.functor : Completion → Functor T
  | .sendInLoop => .writecompletecallback
  | .handleWrite => .writecompletecallbackMember

/-- The place that queues such a functor. -/
def Functor.completion : Functor T → Option Completion
  | .writecompletecallback => some .sendInLoop
  | .writecompletecallbackMember => some .handleWrite
  | _ => none

def Event.isNotification : Event T → Bool
  | .writecompletecallback => true
  | _ => false

/-- How often the callback has been called. -/
def invocations (log : List (Event T)) : Nat := log.countP Event.isNotification

/-- The direct write of `sendInLoop` takes the whole message. -/
def writesAll (s : TcpConnection T) (message : List UInt8) (result : WriteResult) : Bool :=
  s.state_ ≠ .KDisconnected ∧ s.channel_.isWriting = false ∧
    s.outputbuffer_.readableBytes = 0 ∧ result = .accepted message.length

/-- The `retrieve` of `handleWrite` empties the output buffer. -/
def drains (s : TcpConnection T) (result : WriteResult) : Bool :=
  s.channel_.isWriting = true ∧ 0 < s.outputbuffer_.readableBytes ∧
    result = .accepted s.outputbuffer_.readableBytes

/-- What a function adds to the queue when it completes sends. It does not call the
callback. -/
structure Completes (s : TcpConnection T) (completed : List Completion) (s' : TcpConnection T) :
    Prop where
  set : s'.writecompletecallback = s.writecompletecallback
  log : invocations s'.log = invocations s.log
  queue : s'.queue.toList = s.queue.toList ++ completed.map Completion.functor

variable {s s' s'' : TcpConnection T} {completed completed' : List Completion}

theorem Completes.of_eq (hset : s'.writecompletecallback = s.writecompletecallback)
    (hlog : s'.log = s.log) (hqueue : s'.queue = s.queue) : Completes s [] s' :=
  ⟨hset, by rw [hlog], by rw [hqueue]; simp⟩

theorem Completes.trans (h : Completes s completed s') (h' : Completes s' completed' s'') :
    Completes s (completed ++ completed') s'' where
  set := h'.set.trans h.set
  log := h'.log.trans h.log
  queue := by rw [h'.queue, h.queue, List.map_append, List.append_assoc]

theorem completes_emit (s : TcpConnection T) {e : Event T} (he : e.isNotification = false) :
    Completes s [] (s.emit e) where
  set := rfl
  log := by simp [emit, invocations, List.countP_append, he]
  queue := by simp [emit]

theorem completes_queueInLoop (s : TcpConnection T) (completion : Completion) :
    Completes s [completion] (s.queueInLoop completion.functor) :=
  ⟨rfl, rfl, by simp [queueInLoop]⟩

theorem completes_bufferRemaining (s : TcpConnection T) (remaining : List UInt8) :
    Completes s [] (s.bufferRemaining remaining) := by
  simp only [bufferRemaining]
  split_ifs <;> exact .of_eq rfl rfl rfl

theorem completes_shutdownInLoop (s : TcpConnection T) : Completes s [] s.shutdownInLoop := by
  unfold shutdownInLoop
  split_ifs
  · exact .of_eq rfl rfl rfl
  · exact completes_emit s rfl

theorem completes_setInterest (s : TcpConnection T) (interest : Channel.Interest) :
    Completes s [] (s.setInterest interest) :=
  .of_eq rfl rfl rfl

theorem completes_handleClose (s : TcpConnection T) : Completes s [] s.handleClose := by
  unfold handleClose
  split_ifs
  · have hstate : Completes s [] ((s.setstate .KDisconnected).setInterest .disableall) :=
      .of_eq rfl rfl rfl
    exact (hstate.trans (completes_emit _ rfl)).trans (completes_emit _ rfl)
  · exact .of_eq rfl rfl rfl

theorem completes_forceCloseInLoop (s : TcpConnection T) : Completes s [] s.forceCloseInLoop := by
  unfold forceCloseInLoop
  split_ifs
  · exact completes_handleClose s
  · exact .of_eq rfl rfl rfl

theorem completes_startReadInLoop (s : TcpConnection T) : Completes s [] s.startReadInLoop := by
  unfold startReadInLoop
  split_ifs <;> exact .of_eq rfl rfl rfl

theorem completes_stopReadInLoop (s : TcpConnection T) : Completes s [] s.stopReadInLoop := by
  unfold stopReadInLoop
  split_ifs <;> exact .of_eq rfl rfl rfl

theorem completes_connectEstablished (s : TcpConnection T) :
    Completes s [] s.connectEstablished := by
  unfold connectEstablished
  split_ifs
  · have hstate : Completes s [] ((s.setstate .KConnected).setInterest .enableReading) :=
      .of_eq rfl rfl rfl
    exact hstate.trans (completes_emit _ rfl)
  · exact .of_eq rfl rfl rfl

theorem completes_remove (s : TcpConnection T) : Completes s [] s.remove := by
  unfold remove
  split_ifs <;> exact .of_eq rfl rfl rfl

theorem completes_connectDestroyed (s : TcpConnection T) : Completes s [] s.connectDestroyed := by
  unfold connectDestroyed
  split_ifs
  · have hstate : Completes s [] ((s.setstate .KDisconnected).setInterest .disableall) :=
      .of_eq rfl rfl rfl
    exact (hstate.trans (completes_emit _ rfl)).trans (completes_remove _)
  · exact completes_remove s

theorem completes_handleRead {result : ReadResult} (h : s.handleRead result = some s') :
    Completes s [] s' := by
  cases result with
  | received data =>
      simp only [handleRead] at h
      split_ifs at h <;> cases h
      · exact completes_handleClose s
      · have hread : Completes s [] { s with inputbuffer_ := s.inputbuffer_.readFd data } :=
          .of_eq rfl rfl rfl
        exact hread.trans (completes_emit _ rfl)
  | failed error =>
      cases h
      exact .of_eq rfl rfl rfl

theorem writesAll_accepted_iff {message : List UInt8} {nwrote : Nat}
    (hstate : s.state_ ≠ .KDisconnected) (hidle : s.channel_.isWriting = false)
    (hempty : s.outputbuffer_.readableBytes = 0) :
    writesAll s message (.accepted nwrote) = true ↔ nwrote = message.length := by
  simp [writesAll, hstate, hidle, hempty]

/-- `sendInLoop` completes the send exactly if its direct write takes everything. -/
theorem completes_sendInLoop {t : T} {message : List UInt8} {result : WriteResult}
    (hset : s.writecompletecallback = true)
    (h : s.sendInLoop t message result = some s') :
    Completes s (if writesAll s message result then [.sendInLoop] else []) s' := by
  have hemit : Completes s [] (s.emit (.sendInLoop t message)) := completes_emit s rfl
  have hwrite (bytes : List UInt8) :
      Completes s [] ((s.emit (.sendInLoop t message)).emit (.write bytes)) :=
    hemit.trans (completes_emit _ rfl)
  simp only [sendInLoop] at h
  split_ifs at h with hstate hdirect
  · cases h
    rw [if_neg (by simp [writesAll, hstate])]
    exact completes_emit s rfl
  · obtain ⟨hidle, hempty⟩ := hdirect
    have hidle' : s.channel_.isWriting = false := by simpa [emit] using hidle
    cases result with
    | accepted nwrote =>
        simp only at h
        split_ifs at h with hfits hdone <;> cases h
        · have hall : nwrote = message.length := by
            simp only [emit, List.isEmpty_iff, List.drop_eq_nil_iff, Bool.and_eq_true] at hdone
            omega
          rw [if_pos ((writesAll_accepted_iff hstate hidle' hempty).mpr hall)]
          exact (hwrite _).trans (completes_queueInLoop _ .sendInLoop)
        · have hpart : nwrote ≠ message.length := by
            rintro rfl
            simp [emit, hset] at hdone
          rw [if_neg fun hall => hpart ((writesAll_accepted_iff hstate hidle' hempty).mp hall)]
          exact (hwrite _).trans (completes_bufferRemaining _ _)
    | failed error =>
        rw [if_neg (by simp [writesAll])]
        simp only at h
        split_ifs at h <;> cases h
        · exact hwrite _
        · exact (hwrite _).trans (completes_bufferRemaining _ _)
  · cases h
    rw [if_neg]
    · exact hemit.trans (completes_bufferRemaining _ _)
    · intro hall
      obtain ⟨_, hidle, hempty, _⟩ := of_decide_eq_true hall
      exact hdirect ⟨by simpa [emit] using hidle, hempty⟩

theorem completes_stopWriting (hset : s.writecompletecallback = true) :
    Completes s [.handleWrite] s.stopWriting := by
  have hoff := completes_setInterest s .disableWriting
  simp only [stopWriting]
  rw [if_pos (hoff.set.trans hset)]
  exact hoff.trans (completes_queueInLoop _ .handleWrite)

theorem completes_retrieveOutput {n : Nat} (h : n ≤ s.outputbuffer_.readableBytes) :
    Completes s [] (s.retrieveOutput n h) := by
  have hemit : Completes s [] (s.emit (.write (s.outputbuffer_.bytes.take n))) :=
    completes_emit s rfl
  exact hemit.trans (.of_eq rfl rfl rfl)

theorem drains_accepted_iff {n : Nat} (hwriting : s.channel_.isWriting = true)
    (hfits : n ≤ s.outputbuffer_.readableBytes) :
    drains s (.accepted n) = true ↔
      0 < n ∧ (s.outputbuffer_.retrieve n hfits).readableBytes = 0 := by
  rw [ByteQueue.readableBytes_retrieve]
  constructor
  · intro hall
    obtain ⟨_, hpending, hcount⟩ := of_decide_eq_true hall
    cases hcount
    exact ⟨hpending, Nat.sub_self _⟩
  · rintro ⟨hsome, hleft⟩
    exact decide_eq_true ⟨hwriting, by omega, congrArg _ (by omega)⟩

/-- The write of `handleWrite` and what follows when it empties the buffer. -/
theorem completes_emptied {n : Nat} (hset : s.writecompletecallback = true)
    (hfits : n ≤ s.outputbuffer_.readableBytes) :
    Completes s [.handleWrite] (s.retrieveOutput n hfits).stopWriting := by
  have hwritten := completes_retrieveOutput hfits
  exact hwritten.trans (completes_stopWriting (hwritten.set.trans hset))

/-- `handleWrite` completes what is in the output buffer exactly if the write takes all
of it. -/
theorem completes_handleWrite {result : WriteResult} (hset : s.writecompletecallback = true)
    (h : s.handleWrite result = some s') :
    Completes s (if drains s result then [.handleWrite] else []) s' := by
  by_cases hwriting : s.channel_.isWriting = true
  · simp only [handleWrite, if_pos hwriting] at h
    cases result with
    | accepted n =>
        simp only at h
        split_ifs at h with hfits hsome hdone hclosing <;> cases h
        · rw [if_pos ((drains_accepted_iff hwriting hfits).mpr ⟨hsome, hdone⟩)]
          exact (completes_emptied hset hfits).trans (completes_shutdownInLoop _)
        · rw [if_pos ((drains_accepted_iff hwriting hfits).mpr ⟨hsome, hdone⟩)]
          exact completes_emptied hset hfits
        · rw [if_neg fun hall => hdone ((drains_accepted_iff hwriting hfits).mp hall).2]
          exact completes_retrieveOutput hfits
        · rw [if_neg fun hall => hsome ((drains_accepted_iff hwriting hfits).mp hall).1]
          exact completes_emit s rfl
    | failed error =>
        cases h
        rw [if_neg (by simp [drains])]
        exact completes_emit s rfl
  · simp only [handleWrite, if_neg hwriting] at h
    cases h
    rw [if_neg (by simp [drains, hwriting])]
    exact .of_eq rfl rfl rfl

/-- The send that a functor completes. -/
def functorCompletion (s : TcpConnection T) (answers : Answers) : Functor T → Option Completion
  | .sendInLoop _ message =>
      if writesAll s message answers.written then some .sendInLoop else none
  | _ => none

/-- What the threads are about to push is not a write-complete functor. -/
def Ordinary (s : TcpConnection T) : Prop :=
  ∀ t cb, s.calls t = some (.pushing cb) → cb.isWriteComplete = false

section Runs

variable [DecidableEq T] (threadPid : T)

/-- The send that a step completes, told from the state before it. -/
def completion (s : TcpConnection T) : Action T → Option Completion
  | .send t message result =>
      if t = threadPid ∧ writesAll s message result then some .sendInLoop else none
  | .run answers => s.queue.functors.head?.bind (functorCompletion s answers)
  | .callback answers =>
      if s.work.head? = some .writeCallback_ ∧ drains s answers.written then some .handleWrite
      else none
  | _ => none

/-- A connection with its callback set. `origins` says of each functor of the queue
which completion queued it, if any, `completed` are the completed sends, `ran` the
functors run, with the number of calls of the callback that each of them made, and
`elsewhere` counts the calls made by other steps. -/
structure Recorded (T : Type) where
  conn : TcpConnection T
  origins : List (Option Completion)
  completed : List Completion
  ran : List (Option Completion × Nat)
  elsewhere : Nat

def runsFunctor : Action T → Bool
  | .run _ => true
  | _ => false

namespace Recorded

/-- A step that queues a functor while it completes a send queues it for the send. -/
def next (r : Recorded T) (a : Action T) : Option (Recorded T) := do
  let conn ← r.conn.next threadPid a
  let completed := completion threadPid r.conn a
  let invoked := invocations conn.log - invocations r.conn.log
  let r := if runsFunctor a then { r with
      origins := r.origins.tail
      ran := r.ran ++ r.origins.head?.toList.map fun origin => (origin, invoked) }
    else { r with elsewhere := r.elsewhere + invoked }
  some { r with
    conn := conn
    origins := r.origins ++
      List.replicate (conn.queue.toList.length - r.origins.length) completed
    completed := r.completed ++ completed.toList }

def system : Transition.System (Recorded T) (Action T) where
  init r := ∃ sockfd initalsize, r = ⟨new sockfd initalsize true, [], [], [], 0⟩
  next := next threadPid

end Recorded

/-- Each completed send has its own functor, queued or run, in order; a functor that was
run called the callback once if a completion had queued it and not at all otherwise; and
nothing else called it. -/
structure Notified (r : Recorded T) : Prop where
  queued : r.completed = (r.ran.map Prod.fst ++ r.origins).filterMap id
  once : ∀ functor ∈ r.ran, functor.2 = if functor.1.isSome then 1 else 0
  elsewhere : r.elsewhere = 0

/-- What the code does instead: only the functors of `sendInLoop` call the callback. -/
structure Tracks (r : Recorded T) : Prop where
  set : r.conn.writecompletecallback = true
  ordinary : Ordinary r.conn
  origins : r.origins = r.conn.queue.toList.map Functor.completion
  queued : r.completed = (r.ran.map Prod.fst ++ r.origins).filterMap id
  once : ∀ functor ∈ r.ran, functor.2 = if functor.1 = some .sendInLoop then 1 else 0
  elsewhere : r.elsewhere = 0

/-- The functors behind `kept` come from the completed send: one, or none at all. -/
def Pushes (kept : List (Functor T)) (completed : Option Completion)
    (queued : List (Functor T)) : Prop :=
  ∃ cbs, queued = kept ++ cbs ∧
    cbs.map Functor.completion = List.replicate cbs.length completed ∧
    (List.replicate cbs.length completed).filterMap id = completed.toList

variable {threadPid} {a : Action T}

omit [DecidableEq T] in
theorem completion_of_ordinary {cb : Functor T} (h : cb.isWriteComplete = false) :
    cb.completion = none := by
  cases cb <;> first | rfl | cases h

omit [DecidableEq T] in
theorem Completes.pushes {completion : Option Completion}
    (h : Completes s completion.toList s') :
    Pushes s.queue.toList completion s'.queue.toList := by
  refine ⟨_, h.queue, ?_⟩
  cases completion with
  | none => exact ⟨rfl, rfl⟩
  | some completion => cases completion <;> exact ⟨rfl, rfl⟩

omit [DecidableEq T] in
theorem Ordinary.of_calls (h : Ordinary s) (hcalls : s'.calls = s.calls) : Ordinary s' := by
  rw [Ordinary, hcalls]
  exact h

theorem Ordinary.setCall (h : Ordinary s) {t : T} {call : Option (Call T)}
    (hcall : ∀ cb, call = some (.pushing cb) → cb.isWriteComplete = false) :
    Ordinary (s.setCall t call) := by
  intro u cb hpushing
  rcases calls_setCall hpushing with hold | hnew
  · exact h u cb hold
  · exact hcall cb hnew

theorem Ordinary.hand (h : Ordinary s) {t : T} {cb : Functor T}
    (hcb : cb.isWriteComplete = false) : Ordinary (s.hand t cb) := by
  apply h.setCall
  intro cb' hsame
  cases hsame
  exact hcb

theorem Steps.ordinary (h : Steps threadPid s a s') (hordinary : Ordinary s) : Ordinary s' := by
  cases h with
  | connectEstablished => exact hordinary.of_calls (quiet_connectEstablished s).calls
  | sendHere _ _ hsend => exact hordinary.of_calls (sendInLoop_sends hsend).calls
  | @send t message _ _ _ _ =>
      have hemit : Ordinary (s.emit (.send t message)) := hordinary
      exact hemit.hand rfl
  | shutdown _ _ | forceClose _ _ => exact hordinary.setCall (by simp)
  | assignShutdownHere _ =>
      have hset : Ordinary ((s.setstate .KDisconnecting).setCall threadPid none) :=
        Ordinary.setCall hordinary (by simp)
      exact hset.of_calls (calls_shutdownInLoop _)
  | @assignShutdown t _ _ =>
      have hset : Ordinary ((s.setstate .KDisconnecting).setCall t none) :=
        Ordinary.setCall hordinary (by simp)
      exact hset.hand rfl
  | assignForceClose _ =>
      have hset : Ordinary (s.setstate .KDisconnecting) := hordinary
      exact hset.hand rfl
  | startReadHere => exact hordinary.of_calls (quiet_startReadInLoop s).calls
  | stopReadHere => exact hordinary.of_calls (quiet_stopReadInLoop s).calls
  | startRead _ | stopRead _ | removeConnection _ => exact hordinary.hand rfl
  | connectDestroyed => exact hordinary.of_calls (quiet_connectDestroyed s).calls
  | push _ => exact hordinary.setCall (by simp)
  | swap _ | dispatch | consume _ => exact hordinary
  | @run _ _ queue _ _ hrun =>
      have hpopped : Ordinary { s with queue := queue } := hordinary
      exact hpopped.of_calls (calls_runFunctor hrun)
  | @callback _ _ rest _ _ hrun =>
      have hrest : Ordinary { s with work := rest } := hordinary
      exact hrest.of_calls (calls_runCallback hrun)

omit [DecidableEq T] in
/-- A functor that does not call the callback. -/
theorem completes_runFunctor {answers : Answers} {cb : Functor T}
    (hset : s.writecompletecallback = true) (hcb : cb ≠ .writecompletecallback)
    (h : s.runFunctor answers cb = some s') :
    Completes s (functorCompletion s answers cb).toList s' := by
  cases cb with
  | sendInLoop t message =>
      have hsend := completes_sendInLoop hset h
      rw [functorCompletion]
      split_ifs with hall
      · rw [if_pos hall] at hsend
        exact hsend
      · rw [if_neg hall] at hsend
        exact hsend
  | shutdownInLoop =>
      cases h
      exact completes_shutdownInLoop s
  | forceCloseInLoop =>
      cases h
      exact completes_forceCloseInLoop s
  | startReadInLoop =>
      cases h
      exact completes_startReadInLoop s
  | stopReadInLoop =>
      cases h
      exact completes_stopReadInLoop s
  | connectDestroyed =>
      cases h
      exact completes_connectDestroyed s
  | writecompletecallback => exact absurd rfl hcb
  | writecompletecallbackMember =>
      cases h
      exact .of_eq rfl rfl rfl

omit [DecidableEq T] in
theorem completes_runCallback {answers : Answers} {callback : Channel.Callback}
    (hset : s.writecompletecallback = true) (h : s.runCallback answers callback = some s') :
    Completes s (if callback = .writeCallback_ ∧ drains s answers.written then [.handleWrite]
      else []) s' := by
  cases callback with
  | closeCallback_ =>
      cases h
      exact completes_handleClose s
  | readCallback_ => exact completes_handleRead h
  | errorCallback_ =>
      cases h
      exact .of_eq rfl rfl rfl
  | writeCallback_ =>
      simp only [true_and]
      exact completes_handleWrite hset h

/-- A step that runs no functor of the queue pushes what it completes, or a functor of
another kind. -/
theorem Steps.pushes (h : Steps threadPid s a s') (hset : s.writecompletecallback = true)
    (hordinary : Ordinary s) (hrun : ∀ answers, a ≠ .run answers) :
    s'.writecompletecallback = true ∧ invocations s'.log = invocations s.log ∧
      Pushes s.queue.toList (completion threadPid s a) s'.queue.toList := by
  have hcompletes {completed : Option Completion} (hc : Completes s completed.toList s') :
      s'.writecompletecallback = true ∧ invocations s'.log = invocations s.log ∧
        Pushes s.queue.toList completed s'.queue.toList :=
    ⟨hc.set.trans hset, hc.log, hc.pushes⟩
  cases h with
  | connectEstablished => exact hcompletes (completes_connectEstablished s)
  | @sendHere message result _ _ _ hsend =>
      have hemit : Completes s [] (s.emit (.send threadPid message)) := completes_emit s rfl
      have hdone := hemit.trans (completes_sendInLoop (hemit.set.trans hset) hsend)
      apply hcompletes
      have hsame : writesAll (s.emit (.send threadPid message)) message result =
          writesAll s message result := rfl
      rw [hsame] at hdone
      simp only [completion, true_and]
      split_ifs at hdone ⊢ <;> exact hdone
  | @send t message result hother _ _ =>
      have hnone : completion threadPid s (.send t message result) = none :=
        if_neg fun hdone => hother hdone.1
      rw [hnone]
      have hemit : Completes s [] (s.emit (.send t message)) := completes_emit s rfl
      exact hcompletes (hemit.trans (.of_eq rfl rfl rfl))
  | shutdown _ _ | forceClose _ _ | assignShutdown _ _ | assignForceClose _ | startRead _
  | stopRead _ | removeConnection _ | dispatch | consume _ =>
      exact hcompletes (.of_eq rfl rfl rfl)
  | assignShutdownHere _ =>
      have hset : Completes s [] ((s.setstate .KDisconnecting).setCall threadPid none) :=
        .of_eq rfl rfl rfl
      exact hcompletes (hset.trans (completes_shutdownInLoop _))
  | startReadHere => exact hcompletes (completes_startReadInLoop s)
  | stopReadHere => exact hcompletes (completes_stopReadInLoop s)
  | connectDestroyed => exact hcompletes (completes_connectDestroyed s)
  | @push t cb hpushing =>
      refine ⟨hset, rfl, [cb], by simp [queueInLoop, setCall], ?_⟩
      simp [completion_of_ordinary (hordinary t cb hpushing), completion]
  | swap hswap =>
      refine ⟨hset, rfl, [], ?_, rfl, rfl⟩
      rw [List.append_nil]
      exact PendingQueue.toList_swap hswap
  | run _ _ => exact absurd rfl (hrun _)
  | @callback answers callback rest _ hwork hcallback =>
      have hrest : Completes s [] { s with work := rest } := .of_eq rfl rfl rfl
      have hdone := hrest.trans (completes_runCallback (hrest.set.trans hset) hcallback)
      apply hcompletes
      simp only [completion, hwork, List.head?_cons, Option.some.injEq]
      have hsame : drains { s with work := rest } answers.written = drains s answers.written := rfl
      rw [hsame] at hdone
      split_ifs at hdone ⊢ <;> exact hdone

/-- A step that runs a functor pushes what the functor completes, and calls the callback
if `sendInLoop` queued the functor. -/
theorem Steps.pushes_run {answers : Answers} (h : Steps threadPid s (.run answers) s')
    (hset : s.writecompletecallback = true) :
    ∃ cb rest, s.queue.toList = cb :: rest ∧ s'.writecompletecallback = true ∧
      Pushes rest (completion threadPid s (.run answers)) s'.queue.toList ∧
      invocations s'.log =
        invocations s.log + if cb.completion = some .sendInLoop then 1 else 0 := by
  cases h with
  | @run _ cb queue _ hpop hrun =>
      refine ⟨cb, queue.toList, PendingQueue.toList_pop hpop, ?_⟩
      have hcompletion : completion threadPid s (.run answers) = functorCompletion s answers cb := by
        rw [completion, PendingQueue.head?_of_pop hpop]
        rfl
      rw [hcompletion]
      by_cases hcb : cb = .writecompletecallback
      · subst hcb
        cases hrun
        refine ⟨hset, ⟨[], by simp [emit], rfl, rfl⟩, ?_⟩
        simp [emit, invocations, Event.isNotification, Functor.completion]
      · have hsilent : cb.completion ≠ some .sendInLoop := by
          cases cb <;> simp_all [Functor.completion]
        have hdone := completes_runFunctor (s := { s with queue := queue }) hset hcb hrun
        refine ⟨hdone.set.trans hset, hdone.pushes, ?_⟩
        rw [if_neg hsilent]
        exact hdone.log

omit [DecidableEq T] in
/-- What stands behind the kept origins when a step has pushed. -/
theorem Pushes.origins {kept queued : List (Functor T)} {completed : Option Completion}
    (h : Pushes kept completed queued) :
    kept.map Functor.completion ++ List.replicate
        (queued.length - (kept.map Functor.completion).length) completed =
      queued.map Functor.completion ∧
    (queued.map Functor.completion).filterMap id =
      (kept.map Functor.completion).filterMap id ++ completed.toList := by
  obtain ⟨cbs, rfl, hcbs, hone⟩ := h
  have hlength : (kept ++ cbs).length - (kept.map Functor.completion).length = cbs.length := by
    simp
  refine ⟨?_, ?_⟩
  · rw [hlength, ← hcbs, List.map_append]
  · rw [List.map_append, List.filterMap_append, hcbs, hone]

theorem Tracks.next {r r' : Recorded T} (h : Tracks r)
    (hnext : (Recorded.system threadPid).next r a = some r') : Tracks r' := by
  obtain ⟨conn, hconn, hresult⟩ := Option.bind_eq_some_iff.mp hnext
  have hstep := (next_steps hconn).2
  have hordinary := hstep.ordinary h.ordinary
  by_cases hrun : runsFunctor a = true
  · obtain ⟨answers, rfl⟩ : ∃ answers, a = .run answers := by
      cases a <;> first | exact ⟨_, rfl⟩ | cases hrun
    obtain ⟨cb, rest, hqueue, hset, hpushes, hlog⟩ := hstep.pushes_run h.set
    obtain ⟨horigins, hqueued⟩ := hpushes.origins
    have hlist : r.origins = cb.completion :: rest.map Functor.completion := by
      rw [h.origins, hqueue, List.map_cons]
    simp only [hrun, if_true, hlist, List.tail_cons, List.head?_cons, Option.toList_some,
      List.map_singleton] at hresult
    cases hresult
    refine ⟨hset, hordinary, horigins, ?_, ?_, h.elsewhere⟩
    · change r.completed ++ _ = _
      rw [h.queued, hlist, horigins, List.map_append, List.map_singleton, List.append_assoc,
        List.filterMap_append, List.filterMap_append, List.append_assoc]
      congr 1
      rw [List.filterMap_append, hqueued, ← List.append_assoc, ← List.filterMap_append,
        List.singleton_append]
    · intro functor hmem
      rcases List.mem_append.mp hmem with hold | hnew
      · exact h.once functor hold
      · rw [List.mem_singleton.mp hnew, hlog]
        exact Nat.add_sub_cancel_left _ _
  · have hother : ∀ answers, a ≠ .run answers := by
      rintro answers rfl
      exact hrun rfl
    obtain ⟨hset, hlog, hpushes⟩ := hstep.pushes h.set h.ordinary hother
    obtain ⟨horigins, hqueued⟩ := hpushes.origins
    simp only [hrun, Bool.false_eq_true, if_false, hlog, Nat.sub_self, Nat.add_zero,
      h.origins] at hresult
    cases hresult
    refine ⟨hset, hordinary, horigins, ?_, h.once, h.elsewhere⟩
    change r.completed ++ _ = _
    rw [h.queued, h.origins, horigins, List.filterMap_append, List.filterMap_append, hqueued,
      List.append_assoc]

/-- The callback is called as it should be exactly as long as no functor that `handleWrite`
queued has been run. -/
theorem notified_iff {r : Recorded T} (h : (Recorded.system threadPid).Reachable r) :
    Notified r ↔ ∀ functor ∈ r.ran, functor.1 ≠ some .handleWrite := by
  have htracks : Tracks r := by
    apply h.invariant (I := Tracks)
    · rintro _ ⟨sockfd, initalsize, rfl⟩
      exact ⟨rfl, by simp [Ordinary, new], rfl, rfl, by simp, rfl⟩
    · intro _ _ _ hi _ hnext
      exact hi.next hnext
  constructor
  · intro hnotified functor hmem hmember
    have hone := hnotified.once functor hmem
    rw [htracks.once functor hmem, hmember] at hone
    cases hone
  · intro hnone
    refine ⟨htracks.queued, fun functor hmem => ?_, htracks.elsewhere⟩
    rw [htracks.once functor hmem]
    cases horigin : functor.1 with
    | none => rfl
    | some completion =>
        cases completion with
        | sendInLoop => rfl
        | handleWrite => exact absurd horigin (hnone functor hmem)

/-- Two messages written at once; the first functor has run. -/
theorem notified_iff_direct : ∃ r : Recorded Bool,
    r.ran = [(some .sendInLoop, 1)] ∧ r.origins = [some .sendInLoop] ∧
      (Notified r ↔ ∀ functor ∈ r.ran, functor.1 ≠ some .handleWrite) := by
  obtain ⟨r, hreach, hran, horigins⟩ : ∃ r : Recorded Bool,
      (Recorded.system true).ReachableVia (fun _ _ => True) r ∧
        r.ran = [(some .sendInLoop, 1)] ∧ r.origins = [some .sendInLoop] :=
    Transition.System.exists_of_exec _ ⟨new 5 8 true, [], [], [], 0⟩
      [.connectEstablished, .send true [1, 2] (.accepted 2), .send true [3] (.accepted 1),
        .swap, .run ⟨.accepted 0, .received []⟩] ⟨5, 8, rfl⟩ (by decide)
  exact ⟨r, hran, horigins, notified_iff hreach⟩

/-- A message written in two parts: the functor of the second part runs and calls
nothing. -/
theorem drained_send_not_notified : ∃ r : Recorded Bool,
    (Recorded.system true).Reachable r ∧ r.completed = [.handleWrite] ∧
      r.ran = [(some .handleWrite, 0)] ∧ r.conn.queue.toList = [] ∧
      .writecompletecallback ∉ r.conn.log ∧ ¬Notified r := by
  obtain ⟨r, hreach, hcompleted, hran, hqueue, hlog⟩ : ∃ r : Recorded Bool,
      (Recorded.system true).ReachableVia (fun _ _ => True) r ∧ r.completed = [.handleWrite] ∧
        r.ran = [(some .handleWrite, 0)] ∧ r.conn.queue.toList = [] ∧
        .writecompletecallback ∉ r.conn.log :=
    Transition.System.exists_of_exec _ ⟨new 5 8 true, [], [], [], 0⟩
      [.connectEstablished, .send true [1, 2] (.accepted 1), .dispatch 0x4,
        .callback ⟨.accepted 1, .received []⟩, .swap, .run ⟨.accepted 0, .received []⟩]
      ⟨5, 8, rfl⟩ (by decide)
  refine ⟨r, hreach, hcompleted, hran, hqueue, hlog, ?_⟩
  intro hnotified
  have hone := hnotified.once (some .handleWrite, 0) (by simp [hran])
  cases hone

end Runs

end MuduoRpc.TcpConnection
