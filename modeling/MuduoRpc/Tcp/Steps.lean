import MuduoRpc.Tcp.TcpConnection

/-!
What the functions and the steps of a connection can do, stated once for the
proofs about its runs: one constructor for each outcome.
-/

namespace MuduoRpc.TcpConnection

variable {T : Type}

theorem bytes_eq_nil {q : ByteQueue} : q.bytes = [] ↔ q.readableBytes = 0 := by
  rw [← q.length_bytes, List.length_eq_zero_iff]

/-- What a run of `sendInLoop` can do. -/
inductive Sends (s : TcpConnection T) (t : T) (message : List UInt8) :
    WriteResult → TcpConnection T → Prop
  | gaveUp {result : WriteResult} : s.state_ = .KDisconnected →
      Sends s t message result (s.emit (.gaveUp t message))
  | complete : s.state_ ≠ .KDisconnected → s.channel_.isWriting = false →
      s.outputbuffer_.bytes = [] →
      Sends s t message (.accepted message.length)
        (((s.emit (.sendInLoop t message)).emit (.write message)).queueInLoop
          .writecompletecallback)
  | direct {nwrote : Nat} : s.state_ ≠ .KDisconnected → s.channel_.isWriting = false →
      s.outputbuffer_.bytes = [] → nwrote ≤ message.length →
      Sends s t message (.accepted nwrote)
        (((s.emit (.sendInLoop t message)).emit (.write (message.take nwrote))).bufferRemaining
          (message.drop nwrote))
  | refused {error : Errno} : s.state_ ≠ .KDisconnected → s.channel_.isWriting = false →
      s.outputbuffer_.bytes = [] →
      Sends s t message (.failed error)
        (((s.emit (.sendInLoop t message)).emit (.write [])).bufferRemaining message)
  | fault {error : Errno} : s.state_ ≠ .KDisconnected → error = .EPIPE ∨ error = .ECONNRESET →
      Sends s t message (.failed error) ((s.emit (.sendInLoop t message)).emit (.write []))
  | buffered {result : WriteResult} : s.state_ ≠ .KDisconnected →
      s.channel_.isWriting = true ∨ s.outputbuffer_.bytes ≠ [] →
      Sends s t message result ((s.emit (.sendInLoop t message)).bufferRemaining message)

theorem sendInLoop_sends {s s' : TcpConnection T} {t : T} {message : List UInt8}
    {result : WriteResult} (h : s.sendInLoop t message result = some s') :
    Sends s t message result s' := by
  by_cases hstate : s.state_ = .KDisconnected
  · rw [sendInLoop, if_pos hstate] at h
    cases h
    exact .gaveUp hstate
  simp only [sendInLoop, if_neg hstate] at h
  by_cases hdirect : s.channel_.isWriting = false ∧ s.outputbuffer_.bytes = []
  · obtain ⟨hwriting, hempty⟩ := hdirect
    have hpos : (!(s.emit (.sendInLoop t message)).channel_.isWriting) = true ∧
        (s.emit (.sendInLoop t message)).outputbuffer_.readableBytes = 0 :=
      ⟨congrArg (! ·) hwriting, bytes_eq_nil.mp hempty⟩
    rw [if_pos hpos] at h
    cases result with
    | accepted nwrote =>
        simp only at h
        split_ifs at h with hfits hdone <;> cases h
        · rw [Bool.and_eq_true, List.isEmpty_iff, List.drop_eq_nil_iff] at hdone
          obtain rfl : nwrote = message.length := Nat.le_antisymm hfits hdone.1
          rw [List.take_length]
          exact .complete hstate hwriting hempty
        · exact .direct hstate hwriting hempty hfits
    | failed error =>
        simp only at h
        split_ifs at h with hfault <;> cases h
        · exact .fault hstate hfault.2
        · exact .refused hstate hwriting hempty
  · have hbuffered : s.channel_.isWriting = true ∨ s.outputbuffer_.bytes ≠ [] := by
      rw [not_and_or, Bool.not_eq_false] at hdirect
      exact hdirect
    rw [if_neg] at h
    · cases h
      exact .buffered hstate hbuffered
    · rintro ⟨hwriting, hempty⟩
      exact hdirect ⟨(Bool.not_eq_eq_eq_not.mp hwriting), bytes_eq_nil.mpr hempty⟩

theorem isWriting_disableWriting (s : TcpConnection T) :
    (s.setInterest .disableWriting).channel_.isWriting = false :=
  Flags.has_and_of_disjoint (by decide)

theorem isWriting_stopWriting (s : TcpConnection T) : s.stopWriting.channel_.isWriting = false := by
  have hdisable := isWriting_disableWriting s
  simp only [stopWriting]
  split_ifs <;> exact hdisable

theorem shutdownInLoop_stopWriting (s : TcpConnection T) :
    s.stopWriting.shutdownInLoop = s.stopWriting.emit .ShutdownWrite := by
  unfold shutdownInLoop
  rw [if_neg]
  simp [isWriting_stopWriting]

/-- What a run of `handleWrite` can do. -/
inductive Writes (s : TcpConnection T) : WriteResult → TcpConnection T → Prop
  | idle {result : WriteResult} : s.channel_.isWriting = false → Writes s result s
  | nothing {result : WriteResult} : s.channel_.isWriting = true →
      (∀ n, result = .accepted n → n = 0) → Writes s result (s.emit (.write []))
  | something {n : Nat} (h : n ≤ s.outputbuffer_.readableBytes) :
      s.channel_.isWriting = true → n < s.outputbuffer_.readableBytes →
      Writes s (.accepted n) (s.retrieveOutput n h)
  | drained {n : Nat} (h : n ≤ s.outputbuffer_.readableBytes) :
      s.channel_.isWriting = true → n = s.outputbuffer_.readableBytes →
      s.state_ ≠ .KDisconnecting → Writes s (.accepted n) (s.retrieveOutput n h).stopWriting
  | halfClosed {n : Nat} (h : n ≤ s.outputbuffer_.readableBytes) :
      s.channel_.isWriting = true → 0 < n → n = s.outputbuffer_.readableBytes →
      s.state_ = .KDisconnecting →
      Writes s (.accepted n) ((s.retrieveOutput n h).stopWriting.emit .ShutdownWrite)

theorem state_stopWriting (s : TcpConnection T) : s.stopWriting.state_ = s.state_ := by
  simp only [stopWriting]
  split_ifs <;> rfl

theorem handleWrite_writes {s s' : TcpConnection T} {result : WriteResult}
    (h : s.handleWrite result = some s') : Writes s result s' := by
  by_cases hwriting : s.channel_.isWriting = true
  · simp only [handleWrite, if_pos hwriting] at h
    cases result with
    | accepted n =>
        simp only at h
        split_ifs at h with hfits hsome hdone hclosing <;> cases h
        · have hall : s.outputbuffer_.readableBytes - n = 0 :=
            (ByteQueue.readableBytes_retrieve s.outputbuffer_ n hfits).symm.trans hdone
          rw [shutdownInLoop_stopWriting]
          exact .halfClosed hfits hwriting hsome (by omega)
            ((state_stopWriting (s.retrieveOutput n hfits)).symm.trans hclosing)
        · have hall : s.outputbuffer_.readableBytes - n = 0 :=
            (ByteQueue.readableBytes_retrieve s.outputbuffer_ n hfits).symm.trans hdone
          exact .drained hfits hwriting (by omega) fun hstate =>
            hclosing ((state_stopWriting (s.retrieveOutput n hfits)).trans hstate)
        · have hleft : s.outputbuffer_.readableBytes - n ≠ 0 := fun hzero =>
            hdone ((ByteQueue.readableBytes_retrieve s.outputbuffer_ n hfits).trans hzero)
          exact .something hfits hwriting (by omega)
        · apply Writes.nothing hwriting
          intro m hm
          cases hm
          omega
    | failed error =>
        cases h
        exact .nothing hwriting (by simp)
  · simp only [handleWrite, if_neg hwriting] at h
    cases h
    exact .idle (Bool.eq_false_iff.mpr hwriting)

theorem calls_eq_none {t : T} {s : TcpConnection T} (h : free t s = true) : s.calls t = none :=
  Option.isNone_iff_eq_none.mp h

section Steps

variable [DecidableEq T] (threadPid : T)

/-- What a step can do. The calls that run their functor at once on the loop
thread have a second constructor for the other threads. -/
inductive Steps (s : TcpConnection T) : Action T → TcpConnection T → Prop
  | connectEstablished : Steps s .connectEstablished s.connectEstablished
  | sendHere {message : List UInt8} {result : WriteResult} {s' : TcpConnection T} :
      s.calls threadPid = none → s.state_ = .KConnected →
      (s.emit (.send threadPid message)).sendInLoop threadPid message result = some s' →
      Steps s (.send threadPid message result) s'
  | send {t : T} {message : List UInt8} {result : WriteResult} : t ≠ threadPid →
      s.calls t = none → s.state_ = .KConnected →
      Steps s (.send t message result)
        ((s.emit (.send t message)).hand t (.sendInLoop t message))
  | shutdown {t : T} : s.calls t = none → s.state_ = .KConnected →
      Steps s (.shutdown t) (s.setCall t (some (.closing .shutdown)))
  | forceClose {t : T} : s.calls t = none →
      s.state_ = .KConnected ∨ s.state_ = .KConnecting →
      Steps s (.forceClose t) (s.setCall t (some (.closing .forceClose)))
  | assignShutdownHere : s.calls threadPid = some (.closing .shutdown) →
      Steps s (.assign threadPid)
        ((s.setstate .KDisconnecting).setCall threadPid none).shutdownInLoop
  | assignShutdown {t : T} : t ≠ threadPid → s.calls t = some (.closing .shutdown) →
      Steps s (.assign t) (((s.setstate .KDisconnecting).setCall t none).hand t .shutdownInLoop)
  | assignForceClose {t : T} : s.calls t = some (.closing .forceClose) →
      Steps s (.assign t) ((s.setstate .KDisconnecting).hand t .forceCloseInLoop)
  | startReadHere : Steps s (.startRead threadPid) s.startReadInLoop
  | startRead {t : T} : s.calls t = none → Steps s (.startRead t) (s.hand t .startReadInLoop)
  | stopReadHere : Steps s (.stopRead threadPid) s.stopReadInLoop
  | stopRead {t : T} : s.calls t = none → Steps s (.stopRead t) (s.hand t .stopReadInLoop)
  | removeConnection {t : T} : s.calls t = none →
      Steps s (.removeConnection t) (s.hand t .connectDestroyed)
  | connectDestroyed : Steps s .connectDestroyed s.connectDestroyed
  | push {t : T} {cb : Functor T} : s.calls t = some (.pushing cb) →
      Steps s (.push t) ((s.setCall t none).queueInLoop cb)
  | swap {queue : PendingQueue (Functor T)} : s.queue.swap = some queue →
      Steps s .swap { s with queue := queue }
  | run {answers : Answers} {cb : Functor T} {queue : PendingQueue (Functor T)}
      {s' : TcpConnection T} : s.queue.pop = some (cb, queue) →
      { s with queue := queue }.runFunctor answers cb = some s' → Steps s (.run answers) s'
  | dispatch {revents : BitVec 32} :
      Steps s (.dispatch revents)
        { s with work := { s.channel_ with revents_ := revents }.handleEvent }
  | callback {answers : Answers} {callback : Channel.Callback} {rest : List Channel.Callback}
      {s' : TcpConnection T} : s.work = callback :: rest →
      { s with work := rest }.runCallback answers callback = some s' →
      Steps s (.callback answers) s'
  | consume {len : Nat} (h : len ≤ s.inputbuffer_.readableBytes) :
      Steps s (.consume len) { s with inputbuffer_ := s.inputbuffer_.retrieve len h }

variable {threadPid}

theorem step_steps {s s' : TcpConnection T} {a : Action T} (h : s.step threadPid a = some s') :
    Steps threadPid s a s' := by
  cases a with
  | connectEstablished =>
      simp only [step] at h
      split_ifs at h
      cases h
      exact .connectEstablished
  | send t message result =>
      simp only [step] at h
      split_ifs at h with haccepted hhere
      · subst hhere
        exact .sendHere (calls_eq_none haccepted.1) haccepted.2 h
      · cases h
        exact .send hhere (calls_eq_none haccepted.1) haccepted.2
  | shutdown t =>
      simp only [step] at h
      split_ifs at h with haccepted
      cases h
      exact .shutdown (calls_eq_none haccepted.1) haccepted.2
  | forceClose t =>
      simp only [step] at h
      split_ifs at h with haccepted
      cases h
      exact .forceClose (calls_eq_none haccepted.1) haccepted.2
  | assign t =>
      simp only [step] at h
      split at h
      · rename_i hcall
        by_cases hhere : t = threadPid
        · subst hhere
          rw [runInLoop, if_pos rfl] at h
          cases h
          exact .assignShutdownHere hcall
        · rw [runInLoop, if_neg hhere] at h
          cases h
          exact .assignShutdown hhere hcall
      · rename_i hcall
        cases h
        exact .assignForceClose hcall
      · cases h
  | startRead t =>
      simp only [step, runInLoop] at h
      split_ifs at h with hfree hhere <;> cases h
      · subst hhere
        exact .startReadHere
      · exact .startRead (calls_eq_none hfree)
  | stopRead t =>
      simp only [step, runInLoop] at h
      split_ifs at h with hfree hhere <;> cases h
      · subst hhere
        exact .stopReadHere
      · exact .stopRead (calls_eq_none hfree)
  | removeConnection t =>
      simp only [step] at h
      split_ifs at h with hfree
      cases h
      exact .removeConnection (calls_eq_none hfree)
  | connectDestroyed =>
      simp only [step] at h
      split_ifs at h
      cases h
      exact .connectDestroyed
  | push t =>
      simp only [step] at h
      split at h
      · rename_i hcall
        cases h
        exact .push hcall
      · cases h
  | swap =>
      simp only [step] at h
      split_ifs at h
      obtain ⟨queue, hswap, hqueue⟩ := Option.bind_eq_some_iff.mp h
      cases hqueue
      exact .swap hswap
  | run answers =>
      simp only [step] at h
      split_ifs at h
      obtain ⟨⟨cb, queue⟩, hpop, hrun⟩ := Option.bind_eq_some_iff.mp h
      exact .run hpop hrun
  | dispatch revents =>
      simp only [step] at h
      split_ifs at h
      cases h
      exact .dispatch
  | callback answers =>
      simp only [step] at h
      split_ifs at h
      split at h
      · cases h
      · rename_i callback rest hwork
        exact .callback hwork h
  | consume len =>
      simp only [step] at h
      split_ifs at h with hlen
      cases h
      exact .consume hlen

theorem next_steps {s s' : TcpConnection T} {a : Action T} (h : s.next threadPid a = some s') :
    s.aborted = none ∧ Steps threadPid s a s' := by
  unfold next at h
  split_ifs at h with haborted
  exact ⟨haborted, step_steps h⟩

end Steps

end MuduoRpc.TcpConnection
