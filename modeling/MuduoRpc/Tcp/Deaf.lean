import MuduoRpc.Tcp.Lifecycle

/-!
After the close. `handleClose` and `connectDestroyed` disable every event of
the channel. Of the functions that enable events only `sendInLoop` looks at
`state_` first; `startReadInLoop` enables reading on a closed connection too.
-/

namespace MuduoRpc.TcpConnection

variable {T : Type} {s s' s'' : TcpConnection T}

/-- No event is enabled. -/
def Mute (s : TcpConnection T) : Prop := s.channel_.isNoneEvent = true

theorem Mute.events (h : Mute s) : s.channel_.events_ = 0 := of_decide_eq_true h

theorem Mute.isReading (h : Mute s) : s.channel_.isReading = false := by
  rw [Channel.isReading, h.events]
  exact Flags.has_zero _

theorem Mute.isWriting (h : Mute s) : s.channel_.isWriting = false := by
  rw [Channel.isWriting, h.events]
  exact Flags.has_zero _

theorem Mute.congr (h : Mute s) (hevents : s'.channel_.events_ = s.channel_.events_) :
    Mute s' :=
  decide_eq_true (hevents.trans h.events)

theorem events_remove (s : TcpConnection T) :
    s.remove.channel_.events_ = s.channel_.events_ := by
  unfold remove
  split_ifs <;> rfl

theorem events_shutdownInLoop (s : TcpConnection T) :
    s.shutdownInLoop.channel_.events_ = s.channel_.events_ := by
  unfold shutdownInLoop
  split_ifs <;> rfl

theorem mute_handleClose (h : s.state_ = .KConnected ∨ s.state_ = .KDisconnecting) :
    Mute s.handleClose := by
  rw [handleClose, if_pos h]
  exact decide_eq_true rfl

theorem Mute.handleClose (h : Mute s) : Mute s.handleClose := by
  by_cases hstate : s.state_ = .KConnected ∨ s.state_ = .KDisconnecting
  · exact mute_handleClose hstate
  · rw [TcpConnection.handleClose, if_neg hstate]
    exact h.congr rfl

theorem Mute.stopReadInLoop (h : Mute s) : s.stopReadInLoop = s := by
  rw [TcpConnection.stopReadInLoop, h.isReading, Bool.and_false]
  rfl

/-- What any step can do to the state and the lifecycle callbacks: a step that
disconnects the connection leaves no event enabled. -/
inductive Turns (a : Action T) (s s' : TcpConnection T) : Prop
  | steady : s'.state_ = s.state_ → lifecycle s'.log = lifecycle s.log → Turns a s s'
  | established : s.state_ = .KConnecting → s'.state_ = .KConnected →
      lifecycle s'.log = lifecycle s.log ++ [.connectioncallback true] → Turns a s s'
  | disconnecting {t : T} : a = .assign t → s'.state_ = .KDisconnecting →
      lifecycle s'.log = lifecycle s.log → Turns a s s'
  | closed : s.state_ = .KConnected ∨ s.state_ = .KDisconnecting →
      s'.state_ = .KDisconnected →
      lifecycle s'.log = lifecycle s.log ++ [.connectioncallback false, .closecallback] →
      Mute s' → Turns a s s'
  | destroyed : s.state_ = .KConnected → s'.state_ = .KDisconnected →
      lifecycle s'.log = lifecycle s.log ++ [.connectioncallback false] → Mute s' → Turns a s s'

variable {a : Action T}

theorem Steady.turns (h : Steady s s') : Turns a s s' := .steady h.state h.log

/-- Only the state and the log of the first connection matter. -/
theorem Turns.congr (h : Turns a s' s'') (hstate : s'.state_ = s.state_)
    (hlog : s'.log = s.log) : Turns a s s'' := by
  cases h with
  | steady hs' hevents => exact .steady (hs'.trans hstate) (hlog ▸ hevents)
  | established hs hs' hevents => exact .established (hstate ▸ hs) hs' (hlog ▸ hevents)
  | disconnecting hassign hs' hevents => exact .disconnecting hassign hs' (hlog ▸ hevents)
  | closed hs hs' hevents hmute => exact .closed (hstate ▸ hs) hs' (hlog ▸ hevents) hmute
  | destroyed hs hs' hevents hmute => exact .destroyed (hstate ▸ hs) hs' (hlog ▸ hevents) hmute

theorem turns_connectEstablished (s : TcpConnection T) : Turns a s s.connectEstablished := by
  unfold connectEstablished
  split_ifs with hstate
  · exact .established hstate rfl (lifecycle_append _ _)
  · exact .steady rfl rfl

theorem turns_handleClose (s : TcpConnection T) : Turns a s s.handleClose := by
  by_cases hstate : s.state_ = .KConnected ∨ s.state_ = .KDisconnecting
  · have hmute := mute_handleClose hstate
    rw [handleClose, if_pos hstate] at hmute ⊢
    refine .closed hstate rfl ?_ hmute
    change lifecycle (s.log ++ [.connectioncallback false] ++ [.closecallback]) = _
    rw [List.append_assoc, lifecycle_append]
    rfl
  · rw [handleClose, if_neg hstate]
    exact .steady rfl rfl

theorem turns_forceCloseInLoop (s : TcpConnection T) : Turns a s s.forceCloseInLoop := by
  unfold forceCloseInLoop
  split_ifs
  · exact turns_handleClose s
  · exact .steady rfl rfl

theorem turns_connectDestroyed (s : TcpConnection T) : Turns a s s.connectDestroyed := by
  unfold connectDestroyed
  split_ifs with hstate
  · have hremove := steady_remove (((s.setstate .KDisconnected).setInterest .disableall).emit
      (.connectioncallback false))
    exact .destroyed hstate hremove.state (hremove.log.trans (lifecycle_append _ _))
      (decide_eq_true (events_remove _))
  · exact (steady_remove s).turns

theorem turns_handleRead {result : ReadResult} (h : s.handleRead result = some s') :
    Turns a s s' := by
  cases result with
  | received data =>
      simp only [handleRead] at h
      split_ifs at h <;> cases h
      · exact turns_handleClose s
      · refine .steady rfl ?_
        simp [emit, lifecycle, Event.isLifecycle]
  | failed error =>
      cases h
      exact .steady rfl rfl

theorem turns_runFunctor {answers : Answers} {cb : Functor T}
    (hrun : s.runFunctor answers cb = some s') : Turns a s s' := by
  cases cb with
  | sendInLoop t message => exact (sendInLoop_sends hrun).steady.turns
  | shutdownInLoop => cases hrun; exact (steady_shutdownInLoop s).turns
  | forceCloseInLoop => cases hrun; exact turns_forceCloseInLoop s
  | startReadInLoop => cases hrun; exact (steady_startReadInLoop s).turns
  | stopReadInLoop => cases hrun; exact (steady_stopReadInLoop s).turns
  | connectDestroyed => cases hrun; exact turns_connectDestroyed s
  | writecompletecallback => cases hrun; exact (steady_emit s rfl).turns
  | writecompletecallbackMember => cases hrun; exact .steady rfl rfl

theorem turns_runCallback {answers : Answers} {callback : Channel.Callback}
    (hrun : s.runCallback answers callback = some s') : Turns a s s' := by
  cases callback with
  | closeCallback_ => cases hrun; exact turns_handleClose s
  | readCallback_ => exact turns_handleRead hrun
  | errorCallback_ => cases hrun; exact .steady rfl rfl
  | writeCallback_ => exact (handleWrite_writes hrun).steady.turns

/-- Nothing but the establishing has been reported yet. -/
def Unclosed (s : TcpConnection T) : Prop :=
  ∀ e ∈ lifecycle s.log, e = .connectioncallback true

theorem Unclosed.not_mem (h : Unclosed s) :
    Event.connectioncallback false ∉ s.log ∧ Event.closecallback ∉ s.log := by
  constructor
  · intro hmem
    cases h _ (List.mem_filter.mpr ⟨hmem, rfl⟩)
  · intro hmem
    cases h _ (List.mem_filter.mpr ⟨hmem, rfl⟩)

theorem Mute.runFunctor {answers : Answers} {cb : Functor T} (h : Mute s)
    (hclosed : s.state_ ≠ .KConnected) (hrestart : cb ≠ .startReadInLoop)
    (hsend : ∀ t message, cb = .sendInLoop t message → s.state_ = .KDisconnected)
    (hrun : s.runFunctor answers cb = some s') : Mute s' := by
  cases cb with
  | sendInLoop t message =>
      rw [TcpConnection.runFunctor, TcpConnection.sendInLoop, if_pos (hsend t message rfl)] at hrun
      cases hrun
      exact h.congr rfl
  | shutdownInLoop =>
      cases hrun
      exact h.congr (events_shutdownInLoop s)
  | forceCloseInLoop =>
      cases hrun
      rw [forceCloseInLoop]
      split_ifs
      · exact h.handleClose
      · exact h
  | startReadInLoop => exact absurd rfl hrestart
  | stopReadInLoop =>
      cases hrun
      rw [h.stopReadInLoop]
      exact h
  | connectDestroyed =>
      cases hrun
      rw [connectDestroyed, if_neg hclosed]
      exact h.congr (events_remove s)
  | writecompletecallback | writecompletecallbackMember =>
      cases hrun
      exact h.congr rfl

theorem Mute.runCallback {answers : Answers} {callback : Channel.Callback} (h : Mute s)
    (hrun : s.runCallback answers callback = some s') : Mute s' := by
  cases callback with
  | closeCallback_ =>
      cases hrun
      exact h.handleClose
  | readCallback_ =>
      cases hread : answers.read with
      | received data =>
          simp only [TcpConnection.runCallback, hread, handleRead] at hrun
          split_ifs at hrun <;> cases hrun
          · exact h.handleClose
          · exact h.congr rfl
      | failed error =>
          simp only [TcpConnection.runCallback, hread, handleRead] at hrun
          cases hrun
          exact h
  | errorCallback_ =>
      cases hrun
      exact h
  | writeCallback_ =>
      simp only [TcpConnection.runCallback, handleWrite, h.isWriting] at hrun
      cases hrun
      exact h

/-- Neither reading nor writing is enabled, and `connectDestroyed` passes the
assertion of `Channel::remove`. -/
structure Deaf (s : TcpConnection T) : Prop where
  reading : s.channel_.isReading = false
  writing : s.channel_.isWriting = false
  removable : s.aborted = none → s.connectDestroyed.aborted = none

theorem Mute.deaf (h : Mute s) (hclosed : s.state_ ≠ .KConnected) : Deaf s := by
  refine ⟨h.isReading, h.isWriting, ?_⟩
  intro hrunning
  have hnone : s.channel_.isNoneEvent = true := h
  rw [connectDestroyed, if_neg hclosed, remove, if_pos hnone]
  exact hrunning

section Threads

variable [DecidableEq T] {threadPid : T}

theorem Steps.turns (h : Steps threadPid s a s') : Turns a s s' := by
  cases h with
  | connectEstablished => exact turns_connectEstablished s
  | sendHere _ _ hsend =>
      exact ((steady_emit s rfl).trans (sendInLoop_sends hsend).steady).turns
  | @send t message _ _ _ _ =>
      have hhand : Steady s ((s.emit (.send t message)).hand t (.sendInLoop t message)) :=
        (steady_emit s rfl).trans (.of_eq rfl rfl rfl)
      exact hhand.turns
  | assignShutdownHere =>
      have hshutdown := steady_shutdownInLoop
        ((s.setstate .KDisconnecting).setCall threadPid none)
      exact .disconnecting rfl hshutdown.state hshutdown.log
  | assignShutdown | assignForceClose => exact .disconnecting rfl rfl rfl
  | startReadHere => exact (steady_startReadInLoop s).turns
  | stopReadHere => exact (steady_stopReadInLoop s).turns
  | connectDestroyed => exact turns_connectDestroyed s
  | run _ hrun => exact (turns_runFunctor hrun).congr rfl rfl
  | callback _ hrun => exact (turns_runCallback hrun).congr rfl rfl
  | shutdown | forceClose | startRead | stopRead | removeConnection | push | swap | dispatch
  | consume => exact .steady rfl rfl

/-- `state_` never returns to `KConnected`: before the close nothing has been
reported as closed. -/
theorem unclosed_of_open (h : (system threadPid).Reachable s)
    (hopen : s.state_ = .KConnecting ∨ s.state_ = .KConnected) : Unclosed s := by
  revert hopen
  apply h.invariant
    (I := fun s => s.state_ = .KConnecting ∨ s.state_ = .KConnected → Unclosed s)
  · rintro _ ⟨sockfd, initalsize, writecompletecallback, rfl⟩ _ e he
    cases he
  · intro s a s' hi _ hnext hopen'
    cases (next_steps hnext).2.turns with
    | steady hs' hlog =>
        rw [Unclosed, hlog]
        exact hi (hs' ▸ hopen')
    | established hs _ hlog =>
        intro e he
        rw [hlog] at he
        rcases List.mem_append.mp he with hold | hnew
        · exact hi (.inl hs) e hold
        · exact List.mem_singleton.mp hnew
    | disconnecting _ hs' _ => simp [hs'] at hopen'
    | closed _ hs' _ _ => simp [hs'] at hopen'
    | destroyed _ hs' _ _ => simp [hs'] at hopen'

/-- The step executes `startReadInLoop`. -/
def restarts (threadPid : T) (s : TcpConnection T) : Action T → Bool
  | .startRead t => t = threadPid
  | .run _ => s.queue.functors.head? = some .startReadInLoop
  | _ => false

/-- The step runs a queued `sendInLoop`. -/
def sendsQueued (s : TcpConnection T) : Action T → Bool
  | .run _ =>
      match s.queue.functors.head? with
      | some (.sendInLoop _ _) => true
      | _ => false
  | _ => false

/-- A closed connection without events stays so, unless reading is started or a
message is sent in a state that a late `shutdown` or `forceClose` assigned. -/
theorem Steps.mute (h : Steps threadPid s a s') (hmute : Mute s)
    (hclosed : s.state_ ≠ .KConnecting ∧ s.state_ ≠ .KConnected)
    (hrestart : restarts threadPid s a = false)
    (hsend : s.state_ ≠ .KDisconnected → sendsQueued s a = false) : Mute s' := by
  cases h with
  | connectEstablished =>
      rw [TcpConnection.connectEstablished, if_neg hclosed.1]
      exact hmute.congr rfl
  | sendHere _ hstate _ => exact absurd hstate hclosed.2
  | assignShutdownHere => exact hmute.congr (events_shutdownInLoop _)
  | startReadHere => simp [restarts] at hrestart
  | stopReadHere =>
      rw [hmute.stopReadInLoop]
      exact hmute
  | connectDestroyed =>
      rw [TcpConnection.connectDestroyed, if_neg hclosed.2]
      exact hmute.congr (events_remove s)
  | @run answers cb queue _ hpop hrun =>
      have hhead := PendingQueue.head?_of_pop hpop
      have hmute' : Mute { s with queue := queue } := hmute
      apply hmute'.runFunctor hclosed.2 _ _ hrun
      · rintro rfl
        simp [restarts, hhead] at hrestart
      · rintro t message rfl
        by_contra hstate
        have hqueued := hsend hstate
        simp [sendsQueued, hhead] at hqueued
  | @callback _ _ rest _ _ hrun =>
      have hmute' : Mute { s with work := rest } := hmute
      exact hmute'.runCallback hrun
  | send | shutdown | forceClose | assignShutdown | assignForceClose | startRead | stopRead
  | removeConnection | push | swap | dispatch | consume => exact hmute.congr rfl

/-- A step into `KDisconnected` leaves no event enabled. -/
theorem Steps.disconnects (h : Steps threadPid s a s')
    (hbefore : s.state_ ≠ .KDisconnected) (hafter : s'.state_ = .KDisconnected) : Mute s' := by
  cases h.turns with
  | steady hs' _ => exact absurd (hs'.symm.trans hafter) hbefore
  | established _ hs' _ => cases hs'.symm.trans hafter
  | disconnecting _ hs' _ => cases hs'.symm.trans hafter
  | closed _ _ _ hmute => exact hmute
  | destroyed _ _ _ hmute => exact hmute

/-- No `startReadInLoop` is executed in the state `KDisconnected`. -/
def staysStopped (threadPid : T) (s : TcpConnection T) (a : Action T) : Prop :=
  s.state_ = .KDisconnected → restarts threadPid s a = false

/-- After the disconnection call no `startReadInLoop` is executed, and no
queued `sendInLoop` in a state that a late `shutdown` or `forceClose` has
assigned. -/
def staysSilent (threadPid : T) (s : TcpConnection T) (a : Action T) : Prop :=
  .connectioncallback false ∈ s.log →
    restarts threadPid s a = false ∧ (s.state_ ≠ .KDisconnected → sendsQueued s a = false)

theorem mute_of_disconnected (h : (system threadPid).ReachableVia (staysStopped threadPid) s)
    (hstate : s.state_ = .KDisconnected) : Mute s := by
  revert hstate
  apply h.invariant (I := fun s => s.state_ = .KDisconnected → Mute s)
  · rintro _ ⟨sockfd, initalsize, writecompletecallback, rfl⟩ hstate
    cases hstate
  · intro s a s' hi hguard hnext hstate'
    have hstep := (next_steps hnext).2
    by_cases hstate : s.state_ = .KDisconnected
    · apply hstep.mute (hi hstate) (by simp [hstate]) (hguard hstate)
      exact fun hnot => absurd hstate hnot
    · exact hstep.disconnects hstate hstate'

/-- After the disconnection call the state is never `KConnected` again. -/
theorem not_open_of_closed (h : (system threadPid).Reachable s)
    (hclosed : .connectioncallback false ∈ s.log) :
    s.state_ ≠ .KConnecting ∧ s.state_ ≠ .KConnected :=
  ⟨fun hstate => (unclosed_of_open h (.inl hstate)).not_mem.1 hclosed,
    fun hstate => (unclosed_of_open h (.inr hstate)).not_mem.1 hclosed⟩

/-- The disconnection call is made by a step that leaves no event enabled. -/
theorem Steps.closes_mute (h : Steps threadPid s a s')
    (hbefore : .connectioncallback false ∉ s.log) (hafter : .connectioncallback false ∈ s'.log) :
    Mute s' := by
  have hnew : .connectioncallback false ∈ lifecycle s'.log := List.mem_filter.mpr ⟨hafter, rfl⟩
  have hold : .connectioncallback false ∉ lifecycle s.log :=
    fun hmem => hbefore (List.mem_filter.mp hmem).1
  cases h.turns with
  | steady _ hlog => exact absurd (hlog ▸ hnew) hold
  | established _ _ hlog =>
      rw [hlog] at hnew
      simp [hold] at hnew
  | disconnecting _ _ hlog => exact absurd (hlog ▸ hnew) hold
  | closed _ _ _ hmute => exact hmute
  | destroyed _ _ _ hmute => exact hmute

theorem mute_of_closed (h : (system threadPid).ReachableVia (staysSilent threadPid) s)
    (hclosed : .connectioncallback false ∈ s.log) : Mute s := by
  have hboth : (system threadPid).Reachable s ∧ (.connectioncallback false ∈ s.log → Mute s) := by
    apply h.invariant (I := fun s => (system threadPid).Reachable s ∧
      (.connectioncallback false ∈ s.log → Mute s))
    · rintro s ⟨sockfd, initalsize, writecompletecallback, rfl⟩
      exact ⟨.start ⟨sockfd, initalsize, writecompletecallback, rfl⟩, nofun⟩
    · rintro s a s' ⟨hreach, hi⟩ hguard hnext
      refine ⟨hreach.step trivial hnext, ?_⟩
      intro hclosed'
      have hstep := (next_steps hnext).2
      by_cases hclosed : .connectioncallback false ∈ s.log
      · obtain ⟨hrestart, hsend⟩ := hguard hclosed
        exact hstep.mute (hi hclosed) (not_open_of_closed hreach hclosed) hrestart hsend
      · exact hstep.closes_mute hclosed hclosed'
  exact hboth.2 hclosed

/-- A disconnected connection stays deaf as long as reading is not started
again: in every state `KDisconnected`, and in the states after a late
`shutdown` or `forceClose` too if no message is sent in them. -/
theorem deaf_of_staysStopped :
    (∀ s, (system threadPid).ReachableVia (staysStopped threadPid) s →
      s.state_ = .KDisconnected → Deaf s) ∧
    (∀ s, (system threadPid).ReachableVia (staysSilent threadPid) s →
      .connectioncallback false ∈ s.log → Deaf s) := by
  constructor
  · intro s h hstate
    exact (mute_of_disconnected h hstate).deaf (by simp [hstate])
  · intro s h hclosed
    exact (mute_of_closed h hclosed).deaf (not_open_of_closed h.reachable hclosed).2

instance (s : TcpConnection T) (a : Action T) : Decidable (staysStopped threadPid s a) :=
  inferInstanceAs (Decidable (_ → _))

instance (s : TcpConnection T) (a : Action T) : Decidable (staysSilent threadPid s a) :=
  inferInstanceAs (Decidable (_ → _))

end Threads

/-- A message is accepted from another thread and the peer hangs up before its
functor runs. -/
theorem deaf_of_staysStopped_hangup : ∃ s : TcpConnection Bool,
    (s.state_ = .KDisconnected ∧ .gaveUp false [1] ∈ s.log) ∧ Deaf s := by
  obtain ⟨s, hreach, hs⟩ : ∃ s, (system true).ReachableVia (staysStopped true) s ∧
      (s.state_ = .KDisconnected ∧ .gaveUp false [1] ∈ s.log) :=
    Transition.System.exists_of_exec _ (new 5 8 false)
      [.connectEstablished, .send false [1] (.accepted 0), .dispatch 0x10,
        .callback ⟨.accepted 0, .received []⟩, .push false, .swap, .run ⟨.accepted 0, .received []⟩]
      ⟨5, 8, false, rfl⟩ (by decide)
  exact ⟨s, hs, deaf_of_staysStopped.1 s hreach hs.1⟩

/-- `startRead` after the hang-up enables reading again, and `connectDestroyed`
then fails the assertion of `Channel::remove`. -/
theorem startRead_after_close : ∃ s : TcpConnection Bool, (system true).Reachable s ∧
    s.state_ = .KDisconnected ∧ s.channel_.isReading = true ∧
      s.connectDestroyed.aborted = some .remove :=
  Transition.System.exists_of_exec _ (new 5 8 false)
    [.connectEstablished, .dispatch 0x10, .callback ⟨.accepted 0, .received []⟩, .startRead true]
    ⟨5, 8, false, rfl⟩ (by decide)

section Destroyed

variable [DecidableEq T] {threadPid : T}

/-- What `connectDestroyed` is to achieve. -/
structure Finishes (s : TcpConnection T) : Prop where
  state : s.connectDestroyed.state_ = .KDisconnected
  removed : s.connectDestroyed.aborted = none
  mute : Mute s.connectDestroyed
  reported : s.connectDestroyed.log.count (.connectioncallback false) = 1

/-- On a connection that is still connected it closes it itself. -/
theorem finishes_of_connected (h : (system threadPid).Reachable s) (hrunning : s.aborted = none)
    (hstate : s.state_ = .KConnected) : Finishes s := by
  have hnone : s.log.count (.connectioncallback false) = 0 :=
    List.count_eq_zero.mpr (unclosed_of_open h (.inr hstate)).not_mem.1
  have hdestroyed : s.connectDestroyed = { ((s.setstate .KDisconnected).setInterest
      .disableall).emit (.connectioncallback false) with
        channel_ := { s.channel_.setInterest .disableall with addedToLoop_ := false } } := by
    rw [connectDestroyed, if_pos hstate]
    exact if_pos (decide_eq_true rfl)
  constructor
  · rw [hdestroyed]
    rfl
  · rw [hdestroyed]
    exact hrunning
  · rw [hdestroyed]
    exact decide_eq_true rfl
  · rw [hdestroyed]
    have hcount : (s.log ++ [Event.connectioncallback false]).count
        (Event.connectioncallback false) = 1 := by
      rw [List.count_append, hnone, List.count_singleton_self]
    exact hcount

/-- On any other connection it only removes the channel. -/
theorem finishes_iff_of_not_connected (hrunning : s.aborted = none)
    (hstate : s.state_ ≠ .KConnected) :
    Finishes s ↔ s.state_ = .KDisconnected ∧ Mute s ∧
      s.log.count (.connectioncallback false) = 1 := by
  have hremove : s.connectDestroyed = s.remove := by
    rw [connectDestroyed, if_neg hstate]
  have hlog : s.remove.log = s.log := by
    unfold remove
    split_ifs <;> rfl
  constructor
  · rintro ⟨hafter, _, hmute, hreported⟩
    rw [hremove] at hafter hmute hreported
    refine ⟨(steady_remove s).state.symm.trans hafter, hmute.congr (events_remove s).symm, ?_⟩
    rw [hlog] at hreported
    exact hreported
  · rintro ⟨hdisconnected, hmute, hreported⟩
    refine ⟨?_, (hmute.deaf hstate).removable hrunning, ?_, ?_⟩
    · rw [hremove]
      exact (steady_remove s).state.trans hdisconnected
    · rw [hremove]
      exact hmute.congr (events_remove s)
    · rw [hremove, hlog]
      exact hreported

/-- A run that still goes on has called `handleClose` for no connection that was
closed already. -/
theorem orderly_of_inOrder (h : (system threadPid).ReachableVia (fun s a => inOrder s a = true) s)
    (hrunning : s.aborted = none) : Orderly s := by
  revert hrunning
  apply h.invariant (I := fun s => s.aborted = none → Orderly s)
  · rintro _ ⟨sockfd, initalsize, writecompletecallback, rfl⟩ _
    exact rfl
  · intro s a s' hi hguard hnext hrunning'
    obtain ⟨hrunning, hstep⟩ := next_steps hnext
    have honce : closesAgain s a = false := by
      by_contra hagain
      have haborted := aborted_of_closesAgain (Bool.not_eq_false _ ▸ hagain) hstep
      rw [hrunning'] at haborted
      cases haborted
    exact (hi hrunning).moves (hstep.advances hguard honce).moves

theorem Orderly.reported (h : Orderly s) (hstate : s.state_ = .KDisconnected) :
    s.log.count (.connectioncallback false) = 1 := by
  have hcount : s.log.count (.connectioncallback false) =
      (lifecycle s.log).count (.connectioncallback false) := (List.count_filter rfl).symm
  rw [Orderly, hstate] at h
  rcases h with h | h <;> rw [hcount, h] <;> simp

/-- `connectDestroyed` finishes a connection that is connected, and one that
was disconnected once and has had no event enabled since. A half-closed one it
leaves as it is. Where `shutdown` and `forceClose` assign in the state in which
their test succeeded, no connection is disconnected twice. -/
theorem connectDestroyed_finishes_iff (h : (system threadPid).Reachable s)
    (hrunning : s.aborted = none) :
    (Finishes s ↔ s.state_ = .KConnected ∨
      s.state_ = .KDisconnected ∧ Mute s ∧ s.log.count (.connectioncallback false) = 1) ∧
    ((system threadPid).ReachableVia (fun s a => inOrder s a = true) s →
      (Finishes s ↔ s.state_ = .KConnected ∨ s.state_ = .KDisconnected ∧ Mute s)) := by
  have hfinishes : Finishes s ↔ s.state_ = .KConnected ∨
      s.state_ = .KDisconnected ∧ Mute s ∧ s.log.count (.connectioncallback false) = 1 := by
    by_cases hconnected : s.state_ = .KConnected
    · exact iff_of_true (finishes_of_connected h hrunning hconnected) (.inl hconnected)
    · rw [finishes_iff_of_not_connected hrunning hconnected]
      constructor
      · exact .inr
      · intro hcondition
        exact hcondition.resolve_left hconnected
  refine ⟨hfinishes, fun hinOrder => hfinishes.trans (or_congr_right (and_congr_right ?_))⟩
  intro hstate
  exact and_iff_left ((orderly_of_inOrder hinOrder hrunning).reported hstate)

end Destroyed

/-- The statement at a connection that the peer has closed. -/
theorem connectDestroyed_finishes_iff_hangup : ∃ s : TcpConnection Bool,
    s.log.count .closecallback = 1 ∧ s.state_ = .KDisconnected ∧
      (Finishes s ↔ s.state_ = .KConnected ∨ s.state_ = .KDisconnected ∧ Mute s) := by
  obtain ⟨s, hreach, hclosed, hrunning, hstate⟩ : ∃ s : TcpConnection Bool,
      (system true).ReachableVia (fun s a => inOrder s a = true) s ∧
        s.log.count .closecallback = 1 ∧ s.aborted = none ∧ s.state_ = .KDisconnected :=
    Transition.System.exists_of_exec _ (new 5 8 false)
      [.connectEstablished, .dispatch 0x10, .callback ⟨.accepted 0, .received []⟩]
      ⟨5, 8, false, rfl⟩ (by decide)
  exact ⟨s, hclosed, hstate, (connectDestroyed_finishes_iff hreach.reachable hrunning).2 hreach⟩

/-- The server is destroyed while a connection is half-closed: its events stay
enabled, the assertion of `Channel::remove` fails and nothing is reported. -/
theorem connectDestroyed_half_closed : ∃ s : TcpConnection Bool,
    (system true).Reachable s ∧ s.aborted = none ∧ s.state_ = .KDisconnecting ∧
      s.connectDestroyed.state_ = .KDisconnecting ∧
      s.connectDestroyed.aborted = some .remove ∧
      s.connectDestroyed.log.count (.connectioncallback false) = 0 :=
  Transition.System.exists_of_exec _ (new 5 8 false)
    [.connectEstablished, .shutdown true, .assign true] ⟨5, 8, false, rfl⟩ (by decide)

end MuduoRpc.TcpConnection
