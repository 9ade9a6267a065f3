import Mathlib.Data.List.Basic
import MuduoRpc.Tcp.Steps

/-!
The life of a connection: established once, closed once. `handleClose` asserts
that it is not called twice. One dispatch can call it twice: from the close
callback and, when the read callback then finds the end of the stream, from
`handleRead`.
-/

namespace MuduoRpc.TcpConnection

variable {T : Type}

def State.rank : State → Nat
  | .KConnecting => 0
  | .KConnected => 1
  | .KDisconnecting => 2
  | .KDisconnected => 3

def Event.isLifecycle : Event T → Bool
  | .connectioncallback _ | .closecallback => true
  | _ => false

/-- The lifecycle callbacks of a log. -/
def lifecycle (log : List (Event T)) : List (Event T) := log.filter Event.isLifecycle

theorem lifecycle_append (log events : List (Event T)) :
    lifecycle (log ++ events) = lifecycle log ++ lifecycle events :=
  List.filter_append log events

/-- A step that leaves the state alone, invokes no lifecycle callback and
fails no assertion of `handleClose`. -/
structure Steady (s s' : TcpConnection T) : Prop where
  state : s'.state_ = s.state_
  log : lifecycle s'.log = lifecycle s.log
  aborted : s.aborted ≠ some .handleClose → s'.aborted ≠ some .handleClose

variable {s s' s'' : TcpConnection T}

theorem Steady.of_eq (hstate : s'.state_ = s.state_) (hlog : s'.log = s.log)
    (haborted : s'.aborted = s.aborted) : Steady s s' :=
  ⟨hstate, by rw [hlog], fun h => haborted ▸ h⟩

theorem Steady.trans (h : Steady s s') (h' : Steady s' s'') : Steady s s'' :=
  ⟨h'.state.trans h.state, h'.log.trans h.log, fun haborted => h'.aborted (h.aborted haborted)⟩

theorem steady_emit (s : TcpConnection T) {e : Event T} (h : e.isLifecycle = false) :
    Steady s (s.emit e) := by
  refine ⟨rfl, ?_, id⟩
  simp [emit, lifecycle, h]

theorem steady_bufferRemaining (s : TcpConnection T) (remaining : List UInt8) :
    Steady s (s.bufferRemaining remaining) := by
  simp only [bufferRemaining]
  split_ifs <;> exact .of_eq rfl rfl rfl

theorem steady_stopWriting (s : TcpConnection T) : Steady s s.stopWriting := by
  simp only [stopWriting]
  split_ifs <;> exact .of_eq rfl rfl rfl

theorem steady_shutdownInLoop (s : TcpConnection T) : Steady s s.shutdownInLoop := by
  unfold shutdownInLoop
  split_ifs
  · exact .of_eq rfl rfl rfl
  · exact steady_emit s rfl

theorem steady_startReadInLoop (s : TcpConnection T) : Steady s s.startReadInLoop := by
  unfold startReadInLoop
  split_ifs <;> exact .of_eq rfl rfl rfl

theorem steady_stopReadInLoop (s : TcpConnection T) : Steady s s.stopReadInLoop := by
  unfold stopReadInLoop
  split_ifs <;> exact .of_eq rfl rfl rfl

theorem steady_remove (s : TcpConnection T) : Steady s s.remove := by
  unfold remove
  split_ifs
  · exact .of_eq rfl rfl rfl
  · exact ⟨rfl, rfl, nofun⟩

theorem Sends.steady {t : T} {message : List UInt8} {result : WriteResult}
    (h : Sends s t message result s') : Steady s s' := by
  have hwrite : ∀ bytes, Steady s ((s.emit (.sendInLoop t message)).emit (.write bytes)) :=
    fun _ => (steady_emit s rfl).trans (steady_emit _ rfl)
  cases h with
  | gaveUp _ => exact steady_emit s rfl
  | complete _ _ _ => exact (hwrite _).trans (.of_eq rfl rfl rfl)
  | direct _ _ _ _ => exact (hwrite _).trans (steady_bufferRemaining _ _)
  | refused _ _ _ => exact (hwrite _).trans (steady_bufferRemaining _ _)
  | fault _ _ => exact hwrite _
  | buffered _ _ => exact (steady_emit s rfl).trans (steady_bufferRemaining _ _)

theorem steady_retrieveOutput (s : TcpConnection T) {n : Nat}
    (h : n ≤ s.outputbuffer_.readableBytes) : Steady s (s.retrieveOutput n h) :=
  (steady_emit s rfl).trans (.of_eq rfl rfl rfl)

theorem Writes.steady {result : WriteResult} (h : Writes s result s') : Steady s s' := by
  cases h with
  | idle _ => exact .of_eq rfl rfl rfl
  | nothing _ _ => exact steady_emit s rfl
  | something hfits _ _ => exact steady_retrieveOutput s hfits
  | drained hfits _ _ _ => exact (steady_retrieveOutput s hfits).trans (steady_stopWriting _)
  | halfClosed hfits _ _ _ _ =>
      exact ((steady_retrieveOutput s hfits).trans (steady_stopWriting _)).trans
        (steady_emit _ rfl)

/-- What a step can do to the state and the lifecycle callbacks. -/
inductive Moves (s s' : TcpConnection T) : Prop
  | steady : s'.state_ = s.state_ → lifecycle s'.log = lifecycle s.log → Moves s s'
  | established : s.state_ = .KConnecting → s'.state_ = .KConnected →
      lifecycle s'.log = lifecycle s.log ++ [.connectioncallback true] → Moves s s'
  | disconnecting : s.state_ = .KConnected → s'.state_ = .KDisconnecting →
      lifecycle s'.log = lifecycle s.log → Moves s s'
  | closed : s.state_ = .KConnected ∨ s.state_ = .KDisconnecting →
      s'.state_ = .KDisconnected →
      lifecycle s'.log = lifecycle s.log ++ [.connectioncallback false, .closecallback] →
      Moves s s'
  | destroyed : s.state_ = .KConnected → s'.state_ = .KDisconnected →
      lifecycle s'.log = lifecycle s.log ++ [.connectioncallback false] → Moves s s'

/-- A step in the life of a connection that fails no assertion of
`handleClose`. -/
structure Advances (s s' : TcpConnection T) : Prop where
  moves : Moves s s'
  aborted : s.aborted ≠ some .handleClose → s'.aborted ≠ some .handleClose

theorem Steady.advances (h : Steady s s') : Advances s s' := ⟨.steady h.state h.log, h.aborted⟩

/-- Only the state, the log and the assertions of the first connection
matter. -/
theorem Advances.congr (h : Advances s' s'') (hstate : s'.state_ = s.state_)
    (hlog : s'.log = s.log) (haborted : s'.aborted = s.aborted) : Advances s s'' := by
  refine ⟨?_, haborted ▸ h.aborted⟩
  cases h.moves with
  | steady hs' hevents => exact .steady (hs'.trans hstate) (hlog ▸ hevents)
  | established hs hs' hevents => exact .established (hstate ▸ hs) hs' (hlog ▸ hevents)
  | disconnecting hs hs' hevents => exact .disconnecting (hstate ▸ hs) hs' (hlog ▸ hevents)
  | closed hs hs' hevents => exact .closed (hstate ▸ hs) hs' (hlog ▸ hevents)
  | destroyed hs hs' hevents => exact .destroyed (hstate ▸ hs) hs' (hlog ▸ hevents)

theorem Moves.rank_le (h : Moves s s') : s.state_.rank ≤ s'.state_.rank := by
  cases h with
  | steady hs' _ => rw [hs']
  | established hs hs' _ => simp [hs, hs', State.rank]
  | disconnecting hs hs' _ => simp [hs, hs', State.rank]
  | closed hs hs' _ => obtain hs | hs := hs <;> simp [hs, hs', State.rank]
  | destroyed hs hs' _ => simp [hs, hs', State.rank]

/-- The lifecycle callbacks of a run so far, by the state. -/
def Orderly (s : TcpConnection T) : Prop :=
  match s.state_ with
  | .KConnecting => lifecycle s.log = []
  | .KConnected | .KDisconnecting => lifecycle s.log = [.connectioncallback true]
  | .KDisconnected =>
      lifecycle s.log = [.connectioncallback true, .connectioncallback false, .closecallback] ∨
        lifecycle s.log = [.connectioncallback true, .connectioncallback false]

theorem Orderly.moves (h : Orderly s) (hmoves : Moves s s') : Orderly s' := by
  unfold Orderly at h ⊢
  cases hmoves with
  | steady hs' hlog => rw [hs', hlog]; exact h
  | established hs hs' hlog =>
      rw [hs] at h
      rw [hs', hlog, h]
      rfl
  | disconnecting hs hs' hlog =>
      rw [hs] at h
      rw [hs', hlog, h]
  | closed hs hs' hlog =>
      rw [hs', hlog]
      rcases hs with hs | hs <;> rw [hs] at h <;> rw [h] <;> exact .inl rfl
  | destroyed hs hs' hlog =>
      rw [hs] at h
      rw [hs', hlog, h]
      exact .inr rfl

theorem advances_connectEstablished (s : TcpConnection T) : Advances s s.connectEstablished := by
  unfold connectEstablished
  split_ifs with hstate
  · exact ⟨.established hstate rfl (lifecycle_append _ _), id⟩
  · exact ⟨.steady rfl rfl, nofun⟩

theorem advances_handleClose (h : s.state_ = .KConnected ∨ s.state_ = .KDisconnecting) :
    Advances s s.handleClose := by
  rw [handleClose, if_pos h]
  refine ⟨.closed h rfl ?_, id⟩
  change lifecycle (s.log ++ [.connectioncallback false] ++ [.closecallback]) = _
  rw [List.append_assoc, lifecycle_append]
  rfl

theorem aborted_handleClose (h : s.state_ = .KDisconnected) :
    s.handleClose.aborted = some .handleClose := by
  rw [handleClose, if_neg]
  simp [h]

theorem advances_forceCloseInLoop (s : TcpConnection T) (h : s.state_ ≠ .KConnecting) :
    Advances s s.forceCloseInLoop := by
  unfold forceCloseInLoop
  split_ifs with hstate
  · exact advances_handleClose (.inl (hstate.resolve_right h))
  · exact (Steady.of_eq rfl rfl rfl).advances

theorem advances_connectDestroyed (s : TcpConnection T) : Advances s s.connectDestroyed := by
  unfold connectDestroyed
  split_ifs with hstate
  · have hremove := steady_remove (((s.setstate .KDisconnected).setInterest .disableall).emit
      (.connectioncallback false))
    exact ⟨.destroyed hstate hremove.state (hremove.log.trans (lifecycle_append _ _)),
      hremove.aborted⟩
  · exact (steady_remove s).advances

theorem advances_handleRead {result : ReadResult}
    (hclose : result = .received [] → s.state_ = .KConnected ∨ s.state_ = .KDisconnecting)
    (h : s.handleRead result = some s') : Advances s s' := by
  cases result with
  | received data =>
      simp only [handleRead] at h
      split_ifs at h with hempty <;> cases h
      · exact advances_handleClose
          (hclose (congrArg ReadResult.received (List.isEmpty_iff.mp hempty)))
      · refine ⟨.steady rfl ?_, id⟩
        simp [emit, lifecycle, Event.isLifecycle]
  | failed error =>
      cases h
      exact (Steady.of_eq rfl rfl rfl).advances

/-- `connectEstablished` comes first, and a `shutdown` or `forceClose` assigns
in the state in which its test succeeded. -/
def inOrder (s : TcpConnection T) : Action T → Bool
  | .connectEstablished => true
  | .assign _ => s.state_ = .KConnected
  | _ => s.state_ ≠ .KConnecting

/-- The step calls `handleClose` for a connection that is closed already. -/
def closesAgain (s : TcpConnection T) : Action T → Bool
  | .callback answers =>
      s.state_ = .KDisconnected ∧ (s.work.head? = some .closeCallback_ ∨
        s.work.head? = some .readCallback_ ∧ answers.read = .received [])
  | _ => false

theorem advances_runFunctor {answers : Answers} {cb : Functor T}
    (hstate : s.state_ ≠ .KConnecting) (hrun : s.runFunctor answers cb = some s') :
    Advances s s' := by
  cases cb with
  | sendInLoop t message => exact (sendInLoop_sends hrun).steady.advances
  | shutdownInLoop => cases hrun; exact (steady_shutdownInLoop s).advances
  | forceCloseInLoop => cases hrun; exact advances_forceCloseInLoop s hstate
  | startReadInLoop => cases hrun; exact (steady_startReadInLoop s).advances
  | stopReadInLoop => cases hrun; exact (steady_stopReadInLoop s).advances
  | connectDestroyed => cases hrun; exact advances_connectDestroyed s
  | writecompletecallback => cases hrun; exact (steady_emit s rfl).advances
  | writecompletecallbackMember => cases hrun; exact (Steady.of_eq rfl rfl rfl).advances

theorem advances_runCallback {answers : Answers} {callback : Channel.Callback}
    (hclose : callback = .closeCallback_ ∨
      callback = .readCallback_ ∧ answers.read = .received [] →
      s.state_ = .KConnected ∨ s.state_ = .KDisconnecting)
    (hrun : s.runCallback answers callback = some s') : Advances s s' := by
  cases callback with
  | closeCallback_ => cases hrun; exact advances_handleClose (hclose (.inl rfl))
  | readCallback_ => exact advances_handleRead (fun hend => hclose (.inr ⟨rfl, hend⟩)) hrun
  | errorCallback_ => cases hrun; exact (Steady.of_eq rfl rfl rfl).advances
  | writeCallback_ => exact (handleWrite_writes hrun).steady.advances

theorem open_of_ne (hconnecting : s.state_ ≠ .KConnecting) (hclosed : s.state_ ≠ .KDisconnected) :
    s.state_ = .KConnected ∨ s.state_ = .KDisconnecting := by
  cases hstate : s.state_ with
  | KConnecting => exact absurd hstate hconnecting
  | KConnected => exact .inl rfl
  | KDisconnecting => exact .inr rfl
  | KDisconnected => exact absurd hstate hclosed

variable [DecidableEq T] {threadPid : T}

theorem Steps.advances {a : Action T} (h : Steps threadPid s a s') (hguard : inOrder s a = true)
    (honce : closesAgain s a = false) : Advances s s' := by
  have hsame : ∀ {s' : TcpConnection T}, s'.state_ = s.state_ → s'.log = s.log →
      s'.aborted = s.aborted → Advances s s' := by
    intro s' hstate hlog haborted
    exact (Steady.of_eq hstate hlog haborted).advances
  cases h with
  | connectEstablished => exact advances_connectEstablished s
  | sendHere hfree hstate hsend =>
      exact ((steady_emit s rfl).trans (sendInLoop_sends hsend).steady).advances
  | @send t message _ hother hfree hstate =>
      have hhand : Steady s ((s.emit (.send t message)).hand t (.sendInLoop t message)) :=
        (steady_emit s rfl).trans (.of_eq rfl rfl rfl)
      exact hhand.advances
  | shutdown hfree hstate => exact hsame rfl rfl rfl
  | forceClose hfree hstate => exact hsame rfl rfl rfl
  | assignShutdownHere hcall =>
      have hshutdown := steady_shutdownInLoop
        ((s.setstate .KDisconnecting).setCall threadPid none)
      exact ⟨.disconnecting (of_decide_eq_true hguard) hshutdown.state hshutdown.log,
        hshutdown.aborted⟩
  | assignShutdown hother hcall => exact ⟨.disconnecting (of_decide_eq_true hguard) rfl rfl, id⟩
  | assignForceClose hcall => exact ⟨.disconnecting (of_decide_eq_true hguard) rfl rfl, id⟩
  | startReadHere => exact (steady_startReadInLoop s).advances
  | startRead hfree => exact hsame rfl rfl rfl
  | stopReadHere => exact (steady_stopReadInLoop s).advances
  | stopRead hfree => exact hsame rfl rfl rfl
  | removeConnection hfree => exact hsame rfl rfl rfl
  | connectDestroyed => exact advances_connectDestroyed s
  | push hcall => exact hsame rfl rfl rfl
  | swap hswap => exact hsame rfl rfl rfl
  | @run _ _ queue _ hpop hrun =>
      have hstate : { s with queue := queue }.state_ ≠ .KConnecting := of_decide_eq_true hguard
      exact (advances_runFunctor hstate hrun).congr rfl rfl rfl
  | dispatch => exact hsame rfl rfl rfl
  | @callback answers callback rest _ hwork hrun =>
      have hclose : callback = .closeCallback_ ∨
          callback = .readCallback_ ∧ answers.read = .received [] →
          { s with work := rest }.state_ = .KConnected ∨
            { s with work := rest }.state_ = .KDisconnecting := by
        intro hclose
        apply open_of_ne (s := s) (of_decide_eq_true hguard)
        intro hclosed
        apply of_decide_eq_false honce
        refine ⟨hclosed, ?_⟩
        rw [hwork, List.head?_cons, Option.some.injEq, Option.some.injEq]
        exact hclose
      exact (advances_runCallback hclose hrun).congr rfl rfl rfl
  | consume hlen => exact hsame rfl rfl rfl

/-- A step that meets the test does fail the assertion. -/
theorem aborted_of_closesAgain {a : Action T} (hagain : closesAgain s a = true)
    (hstep : Steps threadPid s a s') : s'.aborted = some .handleClose := by
  cases hstep with
  | @callback answers callback rest _ hwork hrun =>
      obtain ⟨hclosed, hhead⟩ := of_decide_eq_true hagain
      have habort : ({ s with work := rest } : TcpConnection T).handleClose.aborted =
          some .handleClose := aborted_handleClose hclosed
      rw [hwork, List.head?_cons, Option.some.injEq, Option.some.injEq] at hhead
      rcases hhead with rfl | ⟨rfl, hend⟩
      · cases hrun
        exact habort
      · rw [runCallback, hend] at hrun
        cases hrun
        exact habort
  | _ => cases hagain

/-- No lifecycle callback is invoked twice. -/
theorem Orderly.count_le (h : Orderly s) {e : Event T} (he : e.isLifecycle = true) :
    s.log.count e ≤ 1 := by
  have hcount : s.log.count e = (lifecycle s.log).count e := (List.count_filter he).symm
  have hnodup : (lifecycle s.log).Nodup := by
    unfold Orderly at h
    split at h
    · simp [h]
    · simp [h]
    · simp [h]
    · rcases h with h | h <;> simp [h]
  rw [hcount]
  exact List.nodup_iff_count_le_one.mp hnodup e

/-- The life of a connection in a run whose calls of `shutdown` and
`forceClose` are atomic and in which `handleClose` is not called for a
connection that is closed already. -/
theorem lifecycle_of_closesOnce
    (h : (system threadPid).ReachableVia
      (fun s a => inOrder s a = true ∧ closesAgain s a = false) s) :
    (∀ a s', inOrder s a = true → closesAgain s a = false → s.next threadPid a = some s' →
        s.state_.rank ≤ s'.state_.rank) ∧
      s.log.count .closecallback ≤ 1 ∧ s.log.count (.connectioncallback true) ≤ 1 ∧
      s.log.count (.connectioncallback false) ≤ 1 ∧ s.aborted ≠ some .handleClose := by
  have hboth : Orderly s ∧ s.aborted ≠ some .handleClose := by
    apply h.invariant (I := fun s => Orderly s ∧ s.aborted ≠ some .handleClose)
    · rintro s ⟨sockfd, initalsize, writecompletecallback, rfl⟩
      exact ⟨rfl, nofun⟩
    · rintro s a s' ⟨horderly, hasserted⟩ ⟨hguard, honce⟩ hnext
      have hadvances := (next_steps hnext).2.advances hguard honce
      exact ⟨horderly.moves hadvances.moves, hadvances.aborted hasserted⟩
  obtain ⟨horderly, hasserted⟩ := hboth
  refine ⟨?_, horderly.count_le rfl, horderly.count_le rfl, horderly.count_le rfl, hasserted⟩
  intro a s' hguard honce hnext
  exact ((next_steps hnext).2.advances hguard honce).moves.rank_le

/-- A message and then a hang-up. -/
theorem lifecycle_of_closesOnce_hangup : ∃ s : TcpConnection Bool,
    (s.state_ = .KDisconnected ∧ s.log = [.connectioncallback true, .messagecallback,
      .connectioncallback false, .closecallback]) ∧
      (∀ a s', inOrder s a = true → closesAgain s a = false → s.next true a = some s' →
        s.state_.rank ≤ s'.state_.rank) ∧
      s.log.count .closecallback ≤ 1 ∧ s.log.count (.connectioncallback true) ≤ 1 ∧
      s.log.count (.connectioncallback false) ≤ 1 ∧ s.aborted ≠ some .handleClose := by
  obtain ⟨s, hreach, hs⟩ : ∃ s, (system true).ReachableVia
      (fun s a => inOrder s a = true ∧ closesAgain s a = false) s ∧
      (s.state_ = .KDisconnected ∧ s.log = [.connectioncallback true, .messagecallback,
        .connectioncallback false, .closecallback]) :=
    Transition.System.exists_of_exec _ (new 5 8 false)
      [.connectEstablished, .dispatch 0x1, .callback ⟨.accepted 0, .received [7]⟩,
        .dispatch 0x10, .callback ⟨.accepted 0, .received []⟩]
      ⟨5, 8, false, rfl⟩ (by decide)
  exact ⟨s, hs, lifecycle_of_closesOnce hreach⟩

/-- `POLLHUP` and `POLLPRI` in one dispatch run the close callback and then the
read callback, which finds the end of the stream. -/
theorem handleClose_twice : ∃ s : TcpConnection Bool,
    (system true).ReachableVia (fun s a => inOrder s a = true) s ∧
      s.aborted = some .handleClose :=
  Transition.System.exists_of_exec _ (new 5 8 false)
    [.connectEstablished, .dispatch 0x12, .callback ⟨.accepted 0, .received []⟩,
      .callback ⟨.accepted 0, .received []⟩]
    ⟨5, 8, false, rfl⟩ (by decide)

end MuduoRpc.TcpConnection
