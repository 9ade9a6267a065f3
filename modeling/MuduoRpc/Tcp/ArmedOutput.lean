import MuduoRpc.Tcp.Shutdown

/-!
Output and writing interest. The channel of a connection that is not
disconnected waits for writability exactly while there is output. `shutdown` and
`forceClose` are calls like any other here: they assign in the state in which they
tested.
-/

namespace MuduoRpc.TcpConnection

variable {T : Type} {s s' : TcpConnection T}

/-- The function does not bring a disconnected connection back, and keeps output and
interest together unless it disconnects. -/
def Arms (s s' : TcpConnection T) : Prop :=
  s'.state_ ≠ .KDisconnected → s.state_ ≠ .KDisconnected ∧ (Armed s → Armed s')

theorem Arms.of_closed (h : s'.state_ = .KDisconnected) : Arms s s' :=
  fun hopen => absurd h hopen

theorem Arms.of_forward (hstate : Forward s s')
    (hwriting : s'.channel_.isWriting = s.channel_.isWriting)
    (houtput : s'.outputbuffer_ = s.outputbuffer_) : Arms s s' := by
  intro hopen
  refine ⟨?_, fun harmed => ?_⟩
  · rcases hstate with hsame | ⟨hconnecting, _⟩
    · exact hsame ▸ hopen
    · simp [hconnecting]
  · rw [Armed, hwriting, houtput]
    exact harmed

theorem Arms.of_eq (hstate : s'.state_ = s.state_) (hchannel : s'.channel_ = s.channel_)
    (houtput : s'.outputbuffer_ = s.outputbuffer_) : Arms s s' :=
  .of_forward (.inl hstate) (congrArg Channel.isWriting hchannel) houtput

theorem arms_connectEstablished (s : TcpConnection T) : Arms s s.connectEstablished :=
  .of_forward (forward_connectEstablished s).1 (forward_connectEstablished s).2
    (quiet_connectEstablished s).output

theorem arms_startReadInLoop (s : TcpConnection T) : Arms s s.startReadInLoop :=
  .of_forward (forward_startReadInLoop s).1 (forward_startReadInLoop s).2
    (quiet_startReadInLoop s).output

theorem arms_stopReadInLoop (s : TcpConnection T) : Arms s s.stopReadInLoop :=
  .of_forward (forward_stopReadInLoop s).1 (forward_stopReadInLoop s).2
    (quiet_stopReadInLoop s).output

theorem arms_shutdownInLoop (s : TcpConnection T) : Arms s s.shutdownInLoop := by
  unfold shutdownInLoop
  split_ifs <;> exact .of_eq rfl rfl rfl

theorem arms_handleClose (s : TcpConnection T) : Arms s s.handleClose := by
  unfold handleClose
  split_ifs
  · exact .of_closed rfl
  · exact .of_eq rfl rfl rfl

theorem arms_forceCloseInLoop (s : TcpConnection T) : Arms s s.forceCloseInLoop := by
  unfold forceCloseInLoop
  split_ifs
  · exact arms_handleClose s
  · exact .of_eq rfl rfl rfl

theorem arms_connectDestroyed (s : TcpConnection T) : Arms s s.connectDestroyed := by
  by_cases hconnected : s.state_ = .KConnected
  · apply Arms.of_closed
    rw [connectDestroyed, if_pos hconnected]
    unfold remove
    split_ifs <;> rfl
  · obtain ⟨hstate, hwriting⟩ := forward_connectDestroyed hconnected
    exact .of_forward hstate hwriting (quiet_connectDestroyed s).output

theorem arms_handleRead {result : ReadResult} (h : s.handleRead result = some s') :
    Arms s s' := by
  by_cases hend : result = .received []
  · subst hend
    cases h
    exact arms_handleClose s
  · obtain ⟨hstate, hwriting⟩ := forward_handleRead hend h
    exact .of_forward hstate hwriting (quiet_handleRead h).output

theorem Sends.arms {t : T} {message : List UInt8} {result : WriteResult}
    (h : Sends s t message result s') : Arms s s' :=
  fun hopen => ⟨h.state ▸ hopen, fun harmed => harmed.sends h⟩

/-- A write that empties the output buffer ends the interest as well. -/
theorem armed_of_drained {n : Nat} (hfits : n ≤ s.outputbuffer_.readableBytes)
    (hall : n = s.outputbuffer_.readableBytes) : Armed (s.retrieveOutput n hfits).stopWriting := by
  rw [Armed, isWriting_stopWriting, bytes_stopWriting s hfits hall]
  simp

theorem Writes.arms {result : WriteResult} (h : Writes s result s') : Arms s s' := by
  cases h with
  | idle _ => exact .of_eq rfl rfl rfl
  | nothing _ _ => exact .of_eq rfl rfl rfl
  | something _ hwriting hfits =>
      exact fun hopen => ⟨hopen, fun _ => armed_of_writing hfits hwriting⟩
  | drained hfits _ hall _ =>
      intro hopen
      rw [state_stopWriting] at hopen
      exact ⟨hopen, fun _ => armed_of_drained hfits hall⟩
  | halfClosed hfits _ _ hall hstate =>
      refine fun _ => ⟨by simp [hstate], fun _ => ?_⟩
      exact armed_of_drained hfits hall

theorem arms_runFunctor {answers : Answers} {cb : Functor T}
    (h : s.runFunctor answers cb = some s') : Arms s s' := by
  cases cb with
  | sendInLoop t message => exact (sendInLoop_sends h).arms
  | shutdownInLoop =>
      cases h
      exact arms_shutdownInLoop s
  | forceCloseInLoop =>
      cases h
      exact arms_forceCloseInLoop s
  | startReadInLoop =>
      cases h
      exact arms_startReadInLoop s
  | stopReadInLoop =>
      cases h
      exact arms_stopReadInLoop s
  | connectDestroyed =>
      cases h
      exact arms_connectDestroyed s
  | writecompletecallback | writecompletecallbackMember =>
      cases h
      exact .of_eq rfl rfl rfl

theorem arms_runCallback {answers : Answers} {callback : Channel.Callback}
    (h : s.runCallback answers callback = some s') : Arms s s' := by
  cases callback with
  | closeCallback_ =>
      cases h
      exact arms_handleClose s
  | readCallback_ => exact arms_handleRead h
  | errorCallback_ =>
      cases h
      exact .of_eq rfl rfl rfl
  | writeCallback_ => exact (handleWrite_writes h).arms

section Runs

variable [DecidableEq T] {threadPid : T} {a : Action T}

/-- The step assigns `KDisconnecting` to a connection that is disconnected. -/
def assignsLate (s : TcpConnection T) : Action T → Bool
  | .assign _ => s.state_ = .KDisconnected
  | _ => false

theorem Steps.arms (h : Steps threadPid s a s') (hassign : assignsLate s a = false) :
    Arms s s' := by
  cases h with
  | connectEstablished => exact arms_connectEstablished s
  | sendHere _ _ hsend => exact (sendInLoop_sends hsend).arms
  | send _ _ _ | shutdown _ _ | forceClose _ _ | startRead _ | stopRead _
  | removeConnection _ | push _ | swap _ | dispatch | consume _ => exact .of_eq rfl rfl rfl
  | assignShutdownHere _ =>
      intro hopen
      refine ⟨of_decide_eq_false hassign, fun harmed => ?_⟩
      exact (arms_shutdownInLoop _ hopen).2 harmed
  | assignShutdown _ _ | assignForceClose _ =>
      exact fun _ => ⟨of_decide_eq_false hassign, fun harmed => harmed⟩
  | startReadHere => exact arms_startReadInLoop s
  | stopReadHere => exact arms_stopReadInLoop s
  | connectDestroyed => exact arms_connectDestroyed s
  | @run answers cb queue _ _ hrun =>
      have hpopped : Arms s { s with queue := queue } := .of_eq rfl rfl rfl
      intro hopen
      obtain ⟨hbefore, hkept⟩ := arms_runFunctor hrun hopen
      obtain ⟨hfirst, hsame⟩ := hpopped hbefore
      exact ⟨hfirst, fun harmed => hkept (hsame harmed)⟩
  | @callback answers callback rest _ _ hrun =>
      have hrest : Arms s { s with work := rest } := .of_eq rfl rfl rfl
      intro hopen
      obtain ⟨hbefore, hkept⟩ := arms_runCallback hrun hopen
      obtain ⟨hfirst, hsame⟩ := hrest hbefore
      exact ⟨hfirst, fun harmed => hkept (hsame harmed)⟩

/-- As long as nothing is assigned to a disconnected connection. -/
theorem armed_of_assignsInTime
    (h : (system threadPid).ReachableVia (fun s a => assignsLate s a = false) s) :
    s.state_ ≠ .KDisconnected → Armed s := by
  apply h.invariant (I := fun s => s.state_ ≠ .KDisconnected → Armed s)
  · rintro _ ⟨sockfd, initalsize, writecompletecallback, rfl⟩ _
    exact armed_new _ _ _
  · intro s a s' harmed hassign hnext hopen
    obtain ⟨hbefore, hkept⟩ := (next_steps hnext).2.arms hassign hopen
    exact hkept (harmed hbefore)

variable (threadPid)

/-- One call, from its test of `state_` to its last statement. -/
def nextCall (s : TcpConnection T) : Action T → Option (TcpConnection T)
  | .shutdown t => do
      let s ← s.next threadPid (.shutdown t)
      s.next threadPid (.assign t)
  | .forceClose t => do
      let s ← s.next threadPid (.forceClose t)
      s.next threadPid (.assign t)
  | .assign _ => none
  | a => s.next threadPid a

/-- The connection under whole calls. -/
def callSystem : Transition.System (TcpConnection T) (Action T) where
  init s := ∃ sockfd initalsize writecompletecallback,
    s = new sockfd initalsize writecompletecallback
  next := nextCall threadPid

variable {threadPid}

/-- A whole call is one or two steps, and assigns in the state in which it tested. -/
theorem run_of_nextCall (h : s.nextCall threadPid a = some s') :
    Relation.ReflTransGen
      ((system threadPid).Step fun s a => assignsLate s a = false) s s' := by
  cases a with
  | shutdown t =>
      obtain ⟨tested, htest, hassign⟩ := Option.bind_eq_some_iff.mp h
      have hopen : assignsLate tested (.assign t) = false := by
        cases (next_steps htest).2 with
        | shutdown _ hconnected => simp [assignsLate, setCall, hconnected]
      exact (Relation.ReflTransGen.single ⟨_, rfl, htest⟩).tail ⟨_, hopen, hassign⟩
  | forceClose t =>
      obtain ⟨tested, htest, hassign⟩ := Option.bind_eq_some_iff.mp h
      have hopen : assignsLate tested (.assign t) = false := by
        cases (next_steps htest).2 with
        | forceClose _ hstate => rcases hstate with h | h <;> simp [assignsLate, setCall, h]
      exact (Relation.ReflTransGen.single ⟨_, rfl, htest⟩).tail ⟨_, hopen, hassign⟩
  | assign t => cases h
  | _ => exact .single ⟨_, rfl, h⟩

theorem reachableVia_of_calls (h : (callSystem threadPid).Reachable s) :
    (system threadPid).ReachableVia (fun s a => assignsLate s a = false) s := by
  apply h.invariant (I := (system threadPid).ReachableVia fun s a => assignsLate s a = false)
  · exact fun _ hinit => .start hinit
  · rintro s a s' ⟨s₀, hinit, hrun⟩ _ hnext
    exact ⟨s₀, hinit, hrun.trans (run_of_nextCall hnext)⟩

/-- A connection that is not disconnected waits for writability exactly while there is
output. -/
theorem isWriting_iff_output (h : (callSystem threadPid).Reachable s)
    (hopen : s.state_ ≠ .KDisconnected) :
    s.channel_.isWriting = true ↔ 0 < s.outputbuffer_.readableBytes := by
  have harmed : s.channel_.isWriting = true ↔ s.outputbuffer_.bytes ≠ [] :=
    armed_of_assignsInTime (reachableVia_of_calls h) hopen
  rw [harmed, Ne, bytes_eq_nil, Nat.pos_iff_ne_zero]

/-- Two messages behind a partial write, and a `shutdown` while they are pending. -/
theorem isWriting_iff_output_pending : ∃ s : TcpConnection Bool,
    s.state_ = .KDisconnecting ∧ s.outputbuffer_.bytes = [2, 3] ∧
      (s.channel_.isWriting = true ↔ 0 < s.outputbuffer_.readableBytes) := by
  obtain ⟨s, hreach, hstate, hbytes⟩ : ∃ s : TcpConnection Bool,
      (callSystem true).ReachableVia (fun _ _ => True) s ∧ s.state_ = .KDisconnecting ∧
        s.outputbuffer_.bytes = [2, 3] :=
    Transition.System.exists_of_exec _ (new 5 8 false)
      [.connectEstablished, .send true [1, 2] (.accepted 1), .send true [3] (.accepted 0),
        .shutdown true] ⟨5, 8, false, rfl⟩ (by decide)
  exact ⟨s, hstate, hbytes, isWriting_iff_output hreach (by simp [hstate])⟩

end Runs

end MuduoRpc.TcpConnection
