import Mathlib.Data.Fintype.Defs
import MuduoRpc.Tcp.ClientSteps
import MuduoRpc.Tcp.Lifecycle
import MuduoRpc.Tcp.OutputStream

/-!
What is left after `~TcpClient`. The destructor stops the connector only if
there is a connection that others hold too, and by a functor that runs on the
destroyed connector; a connection that only the client held is moved to
`KDisconnecting`, in which `forceCloseInLoop` does not close it. The teardown is
complete when there is nothing left to tear down.
-/

namespace MuduoRpc

namespace TcpConnection

variable {T : Type}

/-- Closed, and no `shutdown` or `forceClose` is about to assign the state. -/
structure Closed (s : TcpConnection T) : Prop where
  state : s.state_ = .KDisconnected
  calls : ∀ t closing, s.calls t ≠ some (.closing closing)

instance [Fintype T] [DecidableEq T] (s : TcpConnection T) : Decidable (Closed s) :=
  decidable_of_iff (s.state_ = .KDisconnected ∧ ∀ t,
      s.calls t ≠ some (.closing .shutdown) ∧ s.calls t ≠ some (.closing .forceClose))
    ⟨fun h => ⟨h.1, fun t closing => by cases closing; exacts [(h.2 t).1, (h.2 t).2]⟩,
      fun h => ⟨h.state, fun t => ⟨h.calls t _, h.calls t _⟩⟩⟩

variable {s s' : TcpConnection T}

variable [DecidableEq T] {threadPid : T}

/-- A closed connection accepts no call that would close it again. -/
theorem Closed.calls_step {a : Action T} (h : Closed s) (hstep : Steps threadPid s a s')
    (t : T) (closing : Closing) : s'.calls t ≠ some (.closing closing) := by
  have hconnected : s.state_ ≠ .KConnected := by simp [h.state]
  have hsame (hcalls : s'.calls = s.calls) : s'.calls t ≠ some (.closing closing) := by
    rw [hcalls]
    exact h.calls t closing
  have hset {t' : T} {cb : Functor T} {s : TcpConnection T} (hold : ∀ t closing,
      s.calls t ≠ some (.closing closing)) :
      (s.setCall t' (some (.pushing cb))).calls t ≠ some (.closing closing) := by
    intro hcall
    rcases calls_setCall hcall with hother | hpush
    · exact hold t closing hother
    · cases hpush
  cases hstep with
  | connectEstablished => exact hsame (quiet_connectEstablished s).calls
  | sendHere _ hstate _ => exact absurd hstate hconnected
  | send _ _ hstate => exact absurd hstate hconnected
  | shutdown _ hstate => exact absurd hstate hconnected
  | forceClose _ hstate => simp [h.state] at hstate
  | assignShutdownHere hcall => exact absurd hcall (h.calls _ _)
  | assignShutdown _ hcall => exact absurd hcall (h.calls _ _)
  | assignForceClose hcall => exact absurd hcall (h.calls _ _)
  | startReadHere => exact hsame (quiet_startReadInLoop s).calls
  | startRead _ => exact hset h.calls
  | stopReadHere => exact hsame (quiet_stopReadInLoop s).calls
  | stopRead _ => exact hset h.calls
  | removeConnection _ => exact hset h.calls
  | connectDestroyed => exact hsame (quiet_connectDestroyed s).calls
  | push _ =>
      intro hcall
      rcases calls_setCall hcall with hother | hnone
      · exact h.calls t closing hother
      · cases hnone
  | swap _ => exact h.calls t closing
  | @run _ _ queue _ _ hrun =>
      have hcalls : s'.calls = { s with queue := queue }.calls := calls_runFunctor hrun
      exact hsame hcalls
  | dispatch => exact h.calls t closing
  | @callback _ _ rest _ _ hrun =>
      have hcalls : s'.calls = { s with work := rest }.calls := calls_runCallback hrun
      exact hsame hcalls
  | consume _ => exact h.calls t closing

/-- A `handleClose` that fails its assertion does nothing else. -/
theorem steady_of_closesAgain {a : Action T} (hagain : closesAgain s a = true)
    (hstep : Steps threadPid s a s') :
    s'.state_ = s.state_ ∧ lifecycle s'.log = lifecycle s.log := by
  cases hstep with
  | @callback answers callback rest _ hwork hrun =>
      obtain ⟨hclosed, hhead⟩ := of_decide_eq_true hagain
      have hsteady : ({ s with work := rest } : TcpConnection T).handleClose.state_ = s.state_ ∧
          lifecycle ({ s with work := rest } : TcpConnection T).handleClose.log =
            lifecycle s.log := by
        rw [handleClose, if_neg]
        · exact ⟨rfl, rfl⟩
        · simp [hclosed]
      rw [hwork, List.head?_cons, Option.some.injEq, Option.some.injEq] at hhead
      rcases hhead with rfl | ⟨rfl, hend⟩
      · cases hrun
        exact hsteady
      · rw [runCallback, hend] at hrun
        cases hrun
        exact hsteady
  | _ => cases hagain

theorem Closed.steady_step {a : Action T} (h : Closed s) (hstep : Steps threadPid s a s') :
    s'.state_ = s.state_ ∧ lifecycle s'.log = lifecycle s.log := by
  by_cases hagain : closesAgain s a = true
  · exact steady_of_closesAgain hagain hstep
  · have hguard : inOrder s a = true := by
      cases hstep with
      | assignShutdownHere hcall | assignShutdown _ hcall | assignForceClose hcall =>
          exact absurd hcall (h.calls _ _)
      | _ => simp [inOrder, h.state]
    cases (hstep.advances hguard (Bool.eq_false_iff.mpr hagain)).moves with
    | steady hstate hlog => exact ⟨hstate, hlog⟩
    | established hstate _ _ => simp [h.state] at hstate
    | disconnecting hstate _ _ => simp [h.state] at hstate
    | closed hstate _ _ => simp [h.state] at hstate
    | destroyed hstate _ _ => simp [h.state] at hstate

/-- A closed connection stays closed and does not invoke its closecallback again. -/
theorem Closed.next {a : Action T} (h : Closed s) (hnext : s.next threadPid a = some s') :
    Closed s' ∧ s'.log.count .closecallback = s.log.count .closecallback := by
  have hstep := (next_steps hnext).2
  obtain ⟨hstate, hlog⟩ := h.steady_step hstep
  refine ⟨⟨hstate.trans h.state, h.calls_step hstep⟩, ?_⟩
  have hcount (log : List (Event T)) :
      log.count .closecallback = (lifecycle log).count .closecallback :=
    (List.count_filter rfl).symm
  rw [hcount s'.log, hcount s.log, hlog]

end TcpConnection

namespace TcpClient

variable {T : Type}

/-- The destructor has completed, and nothing has run on the connector since. Once
the functors have drained: no channel is registered, the descriptor of an
unfinished attempt is closed, a connection that only the client held is closed, and
the client is not called back. -/
def TearsDown (s : TcpClient T) : Prop :=
  ∀ teardown, s.teardown = some teardown → teardown.dangling = false ∧
    (teardown.drained = true → s.connector_.registered = [] ∧
      (∀ sockfd ∈ teardown.attempt, .release .close sockfd ∈ s.connector_.ops) ∧
      (∀ index member, teardown.sole = some index → s.connections[index]? = some member →
        member.1.state_ = .KDisconnected) ∧
      teardown.late = 0)

/-- No attempt is under way, and no functor or handler of the connector is to run. -/
structure AtRest (connector : Connector T) : Prop where
  registered : connector.registered = []
  queue : connector.queue.toList = []
  work : connector.work = []

instance [DecidableEq T] (connector : Connector T) : Decidable (AtRest connector) :=
  decidable_of_iff (connector.registered = [] ∧ connector.queue.toList = [] ∧ connector.work = [])
    ⟨fun h => ⟨h.1, h.2.1, h.2.2⟩, fun h => ⟨h.registered, h.queue, h.work⟩⟩

/-- The client is destroyed when it has no connection, its earlier connections are
closed, and its connector is at rest. -/
def nothingLeft (s : TcpClient T) : Action T → Prop
  | .destroy _ _ => s.connection_ = none ∧ AtRest s.connector_ ∧
      ∀ member ∈ s.connections, TcpConnection.Closed member.1
  | _ => True

instance [Fintype T] [DecidableEq T] (s : TcpClient T) : ∀ a, Decidable (nothingLeft s a)
  | .destroy _ _ => inferInstanceAs (Decidable (s.connection_ = none ∧ AtRest s.connector_ ∧
      ∀ member ∈ s.connections, TcpConnection.Closed member.1))
  | .connect _ | .disconnect _ | .stop _ | .connector _ | .connection _ _ | .setClosecallback =>
      .isTrue trivial

/-- What holds after such a destructor. -/
structure Gone (s : TcpClient T) (teardown : Teardown) : Prop where
  rest : AtRest s.connector_
  pushing : s.connector_.pushing = []
  setters : s.setters = []
  closed : ∀ member ∈ s.connections, TcpConnection.Closed member.1
  attempt : teardown.attempt = []
  sole : teardown.sole = none
  dangling : teardown.dangling = false
  late : teardown.late = 0

variable {s s' : TcpClient T} {teardown : Teardown}

theorem Gone.tearsDown (h : Gone s teardown) (hteardown : s.teardown = some teardown) :
    TearsDown s := by
  intro other hother
  cases hteardown.symm.trans hother
  refine ⟨h.dangling, fun _ => ⟨h.rest.registered, ?_, ?_, h.late⟩⟩
  · rw [h.attempt]
    intro sockfd hmem
    cases hmem
  · rw [h.sole]
    intro index member hsole
    cases hsole

theorem Gone.drain (h : Gone s teardown) (drained : Bool) :
    Gone { s with teardown := some { teardown with drained := drained } }
      { teardown with drained := drained } :=
  ⟨h.rest, h.pushing, h.setters, h.closed, h.attempt, h.sole, h.dangling, h.late⟩

variable [DecidableEq T] {threadPid : T}

/-- A connector at rest has no step but the swap of its empty queue. -/
theorem AtRest.next {connector connector' : Connector T} {a : Connector.Action T}
    (h : AtRest connector) (hpushing : connector.pushing = []) (ha : loopStep a = true)
    (hnext : connector.next threadPid a = some connector') :
    runsConnector a = false ∧ AtRest connector' ∧ connector'.pushing = [] := by
  cases Connector.next_steps hnext with
  | startHere | start | stop | restart => cases ha
  | push hmem =>
      rw [hpushing] at hmem
      cases hmem
  | swap _ hswap =>
      have hqueue := (PendingQueue.toList_swap hswap).trans h.queue
      exact ⟨rfl, ⟨h.registered, hqueue, h.work⟩, hpushing⟩
  | run _ hpop _ =>
      have hlist := (PendingQueue.toList_pop hpop).symm.trans h.queue
      cases hlist
  | dispatch _ _ hchannel hadded =>
      have hregistered := h.registered
      simp [Connector.registered, hchannel, hadded] at hregistered
  | work _ hlist _ =>
      have hnone := hlist.symm.trans h.work
      cases hnone

omit [DecidableEq T] in
theorem Gone.setConnection (h : Gone s teardown) {index : Nat} {conn : TcpConnection T}
    (hclosed : TcpConnection.Closed conn) : Gone (s.setConnection index conn) teardown := by
  refine ⟨h.rest, h.pushing, h.setters, ?_, h.attempt, h.sole, h.dangling, h.late⟩
  intro member hmem
  obtain ⟨other, hother⟩ := List.mem_iff_getElem?.mp hmem
  rw [TcpClient.setConnection, List.getElem?_modify] at hother
  obtain ⟨old, hold, hmember⟩ := Option.map_eq_some_iff.mp hother
  split at hmember
  · cases hmember
    exact hclosed
  · cases hmember
    exact h.closed _ (List.mem_of_getElem? hold)

theorem Gone.step {a : Action T} (h : Gone s teardown) (hteardown : s.teardown = some teardown)
    (hstep : Steps threadPid s a s') : Gone s' teardown ∧ s'.teardown = some teardown := by
  have hgone (hlive : s.teardown = none) : False := by
    rw [hteardown] at hlive
    cases hlive
  cases hstep with
  | connect hlive _ | disconnect hlive | shutdown hlive _ _ _ | stop hlive _ => exact (hgone hlive).elim
  | newConnection hlive _ _ _ | destroy hlive _ _ => exact (hgone hlive).elim
  | connector hloop hnext _ =>
      obtain ⟨_, hrest, hpushing⟩ := h.rest.next h.pushing hloop hnext
      exact ⟨⟨hrest, hpushing, h.setters, h.closed, h.attempt, h.sole, h.dangling, h.late⟩,
        hteardown⟩
  | dangling _ hloop hruns hnext =>
      obtain ⟨hidle, _⟩ := h.rest.next h.pushing hloop hnext
      rw [hruns] at hidle
      cases hidle
  | connection _ hmember hnext _ =>
      obtain ⟨hclosed, _⟩ := (h.closed _ (List.mem_of_getElem? hmember)).next hnext
      exact ⟨h.setConnection hclosed, hteardown⟩
  | closes _ hmember hnext hcloses _ =>
      obtain ⟨_, hcount⟩ := (h.closed _ (List.mem_of_getElem? hmember)).next hnext
      simp [TcpClient.closes, hcount] at hcloses
  | setClosecallback hsetters =>
      rw [h.setters] at hsetters
      cases hsetters

/-- A destructor that finds nothing to tear down. -/
theorem gone_destroy {t : T} {isunique : Bool} (hsetters : s.setters = [])
    (hguard : nothingLeft s (.destroy t isunique))
    (hstep : Steps threadPid s (.destroy t isunique) s') :
    ∃ teardown, Gone s' teardown ∧ s'.teardown = some teardown := by
  obtain ⟨hnone, hrest, hclosed⟩ := hguard
  cases hstep with
  | destroy _ hpushing hleaves =>
      cases hleaves with
      | nothing _ =>
          refine ⟨_, ⟨hrest, hpushing, hsetters, hclosed, hrest.registered, ?_, ?_, rfl⟩, rfl⟩
          · cases isunique with
            | true => exact hnone
            | false => rfl
          · rw [hrest.registered]
            rfl
      | forced hsome _ _ _ | stopped hsome _ _ _ =>
          rw [hnone] at hsome
          cases hsome

/-- Only the destructor queues a `setClosecallback`. -/
structure Live (s : TcpClient T) : Prop where
  teardown : s.teardown = none
  setters : s.setters = []

theorem Live.closes {index : Nat} {conn : TcpConnection T} {cb : CloseCallback} (h : Live s)
    (hcloses : Closes threadPid s index conn cb s') : Live s' := by
  cases hcloses with
  | detail | removed _ _ _ | restarted _ _ _ _ => exact ⟨h.teardown, h.setters⟩
  | late hteardown =>
      rw [h.teardown] at hteardown
      cases hteardown

theorem Live.step {a : Action T} (h : Live s) (ha : ∀ t isunique, a ≠ .destroy t isunique)
    (hstep : Steps threadPid s a s') : Live s' := by
  cases hstep with
  | connect _ _ | disconnect _ | shutdown _ _ _ _ | stop _ _ => exact ⟨h.teardown, h.setters⟩
  | connector _ _ _ | newConnection _ _ _ _ | connection _ _ _ _ =>
      exact ⟨h.teardown, h.setters⟩
  | dangling hteardown _ _ _ =>
      rw [h.teardown] at hteardown
      cases hteardown
  | closes _ _ _ _ hcloses =>
      apply Live.closes _ hcloses
      exact ⟨h.teardown, h.setters⟩
  | setClosecallback hsetters =>
      rw [h.setters] at hsetters
      cases hsetters
  | destroy _ _ _ => exact absurd rfl (ha _ _)

/-- Alive, or destroyed with nothing left. -/
def Settled (s : TcpClient T) : Prop := Live s ∨ ∃ teardown, Gone s teardown ∧
  s.teardown = some teardown

theorem settled_step {a : Action T} (h : Settled s) (hguard : nothingLeft s a)
    (hstep : Steps threadPid s a s') : Settled s' := by
  rcases h with hlive | ⟨teardown, hgone, hteardown⟩
  · by_cases hdestroy : ∃ t isunique, a = .destroy t isunique
    · obtain ⟨t, isunique, rfl⟩ := hdestroy
      exact .inr (gone_destroy hlive.setters hguard hstep)
    · refine .inl (hlive.step ?_ hstep)
      intro t isunique hsame
      exact hdestroy ⟨t, isunique, hsame⟩
  · exact .inr ⟨teardown, hgone.step hteardown hstep⟩

omit [DecidableEq T] in
theorem Settled.note (h : Settled s) : Settled s.note := by
  rcases h with hlive | ⟨teardown, hgone, hteardown⟩
  · refine .inl ?_
    rw [TcpClient.note, hlive.teardown]
    exact hlive
  · have hnote : s.note = { s with teardown := some { teardown with
        drained := teardown.drained || s.drained } } := by
      rw [TcpClient.note, hteardown]
    rw [hnote]
    exact .inr ⟨_, hgone.drain _, rfl⟩

/-- A client that is destroyed when nothing is left to tear down is torn down. -/
theorem tearsDown_of_nothingLeft (h : (system threadPid).ReachableVia nothingLeft s) :
    TearsDown s := by
  have hsettled : Settled s := by
    apply h.invariant (I := Settled)
    · rintro _ ⟨_, rfl⟩
      exact .inl ⟨rfl, rfl⟩
    · intro _ _ _ hi hguard hnext
      obtain ⟨_, hstep, rfl⟩ := Option.map_eq_some_iff.mp hnext
      exact (settled_step hi hguard (step_steps hstep)).note
  rcases hsettled with hlive | ⟨teardown, hgone, hteardown⟩
  · intro teardown hteardown
    rw [hlive.teardown] at hteardown
    cases hteardown
  · exact hgone.tearsDown hteardown

/-- A connection that was established and closed by the peer. -/
theorem tearsDown_of_nothingLeft_closed : ∃ s, (system true).Reachable s ∧
    s.connections.length = 1 ∧ s.teardown = some ⟨[], none, false, true, 0⟩ ∧ TearsDown s := by
  obtain ⟨s, hreach, hlength, hteardown⟩ : ∃ s, (system true).ReachableVia nothingLeft s ∧
      s.connections.length = 1 ∧ s.teardown = some ⟨[], none, false, true, 0⟩ :=
    Transition.System.exists_of_exec _ (new false)
      [.connect true, .connector (.work ⟨none, some .EINPROGRESS, none, false⟩),
        .connector (.dispatch Poll.POLLOUT), .connector (.work ⟨none, none, none, false⟩),
        .connector .swap, .connector (.run ⟨none, none, none, false⟩),
        .connection 0 (.dispatch Poll.POLLHUP),
        .connection 0 (.callback ⟨.accepted 0, .received []⟩), .connection 0 .swap,
        .connection 0 (.run ⟨.accepted 0, .received []⟩), .destroy true false]
      ⟨false, rfl⟩ (by decide)
  exact ⟨s, hreach.reachable, hlength, hteardown, tearsDown_of_nothingLeft hreach⟩

/-- An established connection that only the client held: `forceClose` moves it to
`KDisconnecting`, and `forceCloseInLoop` leaves it there. -/
theorem forceClose_leaves_open : ∃ s, (system true).Reachable s ∧
    s.teardown = some ⟨[], some 0, false, true, 0⟩ ∧
    (s.connections[0]?).map (fun member => member.1.state_) = some .KDisconnecting ∧
    ¬TearsDown s := by
  obtain ⟨s, hreach, hteardown, hstate⟩ : ∃ s, (system true).ReachableVia (fun _ _ => True) s ∧
      s.teardown = some ⟨[], some 0, false, true, 0⟩ ∧
      (s.connections[0]?).map (fun member => member.1.state_) = some .KDisconnecting :=
    Transition.System.exists_of_exec _ (new false)
      [.connect true, .connector (.work ⟨none, some .EINPROGRESS, none, false⟩),
        .connector (.dispatch Poll.POLLOUT), .connector (.work ⟨none, none, none, false⟩),
        .connector .swap, .connector (.run ⟨none, none, none, false⟩), .destroy true true,
        .connection 0 .swap, .connection 0 (.run ⟨.accepted 0, .received []⟩)]
      ⟨false, rfl⟩ (by decide)
  refine ⟨s, hreach, hteardown, hstate, ?_⟩
  intro htears
  obtain ⟨member, hmember, hopen⟩ := Option.map_eq_some_iff.mp hstate
  obtain ⟨_, hdrained⟩ := htears _ hteardown
  obtain ⟨_, _, hsole, _⟩ := hdrained rfl
  have hclosed := hsole 0 member rfl hmember
  rw [hopen] at hclosed
  cases hclosed

/-- A client destroyed in the middle of an attempt: nothing stops the connector, which
is destroyed with its channel registered and the descriptor open. -/
theorem attempt_not_stopped : ∃ s, (system true).Reachable s ∧
    s.teardown = some ⟨[0], none, true, true, 0⟩ ∧ s.connector_.registered = [0] ∧
    s.connector_.ops = [.acquire 0] ∧ ¬TearsDown s := by
  obtain ⟨s, hreach, hteardown, hregistered, hops⟩ : ∃ s,
      (system true).ReachableVia (fun _ _ => True) s ∧
      s.teardown = some ⟨[0], none, true, true, 0⟩ ∧ s.connector_.registered = [0] ∧
      s.connector_.ops = [.acquire 0] :=
    Transition.System.exists_of_exec _ (new false)
      [.connect true, .connector (.work ⟨none, some .EINPROGRESS, none, false⟩), .destroy true false]
      ⟨false, rfl⟩ (by decide)
  refine ⟨s, hreach, hteardown, hregistered, hops, ?_⟩
  intro htears
  obtain ⟨hdangling, _⟩ := htears _ hteardown
  cases hdangling

end TcpClient

end MuduoRpc
