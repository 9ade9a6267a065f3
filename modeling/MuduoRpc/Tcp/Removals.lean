import MuduoRpc.Tcp.ClientSteps
import MuduoRpc.Tcp.Process
import MuduoRpc.Tcp.Steps

/-!
What the steps of the objects of a process do to registered channels. A connection is
taken out of the poller by its `connectDestroyed` alone. A connector takes its own
channel out, from a handler or from `stopInLoop`, and keeps it until `resetChannel`;
`connecting` begins no attempt before that.
-/

namespace MuduoRpc

namespace Connector

variable {T : Type} {s s' s'' : Connector T}

/-- The attempt goes on, no channel is removed, and no handler becomes due. -/
structure Stays (s s' : Connector T) : Prop where
  channel_ : ∀ channel, s.channel_ = some channel → ∃ channel', s'.channel_ = some channel' ∧
    channel'.fd_ = channel.fd_ ∧ channel'.addedToLoop_ = channel.addedToLoop_
  ops : deregistered s'.ops = deregistered s.ops
  work : ∀ callback, .callback callback ∈ s'.work → .callback callback ∈ s.work

theorem Stays.refl (s : Connector T) : Stays s s :=
  ⟨fun channel h => ⟨channel, h, rfl, rfl⟩, rfl, fun _ h => h⟩

theorem Stays.trans (h : Stays s s') (h' : Stays s' s'') : Stays s s'' := by
  refine ⟨fun channel hchannel => ?_, h'.ops.trans h.ops, fun callback hmem => ?_⟩
  · obtain ⟨channel', hchannel', hfd, hadded⟩ := h.channel_ channel hchannel
    obtain ⟨channel'', hchannel'', hfd', hadded'⟩ := h'.channel_ channel' hchannel'
    exact ⟨channel'', hchannel'', hfd'.trans hfd, hadded'.trans hadded⟩
  · exact h.work callback (h'.work callback hmem)

/-- The fields that the handlers are about are left alone. -/
theorem Stays.of_eq (hchannel : s'.channel_ = s.channel_) (hops : s'.ops = s.ops)
    (hwork : ∀ callback, .callback callback ∈ s'.work → .callback callback ∈ s.work) :
    Stays s s' :=
  ⟨fun channel h => ⟨channel, hchannel.trans h, rfl, rfl⟩, congrArg deregistered hops, hwork⟩

theorem Stays.registered (h : Stays s s') {sockfd : Nat} (hmem : sockfd ∈ s.registered) :
    sockfd ∈ s'.registered := by
  cases hchannel : s.channel_ with
  | none => simp [Connector.registered, hchannel] at hmem
  | some channel =>
      obtain ⟨channel', hchannel', hfd, hadded⟩ := h.channel_ channel hchannel
      simp only [Connector.registered, hchannel, hchannel', hfd, hadded] at hmem ⊢
      exact hmem

/-- `connecting` asserts that there is no channel. -/
theorem stays_startInLoop {answers : Answers} (h : s.startInLoop answers = some s') :
    Stays s s' := by
  obtain ⟨hstate, heffect, _, hwork⟩ := startInLoop_acts h
  have hsame (callback : Channel.Callback) (hmem : .callback callback ∈ s'.work) :
      .callback callback ∈ s.work := by
    rwa [hwork] at hmem
  cases heffect with
  | kept _ hchannel hops _ =>
      exact ⟨fun channel h => ⟨channel, hchannel.trans h, rfl, rfl⟩, hops, hsame⟩
  | began _ hempty _ _ _ _ hops _ =>
      refine ⟨fun channel hchannel => ?_, hops, hsame⟩
      rw [hempty] at hchannel
      cases hchannel
  | ended hbefore _ _ _ _ _ _ _ =>
      rw [hstate] at hbefore
      cases hbefore

/-- What a handler can do: it removes the channel of the attempt, or none. -/
structure Handles (s s' : Connector T) : Prop where
  channel_ : ∀ channel, s.channel_ = some channel → ∃ channel', s'.channel_ = some channel' ∧
    channel'.fd_ = channel.fd_
  ops : Stays s s' ∨ ∃ channel, s.channel_ = some channel ∧
    deregistered s'.ops = deregistered s.ops ++ [channel.fd_]
  work : s'.work = s.work

/-- A handler that is due has removed the channel of the attempt. -/
structure Removes (s s' : Connector T) : Prop where
  due : ∃ callback, .callback callback ∈ s.work
  channel_ : ∃ channel channel', s.channel_ = some channel ∧ s'.channel_ = some channel' ∧
    channel'.fd_ = channel.fd_ ∧ deregistered s'.ops = deregistered s.ops ++ [channel.fd_]

theorem Handles.refl (s : Connector T) : Handles s s :=
  ⟨fun channel h => ⟨channel, h, rfl⟩, .inl (.refl s), rfl⟩

/-- What follows the removal in a handler releases the descriptor or asks the kernel
about it. -/
theorem Handles.of_remove {t : Connector T} {sockfd : Nat}
    (h : s.removeAndResetChannel = some (t, sockfd)) (hchannel : s'.channel_ = t.channel_)
    (hops : deregistered s'.ops = deregistered t.ops) (hwork : s'.work = t.work) :
    Handles s s' := by
  obtain ⟨channel, channel', hlive, hafter, _, _, hfd, hderegistered, _, _, _, hsame⟩ :=
    removeAndResetChannel_spec h
  have hown : channel.fd_ = sockfd := by
    simp only [Connector.removeAndResetChannel, hlive] at h
    split_ifs at h
    cases h
    rfl
  have hremoved := hops.trans hderegistered
  refine ⟨fun other hother => ?_, .inr ⟨channel, hlive, by rw [hremoved, hown]⟩,
    hwork.trans hsame⟩
  cases hlive.symm.trans hother
  exact ⟨channel', hchannel.trans hafter, hfd.trans hown.symm⟩

theorem handles_handleError (h : s.handleError = some s') : Handles s s' := by
  rw [Connector.handleError] at h
  split_ifs at h
  · obtain ⟨⟨t, sockfd⟩, hremove, hresult⟩ := Option.bind_eq_some_iff.mp h
    cases hresult
    refine .of_remove hremove rfl ?_ rfl
    exact (deregistered_release _ _ _).trans (deregistered_query _ (by simp) _)
  · cases h
    exact .refl s

theorem handles_handleWrite {answers : Answers} (h : s.handleWrite answers = some s') :
    Handles s s' := by
  by_cases hstate : s.state_ = .KConnecting
  · rw [Connector.handleWrite, if_pos hstate] at h
    obtain ⟨⟨t, sockfd⟩, hremove, hresult⟩ := Option.bind_eq_some_iff.mp h
    have hfirst : deregistered (t.query .getSocketError sockfd).ops = deregistered t.ops :=
      deregistered_query _ (by simp) _
    have hsecond : deregistered ((t.query .getSocketError sockfd).query .isSelfConnect
        sockfd).ops = deregistered t.ops := (deregistered_query _ (by simp) _).trans hfirst
    simp only at hresult
    split_ifs at hresult
    · cases hresult
      exact .of_remove hremove rfl ((deregistered_release _ _ _).trans hfirst) rfl
    all_goals
      cases hresult
      exact .of_remove hremove rfl ((deregistered_release _ _ _).trans hsecond) rfl
  · rw [Connector.handleWrite, if_neg hstate] at h
    split_ifs at h
    cases h
    exact .refl s

theorem handles_runWork {answers : Answers} {callback : Channel.Callback}
    (h : s.runWork answers (.callback callback) = some s') : Handles s s' := by
  cases callback with
  | errorCallback_ => exact handles_handleError h
  | writeCallback_ => exact handles_handleWrite h
  | readCallback_ | closeCallback_ =>
      cases h
      exact .refl s

/-- A functor leaves the pending handlers alone. -/
theorem work_runFunctor {answers : Answers} {cb : Functor}
    (h : s.runFunctor answers cb = some s') : s'.work = s.work := by
  cases cb with
  | startInLoop => exact (startInLoop_acts h).2.work
  | stopInLoop => exact (stopInLoop_acts h).1.work
  | resetChannel =>
      cases h
      rfl

section Step

variable [DecidableEq T] {threadPid : T}

/-- The step runs a functor or dispatches the channel: the loop's own part, which comes
at its own times. -/
def loopTask : Action T → Bool
  | .run _ | .dispatch _ => true
  | _ => false

/-- A step that is neither, from inside an iteration or from another thread. -/
theorem stays_or_removes {a : Action T} (ha : loopTask a = false)
    (h : s.next threadPid a = some s') :
    Stays s s' ∨ (∃ answers, a = .work answers) ∧ Removes s s' := by
  cases next_steps h with
  | startHere _ => exact .inl (.of_eq rfl rfl fun callback hmem => by simpa using hmem)
  | restart _ => exact .inl (.of_eq rfl rfl fun callback hmem => by simpa using hmem)
  | start _ _ | stop _ | push _ | swap _ _ => exact .inl (.of_eq rfl rfl fun _ hmem => hmem)
  | run | dispatch => cases ha
  | @work answers task rest _ _ hlist hrun =>
      have htake : Stays s { s with work := rest } := by
        refine .of_eq rfl rfl fun callback hmem => ?_
        rw [hlist]
        exact List.mem_cons_of_mem _ hmem
      cases task with
      | startInLoop => exact .inl (htake.trans (stays_startInLoop hrun))
      | callback callback =>
          have hhandles := handles_runWork hrun
          rcases hhandles.ops with hstays | ⟨channel, hchannel, hops⟩
          · exact .inl (htake.trans hstays)
          · obtain ⟨channel', hafter, hfd⟩ := hhandles.channel_ channel hchannel
            refine .inr ⟨⟨answers, rfl⟩, ⟨callback, ?_⟩, channel, channel', hchannel, hafter, hfd,
              hops⟩
            rw [hlist]
            exact List.mem_cons_self

/-- Only a dispatch makes handlers due. -/
theorem callback_next {a : Action T} (ha : ∀ revents, a ≠ .dispatch revents)
    (h : s.next threadPid a = some s') {callback : Channel.Callback}
    (hmem : .callback callback ∈ s'.work) : .callback callback ∈ s.work := by
  cases next_steps h with
  | startHere _ => simpa using hmem
  | restart _ => simpa using hmem
  | start _ _ | stop _ | push _ | swap _ _ => exact hmem
  | dispatch => exact absurd rfl (ha _)
  | run _ _ hrun =>
      rw [work_runFunctor hrun] at hmem
      exact hmem
  | @work answers task rest _ _ hlist hrun =>
      have hrest : .callback callback ∈ rest := by
        cases task with
        | startInLoop => exact (stays_startInLoop hrun).work callback hmem
        | callback _ =>
            rw [(handles_runWork hrun).work] at hmem
            exact hmem
      rw [hlist]
      exact List.mem_cons_of_mem _ hrest

end Step

end Connector

namespace TcpConnection

variable {T : Type} {s s' : TcpConnection T}

/-- The channel of the connection is in the poller. -/
def Added (s : TcpConnection T) : Prop := s.channel_.addedToLoop_ = true

theorem Added.of_eq (h : Added s) (hchannel : s'.channel_ = s.channel_) : Added s' := by
  rw [Added, hchannel]
  exact h

theorem Added.bufferRemaining (h : Added s) (remaining : List UInt8) :
    Added (s.bufferRemaining remaining) := by
  simp only [TcpConnection.bufferRemaining]
  split_ifs
  · exact h
  · exact h.of_eq rfl
  · rfl

theorem Added.sendInLoop (h : Added s) {t : T} {message : List UInt8} {result : WriteResult}
    (hsend : s.sendInLoop t message result = some s') : Added s' := by
  cases sendInLoop_sends hsend with
  | gaveUp _ | complete _ _ _ | fault _ _ => exact h.of_eq rfl
  | direct _ _ _ _ | refused _ _ _ | buffered _ _ =>
      apply Added.bufferRemaining
      exact h.of_eq rfl

theorem Added.shutdownInLoop (h : Added s) : Added s.shutdownInLoop := by
  unfold TcpConnection.shutdownInLoop
  split_ifs
  · exact h
  · exact h.of_eq rfl

theorem Added.handleClose (h : Added s) : Added s.handleClose := by
  unfold TcpConnection.handleClose
  split_ifs
  · rfl
  · exact h.of_eq rfl

theorem Added.forceCloseInLoop (h : Added s) : Added s.forceCloseInLoop := by
  unfold TcpConnection.forceCloseInLoop
  split_ifs
  · exact h.handleClose
  · exact h

theorem Added.startReadInLoop (h : Added s) : Added s.startReadInLoop := by
  unfold TcpConnection.startReadInLoop
  split_ifs
  · rfl
  · exact h

theorem Added.stopReadInLoop (h : Added s) : Added s.stopReadInLoop := by
  unfold TcpConnection.stopReadInLoop
  split_ifs
  · rfl
  · exact h

theorem Added.connectEstablished (h : Added s) : Added s.connectEstablished := by
  unfold TcpConnection.connectEstablished
  split_ifs
  · rfl
  · exact h.of_eq rfl

theorem Added.stopWriting (s : TcpConnection T) : Added s.stopWriting := by
  simp only [TcpConnection.stopWriting]
  split_ifs <;> rfl

theorem Added.handleWrite (h : Added s) {result : WriteResult}
    (hwrite : s.handleWrite result = some s') : Added s' := by
  cases handleWrite_writes hwrite with
  | idle _ => exact h
  | nothing _ _ | something _ _ _ => exact h.of_eq rfl
  | drained _ _ _ _ => exact Added.stopWriting _
  | halfClosed _ _ _ _ _ => exact (Added.stopWriting _).of_eq rfl

theorem Added.handleRead (h : Added s) {result : ReadResult}
    (hread : s.handleRead result = some s') : Added s' := by
  cases result with
  | received data =>
      simp only [TcpConnection.handleRead] at hread
      split_ifs at hread <;> cases hread
      · exact h.handleClose
      · exact h.of_eq rfl
  | failed error =>
      cases hread
      exact h

theorem Added.runCallback (h : Added s) {answers : Answers} {callback : Channel.Callback}
    (hrun : s.runCallback answers callback = some s') : Added s' := by
  cases callback with
  | closeCallback_ =>
      cases hrun
      exact h.handleClose
  | readCallback_ => exact h.handleRead hrun
  | errorCallback_ =>
      cases hrun
      exact h
  | writeCallback_ => exact h.handleWrite hrun

theorem Added.runFunctor (h : Added s) {answers : Answers} {cb : Functor T}
    (hcb : cb ≠ .connectDestroyed) (hrun : s.runFunctor answers cb = some s') : Added s' := by
  cases cb with
  | sendInLoop t message => exact h.sendInLoop hrun
  | shutdownInLoop =>
      cases hrun
      exact h.shutdownInLoop
  | forceCloseInLoop =>
      cases hrun
      exact h.forceCloseInLoop
  | startReadInLoop =>
      cases hrun
      exact h.startReadInLoop
  | stopReadInLoop =>
      cases hrun
      exact h.stopReadInLoop
  | connectDestroyed => exact absurd rfl hcb
  | writecompletecallback | writecompletecallbackMember =>
      cases hrun
      exact h.of_eq rfl

variable [DecidableEq T] {threadPid : T}

/-- Only `connectDestroyed` takes the channel out of the poller. -/
theorem Added.next (h : Added s) {a : Action T} (ha : TcpClient.ownStep a = true)
    (hhead : ∀ answers, a = .run answers → s.queue.functors.head? ≠ some .connectDestroyed)
    (hnext : s.next threadPid a = some s') : Added s' := by
  cases (next_steps hnext).2 with
  | connectEstablished | connectDestroyed | removeConnection _ => cases ha
  | @sendHere message _ _ _ _ hsend =>
      have hemit : Added (s.emit (.send threadPid message)) := h.of_eq rfl
      exact hemit.sendInLoop hsend
  | send _ _ _ | shutdown _ _ | forceClose _ _ | assignShutdown _ _ | assignForceClose _
  | startRead _ | stopRead _ | push _ | swap _ | dispatch | consume _ => exact h
  | assignShutdownHere _ =>
      apply Added.shutdownInLoop
      exact h
  | startReadHere => exact h.startReadInLoop
  | stopReadHere => exact h.stopReadInLoop
  | @run answers cb queue _ hpop hrun =>
      have hpopped : Added { s with queue := queue } := h
      refine hpopped.runFunctor ?_ hrun
      rintro rfl
      apply hhead answers rfl
      exact PendingQueue.head?_of_pop hpop
  | @callback _ _ rest _ _ hrun =>
      have hrest : Added { s with work := rest } := h
      exact hrest.runCallback hrun

end TcpConnection

namespace TcpClient

open TcpConnection (Added)

variable {T : Type} {s s' s'' : TcpClient T}

/-- The channel of a connection is in the poller. -/
def AddedAt (s : TcpClient T) (index : Nat) : Prop :=
  ∃ member, s.connections[index]? = some member ∧ Added member.1

theorem AddedAt.of_eq {index : Nat} (h : AddedAt s index)
    (hconnections : s'.connections = s.connections) : AddedAt s' index := by
  rw [AddedAt, hconnections]
  exact h

theorem AddedAt.setConnection {i index : Nat} (h : AddedAt s i) {conn : TcpConnection T}
    (hconn : i = index → Added conn) : AddedAt (s.setConnection index conn) i := by
  obtain ⟨member, hmember, hadded⟩ := h
  refine ⟨if index = i then (conn, member.2) else member, ?_, ?_⟩
  · simp only [TcpClient.setConnection, List.getElem?_modify, hmember]
    rfl
  · split_ifs with hindex
    · exact hconn hindex.symm
    · exact hadded

theorem AddedAt.setClosecallback {i : Nat} (h : AddedAt s i) (index : Nat)
    (cb : CloseCallback) : AddedAt (s.setClosecallback index cb) i := by
  obtain ⟨member, hmember, hadded⟩ := h
  refine ⟨if index = i then (member.1, cb) else member, ?_, ?_⟩
  · simp only [TcpClient.setClosecallback, List.getElem?_modify, hmember]
    rfl
  · split_ifs
    · exact hadded
    · exact hadded

theorem AddedAt.newConnection {i : Nat} (h : AddedAt s i) (sockfd : Nat) :
    AddedAt (s.newConnection sockfd) i := by
  obtain ⟨member, hmember, hadded⟩ := h
  obtain ⟨hlt, _⟩ := List.getElem?_eq_some_iff.mp hmember
  refine ⟨member, ?_, hadded⟩
  rw [TcpClient.newConnection, List.getElem?_append_left hlt]
  exact hmember

/-- What is known of one connection goes on for the others. -/
theorem AddedAt.put {i index : Nat} (h : AddedAt s i) {member : TcpConnection T × CloseCallback}
    {conn : TcpConnection T} (hmember : s.connections[index]? = some member)
    (hkeep : Added member.1 → i = index → Added conn) : AddedAt (s.setConnection index conn) i := by
  refine h.setConnection fun hindex => ?_
  obtain ⟨member', hmember', hadded⟩ := h
  subst hindex
  cases hmember.symm.trans hmember'
  exact hkeep hadded rfl

/-- Nothing is removed, and no handler becomes due. -/
structure Keeps (s s' : TcpClient T) : Prop where
  connector : Connector.Stays s.connector_ s'.connector_
  connections : ∀ index, AddedAt s index → AddedAt s' index

theorem Keeps.trans (h : Keeps s s') (h' : Keeps s' s'') : Keeps s s'' :=
  ⟨h.connector.trans h'.connector, fun index hindex =>
    h'.connections index (h.connections index hindex)⟩

theorem Keeps.of_eq (hconnector : s'.connector_ = s.connector_)
    (hconnections : s'.connections = s.connections) : Keeps s s' := by
  refine ⟨?_, fun _ h => h.of_eq hconnections⟩
  rw [hconnector]
  exact .refl _

theorem Keeps.put {index : Nat} {member : TcpConnection T × CloseCallback}
    {conn : TcpConnection T} (hmember : s.connections[index]? = some member)
    (hkeep : Added member.1 → Added conn) : Keeps s (s.setConnection index conn) :=
  ⟨.refl _, fun _ h => h.put hmember fun hadded _ => hkeep hadded⟩

variable [DecidableEq T] {threadPid : T}

/-- A call of the connector, or the end of one. -/
theorem stays_call {connector connector' : Connector T} {a : Connector.Action T}
    (ha : Connector.loopTask a = false) (hwork : ∀ answers, a ≠ .work answers)
    (h : connector.next threadPid a = some connector') :
    Connector.Stays connector connector' := by
  rcases Connector.stays_or_removes ha h with hstays | ⟨⟨answers, hwork'⟩, _⟩
  · exact hstays
  · exact absurd hwork' (hwork answers)

theorem keeps_forceClose {conn conn' : TcpConnection T} {t : T}
    (h : forceClose threadPid conn t = some conn') (hadded : Added conn) : Added conn' := by
  rw [forceClose] at h
  split_ifs at h
  · obtain ⟨first, hfirst, hrest⟩ := Option.bind_eq_some_iff.mp h
    obtain ⟨second, hsecond, hthird⟩ := Option.bind_eq_some_iff.mp hrest
    have hadded' := hadded.next rfl (by simp) hfirst
    have hadded'' := hadded'.next rfl (by simp) hsecond
    exact hadded''.next rfl (by simp) hthird
  · cases h
    exact hadded

omit [DecidableEq T] in
theorem Detaches.keeps {t : T} {index : Nat} (h : Detaches threadPid s t index s') :
    Keeps s s' := by
  cases h with
  | here _ => exact ⟨.refl _, fun _ h => h.setClosecallback _ _⟩
  | later _ => exact .of_eq rfl rfl

theorem Leaves.keeps {t : T} {isunique : Bool} (h : Leaves threadPid s t isunique s') :
    Keeps s s' := by
  cases h with
  | nothing _ => exact .of_eq rfl rfl
  | forced _ hdetaches hmember hclose =>
      exact hdetaches.keeps.trans (.put hmember (keeps_forceClose hclose))
  | stopped _ hdetaches hstop hpush =>
      have hstays := (stays_call rfl (by simp) hstop).trans (stays_call rfl (by simp) hpush)
      exact hdetaches.keeps.trans ⟨hstays, fun _ h => h.of_eq rfl⟩

theorem Closes.keeps {index : Nat} {member : TcpConnection T × CloseCallback}
    {cb : CloseCallback} (hmember : s.connections[index]? = some member)
    (h : Closes threadPid s index member.1 cb s') : Keeps s s' := by
  have hset : Keeps s (s.setConnection index (member.1.queueInLoop .connectDestroyed)) :=
    .put hmember fun hadded => hadded.of_eq rfl
  cases h with
  | detail => exact hset
  | late _ => exact .of_eq rfl rfl
  | removed _ _ _ => exact hset.trans (.of_eq rfl rfl)
  | restarted _ _ _ hrestart =>
      exact hset.trans ⟨stays_call rfl (by simp) hrestart, fun _ h => h.of_eq rfl⟩

/-- A step of the client that is no step of the connector or of a connection. -/
theorem Steps.keeps {a : Action T} (h : Steps threadPid s a s')
    (hconnector : ∀ a', a ≠ .connector a') (hconnection : ∀ index a', a ≠ .connection index a') :
    Keeps s s' := by
  cases h with
  | connect _ hcall | stop _ hcall =>
      exact ⟨stays_call rfl (by simp) hcall, fun _ h => h.of_eq rfl⟩
  | disconnect _ => exact .of_eq rfl rfl
  | shutdown _ _ hmember hshutdown =>
      have hflag : Keeps s { s with connecting_ := false } := .of_eq rfl rfl
      refine hflag.trans (.put hmember fun hadded => ?_)
      exact hadded.next rfl (by simp) hshutdown
  | connector _ _ _ | newConnection _ _ _ _ | dangling _ _ _ _ =>
      exact absurd rfl (hconnector _)
  | connection _ _ _ _ | closes _ _ _ _ _ => exact absurd rfl (hconnection _ _)
  | setClosecallback _ => exact ⟨.refl _, fun _ h => (h.of_eq rfl).setClosecallback _ _⟩
  | destroy _ _ hleaves => exact hleaves.keeps.trans (.of_eq rfl rfl)

/-- A destroyed connector runs no handler; the client's own takes the step. -/
theorem Steps.connector_next {a : Connector.Action T} (h : Steps threadPid s (.connector a) s') :
    (Connector.Stays s.connector_ s'.connector_ ∨
      s.connector_.next threadPid a = some s'.connector_) ∧
      ∀ index, AddedAt s index → AddedAt s' index := by
  cases h with
  | connector _ hnext _ => exact ⟨.inr hnext, fun _ h => h.of_eq rfl⟩
  | newConnection _ _ hnext _ =>
      exact ⟨.inr hnext, fun _ h => AddedAt.newConnection (h.of_eq rfl) _⟩
  | dangling _ _ _ _ => exact ⟨.inl (.refl _), fun _ h => h.of_eq rfl⟩

namespace Run

variable {s s' : Run T} {a : Run.Action T}

/-- What a step of the client does to its connector and to its connections. -/
theorem next_cases (h : s.next threadPid a = some s') :
    (Connector.Stays s.client.connector_ s'.client.connector_ ∨ ∃ a',
      a = .client (.connector a') ∧
        s.client.connector_.next threadPid a' = some s'.client.connector_) ∧
    ∀ index, Client.destroys s a ≠ some index → AddedAt s.client index →
      AddedAt s'.client index := by
  cases a with
  | closecallback =>
      obtain ⟨index, _, hmember⟩ := Option.bind_eq_some_iff.mp h
      obtain ⟨member, hget, hcall⟩ := Option.bind_eq_some_iff.mp hmember
      obtain ⟨client, hclose, hresult⟩ := Option.bind_eq_some_iff.mp hcall
      cases hresult
      have hkeeps := (closecallback_closes hclose).keeps hget
      exact ⟨.inl hkeeps.connector, fun index _ h => hkeeps.connections index h⟩
  | client a =>
      simp only [Run.next, Option.ite_none_left_eq_some] at h
      obtain ⟨_, hstep⟩ := h
      split at hstep
      · rename_i index a
        simp only [Run.stepConnection, Option.ite_none_right_eq_some] at hstep
        obtain ⟨hown, hbind⟩ := hstep
        obtain ⟨member, hmember, hrest⟩ := Option.bind_eq_some_iff.mp hbind
        obtain ⟨conn', hnext, hresult⟩ := Option.bind_eq_some_iff.mp hrest
        cases hresult
        refine ⟨.inl (.refl _), fun i hi h => h.put hmember fun hadded hindex => ?_⟩
        refine hadded.next hown (fun answers hrun hhead => hi ?_) hnext
        subst hindex hrun
        simp [Client.destroys, hmember, hhead]
      · rename_i hother
        obtain ⟨client, hclient, hresult⟩ := Option.bind_eq_some_iff.mp hstep
        cases hresult
        by_cases hconnector : ∃ a', a = .connector a'
        · obtain ⟨a', rfl⟩ := hconnector
          obtain ⟨hconnector, hconnections⟩ := (step_steps hclient).connector_next
          exact ⟨hconnector.imp_right fun hnext => ⟨a', rfl, hnext⟩,
            fun index _ h => hconnections index h⟩
        · have hkeeps := (step_steps hclient).keeps (fun a' ha => hconnector ⟨a', ha⟩)
            (fun index a' ha => hother index a' ha)
          exact ⟨.inl hkeeps.connector, fun index _ h => hkeeps.connections index h⟩

end Run

end TcpClient

namespace TcpServer

open TcpConnection (Added)

variable {T : Type} [DecidableEq T]

theorem loop_runInLoop (s : TcpServer T) (thread loop : T) (cb : Functor T) :
    (s.runInLoop thread loop cb).loop_ = s.loop_ := by
  rw [runInLoop]
  split_ifs
  · cases cb <;> rfl
  · rfl

theorem loop_newConnection (s : TcpServer T) (ioloop : T) :
    (s.newConnection ioloop).loop_ = s.loop_ := by
  rw [newConnection, loop_runInLoop]

namespace Run

variable {s s' : Run T}

def AddedAt (s : Run T) (index : Nat) : Prop :=
  ∃ conn, s.connections[index]? = some conn ∧ Added conn

/-- What an action leaves as it was. The loops of the connections are fixed, and a
channel is removed only by the two actions that say so. -/
structure Goes (s : Run T) (a : Run.Action T) (s' : Run T) : Prop where
  loop_ : s'.server.loop_ = s.server.loop_
  getloop : ∀ index loop, s.getloop index = some loop → s'.getloop index = some loop
  connections : ∀ index, s.destroys a ≠ some index → AddedAt s index → AddedAt s' index
  acceptor : s.removesAcceptor a = false → s.active_cahnnel_.addedToLoop_ = true →
    s'.active_cahnnel_.addedToLoop_ = true
  leaving : a ≠ .destroy → s'.leaving.getD [] ≠ [] → s.leaving.getD [] ≠ []

omit [DecidableEq T] in
theorem AddedAt.of_eq {index : Nat} (h : AddedAt s index)
    (hconnections : s'.connections = s.connections) : AddedAt s' index := by
  rw [AddedAt, hconnections]
  exact h

omit [DecidableEq T] in
theorem AddedAt.modify {i : Nat} (h : AddedAt s i) {conn : Connection T}
    {f : TcpConnection T → TcpConnection T} (hf : i = conn.serial → ∀ c, Added c → Added (f c)) :
    AddedAt (s.modify conn f) i := by
  obtain ⟨member, hmember, hadded⟩ := h
  refine ⟨if conn.serial = i then f member else member, ?_, ?_⟩
  · simp only [Run.modify, List.getElem?_modify, hmember]
    rfl
  · split_ifs with hindex
    · exact hf hindex.symm member hadded
    · exact hadded

/-- The table and the queues have no part in it. -/
theorem Goes.of_server {a : Run.Action T} {server : TcpServer T}
    (hloop : server.loop_ = s.server.loop_) (haccepted : server.accepted = s.server.accepted) :
    Goes s a { s with server := server } := by
  refine ⟨hloop, fun index loop h => ?_, fun _ _ h => h.of_eq rfl, fun _ h => h, fun _ h => h⟩
  rw [Run.getloop, haccepted]
  exact h

theorem goes_runFunctor {loop : T} {cb : Functor T} {queue : PendingQueue (Functor T)}
    (hpop : (s.server.queues loop).pop = some (cb, queue))
    (h : { s with server := { s.server with
      queues := Function.update s.server.queues loop queue } }.runFunctor loop cb = some s') :
    Goes s (.run loop) s' := by
  have hhead := PendingQueue.head?_of_pop hpop
  cases cb with
  | connectEstablished conn =>
      simp only [Run.runFunctor, Option.ite_none_right_eq_some] at h
      obtain ⟨_, hresult⟩ := h
      cases hresult
      refine ⟨rfl, fun _ _ h => h, fun _ _ h => ?_, fun _ h => h, fun _ h => h⟩
      exact AddedAt.modify (h.of_eq rfl) fun _ _ hadded => hadded.connectEstablished
  | removeConnectionInLoop conn =>
      simp only [Run.runFunctor, Option.ite_none_right_eq_some] at h
      obtain ⟨_, hresult⟩ := h
      cases hresult
      exact .of_server rfl rfl
  | connectDestroyed conn =>
      simp only [Run.runFunctor, Option.ite_none_right_eq_some] at h
      obtain ⟨_, hresult⟩ := h
      cases hresult
      refine ⟨rfl, fun _ _ h => h, fun index hindex h => ?_, fun _ h => h, fun _ h => h⟩
      refine AddedAt.modify (h.of_eq rfl) fun hserial => ?_
      simp [destroys, hhead, hserial] at hindex

theorem goes_leave (h : s.next .leave = some s') : Goes s .leave s' := by
  rw [Run.next] at h
  split at h
  · rename_i conn rest hleaving
    cases h
    have hlater (hmore : rest ≠ []) : s.leaving.getD [] ≠ [] := by
      rw [hleaving]
      simp
    rw [leaveConnection]
    split_ifs with hhere
    · refine ⟨rfl, fun _ _ h => h, fun index hindex h => ?_, fun _ h => h, fun _ h => hlater h⟩
      refine AddedAt.modify (h.of_eq rfl) fun hserial => ?_
      have hhere' : s.getloop conn.serial = some s.server.loop_ := hhere
      simp [destroys, hleaving, hhere', hserial] at hindex
    · exact ⟨rfl, fun _ _ h => h, fun _ _ h => h.of_eq rfl, fun _ h => h, fun _ h => hlater h⟩
  · rename_i rest hleaving
    cases h
    refine ⟨rfl, fun _ _ h => h, fun _ _ h => h.of_eq rfl, fun hacceptor => ?_, fun _ _ => ?_⟩
    · simp [removesAcceptor, hleaving] at hacceptor
    · rw [hleaving]
      simp
  · cases h

theorem next_goes {a : Run.Action T} (h : s.next a = some s') : Goes s a s' := by
  cases a with
  | listen =>
      simp only [Run.next, Option.ite_none_right_eq_some] at h
      obtain ⟨_, hresult⟩ := h
      cases hresult
      exact ⟨rfl, fun _ _ h => h, fun _ _ h => h.of_eq rfl, fun _ _ => rfl, fun _ h => h⟩
  | dispatch revents =>
      cases h
      exact ⟨rfl, fun _ _ h => h, fun _ _ h => h.of_eq rfl, fun _ h => h, fun _ h => h⟩
  | newConnection ioloop sockfd writecompletecallback =>
      simp only [Run.next, Option.ite_none_right_eq_some] at h
      obtain ⟨_, hresult⟩ := h
      cases hresult
      refine ⟨loop_newConnection _ _, fun index loop h => ?_, fun index _ h => ?_,
        fun _ h => h, fun _ h => h⟩
      · obtain ⟨conn, hconn, hloop⟩ := Option.map_eq_some_iff.mp h
        obtain ⟨hlt, _⟩ := List.getElem?_eq_some_iff.mp hconn
        simp only [Run.getloop, Run.newConnection, accepted_newConnection,
          List.getElem?_append_left hlt, hconn]
        exact congrArg some hloop
      · obtain ⟨conn, hconn, hadded⟩ := h
        obtain ⟨hlt, _⟩ := List.getElem?_eq_some_iff.mp hconn
        refine ⟨conn, ?_, hadded⟩
        rw [Run.newConnection, List.getElem?_append_left hlt]
        exact hconn
  | acceptFailed =>
      cases h
      exact ⟨rfl, fun _ _ h => h, fun _ _ h => h.of_eq rfl, fun _ h => h, fun _ h => h⟩
  | connection index a =>
      simp only [Run.next, Run.stepConnection, Option.ite_none_right_eq_some] at h
      obtain ⟨hown, hbind⟩ := h
      obtain ⟨conn, hconn, hrest⟩ := Option.bind_eq_some_iff.mp hbind
      obtain ⟨loop, _, hrest'⟩ := Option.bind_eq_some_iff.mp hrest
      obtain ⟨conn', hnext, hresult⟩ := Option.bind_eq_some_iff.mp hrest'
      cases hresult
      refine ⟨rfl, fun _ _ h => h, fun i hi h => ?_, fun _ h => h, fun _ h => h⟩
      obtain ⟨member, hmember, hadded⟩ := h
      by_cases hindex : index = i
      · subst hindex
        cases hconn.symm.trans hmember
        obtain ⟨hlt, _⟩ := List.getElem?_eq_some_iff.mp hconn
        refine ⟨conn', List.getElem?_set_self hlt, ?_⟩
        refine hadded.next hown (fun answers hrun hhead => hi ?_) hnext
        subst hrun
        simp [destroys, hconn, hhead]
      · refine ⟨member, ?_, hadded⟩
        rw [List.getElem?_set_ne hindex]
        exact hmember
  | closecallback index =>
      simp only [Run.next, Option.ite_none_right_eq_some] at h
      obtain ⟨conn, _, hresult⟩ := Option.bind_eq_some_iff.mp h.2
      cases hresult
      have hserver : Goes s (.closecallback index)
          { s with server := s.server.removeConnection conn } :=
        .of_server (loop_runInLoop _ _ _ _) (accepted_runInLoop _ _ _ _)
      exact ⟨hserver.loop_, hserver.getloop, fun _ _ h => h.of_eq rfl, fun _ h => h, fun _ h => h⟩
  | swap loop =>
      obtain ⟨queue, _, hresult⟩ := Option.bind_eq_some_iff.mp h
      cases hresult
      exact .of_server rfl rfl
  | run loop =>
      obtain ⟨⟨cb, queue⟩, hpop, hrun⟩ := Option.bind_eq_some_iff.mp h
      exact goes_runFunctor hpop hrun
  | destroy =>
      simp only [Run.next, Option.ite_none_right_eq_some] at h
      obtain ⟨_, hresult⟩ := h
      cases hresult
      exact ⟨rfl, fun _ _ h => h, fun _ _ h => h.of_eq rfl, fun _ h => h,
        fun hdestroy => absurd rfl hdestroy⟩
  | leave => exact goes_leave h

/-- `connectDestroyed` runs on the thread of the connection's loop. -/
theorem getloop_of_destroys {loop : T} {index : Nat} (h : s.next (.run loop) = some s')
    (hindex : s.destroys (.run loop) = some index) : s.getloop index = some loop := by
  obtain ⟨⟨cb, queue⟩, hpop, hrun⟩ := Option.bind_eq_some_iff.mp h
  have hhead := PendingQueue.head?_of_pop hpop
  rw [destroys, hhead] at hindex
  cases cb with
  | connectEstablished _ | removeConnectionInLoop _ => cases hindex
  | connectDestroyed conn =>
      cases hindex
      simp only [Run.runFunctor, Option.ite_none_right_eq_some] at hrun
      exact hrun.1

/-- What the destructor does comes between its entry and its end. -/
theorem leaving_of_leave (h : s.next .leave = some s') : s.leaving.getD [] ≠ [] := by
  rw [Run.next] at h
  split at h
  · rename_i hleaving
    simp [hleaving]
  · rename_i hleaving
    simp [hleaving]
  · cases h

end Run

end TcpServer

end MuduoRpc
