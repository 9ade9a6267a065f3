import MuduoRpc.Lib.History
import MuduoRpc.Tcp.ClientSteps

/-!
What `TcpClient::stop` leaves possible. A connection that closes calls the user's
connectioncallback before its closecallback, so that the user can call the client
in between; here the closecallback is a step of its own. `retry_` has any value.
-/

namespace MuduoRpc

namespace Connector

variable {T : Type} {s s' s'' : Connector T}

/-- What the loop runs of the connector: it leaves `connect_` alone, and hands over a
descriptor only where `connect_` is set. -/
structure Obeys (s s' : Connector T) : Prop where
  connect_ : s'.connect_ = s.connect_
  ops : ∃ more, s'.ops = s.ops ++ more ∧
    ∀ sockfd, Ledger.Op.release .newConnectionCallback sockfd ∈ more → s.connect_ = true

theorem Obeys.of_eq (hconnect : s'.connect_ = s.connect_) (hops : s'.ops = s.ops) :
    Obeys s s' :=
  ⟨hconnect, [], by simp [hops], by simp⟩

theorem Obeys.trans (h : Obeys s s') (h' : Obeys s' s'') : Obeys s s'' := by
  obtain ⟨more, hops, honly⟩ := h.ops
  obtain ⟨more', hops', honly'⟩ := h'.ops
  refine ⟨h'.connect_.trans h.connect_, more ++ more', by rw [hops', hops, List.append_assoc], ?_⟩
  intro sockfd hmem
  rcases List.mem_append.mp hmem with hfirst | hsecond
  · exact honly sockfd hfirst
  · exact h.connect_.symm.trans (honly' sockfd hsecond)

/-- One operation on the descriptors that hands nothing over. -/
theorem Obeys.op {op : Ledger.Op Use Release} (hconnect : s'.connect_ = s.connect_)
    (hops : s'.ops = s.ops ++ [op])
    (hop : ∀ sockfd, op ≠ .release .newConnectionCallback sockfd) : Obeys s s' := by
  refine ⟨hconnect, [op], hops, fun sockfd hmem => ?_⟩
  exact absurd (List.mem_singleton.mp hmem).symm (hop sockfd)

theorem obeys_query (s : Connector T) (how : Use) (sockfd : Nat) :
    Obeys s (s.query how sockfd) := by
  refine Obeys.op rfl rfl fun _ hsame => ?_
  cases hsame

theorem obeys_retry (s : Connector T) (sockfd : Nat) : Obeys s (s.retry sockfd) := by
  refine Obeys.op rfl rfl fun _ hsame => ?_
  cases hsame

theorem obeys_startInLoop {answers : Answers} (h : s.startInLoop answers = some s') :
    Obeys s s' := by
  rw [Connector.startInLoop] at h
  split_ifs at h
  · obtain ⟨t, rfl, hconnect⟩ := connect_cases h
    have hacquire : Obeys s { s with
        ops := s.ops ++ [Ledger.Op.acquire s.nextFd], nextFd := s.nextFd + 1 } := by
      refine Obeys.op rfl rfl fun _ hsame => ?_
      cases hsame
    rcases hconnect with hbegins | rfl
    · rw [Connector.connecting] at hbegins
      split at hbegins
      · cases hbegins
      · cases hbegins
        exact hacquire.trans (.of_eq rfl rfl)
    · exact hacquire.trans (obeys_retry _ _)
  · cases h
    exact .of_eq rfl rfl

theorem obeys_removeAndResetChannel {sockfd : Nat}
    (h : s.removeAndResetChannel = some (s', sockfd)) : Obeys s s' := by
  rw [Connector.removeAndResetChannel] at h
  cases hchannel : s.channel_ with
  | none => simp [hchannel] at h
  | some channel =>
      simp only [hchannel] at h
      split_ifs at h
      cases h
      refine Obeys.op rfl rfl fun _ hsame => ?_
      cases hsame

theorem obeys_stopInLoop (h : s.stopInLoop = some s') : Obeys s s' := by
  rw [Connector.stopInLoop] at h
  split_ifs at h
  · obtain ⟨⟨t, sockfd⟩, hremove, hresult⟩ := Option.bind_eq_some_iff.mp h
    cases hresult
    have hstate : Obeys s (s.setstate .KDisconnected) := .of_eq rfl rfl
    exact (hstate.trans (obeys_removeAndResetChannel hremove)).trans (obeys_retry _ _)
  · cases h
    exact .of_eq rfl rfl

theorem obeys_handleError (h : s.handleError = some s') : Obeys s s' := by
  rw [Connector.handleError] at h
  split_ifs at h
  · obtain ⟨⟨t, sockfd⟩, hremove, hresult⟩ := Option.bind_eq_some_iff.mp h
    cases hresult
    have hquery := (obeys_removeAndResetChannel hremove).trans (obeys_query t .getSocketError sockfd)
    exact hquery.trans (obeys_retry _ _)
  · cases h
    exact .of_eq rfl rfl

/-- `handleWrite` tests `connect_` before it hands the descriptor over. -/
theorem obeys_handleWrite {answers : Answers} (h : s.handleWrite answers = some s') :
    Obeys s s' := by
  by_cases hstate : s.state_ = .KConnecting
  · rw [Connector.handleWrite, if_pos hstate] at h
    obtain ⟨⟨t, sockfd⟩, hremove, hresult⟩ := Option.bind_eq_some_iff.mp h
    have hquery := (obeys_removeAndResetChannel hremove).trans (obeys_query t .getSocketError sockfd)
    have hself := hquery.trans (obeys_query _ .isSelfConnect sockfd)
    simp only at hresult
    split_ifs at hresult with _ _ hconnect
    · cases hresult
      exact hquery.trans (obeys_retry _ _)
    · cases hresult
      exact hself.trans (obeys_retry _ _)
    · cases hresult
      refine hself.trans ⟨rfl, _, rfl, fun _ _ => ?_⟩
      exact hconnect
    · cases hresult
      refine hself.trans (Obeys.op rfl rfl fun _ hsame => ?_)
      cases hsame
  · rw [Connector.handleWrite, if_neg hstate] at h
    split_ifs at h
    cases h
    exact .of_eq rfl rfl

theorem obeys_runFunctor {answers : Answers} {cb : Functor}
    (h : s.runFunctor answers cb = some s') : Obeys s s' := by
  cases cb with
  | startInLoop => exact obeys_startInLoop h
  | stopInLoop => exact obeys_stopInLoop h
  | resetChannel =>
      cases h
      exact .of_eq rfl rfl

theorem obeys_runWork {answers : Answers} {task : Work} (h : s.runWork answers task = some s') :
    Obeys s s' := by
  cases task with
  | startInLoop => exact obeys_startInLoop h
  | callback callback =>
      cases callback with
      | errorCallback_ => exact obeys_handleError h
      | writeCallback_ => exact obeys_handleWrite h
      | readCallback_ | closeCallback_ =>
          cases h
          exact .of_eq rfl rfl

variable [DecidableEq T] {threadPid : T}

/-- A step that is no call of the client. -/
theorem obeys_next {a : Action T} (ha : TcpClient.loopStep a = true)
    (h : s.next threadPid a = some s') : Obeys s s' := by
  cases next_steps h with
  | startHere | start | stop | restart => cases ha
  | push _ | swap _ _ | dispatch _ _ _ _ => exact .of_eq rfl rfl
  | @run _ _ queue _ _ _ hrun =>
      have hpop : Obeys s { s with queue := queue } := .of_eq rfl rfl
      exact hpop.trans (obeys_runFunctor hrun)
  | @work _ _ rest _ _ _ hrun =>
      have htake : Obeys s { s with work := rest } := .of_eq rfl rfl
      exact htake.trans (obeys_runWork hrun)

omit [DecidableEq T] in
theorem Obeys.handedOver {sockfd : Nat} (h : Obeys s s')
    (hover : TcpClient.handedOver s s' = some sockfd) : s.connect_ = true := by
  obtain ⟨more, hops, honly⟩ := h.ops
  rw [TcpClient.handedOver, hops, List.drop_left] at hover
  split at hover
  · rename_i hlast
    exact honly _ (List.mem_of_getLast? hlast)
  · cases hover

end Connector

namespace TcpClient

variable {T : Type}

/-- Calls that the user makes, by their writes of `connecting_` and `connect_`, and
calls that the client makes. -/
inductive Event
  | connect
  | stop
  | newConnection
  | restart
deriving DecidableEq, Repr

/-- The calls that the client makes. -/
def Event.own (e : Event) : Prop := e = .newConnection ∨ e = .restart

/-- `closing` is the connection whose connectioncallback has been called and whose
closecallback has not. -/
structure Run (T : Type) where
  client : TcpClient T
  closing : Option Nat
  log : List Event

inductive Run.Action (T : Type)
  | client (a : TcpClient.Action T)
  | closecallback
deriving DecidableEq, Repr

/-- The call that an action is. -/
def Action.event : TcpClient.Action T → List Event
  | .connect _ => [.connect]
  | .stop _ => [.stop]
  | _ => []

/-- `newConnection` has been called: it alone adds a connection. -/
def opened (s s' : TcpClient T) : List Event :=
  if s.connections.length < s'.connections.length then [.newConnection] else []

variable [DecidableEq T]

/-- A closecallback that changes the connector has restarted it. -/
def restarted (s s' : TcpClient T) : List Event :=
  if s'.connector_ = s.connector_ then [] else [.restart]

/-- What the loop thread does not do inside a connectioncallback. The body of a
`start` belongs to the call that it is made in. -/
def startsTask (s : TcpClient T) : TcpClient.Action T → Bool
  | .connector (.work _) => s.connector_.work.head? ≠ some .startInLoop
  | .connector .swap | .connector (.run _) | .connector (.dispatch _) => true
  | .connection _ .swap | .connection _ (.run _) | .connection _ (.dispatch _)
  | .connection _ (.callback _) => true
  | .setClosecallback => true
  | _ => false

namespace Run

variable (threadPid : T)

/-- A step of a connection, up to its closecallback. -/
def stepConnection (s : Run T) (index : Nat) (a : TcpConnection.Action T) : Option (Run T) :=
  if ownStep a then do
    let (conn, _) ← s.client.connections[index]?
    let conn' ← conn.next threadPid a
    some { s with
      client := s.client.setConnection index conn'
      closing := if closes conn conn' then some index else s.closing }
  else none

def next (s : Run T) : Run.Action T → Option (Run T)
  | .client a =>
      if s.closing.isSome && s.client.startsTask a then none
      else
        match a with
        | .connection index a => s.stepConnection threadPid index a
        | a => do
            let client ← s.client.step threadPid a
            some { s with client := client, log := s.log ++ (a.event ++ opened s.client client) }
  | .closecallback => do
      let index ← s.closing
      let (conn, cb) ← s.client.connections[index]?
      let client ← s.client.closecallback threadPid index conn cb
      some ⟨client, none, s.log ++ restarted s.client client⟩

def system : Transition.System (Run T) (Run.Action T) where
  init s := ∃ writecompletecallback retry,
    s = ⟨{ TcpClient.new writecompletecallback with retry_ := retry }, none, []⟩
  next := next threadPid

end Run

/-- No flag asks for a connection. -/
structure Silent (s : TcpClient T) : Prop where
  connecting_ : s.connecting_ = false
  connect_ : s.connector_.connect_ = false

/-- No connection is created, and no flag set. -/
structure Subsides (s s' : TcpClient T) : Prop where
  connections : s'.connections.length = s.connections.length
  silent : Silent s → Silent s'

variable {threadPid : T} {s s' : TcpClient T}

omit [DecidableEq T] in
theorem Subsides.opened (h : Subsides s s') : opened s s' = [] := by
  rw [TcpClient.opened, h.connections]
  exact if_neg (Nat.lt_irrefl _)

omit [DecidableEq T] in
theorem subsides_setConnection (s : TcpClient T) (index : Nat) (conn : TcpConnection T) :
    Subsides s (s.setConnection index conn) :=
  ⟨List.length_modify .., fun h => ⟨h.connecting_, h.connect_⟩⟩

omit [DecidableEq T] in
theorem subsides_setClosecallback (s : TcpClient T) (index : Nat) (cb : CloseCallback) :
    Subsides s (s.setClosecallback index cb) :=
  ⟨List.length_modify .., fun h => ⟨h.connecting_, h.connect_⟩⟩

omit [DecidableEq T] in
theorem Subsides.trans {s'' : TcpClient T} (h : Subsides s s') (h' : Subsides s' s'') :
    Subsides s s'' :=
  ⟨h'.connections.trans h.connections, fun hsilent => h'.silent (h.silent hsilent)⟩

theorem connect_of_stop {connector connector' : Connector T} {t : T}
    (h : connector.next threadPid (.stop t) = some connector') : connector'.connect_ = false := by
  cases Connector.next_steps h with
  | stop _ => rfl

omit [DecidableEq T] in
/-- The members that the flags and the connections are not. -/
theorem Subsides.of_eq (hconnector : s'.connector_ = s.connector_)
    (hconnecting : s.connecting_ = false → s'.connecting_ = false)
    (hconnections : s'.connections = s.connections) : Subsides s s' := by
  refine ⟨congrArg List.length hconnections, fun hsilent => ⟨hconnecting hsilent.connecting_, ?_⟩⟩
  rw [hconnector]
  exact hsilent.connect_

omit [DecidableEq T] in
theorem Detaches.subsides {t : T} {index : Nat} (h : Detaches threadPid s t index s') :
    Subsides s s' := by
  cases h with
  | here _ => exact subsides_setClosecallback _ _ _
  | later _ => exact .of_eq rfl id rfl

theorem Leaves.subsides {t : T} {isunique : Bool} (h : Leaves threadPid s t isunique s') :
    Subsides s s' := by
  cases h with
  | nothing _ => exact .of_eq rfl id rfl
  | forced _ hdetaches _ _ => exact hdetaches.subsides.trans (subsides_setConnection _ _ _)
  | stopped _ hdetaches hstop hpush =>
      have hconnect := (Connector.obeys_next rfl hpush).connect_.trans (connect_of_stop hstop)
      exact hdetaches.subsides.trans ⟨rfl, fun hsilent => ⟨hsilent.connecting_, hconnect⟩⟩

namespace Run

open History

/-- Since a `stop` the flags are clear, and between a `stop` and a later call that the
client makes there is a `connect`. -/
structure Final (client : TcpClient T) (log : List Event) : Prop where
  silent : Since (· = .stop) (· = .connect) log → Silent client
  bars : Bars (· = .stop) (· = .connect) Event.own log

variable {client client' : TcpClient T} {log : List Event}

omit [DecidableEq T] in
theorem Final.keep (h : Final client log) (hkeep : Silent client → Silent client') :
    Final client' log :=
  ⟨fun hsince => hkeep (h.silent hsince), h.bars⟩

omit [DecidableEq T] in
theorem Final.connect (h : Final client log) : Final client' (log ++ [.connect]) := by
  refine ⟨fun hsince => ?_, h.bars.concat fun hown => ?_⟩
  · rcases since_concat.mp hsince with hstop | ⟨_, hconnect⟩
    · cases hstop
    · exact absurd rfl hconnect
  · rcases hown with hnew | hrestart
    · cases hnew
    · cases hrestart

omit [DecidableEq T] in
theorem Final.stop (h : Final client log) (hsilent : Silent client') :
    Final client' (log ++ [.stop]) := by
  refine ⟨fun _ => hsilent, h.bars.concat fun hown => ?_⟩
  rcases hown with hnew | hrestart
  · cases hnew
  · cases hrestart

omit [DecidableEq T] in
/-- A call that the client makes while a flag is set. -/
theorem Final.own (h : Final client log) {e : Event} (he : e.own) (hloud : ¬Silent client) :
    Final client' (log ++ [e]) := by
  have hsince : ¬Since (· = .stop) (· = .connect) log := fun hsince => hloud (h.silent hsince)
  refine ⟨fun hmore => ?_, h.bars.concat fun _ => hsince⟩
  rcases since_concat.mp hmore with rfl | ⟨hbefore, _⟩
  · rcases he with hnew | hrestart
    · cases hnew
    · cases hrestart
  · exact absurd hbefore hsince

/-- The closecallback restarts the connector only with `connecting_`. -/
theorem Final.closes (h : Final client log) {index : Nat} {conn : TcpConnection T}
    {cb : CloseCallback} (hcloses : Closes threadPid client index conn cb client') :
    Final client' (log ++ restarted client client') := by
  have hsame (hconnector : client'.connector_ = client.connector_)
      (hconnecting : client'.connecting_ = client.connecting_) :
      Final client' (log ++ restarted client client') := by
    rw [restarted, if_pos hconnector, List.append_nil]
    refine h.keep fun hsilent => ⟨hconnecting.trans hsilent.connecting_, ?_⟩
    rw [hconnector]
    exact hsilent.connect_
  cases hcloses with
  | detail | late _ | removed _ _ _ => exact hsame rfl rfl
  | restarted _ _ hretry _ =>
      have hloud : ¬Silent client := by
        intro hsilent
        rw [hsilent.connecting_, Bool.and_false] at hretry
        cases hretry
      rw [restarted]
      split_ifs
      · rw [List.append_nil]
        exact h.keep fun hsilent => absurd hsilent hloud
      · exact h.own (.inr rfl) hloud

theorem Final.step {a : TcpClient.Action T} (h : Final client log)
    (ha : ∀ index a', a ≠ .connection index a') (hstep : Steps threadPid client a client') :
    Final client' (log ++ (a.event ++ opened client client')) := by
  have hsame (hconnections : client'.connections = client.connections) :
      opened client client' = [] := by
    rw [opened, hconnections]
    exact if_neg (Nat.lt_irrefl _)
  have hsubsides (hsub : Subsides client client') :
      Final client' (log ++ opened client client') := by
    rw [hsub.opened, List.append_nil]
    exact h.keep hsub.silent
  cases hstep with
  | connect _ _ =>
      rw [hsame rfl]
      exact h.connect
  | stop _ hstop =>
      rw [hsame rfl]
      exact h.stop ⟨rfl, connect_of_stop hstop⟩
  | disconnect _ => exact hsubsides (.of_eq rfl (fun _ => rfl) rfl)
  | shutdown _ _ _ _ =>
      have hflag : Subsides client { client with connecting_ := false } :=
        .of_eq rfl (fun _ => rfl) rfl
      exact hsubsides (hflag.trans (subsides_setConnection _ _ _))
  | connector hloop hnext _ =>
      have hobeys := Connector.obeys_next hloop hnext
      exact hsubsides ⟨rfl, fun hsilent =>
        ⟨hsilent.connecting_, hobeys.connect_.trans hsilent.connect_⟩⟩
  | newConnection _ hloop hnext hover =>
      have hloud : ¬Silent client := by
        intro hsilent
        have hconnect := (Connector.obeys_next hloop hnext).handedOver hover
        rw [hsilent.connect_] at hconnect
        cases hconnect
      simp only [opened, newConnection, List.length_append, List.length_singleton, Nat.lt_succ_self,
        if_true]
      exact h.own (.inl rfl) hloud
  | dangling _ _ _ _ => exact hsubsides (.of_eq rfl id rfl)
  | connection _ _ _ _ | closes _ _ _ _ _ => exact absurd rfl (ha _ _)
  | @setClosecallback index rest _ =>
      have htaken : Subsides client { client with setters := rest } := .of_eq rfl id rfl
      exact hsubsides (htaken.trans (subsides_setClosecallback _ _ _))
  | destroy _ _ hleaves => exact hsubsides (hleaves.subsides.trans (.of_eq rfl id rfl))

theorem Final.next {s s' : Run T} {a : Run.Action T} (h : Final s.client s.log)
    (hnext : s.next threadPid a = some s') : Final s'.client s'.log := by
  cases a with
  | closecallback =>
      obtain ⟨index, _, hmember⟩ := Option.bind_eq_some_iff.mp hnext
      obtain ⟨⟨conn, cb⟩, _, hcall⟩ := Option.bind_eq_some_iff.mp hmember
      obtain ⟨client, hclose, hresult⟩ := Option.bind_eq_some_iff.mp hcall
      cases hresult
      exact h.closes (closecallback_closes hclose)
  | client a =>
      simp only [Run.next, Option.ite_none_left_eq_some] at hnext
      obtain ⟨_, hstep⟩ := hnext
      split at hstep
      · rename_i index a
        simp only [Run.stepConnection, Option.ite_none_right_eq_some] at hstep
        obtain ⟨_, hbind⟩ := hstep
        obtain ⟨⟨conn, cb⟩, _, hrest⟩ := Option.bind_eq_some_iff.mp hbind
        obtain ⟨conn', _, hresult⟩ := Option.bind_eq_some_iff.mp hrest
        cases hresult
        exact h.keep (subsides_setConnection _ _ _).silent
      · rename_i hother
        obtain ⟨client, hclient, hresult⟩ := Option.bind_eq_some_iff.mp hstep
        cases hresult
        exact h.step (fun index a' hsame => hother index a' hsame) (step_steps hclient)

/-- Every step of the client, with its closecallback inside, is one or two of these. -/
theorem run_of_step {s : Run T} {a : TcpClient.Action T} (hclosing : s.closing = none)
    (hstep : s.client.step threadPid a = some client') : ∃ s',
    Relation.ReflTransGen ((system threadPid).Step fun _ _ => True) s s' ∧
      s'.client = client' ∧ s'.closing = none := by
  have hopen : ¬((s.closing.isSome && s.client.startsTask a) = true) := by simp [hclosing]
  by_cases ha : ∃ index a', a = .connection index a'
  · obtain ⟨index, a', rfl⟩ := ha
    simp only [TcpClient.step, TcpClient.stepConnection, Option.ite_none_right_eq_some] at hstep
    obtain ⟨hown, hbind⟩ := hstep
    obtain ⟨⟨conn, cb⟩, hmember, hrest⟩ := Option.bind_eq_some_iff.mp hbind
    obtain ⟨conn', hconn, hresult⟩ := Option.bind_eq_some_iff.mp hrest
    have hfirst : (system threadPid).next s (.client (.connection index a')) = some { s with
        client := s.client.setConnection index conn'
        closing := if closes conn conn' then some index else s.closing } := by
      simp [system, Run.next, hclosing, Run.stepConnection, hown, hmember, hconn]
    simp only at hresult
    split at hresult
    · rename_i hcloses
      have hmember' : (s.client.setConnection index conn').connections[index]? =
          some (conn', cb) := by
        simp [setConnection, hmember]
      rw [if_pos hcloses] at hfirst
      refine ⟨⟨client', none, s.log ++ restarted (s.client.setConnection index conn') client'⟩,
        (Relation.ReflTransGen.single ⟨_, trivial, hfirst⟩).tail ⟨.closecallback, trivial, ?_⟩,
        rfl, rfl⟩
      simp [system, Run.next, hmember', hresult]
    · rename_i hcloses
      cases hresult
      rw [if_neg hcloses] at hfirst
      exact ⟨_, .single ⟨_, trivial, hfirst⟩, rfl, hclosing⟩
  · have hnext : (system threadPid).next s (.client a) = some { s with
        client := client', log := s.log ++ (a.event ++ opened s.client client') } := by
      simp only [system, Run.next, if_neg hopen]
      split
      · exact absurd ⟨_, _, rfl⟩ ha
      · simp [hstep]
    exact ⟨_, .single ⟨.client a, trivial, hnext⟩, rfl, hclosing⟩

/-- Between the writes of a `stop`, which come before its return, and a later call of
`newConnection` or `restart` there is a `connect`. -/
theorem stop_is_final {s : Run T} (h : (system threadPid).Reachable s) :
    Bars (· = .stop) (· = .connect) Event.own s.log := by
  have hfinal : Final s.client s.log := by
    apply h.invariant (I := fun s => Final s.client s.log)
    · rintro _ ⟨_, _, rfl⟩
      exact ⟨fun hsince => absurd hsince since_nil, bars_nil⟩
    · intro _ _ _ hi _ hnext
      exact hi.next hnext
  exact hfinal.bars

/-- With `retry_` the first connection is replaced when it closes; the second is not,
because the connectioncallback calls `stop`. -/
theorem stop_is_final_reconnecting : ∃ s, (system true).Reachable s ∧ s.client.retry_ = true ∧
    s.log = [.connect, .newConnection, .restart, .newConnection, .stop] ∧
    Bars (· = .stop) (· = .connect) Event.own s.log := by
  obtain ⟨s, hreach, hretry, hlog⟩ : ∃ s, (system true).ReachableVia (fun _ _ => True) s ∧
      s.client.retry_ = true ∧
      s.log = [.connect, .newConnection, .restart, .newConnection, .stop] :=
    Transition.System.exists_of_exec _ ⟨{ TcpClient.new false with retry_ := true }, none, []⟩
      [.client (.connect true), .client (.connector (.work ⟨none, some .EINPROGRESS, none, false⟩)),
        .client (.connector (.dispatch Poll.POLLOUT)),
        .client (.connector (.work ⟨none, none, none, false⟩)),
        .client (.connector .swap), .client (.connector (.run ⟨none, none, none, false⟩)),
        .client (.connection 0 (.dispatch Poll.POLLHUP)),
        .client (.connection 0 (.callback ⟨.accepted 0, .received []⟩)), .closecallback,
        .client (.connector (.work ⟨none, some .EINPROGRESS, none, false⟩)),
        .client (.connector (.dispatch Poll.POLLOUT)),
        .client (.connector (.work ⟨none, none, none, false⟩)),
        .client (.connection 1 (.dispatch Poll.POLLHUP)),
        .client (.connection 1 (.callback ⟨.accepted 0, .received []⟩)),
        .client (.stop true), .client (.connector (.push true .stopInLoop)), .closecallback]
      ⟨false, true, rfl⟩ (by decide)
  exact ⟨s, hreach, hretry, hlog, stop_is_final hreach⟩

end Run

end TcpClient

end MuduoRpc
