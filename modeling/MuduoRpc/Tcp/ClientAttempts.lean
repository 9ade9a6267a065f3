import MuduoRpc.Tcp.ClientStop
import MuduoRpc.Tcp.ConnectorAssertions

/-!
How often a client connects. A failed attempt is not repeated: the timer of
`Connector::retry` is commented out. So each attempt is one call of `connect` or
`restart`, each connection comes out of an attempt of its own, and each `restart`
replaces a connection that has closed.
-/

namespace MuduoRpc

namespace Connector

variable {T : Type} {s s' s'' : Connector T}

def handsOver : Ledger.Op Use Release → Bool
  | .release .newConnectionCallback _ => true
  | _ => false

/-- How many descriptors have been handed over. -/
def handed (s : Connector T) : Nat := s.ops.countP handsOver

def live (s : Connector T) : Nat := if s.state_ = .KConnecting then 1 else 0

/-- Attempts are taken from the pending starts, and what is handed over from the attempts. -/
structure Spends (s s' : Connector T) : Prop where
  attempts : s'.nextFd + s'.starts ≤ s.nextFd + s.starts
  handed : s'.handed + s'.live + s.nextFd ≤ s.handed + s.live + s'.nextFd

theorem Spends.trans (h : Spends s s') (h' : Spends s' s'') : Spends s s'' where
  attempts := h'.attempts.trans h.attempts
  handed := by
    have hfirst := h.handed
    have hsecond := h'.handed
    omega

theorem live_congr (hstate : s'.state_ = s.state_) : s'.live = s.live := by
  rw [live, live, hstate]

/-- An operation that hands nothing over. -/
theorem handed_op {op : Ledger.Op Use Release} (hops : s'.ops = s.ops ++ [op])
    (hop : handsOver op = false) : s'.handed = s.handed := by
  rw [handed, handed, hops, List.countP_append, List.countP_singleton, hop]
  rfl

/-- A step that leaves the attempts and their outcome alone. -/
theorem Spends.of_eq (hstarts : s'.starts ≤ s.starts) (hstate : s'.state_ = s.state_)
    (hnextFd : s'.nextFd = s.nextFd) (hhanded : s'.handed = s.handed) : Spends s s' := by
  have hlive := live_congr hstate
  constructor <;> omega

theorem spends_query (s : Connector T) (how : Use) (sockfd : Nat) :
    Spends s (s.query how sockfd) :=
  .of_eq (Nat.le_refl _) rfl rfl (handed_op rfl rfl)

theorem spends_retry (s : Connector T) (sockfd : Nat) : Spends s (s.retry sockfd) :=
  .of_eq (Nat.le_refl _) rfl rfl (handed_op rfl rfl)

/-- No attempt is under way any more. -/
theorem spends_setstate {state : State} (hstate : state ≠ .KConnecting) :
    Spends s (s.setstate state) := by
  refine ⟨Nat.le_refl _, ?_⟩
  have hlive : (s.setstate state).live = 0 := if_neg hstate
  rw [hlive]
  exact Nat.add_le_add_right (Nat.le_add_right _ _) _

theorem spends_removeAndResetChannel {sockfd : Nat}
    (h : s.removeAndResetChannel = some (s', sockfd)) : Spends s s' := by
  rw [Connector.removeAndResetChannel] at h
  cases hchannel : s.channel_ with
  | none => simp [hchannel] at h
  | some channel =>
      simp only [hchannel] at h
      split_ifs at h
      cases h
      refine .of_eq (Nat.le_of_eq ?_) rfl rfl (handed_op rfl rfl)
      simp [starts, query]

theorem state_removeAndResetChannel {sockfd : Nat}
    (h : s.removeAndResetChannel = some (s', sockfd)) : s'.state_ = s.state_ := by
  obtain ⟨_, _, _, _, _, _, _, _, _, hstate, _, _⟩ := removeAndResetChannel_spec h
  exact hstate

/-- A new attempt has its descriptor and hands over nothing yet. -/
structure Begins (s s' : Connector T) : Prop where
  nextFd : s'.nextFd = s.nextFd + 1
  starts : s'.starts = s.starts
  handed : s'.handed = s.handed

theorem connect_begins {answers : Answers} (h : s.connect answers = some s') :
    Begins s s' := by
  obtain ⟨t, rfl, hconnect⟩ := connect_cases h
  have hacquire : ({ s with
      ops := s.ops ++ [.acquire s.nextFd], nextFd := s.nextFd + 1 } : Connector T).handed =
        s.handed := handed_op rfl rfl
  rcases hconnect with hbegins | rfl
  · rw [connecting] at hbegins
    split at hbegins
    · cases hbegins
    · cases hbegins
      exact ⟨rfl, rfl, hacquire⟩
  · exact ⟨rfl, rfl, (handed_op rfl rfl).trans hacquire⟩

/-- `startInLoop` uses up the start that it was called for. -/
theorem startInLoop_spends {answers : Answers} {t : Connector T}
    (htaken : t.starts + 1 = s.starts) (hstate : t.state_ = s.state_)
    (hnextFd : t.nextFd = s.nextFd) (hops : t.ops = s.ops)
    (h : t.startInLoop answers = some s') : Spends s s' := by
  have hlive := live_congr hstate
  have hhanded : t.handed = s.handed := congrArg (List.countP handsOver) hops
  rw [Connector.startInLoop] at h
  split_ifs at h
  · obtain ⟨hnextFd', hstarts, hhanded'⟩ := connect_begins h
    have hone : s'.live ≤ 1 := by
      rw [live]
      split_ifs <;> omega
    constructor <;> omega
  · cases h
    constructor <;> omega

theorem stopInLoop_spends (h : s.stopInLoop = some s') : Spends s s' := by
  rw [Connector.stopInLoop] at h
  split_ifs at h
  · obtain ⟨⟨t, sockfd⟩, hremove, hresult⟩ := Option.bind_eq_some_iff.mp h
    cases hresult
    have hstate : Spends s (s.setstate .KDisconnected) := spends_setstate (by decide)
    exact (hstate.trans (spends_removeAndResetChannel hremove)).trans (spends_retry t sockfd)
  · cases h
    exact .of_eq (Nat.le_refl _) rfl rfl rfl

theorem handleError_spends (h : s.handleError = some s') : Spends s s' := by
  rw [Connector.handleError] at h
  split_ifs at h
  · obtain ⟨⟨t, sockfd⟩, hremove, hresult⟩ := Option.bind_eq_some_iff.mp h
    cases hresult
    have hquery := (spends_removeAndResetChannel hremove).trans
      (spends_query t .getSocketError sockfd)
    exact hquery.trans (spends_retry _ _)
  · cases h
    exact .of_eq (Nat.le_refl _) rfl rfl rfl

/-- What is handed over is the attempt that was under way. -/
theorem handOver_spends {sockfd : Nat} (hlive : s.state_ = .KConnecting) :
    Spends s ((s.setstate .KConnected).release .newConnectionCallback sockfd) := by
  have hone : s.live = 1 := if_pos hlive
  have hnone : ((s.setstate .KConnected).release .newConnectionCallback sockfd).live = 0 :=
    if_neg (by simp [release, setstate])
  have hhanded : ((s.setstate .KConnected).release .newConnectionCallback sockfd).handed =
      s.handed + 1 := List.countP_append
  refine ⟨Nat.le_refl _, ?_⟩
  rw [hone, hnone, hhanded]
  exact Nat.le_refl _

theorem handleWrite_spends {answers : Answers} (h : s.handleWrite answers = some s') :
    Spends s s' := by
  by_cases hstate : s.state_ = .KConnecting
  · rw [Connector.handleWrite, if_pos hstate] at h
    obtain ⟨⟨t, sockfd⟩, hremove, hresult⟩ := Option.bind_eq_some_iff.mp h
    have hquery := (spends_removeAndResetChannel hremove).trans
      (spends_query t .getSocketError sockfd)
    have hself := hquery.trans (spends_query _ .isSelfConnect sockfd)
    have hstate' : t.state_ = .KConnecting := (state_removeAndResetChannel hremove).trans hstate
    simp only at hresult
    split_ifs at hresult <;> cases hresult
    · exact hquery.trans (spends_retry _ _)
    · exact hself.trans (spends_retry _ _)
    · exact hself.trans (handOver_spends hstate')
    · exact (hself.trans (spends_setstate (by decide))).trans (spends_retry _ _)
  · rw [Connector.handleWrite, if_neg hstate] at h
    split_ifs at h
    cases h
    exact .of_eq (Nat.le_refl _) rfl rfl rfl

/-- The functor has been taken from the queue before it runs. -/
theorem runFunctor_spends {answers : Answers} {cb : Functor} {queue : PendingQueue Functor}
    (hpop : s.queue.pop = some (cb, queue))
    (h : { s with queue := queue }.runFunctor answers cb = some s') : Spends s s' := by
  have hcount : s.starts = starts { s with queue := queue } +
      if cb = .startInLoop then 1 else 0 := by
    simp only [starts, PendingQueue.toList_pop hpop, List.count_cons, beq_iff_eq]
    omega
  have htaken : Spends s { s with queue := queue } := .of_eq (by omega) rfl rfl rfl
  cases cb with
  | startInLoop => exact startInLoop_spends hcount.symm rfl rfl rfl h
  | stopInLoop => exact htaken.trans (stopInLoop_spends h)
  | resetChannel =>
      cases h
      exact htaken.trans (.of_eq (Nat.le_refl _) rfl rfl rfl)

theorem runWork_spends {answers : Answers} {task : Work} {rest : List Work}
    (hlist : s.work = task :: rest)
    (h : { s with work := rest }.runWork answers task = some s') : Spends s s' := by
  have hcount : s.starts = starts { s with work := rest } +
      if task = .startInLoop then 1 else 0 := by
    simp only [starts, hlist, List.count_cons, beq_iff_eq]
    omega
  have htaken : Spends s { s with work := rest } := .of_eq (by omega) rfl rfl rfl
  cases task with
  | startInLoop => exact startInLoop_spends hcount.symm rfl rfl rfl h
  | callback callback =>
      cases callback with
      | errorCallback_ => exact htaken.trans (handleError_spends h)
      | writeCallback_ => exact htaken.trans (handleWrite_spends h)
      | readCallback_ | closeCallback_ =>
          cases h
          exact htaken

variable [DecidableEq T] {threadPid : T}

/-- A step that is no call of the client. -/
theorem spends_next {a : Action T} (ha : TcpClient.loopStep a = true)
    (h : s.next threadPid a = some s') : Spends s s' := by
  cases next_steps h with
  | startHere | start | stop | restart => cases ha
  | @push t cb hmem =>
      refine .of_eq (Nat.le_of_eq ?_) rfl rfl rfl
      have hcount := ((List.perm_cons_erase hmem).map Prod.snd).count_eq Functor.startInLoop
      rw [List.map_cons, List.count_cons] at hcount
      simp only [starts, PendingQueue.toList_push, List.count_append, List.count_singleton, hcount]
      omega
  | swap _ hswap =>
      refine .of_eq (Nat.le_of_eq ?_) rfl rfl rfl
      simp only [starts, PendingQueue.toList_swap hswap]
  | run _ hpop hrun => exact runFunctor_spends hpop hrun
  | @dispatch revents channel hidle _ _ _ =>
      refine .of_eq ?_ rfl rfl rfl
      have hnone := startInLoop_not_mem ({ channel with revents_ := revents }.handleEvent)
      simp only [starts, List.count_eq_zero.mpr hnone]
      omega
  | work _ hlist hrun => exact runWork_spends hlist hrun

/-- A call of `start`. -/
theorem starts_start {t : T} (h : s.next threadPid (.start t) = some s') :
    s'.starts = s.starts + 1 ∧ s'.nextFd = s.nextFd ∧ s'.handed = s.handed ∧
      s'.live = s.live := by
  cases next_steps h with
  | startHere _ =>
      refine ⟨?_, rfl, rfl, rfl⟩
      simp only [starts, List.count_cons_self]
      omega
  | start _ _ =>
      refine ⟨?_, rfl, rfl, rfl⟩
      simp only [starts, List.map_cons, List.count_cons_self]
      omega

theorem starts_restart (h : s.next threadPid .restart = some s') :
    s'.starts = s.starts + 1 ∧ s'.nextFd = s.nextFd ∧ s'.handed = s.handed ∧ s'.live = 0 := by
  cases next_steps h with
  | restart _ =>
      refine ⟨?_, rfl, rfl, rfl⟩
      simp only [starts, List.count_cons_self]
      omega

theorem spends_stop {t : T} (h : s.next threadPid (.stop t) = some s') : Spends s s' := by
  cases next_steps h with
  | stop _ => exact .of_eq (Nat.le_of_eq rfl) rfl rfl rfl

omit [DecidableEq T] in
/-- The count sees what the client is handed. -/
theorem handed_of_handedOver {sockfd : Nat} (h : Obeys s s')
    (hover : TcpClient.handedOver s s' = some sockfd) : s.handed + 1 ≤ s'.handed := by
  obtain ⟨more, hops, _⟩ := h.ops
  rw [TcpClient.handedOver, hops, List.drop_left] at hover
  split at hover
  · rename_i hlast
    have hmem := List.mem_of_getLast? hlast
    rw [handed, handed, hops, List.countP_append]
    exact Nat.add_le_add_left (List.countP_pos_iff.mpr ⟨_, hmem, rfl⟩) _
  · cases hover

omit [DecidableEq T] in
theorem handed_mono (h : Obeys s s') : s.handed ≤ s'.handed := by
  obtain ⟨more, hops, _⟩ := h.ops
  rw [handed, handed, hops, List.countP_append]
  exact Nat.le_add_right _ _

end Connector

namespace TcpClient

open Connector

variable {T : Type} {client client' : TcpClient T} {log : List Event}

theorem count_concat_self (log : List Event) (e : Event) :
    (log ++ [e]).count e = log.count e + 1 := by
  simp

theorem count_concat_ne (log : List Event) {e e' : Event} (h : e ≠ e') :
    (log ++ [e]).count e' = log.count e' := by
  simp [h]

/-- The calls so far, the attempts and the connections. -/
structure Accounted (client : TcpClient T) (log : List Event) : Prop where
  attempts : client.connector_.nextFd + client.connector_.starts ≤
    log.count .connect + log.count .restart
  handed : client.connector_.handed + client.connector_.live ≤ client.connector_.nextFd
  created : log.count .newConnection ≤ client.connector_.handed
  restarts : log.count .restart + (if client.connection_.isSome then 1 else 0) ≤
    log.count .newConnection
  plain : client.retry_ = false → log.count .restart = 0

/-- What is called does not count, and the connector goes on by itself. -/
structure Proceeds (client client' : TcpClient T) : Prop where
  spends : Spends client.connector_ client'.connector_
  handed : client.connector_.handed ≤ client'.connector_.handed
  connection_ : client'.connection_ = client.connection_ ∨ client'.connection_ = none
  retry_ : client'.retry_ = client.retry_

theorem Proceeds.of_eq (hconnector : client'.connector_ = client.connector_)
    (hconnection : client'.connection_ = client.connection_ ∨ client'.connection_ = none)
    (hretry : client'.retry_ = client.retry_) : Proceeds client client' := by
  refine ⟨?_, ?_, hconnection, hretry⟩
  · rw [hconnector]
    exact .of_eq (Nat.le_refl _) rfl rfl rfl
  · rw [hconnector]

theorem Accounted.proceeds (h : Accounted client log) (hp : Proceeds client client') :
    Accounted client' log := by
  have hspends := hp.spends
  refine ⟨hspends.attempts.trans h.attempts, ?_, h.created.trans hp.handed, ?_, ?_⟩
  · have hhanded := hspends.handed
    have hbefore := h.handed
    omega
  · refine (Nat.add_le_add_left ?_ _).trans h.restarts
    rcases hp.connection_ with hsame | hnone
    · rw [hsame]
    · simp [hnone]
  · rw [hp.retry_]
    exact h.plain

theorem Proceeds.trans {client'' : TcpClient T} (h : Proceeds client client')
    (h' : Proceeds client' client'') : Proceeds client client'' := by
  refine ⟨h.spends.trans h'.spends, h.handed.trans h'.handed, ?_, h'.retry_.trans h.retry_⟩
  rcases h'.connection_ with hsame | hnone
  · rw [hsame]
    exact h.connection_
  · exact .inr hnone

variable [DecidableEq T] {threadPid : T}

theorem Proceeds.connector {a : Connector.Action T} {connector : Connector T}
    (hloop : loopStep a = true) (hnext : client.connector_.next threadPid a = some connector) :
    Proceeds client { client with connector_ := connector } :=
  ⟨spends_next hloop hnext, handed_mono (obeys_next hloop hnext), .inl rfl, rfl⟩

theorem Proceeds.stop {t : T} {connector : Connector T}
    (hstop : client.connector_.next threadPid (.stop t) = some connector) :
    Proceeds client { client with connector_ := connector } := by
  refine ⟨spends_stop hstop, ?_, .inl rfl, rfl⟩
  cases Connector.next_steps hstop with
  | stop _ => exact Nat.le_refl _

omit [DecidableEq T] in
theorem Detaches.proceeds {t : T} {index : Nat} (h : Detaches threadPid client t index client') :
    Proceeds client client' := by
  cases h with
  | here _ | later _ => exact .of_eq rfl (.inl rfl) rfl

theorem Leaves.proceeds {t : T} {isunique : Bool} (h : Leaves threadPid client t isunique client') :
    Proceeds client client' := by
  cases h with
  | nothing _ => exact .of_eq rfl (.inl rfl) rfl
  | forced _ hdetaches _ _ => exact hdetaches.proceeds.trans (.of_eq rfl (.inl rfl) rfl)
  | stopped _ hdetaches hstop hpush =>
      exact hdetaches.proceeds.trans ((Proceeds.stop hstop).trans (.connector rfl hpush))

namespace Accounted

/-- A call of `connect` is one start more. -/
theorem connect (h : Accounted client log) {t : T} {connector : Connector T} {connecting : Bool}
    (hstart : client.connector_.next threadPid (.start t) = some connector) :
    Accounted { client with connecting_ := connecting, connector_ := connector }
      (log ++ [.connect]) := by
  obtain ⟨hstarts, hnextFd, hhanded, hlive⟩ := starts_start hstart
  have hattempts := h.attempts
  have hbefore := h.handed
  constructor
  · rw [count_concat_self, count_concat_ne _ (by decide)]
    dsimp only
    omega
  · dsimp only
    omega
  · rw [count_concat_ne _ (by decide), hhanded]
    exact h.created
  · rw [count_concat_ne _ (by decide), count_concat_ne _ (by decide)]
    exact h.restarts
  · rw [count_concat_ne _ (by decide)]
    exact h.plain

omit [DecidableEq T] in
/-- A call of `stop` counts for nothing. -/
theorem stop (h : Accounted client log) (hconnector : client'.connector_ = client.connector_)
    (hconnection : client'.connection_ = client.connection_)
    (hretry : client'.retry_ = client.retry_) : Accounted client' (log ++ [.stop]) := by
  have hsame := h.proceeds (.of_eq hconnector (.inl hconnection) hretry)
  constructor
  · rw [count_concat_ne _ (by decide), count_concat_ne _ (by decide)]
    exact hsame.attempts
  · exact hsame.handed
  · rw [count_concat_ne _ (by decide)]
    exact hsame.created
  · rw [count_concat_ne _ (by decide), count_concat_ne _ (by decide)]
    exact hsame.restarts
  · rw [count_concat_ne _ (by decide)]
    exact hsame.plain

/-- A connection comes out of an attempt that was handed over. -/
theorem newConnection (h : Accounted client log) {a : Connector.Action T}
    {connector : Connector T} {sockfd : Nat} (hloop : loopStep a = true)
    (hnext : client.connector_.next threadPid a = some connector)
    (hover : handedOver client.connector_ connector = some sockfd) :
    Accounted (TcpClient.newConnection { client with connector_ := connector } sockfd)
      (log ++ [.newConnection]) := by
  have hproceeds := h.proceeds (Proceeds.connector hloop hnext)
  have hone := handed_of_handedOver (obeys_next hloop hnext) hover
  refine ⟨?_, hproceeds.handed, ?_, ?_, ?_⟩
  · rw [count_concat_ne _ (by decide), count_concat_ne _ (by decide)]
    exact hproceeds.attempts
  · rw [count_concat_self]
    exact (Nat.add_le_add_right h.created 1).trans hone
  · rw [count_concat_self, count_concat_ne _ (by decide)]
    exact Nat.add_le_add_right ((Nat.le_add_right _ _).trans h.restarts) 1
  · rw [count_concat_ne _ (by decide)]
    exact h.plain

/-- A `restart` uses up the connection that has closed. -/
theorem restart (h : Accounted client log) {connector : Connector T} {index : Nat}
    (hconnection : client.connection_ = some index) (hretry : client.retry_ = true)
    (hrestart : client.connector_.next threadPid .restart = some connector)
    (hconnector : client'.connector_ = connector) (hclosed : client'.connection_ = none)
    (hsame : client'.retry_ = client.retry_) : Accounted client' (log ++ [.restart]) := by
  obtain ⟨hstarts, hnextFd, hhanded, hlive⟩ := starts_restart hrestart
  have hattempts := h.attempts
  have hbefore := h.handed
  have hrestarts := h.restarts
  rw [hconnection] at hrestarts
  subst hconnector
  refine ⟨?_, ?_, ?_, ?_, fun hplain => ?_⟩
  · rw [count_concat_self, count_concat_ne _ (by decide)]
    omega
  · omega
  · rw [count_concat_ne _ (by decide), hhanded]
    exact h.created
  · rw [count_concat_self, count_concat_ne _ (by decide), hclosed]
    simpa using hrestarts
  · rw [hsame, hretry] at hplain
    cases hplain

theorem closes (h : Accounted client log) {index : Nat} {conn : TcpConnection T}
    {cb : CloseCallback} (hcloses : Closes threadPid client index conn cb client') :
    Accounted client' (log ++ restarted client client') := by
  have hsame (hp : Proceeds client client') (hconnector : client'.connector_ = client.connector_) :
      Accounted client' (log ++ restarted client client') := by
    rw [restarted, if_pos hconnector, List.append_nil]
    exact h.proceeds hp
  cases hcloses with
  | detail | late _ => exact hsame (.of_eq rfl (.inl rfl) rfl) rfl
  | removed _ _ _ => exact hsame (.of_eq rfl (.inr rfl) rfl) rfl
  | @restarted connector _ hconnection hretry hrestart =>
      have hchanged : connector ≠ client.connector_ := by
        intro hkept
        have hstarts := (starts_restart hrestart).1
        rw [hkept] at hstarts
        omega
      rw [restarted, if_neg hchanged]
      exact h.restart hconnection (Bool.and_eq_true_iff.mp hretry).1 hrestart rfl rfl rfl

theorem step {a : TcpClient.Action T} (h : Accounted client log)
    (ha : ∀ index a', a ≠ .connection index a') (hstep : Steps threadPid client a client') :
    Accounted client' (log ++ (a.event ++ opened client client')) := by
  have hkept (hconnections : client'.connections.length = client.connections.length) :
      opened client client' = [] := by
    rw [TcpClient.opened, hconnections]
    exact if_neg (Nat.lt_irrefl _)
  have hproceeds (hconnections : client'.connections.length = client.connections.length)
      (hp : Proceeds client client') : Accounted client' (log ++ opened client client') := by
    rw [hkept hconnections, List.append_nil]
    exact h.proceeds hp
  cases hstep with
  | connect _ hstart =>
      rw [hkept rfl]
      exact h.connect hstart
  | stop _ hstop =>
      rw [hkept rfl]
      exact (h.proceeds (Proceeds.stop hstop)).stop rfl rfl rfl
  | disconnect _ => exact hproceeds rfl (.of_eq rfl (.inl rfl) rfl)
  | shutdown _ _ _ _ => exact hproceeds (List.length_modify ..) (.of_eq rfl (.inl rfl) rfl)
  | connector hloop hnext _ => exact hproceeds rfl (.connector hloop hnext)
  | newConnection _ hloop hnext hover =>
      simp only [TcpClient.opened, TcpClient.newConnection, List.length_append,
        List.length_singleton, Nat.lt_succ_self, if_true]
      exact h.newConnection hloop hnext hover
  | dangling _ _ _ _ => exact hproceeds rfl (.of_eq rfl (.inl rfl) rfl)
  | connection _ _ _ _ | closes _ _ _ _ _ => exact absurd rfl (ha _ _)
  | setClosecallback _ => exact hproceeds (List.length_modify ..) (.of_eq rfl (.inl rfl) rfl)
  | destroy _ _ hleaves =>
      exact hproceeds hleaves.subsides.connections
        (hleaves.proceeds.trans (.of_eq rfl (.inr rfl) rfl))

theorem next {s s' : Run T} {a : Run.Action T} (h : Accounted s.client s.log)
    (hnext : s.next threadPid a = some s') : Accounted s'.client s'.log := by
  cases a with
  | closecallback =>
      obtain ⟨index, _, hmember⟩ := Option.bind_eq_some_iff.mp hnext
      obtain ⟨⟨conn, cb⟩, _, hcall⟩ := Option.bind_eq_some_iff.mp hmember
      obtain ⟨client, hclose, hresult⟩ := Option.bind_eq_some_iff.mp hcall
      cases hresult
      exact h.closes (closecallback_closes hclose)
  | client a =>
      simp only [Run.next, Option.ite_none_left_eq_some] at hnext
      obtain ⟨_, hstep⟩ := hnext
      split at hstep
      · rename_i index a
        simp only [Run.stepConnection, Option.ite_none_right_eq_some] at hstep
        obtain ⟨_, hbind⟩ := hstep
        obtain ⟨⟨conn, cb⟩, _, hrest⟩ := Option.bind_eq_some_iff.mp hbind
        obtain ⟨conn', _, hresult⟩ := Option.bind_eq_some_iff.mp hrest
        cases hresult
        exact h.proceeds (.of_eq rfl (.inl rfl) rfl)
      · rename_i hother
        obtain ⟨client, hclient, hresult⟩ := Option.bind_eq_some_iff.mp hstep
        cases hresult
        exact h.step (fun index a' hsame => hother index a' hsame) (step_steps hclient)

end Accounted

/-- In every run there are at most as many connections as descriptors that the connector
has obtained, and at most as many of these as calls of `connect` and `restart`. A `restart`
comes after a connection of its own, and never without `retry_`, which nothing sets. -/
theorem Run.attempts_accounted {s : Run T} (h : (Run.system threadPid).Reachable s) :
    s.log.count .newConnection ≤ s.client.connector_.nextFd ∧
      s.client.connector_.nextFd ≤ s.log.count .connect + s.log.count .restart ∧
      s.log.count .restart ≤ s.log.count .newConnection ∧
      (s.client.retry_ = false → s.log.count .restart = 0) := by
  have haccounted : Accounted s.client s.log := by
    apply h.invariant (I := fun s => Accounted s.client s.log)
    · rintro _ ⟨_, _, rfl⟩
      exact ⟨Nat.le_refl _, Nat.le_refl _, Nat.le_refl _, Nat.le_refl _, fun _ => rfl⟩
    · intro _ _ _ hi _ hnext
      exact hi.next hnext
  refine ⟨?_, ?_, ?_, haccounted.plain⟩
  · exact haccounted.created.trans ((Nat.le_add_right _ _).trans haccounted.handed)
  · exact (Nat.le_add_right _ _).trans haccounted.attempts
  · exact (Nat.le_add_right _ _).trans haccounted.restarts

/-- Two calls of `connect`: the first attempt is refused and not repeated, the second one
gives a connection, which is not replaced when it closes. -/
theorem Run.attempts_accounted_refused : ∃ s : Run Bool,
    s.log = [.connect, .connect, .newConnection] ∧ s.client.connection_ = none ∧
      s.client.connector_.nextFd = 2 ∧ 1 ≤ s.client.connector_.nextFd := by
  obtain ⟨s, hreach, hlog, hclosed, hsockets⟩ : ∃ s,
      (Run.system true).ReachableVia (fun _ _ => True) s ∧
      s.log = [.connect, .connect, .newConnection] ∧ s.client.connection_ = none ∧
      s.client.connector_.nextFd = 2 :=
    Transition.System.exists_of_exec _ ⟨TcpClient.new false, none, []⟩
      [.client (.connect true), .client (.connector (.work ⟨none, some .ECONNREFUSED, none, false⟩)),
        .client (.connect false), .client (.connector (.push false .startInLoop)),
        .client (.connector .swap),
        .client (.connector (.run ⟨none, some .EINPROGRESS, none, false⟩)),
        .client (.connector (.dispatch Poll.POLLOUT)),
        .client (.connector (.work ⟨none, none, none, false⟩)),
        .client (.connection 0 (.dispatch Poll.POLLHUP)),
        .client (.connection 0 (.callback ⟨.accepted 0, .received []⟩)), .closecallback]
      ⟨false, false, rfl⟩ (by decide)
  obtain ⟨hconnections, _⟩ := Run.attempts_accounted hreach
  rw [hlog] at hconnections
  exact ⟨s, hlog, hclosed, hsockets, hconnections⟩

end TcpClient

end MuduoRpc
