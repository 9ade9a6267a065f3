import MuduoRpc.Tcp.TcpClient

/-!
What the functions and the steps of a client can do, stated once for the proofs about
its runs: one constructor for each outcome.
-/

namespace MuduoRpc.TcpClient

variable {T : Type} [DecidableEq T] (threadPid : T)

/-- What a call of the closecallback can do. -/
inductive Closes (s : TcpClient T) (index : Nat) (conn : TcpConnection T) :
    CloseCallback → TcpClient T → Prop
  | detail : Closes s index conn .detailRemoveConnection
      (s.setConnection index (conn.queueInLoop .connectDestroyed))
  | late {teardown : Teardown} : s.teardown = some teardown →
      Closes s index conn .removeConnection { s with teardown := some teardown.invoke }
  | removed : s.teardown = none → s.connection_ = some index →
      (s.retry_ && s.connecting_) = false →
      Closes s index conn .removeConnection
        { s.setConnection index (conn.queueInLoop .connectDestroyed) with connection_ := none }
  | restarted {connector : Connector T} : s.teardown = none → s.connection_ = some index →
      (s.retry_ && s.connecting_) = true →
      s.connector_.next threadPid .restart = some connector →
      Closes s index conn .removeConnection
        { s.setConnection index (conn.queueInLoop .connectDestroyed) with
          connection_ := none
          connector_ := connector }

/-- `setClosecallback` from the destructor, at once or as a functor. -/
inductive Detaches (s : TcpClient T) (t : T) (index : Nat) : TcpClient T → Prop
  | here : t = threadPid →
      Detaches s t index (s.setClosecallback index .detailRemoveConnection)
  | later : t ≠ threadPid → Detaches s t index { s with setters := s.setters ++ [index] }

/-- What the body of the destructor can do. -/
inductive Leaves (s : TcpClient T) (t : T) : Bool → TcpClient T → Prop
  | nothing {isunique : Bool} : s.connection_ = none → Leaves s t isunique s
  | forced {index : Nat} {s' : TcpClient T} {member : TcpConnection T × CloseCallback}
      {conn : TcpConnection T} : s.connection_ = some index → Detaches threadPid s t index s' →
      s'.connections[index]? = some member → forceClose threadPid member.1 t = some conn →
      Leaves s t true (s'.setConnection index conn)
  | stopped {index : Nat} {s' : TcpClient T} {connector connector' : Connector T} :
      s.connection_ = some index → Detaches threadPid s t index s' →
      s'.connector_.next threadPid (.stop t) = some connector →
      connector.next threadPid (.push t .stopInLoop) = some connector' →
      Leaves s t false { s' with connector_ := connector' }

/-- What a step can do. A step of the connector on a destroyed client runs on a
destroyed connector. -/
inductive Steps (s : TcpClient T) : Action T → TcpClient T → Prop
  | connect {t : T} {connector : Connector T} : s.teardown = none →
      s.connector_.next threadPid (.start t) = some connector →
      Steps s (.connect t) { s with connecting_ := true, connector_ := connector }
  | disconnect {t : T} : s.teardown = none → Steps s (.disconnect t) { s with connecting_ := false }
  | shutdown {t : T} {index : Nat} {member : TcpConnection T × CloseCallback}
      {conn : TcpConnection T} : s.teardown = none → s.connection_ = some index →
      s.connections[index]? = some member →
      member.1.next threadPid (.shutdown t) = some conn →
      Steps s (.disconnect t) ({ s with connecting_ := false }.setConnection index conn)
  | stop {t : T} {connector : Connector T} : s.teardown = none →
      s.connector_.next threadPid (.stop t) = some connector →
      Steps s (.stop t) { s with connecting_ := false, connector_ := connector }
  | connector {a : Connector.Action T} {connector : Connector T} : loopStep a = true →
      s.connector_.next threadPid a = some connector →
      s.teardown = none ∧ handedOver s.connector_ connector = none ∨ runsConnector a = false →
      Steps s (.connector a) { s with connector_ := connector }
  | newConnection {a : Connector.Action T} {connector : Connector T} {sockfd : Nat} :
      s.teardown = none → loopStep a = true →
      s.connector_.next threadPid a = some connector →
      handedOver s.connector_ connector = some sockfd →
      Steps s (.connector a) ({ s with connector_ := connector }.newConnection sockfd)
  | dangling {a : Connector.Action T} {teardown : Teardown} {connector : Connector T} :
      s.teardown = some teardown → loopStep a = true → runsConnector a = true →
      s.connector_.next threadPid a = some connector →
      Steps s (.connector a) { s with teardown := some { teardown with dangling := true } }
  | connection {index : Nat} {a : TcpConnection.Action T}
      {member : TcpConnection T × CloseCallback} {conn : TcpConnection T} : ownStep a = true →
      s.connections[index]? = some member → member.1.next threadPid a = some conn →
      closes member.1 conn = false → Steps s (.connection index a) (s.setConnection index conn)
  | closes {index : Nat} {a : TcpConnection.Action T}
      {member : TcpConnection T × CloseCallback} {conn : TcpConnection T} {s' : TcpClient T} :
      ownStep a = true → s.connections[index]? = some member →
      member.1.next threadPid a = some conn → closes member.1 conn = true →
      Closes threadPid (s.setConnection index conn) index conn member.2 s' →
      Steps s (.connection index a) s'
  | setClosecallback {index : Nat} {rest : List Nat} : s.setters = index :: rest →
      Steps s .setClosecallback
        ({ s with setters := rest }.setClosecallback index .detailRemoveConnection)
  | destroy {t : T} {isunique : Bool} {s' : TcpClient T} : s.teardown = none →
      s.connector_.pushing = [] → Leaves threadPid s t isunique s' →
      Steps s (.destroy t isunique) { s' with
        connection_ := none
        teardown := some ⟨s.connector_.registered, if isunique then s.connection_ else none,
          !s.connector_.registered.isEmpty, false, 0⟩ }

variable {threadPid} {s s' : TcpClient T}

theorem closecallback_closes {index : Nat} {conn : TcpConnection T} {cb : CloseCallback}
    (h : s.closecallback threadPid index conn cb = some s') :
    Closes threadPid s index conn cb s' := by
  cases cb with
  | detailRemoveConnection =>
      cases h
      exact .detail
  | removeConnection =>
      rw [TcpClient.closecallback, removeConnection] at h
      split at h
      · rename_i teardown hteardown
        cases h
        exact .late hteardown
      · rename_i hteardown
        rw [Option.ite_none_right_eq_some] at h
        obtain ⟨hconnection, hresult⟩ := h
        dsimp only at hresult
        split at hresult
        · rename_i hretry
          obtain ⟨connector, hrestart, hdone⟩ := Option.bind_eq_some_iff.mp hresult
          cases hdone
          exact .restarted hteardown hconnection hretry hrestart
        · rename_i hretry
          cases hresult
          exact .removed hteardown hconnection (Bool.eq_false_iff.mpr hretry)

theorem leave_leaves {t : T} {isunique : Bool} (h : s.leave threadPid t isunique = some s') :
    Leaves threadPid s t isunique s' := by
  rw [leave] at h
  split at h
  · rename_i hconnection
    cases h
    exact .nothing hconnection
  · rename_i index hconnection
    have hdetaches : Detaches threadPid s t index (if t = threadPid then
        s.setClosecallback index .detailRemoveConnection
        else { s with setters := s.setters ++ [index] }) := by
      split_ifs with hthread
      · exact .here hthread
      · exact .later hthread
    generalize (if t = threadPid then s.setClosecallback index .detailRemoveConnection
        else { s with setters := s.setters ++ [index] }) = detached at h hdetaches
    cases isunique with
    | true =>
        obtain ⟨member, hmember, hrest⟩ := Option.bind_eq_some_iff.mp h
        obtain ⟨conn, hclose, hresult⟩ := Option.bind_eq_some_iff.mp hrest
        cases hresult
        exact .forced hconnection hdetaches hmember hclose
    | false =>
        obtain ⟨connector, hstop, hrest⟩ := Option.bind_eq_some_iff.mp h
        obtain ⟨connector', hpush, hresult⟩ := Option.bind_eq_some_iff.mp hrest
        cases hresult
        exact .stopped hconnection hdetaches hstop hpush

theorem stepConnector_steps {a : Connector.Action T}
    (h : s.stepConnector threadPid a = some s') : Steps threadPid s (.connector a) s' := by
  simp only [TcpClient.stepConnector, Option.ite_none_right_eq_some] at h
  obtain ⟨hloop, hbind⟩ := h
  obtain ⟨connector, hnext, hresult⟩ := Option.bind_eq_some_iff.mp hbind
  split at hresult
  · rename_i teardown hteardown
    split at hresult
    · rename_i hruns
      cases hresult
      exact .dangling hteardown hloop hruns hnext
    · rename_i hruns
      cases hresult
      exact .connector hloop hnext (.inr (Bool.eq_false_iff.mpr hruns))
  · rename_i hteardown
    split at hresult
    · rename_i sockfd hover
      cases hresult
      exact .newConnection hteardown hloop hnext hover
    · rename_i hover
      cases hresult
      exact .connector hloop hnext (.inl ⟨hteardown, hover⟩)

theorem stepConnection_steps {index : Nat} {a : TcpConnection.Action T}
    (h : s.stepConnection threadPid index a = some s') :
    Steps threadPid s (.connection index a) s' := by
  simp only [TcpClient.stepConnection, Option.ite_none_right_eq_some] at h
  obtain ⟨hown, hbind⟩ := h
  obtain ⟨member, hmember, hrest⟩ := Option.bind_eq_some_iff.mp hbind
  obtain ⟨conn, hnext, hresult⟩ := Option.bind_eq_some_iff.mp hrest
  split at hresult
  · rename_i hcloses
    exact .closes hown hmember hnext hcloses (closecallback_closes hresult)
  · rename_i hcloses
    cases hresult
    exact .connection hown hmember hnext (Bool.eq_false_iff.mpr hcloses)

theorem step_steps {a : Action T} (h : s.step threadPid a = some s') :
    Steps threadPid s a s' := by
  cases a with
  | connect t =>
      simp only [TcpClient.step, Option.ite_none_right_eq_some] at h
      obtain ⟨hteardown, hbind⟩ := h
      obtain ⟨connector, hstart, hresult⟩ := Option.bind_eq_some_iff.mp hbind
      cases hresult
      exact .connect (Option.isNone_iff_eq_none.mp hteardown) hstart
  | disconnect t =>
      simp only [TcpClient.step, Option.ite_none_right_eq_some] at h
      obtain ⟨hteardown, hresult⟩ := h
      have hlive := Option.isNone_iff_eq_none.mp hteardown
      split at hresult
      · cases hresult
        exact .disconnect hlive
      · rename_i index hconnection
        obtain ⟨member, hmember, hrest⟩ := Option.bind_eq_some_iff.mp hresult
        split at hrest
        · obtain ⟨conn, hshutdown, hdone⟩ := Option.bind_eq_some_iff.mp hrest
          cases hdone
          exact .shutdown hlive hconnection hmember hshutdown
        · cases hrest
          exact .disconnect hlive
  | stop t =>
      simp only [TcpClient.step, Option.ite_none_right_eq_some] at h
      obtain ⟨hteardown, hbind⟩ := h
      obtain ⟨connector, hstop, hresult⟩ := Option.bind_eq_some_iff.mp hbind
      cases hresult
      exact .stop (Option.isNone_iff_eq_none.mp hteardown) hstop
  | connector a => exact stepConnector_steps h
  | connection index a => exact stepConnection_steps h
  | setClosecallback =>
      rw [TcpClient.step] at h
      split at h
      · cases h
      · rename_i index rest hsetters
        cases h
        exact .setClosecallback hsetters
  | destroy t isunique =>
      simp only [TcpClient.step, Option.ite_none_right_eq_some, Bool.and_eq_true,
        List.isEmpty_iff] at h
      obtain ⟨⟨hteardown, hpushing⟩, hdestroy⟩ := h
      obtain ⟨left, hleave, hresult⟩ := Option.bind_eq_some_iff.mp hdestroy
      cases hresult
      exact .destroy (Option.isNone_iff_eq_none.mp hteardown) hpushing (leave_leaves hleave)

end MuduoRpc.TcpClient
