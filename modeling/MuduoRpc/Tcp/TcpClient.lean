import MuduoRpc.Tcp.ConnectorOwnership
import MuduoRpc.Tcp.TcpConnection

/-!
`TcpClient`: a connector and the connections that come out of it, each with its
own functors in the loop. `newConnection` runs when the connector hands over a
descriptor, and the closecallback when a connection invokes it. The destructor
ends with that of the connector, which nobody else holds: a functor or handler
of the connector that runs afterwards runs on a destroyed object.
-/

namespace MuduoRpc

/-- Where the closecallback of a connection leads. -/
inductive TcpClient.CloseCallback
  | removeConnection
  | detailRemoveConnection
deriving DecidableEq, Repr

/-- What the destructor found and what has happened since. `attempt` is the
descriptor of an attempt under way, `sole` a connection that only the client
held. `drained` says that no functor was pending any more at some time, and
`late` counts the calls of `newConnection` and `removeConnection` after that. -/
structure TcpClient.Teardown where
  attempt : List Nat
  sole : Option Nat
  dangling : Bool
  drained : Bool
  late : Nat
deriving DecidableEq, Repr

/-- `connections` are all that `newConnection` has created; a `TcpConnectionptr` is
an index. `setters` are the `setClosecallback` functors that are pending. -/
structure TcpClient (T : Type) where
  connector_ : Connector T
  connection_ : Option Nat
  connections : List (TcpConnection T × TcpClient.CloseCallback)
  retry_ : Bool
  connecting_ : Bool
  writecompletecallback_ : Bool
  setters : List Nat
  teardown : Option TcpClient.Teardown

namespace TcpClient

variable {T : Type}

def new (writecompletecallback : Bool) : TcpClient T where
  connector_ := .new
  connection_ := none
  connections := []
  retry_ := false
  connecting_ := true
  writecompletecallback_ := writecompletecallback
  setters := []
  teardown := none

/-- The buffers have their default size. -/
def newConnection (s : TcpClient T) (sockfd : Nat) : TcpClient T :=
  let conn := (TcpConnection.new sockfd 1024 s.writecompletecallback_).connectEstablished
  { s with
    connections := s.connections ++ [(conn, .removeConnection)]
    connection_ := some s.connections.length }

def setConnection (s : TcpClient T) (index : Nat) (conn : TcpConnection T) : TcpClient T :=
  { s with connections := s.connections.modify index fun member => (conn, member.2) }

def setClosecallback (s : TcpClient T) (index : Nat) (cb : CloseCallback) : TcpClient T :=
  { s with connections := s.connections.modify index fun member => (member.1, cb) }

/-- No functor is pending in the loop. -/
def drained (s : TcpClient T) : Bool :=
  s.connector_.queue.toList.isEmpty && s.setters.isEmpty &&
    s.connections.all fun member => member.1.queue.toList.isEmpty

/-- A callback into the client that comes after its destructor. -/
def Teardown.invoke (teardown : Teardown) : Teardown :=
  if teardown.drained then { teardown with late := teardown.late + 1 } else teardown

/-- The descriptor that a step of the connector has handed over. -/
def handedOver (connector connector' : Connector T) : Option Nat :=
  match (connector'.ops.drop connector.ops.length).getLast? with
  | some (.release .newConnectionCallback sockfd) => some sockfd
  | _ => none

variable [DecidableEq T]

/-- A step of the connection has invoked the closecallback. -/
def closes (conn conn' : TcpConnection T) : Bool :=
  conn.log.count .closecallback < conn'.log.count .closecallback

variable (threadPid : T)

/-- `TcpClient::removeConnection`. -/
def removeConnection (s : TcpClient T) (index : Nat) (conn : TcpConnection T) :
    Option (TcpClient T) :=
  match s.teardown with
  | some teardown => some { s with teardown := some teardown.invoke }
  | none =>
      if s.connection_ = some index then
        let s := { s.setConnection index (conn.queueInLoop .connectDestroyed) with
          connection_ := none }
        if s.retry_ && s.connecting_ then do
          let connector ← s.connector_.next threadPid .restart
          some { s with connector_ := connector }
        else some s
      else none

/-- The call of the closecallback, when the connection has closed. -/
def closecallback (s : TcpClient T) (index : Nat) (conn : TcpConnection T) :
    CloseCallback → Option (TcpClient T)
  | .removeConnection => s.removeConnection threadPid index conn
  | .detailRemoveConnection =>
      some (s.setConnection index (conn.queueInLoop .connectDestroyed))

/-- The whole call, on a thread that is not in the middle of another one. -/
def forceClose (conn : TcpConnection T) (t : T) : Option (TcpConnection T) :=
  if conn.state_ = .KConnected ∨ conn.state_ = .KConnecting then do
    let conn ← conn.next threadPid (.forceClose t)
    let conn ← conn.next threadPid (.assign t)
    conn.next threadPid (.push t)
  else some conn

/-- The body of `~TcpClient`. -/
def leave (s : TcpClient T) (t : T) (isunique : Bool) : Option (TcpClient T) :=
  match s.connection_ with
  | none => some s
  | some index => do
      let s := if t = threadPid then s.setClosecallback index .detailRemoveConnection
        else { s with setters := s.setters ++ [index] }
      if isunique then
        let (conn, _) ← s.connections[index]?
        let conn ← forceClose threadPid conn t
        some (s.setConnection index conn)
      else
        let connector ← s.connector_.next threadPid (.stop t)
        let connector ← connector.next threadPid (.push t .stopInLoop)
        some { s with connector_ := connector }

/-- `~TcpClient`, with the destructors of its members. That of the connector
destroys the channel, which asserts that it is not registered. -/
def destroy (s : TcpClient T) (t : T) (isunique : Bool) : Option (TcpClient T) := do
  let attempt := s.connector_.registered
  let sole := if isunique then s.connection_ else none
  let s ← s.leave threadPid t isunique
  some { s with
    connection_ := none
    teardown := some ⟨attempt, sole, !attempt.isEmpty, false, 0⟩ }

/-- `connector` and `connection` are steps of the loop, and of the users of a
connection, that the client has no part in. `isunique` is what
`connection_.unique()` says. -/
inductive Action (T : Type)
  | connect (t : T)
  | disconnect (t : T)
  | stop (t : T)
  | connector (a : Connector.Action T)
  | connection (index : Nat) (a : TcpConnection.Action T)
  | setClosecallback
  | destroy (t : T) (isunique : Bool)
deriving DecidableEq, Repr

/-- The steps of a connector that are not a call of the client: those of the loop,
and the end of a call. -/
def loopStep : Connector.Action T → Bool
  | .start _ | .stop _ | .restart => false
  | _ => true

/-- The step runs code of the connector. -/
def runsConnector : Connector.Action T → Bool
  | .run _ | .dispatch _ | .work _ => true
  | _ => false

/-- The steps of a connection that the client does not take itself. -/
def ownStep : TcpConnection.Action T → Bool
  | .connectEstablished | .removeConnection _ | .connectDestroyed => false
  | _ => true

def stepConnector (s : TcpClient T) (a : Connector.Action T) : Option (TcpClient T) :=
  if loopStep a then do
    let connector ← s.connector_.next threadPid a
    match s.teardown with
    | some teardown =>
        if runsConnector a then some { s with teardown := some { teardown with dangling := true } }
        else some { s with connector_ := connector }
    | none =>
        let s' := { s with connector_ := connector }
        match handedOver s.connector_ connector with
        | some sockfd => some (s'.newConnection sockfd)
        | none => some s'
  else none

def stepConnection (s : TcpClient T) (index : Nat) (a : TcpConnection.Action T) :
    Option (TcpClient T) :=
  if ownStep a then do
    let (conn, cb) ← s.connections[index]?
    let conn' ← conn.next threadPid a
    let s := s.setConnection index conn'
    if closes conn conn' then s.closecallback threadPid index conn' cb else some s
  else none

def step (s : TcpClient T) : Action T → Option (TcpClient T)
  | .connect t =>
      if s.teardown.isNone then do
        let connector ← s.connector_.next threadPid (.start t)
        some { s with connecting_ := true, connector_ := connector }
      else none
  | .disconnect t =>
      if s.teardown.isNone then
        let s := { s with connecting_ := false }
        match s.connection_ with
        | none => some s
        | some index => do
            let (conn, _) ← s.connections[index]?
            if conn.state_ = .KConnected then
              let conn ← conn.next threadPid (.shutdown t)
              some (s.setConnection index conn)
            else some s
      else none
  | .stop t =>
      if s.teardown.isNone then do
        let connector ← s.connector_.next threadPid (.stop t)
        some { s with connecting_ := false, connector_ := connector }
      else none
  | .connector a => s.stepConnector threadPid a
  | .connection index a => s.stepConnection threadPid index a
  | .setClosecallback =>
      match s.setters with
      | [] => none
      | index :: rest =>
          some ({ s with setters := rest }.setClosecallback index .detailRemoveConnection)
  | .destroy t isunique =>
      if s.teardown.isNone && s.connector_.pushing.isEmpty then s.destroy threadPid t isunique
      else none

/-- Take note when the pending functors have drained. -/
def note (s : TcpClient T) : TcpClient T :=
  match s.teardown with
  | none => s
  | some teardown =>
      { s with teardown := some { teardown with drained := teardown.drained || s.drained } }

def next (s : TcpClient T) (a : Action T) : Option (TcpClient T) := (s.step threadPid a).map note

def system : Transition.System (TcpClient T) (Action T) where
  init s := ∃ writecompletecallback, s = new writecompletecallback
  next := next threadPid

end TcpClient

end MuduoRpc
