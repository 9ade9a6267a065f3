import MuduoRpc.Tcp.ClientStop
import MuduoRpc.Tcp.ConnectorAssertions
import MuduoRpc.Tcp.TcpServer

/-!
A process: loops, each with its thread, and servers and clients that live on them
in any layout. A loop goes through the channels that the poller reported, one
`handleEvent` at a time, and runs functors afterwards; calls of the user come at any
time, also from inside the callbacks. Every object keeps its own part of the queue
of its loop, so the order among the functors of different objects is left open.
Two logs record the calls of `connectDestroyed` and of `Channel::remove`, with the
loop as it was then.
-/

namespace MuduoRpc

/-- Channels, by their owners. A connector has a channel for each attempt, which the
descriptor tells apart; `accepted` and `opened` are connections of a server and of a
client. -/
inductive ChannelId
  | wakeup
  | acceptor (server : Nat)
  | connector (client sockfd : Nat)
  | accepted (server index : Nat)
  | opened (client index : Nat)
deriving DecidableEq, Repr

namespace TcpServer

/-- What the destructor has still to do: hand `connectDestroyed` of a connection to
its loop, and destroy the acceptor. -/
inductive Leave (T : Type)
  | connectDestroyed (conn : Connection T)
  | acceptor
deriving DecidableEq, Repr

/-- A server with the connections that its table points to, which stand at their
serial numbers. `accepting` says that the acceptor handles a read event, `closing`
are the connections whose connectioncallback has been called and whose closecallback
has not, and `leaving` is none until the destructor is entered. -/
structure Run (T : Type) where
  server : TcpServer T
  connections : List (TcpConnection T)
  active_cahnnel_ : Channel
  accepting : Bool
  closing : List Nat
  leaving : Option (List (Leave T))

inductive Run.Action (T : Type)
  | listen
  | dispatch (revents : BitVec 32)
  | newConnection (ioloop : T) (sockfd : Nat) (writecompletecallback : Bool)
  | acceptFailed
  | connection (index : Nat) (a : TcpConnection.Action T)
  | closecallback (index : Nat)
  | swap (loop : T)
  | run (loop : T)
  | destroy
  | leave
deriving DecidableEq, Repr

variable {T : Type}

namespace Run

def new (server : TcpServer T) (listenfd : Nat) : Run T where
  server := server
  connections := []
  active_cahnnel_ := (Channel.new listenfd).setCallback .readCallback_
  accepting := false
  closing := []
  leaving := none

def getloop (s : Run T) (index : Nat) : Option T :=
  (s.server.accepted[index]?).map Connection.loop_

def modify (s : Run T) (conn : Connection T) (f : TcpConnection T → TcpConnection T) : Run T :=
  { s with connections := s.connections.modify conn.serial f }

/-- `Acceptor::listen`. -/
def listen (s : Run T) : Run T :=
  { s with active_cahnnel_ :=
      { s.active_cahnnel_.setInterest .enableReading with addedToLoop_ := true } }

/-- `~Acceptor`. -/
def removeAcceptor (s : Run T) : Run T :=
  { s with active_cahnnel_ :=
      { s.active_cahnnel_.setInterest .disableall with addedToLoop_ := false } }

variable [DecidableEq T]

/-- The buffers have their default size. On the base loop the connection is
established at once. -/
def newConnection (s : Run T) (ioloop : T) (sockfd : Nat) (writecompletecallback : Bool) :
    Run T :=
  let conn := TcpConnection.new sockfd 1024 writecompletecallback
  { s with
    server := s.server.newConnection ioloop
    connections := s.connections ++
      [if ioloop = s.server.loop_ then conn.connectEstablished else conn] }

def stepConnection (s : Run T) (index : Nat) (a : TcpConnection.Action T) : Option (Run T) :=
  if TcpClient.ownStep a then do
    let conn ← s.connections[index]?
    let loop ← s.getloop index
    let conn' ← conn.next loop a
    some { s with
      connections := s.connections.set index conn'
      closing := if TcpClient.closes conn conn' then index :: s.closing else s.closing }
  else none

/-- A functor on a thread, with its `assertInLoopThread`. `removeConnectionInLoop` is
bound to the server itself. -/
def runFunctor (s : Run T) (thread : T) : Functor T → Option (Run T)
  | .connectEstablished conn =>
      if s.getloop conn.serial = some thread then some (s.modify conn .connectEstablished)
      else none
  | .removeConnectionInLoop conn =>
      if s.server.loop_ = thread ∧ s.leaving.isNone then
        some { s with server := s.server.removeConnectionInLoop conn }
      else none
  | .connectDestroyed conn =>
      if s.getloop conn.serial = some thread then some (s.modify conn .connectDestroyed)
      else none

/-- `runInLoop` of a `connectDestroyed` from the destructor. -/
def leaveConnection (s : Run T) (conn : Connection T) : Run T :=
  if s.getloop conn.serial = some s.server.loop_ then s.modify conn .connectDestroyed
  else { s with server := s.server.queueInLoop conn.loop_ (.connectDestroyed conn) }

/-- The step of a destroyed server is none, as is what is bound to it. -/
def next (s : Run T) : Run.Action T → Option (Run T)
  | .listen => if s.leaving.isNone then some s.listen else none
  | .dispatch revents =>
      let callbacks := { s.active_cahnnel_ with revents_ := revents }.handleEvent
      some { s with accepting := callbacks.contains .readCallback_ }
  | .newConnection ioloop sockfd writecompletecallback =>
      if s.accepting && s.leaving.isNone then
        some ({ s with accepting := false }.newConnection ioloop sockfd writecompletecallback)
      else none
  | .acceptFailed => some { s with accepting := false }
  | .connection index a => s.stepConnection index a
  | .closecallback index =>
      if index ∈ s.closing ∧ s.leaving.isNone then do
        let conn ← s.server.accepted[index]?
        some { s with
          server := s.server.removeConnection conn
          closing := s.closing.erase index }
      else none
  | .swap loop => do
      let queue ← (s.server.queues loop).swap
      some { s with
        server := { s.server with queues := Function.update s.server.queues loop queue } }
  | .run loop => do
      let (cb, queue) ← (s.server.queues loop).pop
      { s with server := { s.server with
        queues := Function.update s.server.queues loop queue } }.runFunctor loop cb
  | .destroy =>
      if s.leaving.isNone then
        let conns := s.server.connections_.entries.map Sigma.snd
        some { s with leaving := some (conns.map .connectDestroyed ++ [.acceptor]) }
      else none
  | .leave =>
      match s.leaving with
      | some (.connectDestroyed conn :: rest) =>
          some ({ s with leaving := some rest }.leaveConnection conn)
      | some (.acceptor :: rest) => some { s with leaving := some rest }.removeAcceptor
      | _ => none

/-- The connection whose `connectDestroyed` an action runs. -/
def destroys (s : Run T) : Run.Action T → Option Nat
  | .connection index (.run _) =>
      if (s.connections[index]?).bind (·.queue.functors.head?) = some .connectDestroyed then
        some index
      else none
  | .run loop =>
      match (s.server.queues loop).functors.head? with
      | some (.connectDestroyed conn) => some conn.serial
      | _ => none
  | .leave =>
      match s.leaving with
      | some (.connectDestroyed conn :: _) =>
          if s.getloop conn.serial = some s.server.loop_ then some conn.serial else none
      | _ => none
  | _ => none

/-- The action is `~Acceptor`. -/
def removesAcceptor (s : Run T) : Run.Action T → Bool
  | .leave => (s.leaving.bind List.head?) = some .acceptor
  | _ => false

/-- The thread of the loop is not in the middle of anything here. -/
def rests (s : Run T) (loop : T) : Bool :=
  (s.server.loop_ ≠ loop || !s.accepting && (s.leaving.getD []).isEmpty) &&
    s.connections.zipIdx.all fun (conn, index) =>
      s.getloop index ≠ some loop || conn.work.isEmpty && TcpConnection.free loop conn &&
        index ∉ s.closing

/-- `dopendingFunctors` has run what it took of the queues here. -/
def drained (s : Run T) (loop : T) : Bool :=
  (s.server.queues loop).functors.isEmpty && s.connections.zipIdx.all fun (conn, index) =>
    s.getloop index ≠ some loop || conn.queue.functors.isEmpty

end Run

end TcpServer

/-- A client with its loop. -/
structure Client (T : Type) where
  loop_ : T
  run : TcpClient.Run T

namespace Client

variable {T : Type} [DecidableEq T]

/-- The connection whose `connectDestroyed` an action runs. -/
def destroys (s : TcpClient.Run T) : TcpClient.Run.Action T → Option Nat
  | .client (.connection index (.run _)) =>
      if (s.client.connections[index]?).bind (·.1.queue.functors.head?) =
          some .connectDestroyed then
        some index
      else none
  | _ => none

def rests (c : Client T) (loop : T) : Bool :=
  c.loop_ ≠ loop || c.run.closing.isNone && c.run.client.connector_.idle loop &&
    c.run.client.connections.all fun member => member.1.idle loop

def drained (c : Client T) (loop : T) : Bool :=
  c.loop_ ≠ loop || c.run.client.connector_.queue.functors.isEmpty &&
    c.run.client.connections.all fun member => member.1.queue.functors.isEmpty

end Client

/-- The members of a loop that the iteration goes through. `waiting` are the active
channels still to be handled, and `swapped` says that `dopendingFunctors` has taken
the functors. -/
structure Process.Loop where
  eventHanding_ : Bool
  callingPendingFunctors_ : Bool
  swapped : Bool
  activeChannels_ : List ChannelId
  currentActiveChannel_ : Option ChannelId
  waiting : List ChannelId
deriving DecidableEq, Repr

/-- A call that concerns a channel, with its loop as it was then. -/
structure Process.Call where
  loop : Process.Loop
  channel : ChannelId
deriving DecidableEq, Repr

/-- `destroyed` are the calls of `connectDestroyed`, and `removed` those of
`Channel::remove`. -/
structure Process (T : Type) where
  loops : T → Process.Loop
  servers : List (TcpServer.Run T)
  clients : List (Client T)
  destroyed : List Process.Call
  removed : List Process.Call

namespace Process

variable {T : Type}

def Loop.new : Loop where
  eventHanding_ := false
  callingPendingFunctors_ := false
  swapped := false
  activeChannels_ := []
  currentActiveChannel_ := none
  waiting := []

/-- The loop runs functors. -/
def Loop.running (loop : Loop) : Bool := loop.callingPendingFunctors_ && loop.swapped

def Loop.swapping (loop : Loop) : Bool := loop.callingPendingFunctors_ && !loop.swapped

/-- When the loop takes a step of a connection that is its own to take; channels are
dispatched by the loop alone. -/
def Loop.allows (loop : Loop) (rests : Bool) : TcpConnection.Action T → Bool
  | .swap => loop.swapping
  | .run _ => loop.running && rests
  | .dispatch _ => false
  | _ => true

def Loop.allowsConnector (loop : Loop) (rests : Bool) : Connector.Action T → Bool
  | .swap => loop.swapping
  | .run _ => loop.running && rests
  | .dispatch _ => false
  | _ => true

def Loop.allowsClient (loop : Loop) (rests : Bool) : TcpClient.Run.Action T → Bool
  | .client (.connector a) => loop.allowsConnector rests a
  | .client (.connection _ a) => loop.allows rests a
  | .client .setClosecallback => loop.running && rests
  | _ => true

variable [DecidableEq T]

/-- The channel is in the poller of the loop. -/
def registered (s : Process T) (loop : T) : ChannelId → Bool
  | .wakeup => true
  | .acceptor server => (s.servers[server]?).any fun r =>
      r.server.loop_ = loop && r.active_cahnnel_.addedToLoop_
  | .connector client sockfd => (s.clients[client]?).any fun c =>
      c.loop_ = loop && sockfd ∈ c.run.client.connector_.registered
  | .accepted server index => (s.servers[server]?).any fun r =>
      r.getloop index = some loop && (r.connections[index]?).any (·.channel_.addedToLoop_)
  | .opened client index => (s.clients[client]?).any fun c =>
      c.loop_ = loop && (c.run.client.connections[index]?).any (·.1.channel_.addedToLoop_)

/-- The thread of the loop is not in the middle of anything. -/
def rests (s : Process T) (loop : T) : Bool :=
  s.servers.all (·.rests loop) && s.clients.all (·.rests loop)

def drained (s : Process T) (loop : T) : Bool :=
  s.servers.all (·.drained loop) && s.clients.all (·.drained loop)

def setLoop (s : Process T) (loop : T) (l : Loop) : Process T :=
  { s with loops := Function.update s.loops loop l }

/-- A step of a client, with the calls that it makes. -/
def stepClient (s : Process T) (client : Nat) (a : TcpClient.Run.Action T) :
    Option (Process T) := do
  let c ← s.clients[client]?
  let run ← c.run.next c.loop_ a
  let call (channel : ChannelId) : Call := ⟨s.loops c.loop_, channel⟩
  let sockfds := (Connector.deregistered run.client.connector_.ops).drop
    (Connector.deregistered c.run.client.connector_.ops).length
  let destroyed := (Client.destroys c.run a).toList.map fun index => call (.opened client index)
  some { s with
    clients := s.clients.set client { c with run := run }
    destroyed := s.destroyed ++ destroyed
    removed := s.removed ++ destroyed ++
      sockfds.map fun sockfd => call (.connector client sockfd) }

/-- A step of a server, with the calls that it makes. -/
def stepServer (s : Process T) (server : Nat) (a : TcpServer.Run.Action T) :
    Option (Process T) := do
  let r ← s.servers[server]?
  let run ← r.next a
  let destroyed := (r.destroys a).toList.flatMap fun index =>
    (r.getloop index).toList.map fun loop => (⟨s.loops loop, .accepted server index⟩ : Call)
  let acceptor : List Call :=
    if r.removesAcceptor a then [⟨s.loops r.server.loop_, .acceptor server⟩] else []
  some { s with
    servers := s.servers.set server run
    destroyed := s.destroyed ++ destroyed
    removed := s.removed ++ destroyed ++ acceptor }

def allowsServer (s : Process T) (r : TcpServer.Run T) : TcpServer.Run.Action T → Bool
  | .dispatch _ => false
  | .connection index a => (r.getloop index).any fun loop =>
      (s.loops loop).allows (s.rests loop) a
  | .swap loop => (s.loops loop).swapping
  | .run loop => (s.loops loop).running && s.rests loop
  | _ => true

/-- `handleEvent` of a channel. The loop reads its eventfd in that of the wakeup
channel. -/
def handleEvent (s : Process T) (revents : BitVec 32) : ChannelId → Option (Process T)
  | .wakeup => some s
  | .acceptor server => s.stepServer server (.dispatch revents)
  | .connector client _ => s.stepClient client (.client (.connector (.dispatch revents)))
  | .accepted server index => s.stepServer server (.connection index (.dispatch revents))
  | .opened client index =>
      s.stepClient client (.client (.connection index (.dispatch revents)))

/-- `poll` returns any registered channels, each once. `dispatch` handles the next of
them, `swapped` ends the swap of `dopendingFunctors`, and `leave` its run. -/
inductive Action (T : Type)
  | client (client : Nat) (a : TcpClient.Run.Action T)
  | server (server : Nat) (a : TcpServer.Run.Action T)
  | poll (loop : T) (active : List ChannelId)
  | dispatch (loop : T) (revents : BitVec 32)
  | dopendingFunctors (loop : T)
  | swapped (loop : T)
  | leave (loop : T)
deriving DecidableEq, Repr

def poll (s : Process T) (loop : T) (active : List ChannelId) : Option (Process T) :=
  let l := s.loops loop
  if !l.eventHanding_ && !l.callingPendingFunctors_ && s.rests loop && decide active.Nodup &&
      active.all (s.registered loop) then
    some (s.setLoop loop
      { l with eventHanding_ := true, activeChannels_ := active, waiting := active })
  else none

def next (s : Process T) : Action T → Option (Process T)
  | .client client a => do
      let c ← s.clients[client]?
      if (s.loops c.loop_).allowsClient (s.rests c.loop_) a then s.stepClient client a else none
  | .server server a => do
      let r ← s.servers[server]?
      if s.allowsServer r a then s.stepServer server a else none
  | .poll loop active => s.poll loop active
  | .dispatch loop revents =>
      let l := s.loops loop
      match l.waiting with
      | [] => none
      | channel :: rest =>
          if l.eventHanding_ && s.rests loop then
            (s.setLoop loop
              { l with currentActiveChannel_ := some channel, waiting := rest }).handleEvent
                revents channel
          else none
  | .dopendingFunctors loop =>
      let l := s.loops loop
      if l.eventHanding_ && l.waiting.isEmpty && s.rests loop then
        some (s.setLoop loop { l with
          currentActiveChannel_ := none
          eventHanding_ := false
          callingPendingFunctors_ := true
          swapped := false })
      else none
  | .swapped loop =>
      let l := s.loops loop
      if l.swapping then some (s.setLoop loop { l with swapped := true }) else none
  | .leave loop =>
      let l := s.loops loop
      if l.running && s.rests loop && s.drained loop then
        some (s.setLoop loop { l with callingPendingFunctors_ := false })
      else none

/-- Any servers and clients, on any loops. -/
def system : Transition.System (Process T) (Action T) where
  init s := (∀ loop, s.loops loop = .new) ∧
    (∀ r ∈ s.servers, ∃ loop listenAddr namestring listenfd,
      r = .new (.new loop listenAddr namestring) listenfd) ∧
    (∀ c ∈ s.clients, (TcpClient.Run.system c.loop_).init c.run) ∧
    s.destroyed = [] ∧ s.removed = []
  next := next

/-- A server is not destroyed from inside an event callback. -/
def outsideCallbacks (s : Process T) : Action T → Bool
  | .server server .destroy => (s.servers[server]?).all fun r =>
      !(s.loops r.server.loop_).eventHanding_
  | _ => true

variable {s s' : Process T}

/-- The clients take their steps one at a time. -/
theorem clients_stepClient {client : Nat} {a : TcpClient.Run.Action T}
    (h : s.stepClient client a = some s') : ∃ c run, s.clients[client]? = some c ∧
      c.run.next c.loop_ a = some run ∧ s'.clients = s.clients.set client { c with run := run } := by
  obtain ⟨c, hc, hrest⟩ := Option.bind_eq_some_iff.mp h
  obtain ⟨run, hnext, hresult⟩ := Option.bind_eq_some_iff.mp hrest
  cases hresult
  exact ⟨c, run, hc, hnext, rfl⟩

theorem clients_stepServer {server : Nat} {a : TcpServer.Run.Action T}
    (h : s.stepServer server a = some s') : s'.clients = s.clients := by
  obtain ⟨r, _, hrest⟩ := Option.bind_eq_some_iff.mp h
  obtain ⟨run, _, hresult⟩ := Option.bind_eq_some_iff.mp hrest
  cases hresult
  rfl

theorem clients_handleEvent {revents : BitVec 32} {channel : ChannelId}
    (h : s.handleEvent revents channel = some s') :
    s'.clients = s.clients ∨ ∃ client a, s.stepClient client a = some s' := by
  cases channel with
  | wakeup =>
      cases h
      exact .inl rfl
  | acceptor _ | accepted _ _ => exact .inl (clients_stepServer h)
  | connector _ _ | opened _ _ => exact .inr ⟨_, _, h⟩

theorem clients_next {a : Action T} (h : s.next a = some s') : s'.clients = s.clients ∨
    ∃ t : Process T, t.clients = s.clients ∧ ∃ client a, t.stepClient client a = some s' := by
  cases a with
  | client client a =>
      obtain ⟨c, _, hallowed⟩ := Option.bind_eq_some_iff.mp h
      rw [Option.ite_none_right_eq_some] at hallowed
      exact .inr ⟨s, rfl, client, a, hallowed.2⟩
  | server server a =>
      obtain ⟨r, _, hallowed⟩ := Option.bind_eq_some_iff.mp h
      rw [Option.ite_none_right_eq_some] at hallowed
      exact .inl (clients_stepServer hallowed.2)
  | dispatch loop revents =>
      rw [next] at h
      split at h
      · cases h
      · rw [Option.ite_none_right_eq_some] at h
        rcases clients_handleEvent h.2 with hsame | hstep
        · exact .inl hsame
        · exact .inr ⟨s.setLoop loop _, rfl, hstep⟩
  | poll loop active =>
      simp only [next, poll, Option.ite_none_right_eq_some] at h
      cases h.2
      exact .inl rfl
  | dopendingFunctors loop | swapped loop | leave loop =>
      simp only [next, Option.ite_none_right_eq_some] at h
      cases h.2
      exact .inl rfl

/-- In any process a client goes through states of its own system: what holds in all of
these holds whatever else lives on its loop. -/
theorem client_reachable {guard : Process T → Action T → Prop}
    (h : system.ReachableVia guard s) {client : Nat} {c : Client T}
    (hc : s.clients[client]? = some c) : (TcpClient.Run.system c.loop_).Reachable c.run := by
  have hall : ∀ (client : Nat) (c : Client T), s.clients[client]? = some c →
      (TcpClient.Run.system c.loop_).Reachable c.run := by
    apply h.invariant (I := fun s => ∀ (client : Nat) (c : Client T),
      s.clients[client]? = some c → (TcpClient.Run.system c.loop_).Reachable c.run)
    · rintro s ⟨_, _, hclients, _⟩ client c hc
      exact .start (hclients c (List.mem_of_getElem? hc))
    · intro s a s' hi _ hnext other c hc
      rcases clients_next hnext with hsame | ⟨t, ht, client, a, hstep⟩
      · rw [hsame] at hc
        exact hi other c hc
      · obtain ⟨old, run, hold, hrun, hclients⟩ := clients_stepClient hstep
        rw [ht] at hold
        rw [hclients, ht] at hc
        obtain ⟨hlt, _⟩ := List.getElem?_eq_some_iff.mp hold
        by_cases hsame : client = other
        · subst hsame
          rw [List.getElem?_set_self hlt] at hc
          cases hc
          exact (hi client old hold).step trivial hrun
        · rw [List.getElem?_set_ne hsame] at hc
          exact hi other c hc
  exact hall client c hc

end Process

end MuduoRpc
