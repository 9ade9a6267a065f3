import MuduoRpc.Lib.Ledger
import MuduoRpc.Lib.Transition
import MuduoRpc.Loop.PendingQueue
import MuduoRpc.Net.Channel
import MuduoRpc.Net.Errno

/-!
`Connector`: the client side of a connection attempt. Handlers and functors
are atomic on the loop thread; `start` and `stop` may come from any thread and
are cut between their write of `connect_` and what they hand to the loop.
Descriptors are numbered in the order in which `connect` obtains them, and
`ops` records what is done to them. Deregistering is the connector's own
`Channel::remove`. A failed assertion, a null `channel_` or a `LOG(FATAL)` is `none`.
-/

namespace MuduoRpc

inductive Connector.State
  | KDisconnected
  | KConnecting
  | KConnected
deriving DecidableEq, Repr

inductive Connector.Functor
  | startInLoop
  | stopInLoop
  | resetChannel
deriving DecidableEq, Repr

/-- What the loop thread has still to do before it returns to the loop: the
rest of a `handleEvent`, or the body of `start` and `restart`. -/
inductive Connector.Work
  | startInLoop
  | callback (callback : Channel.Callback)
deriving DecidableEq, Repr

/-- Queries of a descriptor, and its removal from the loop. -/
inductive Connector.Use
  | getSocketError
  | isSelfConnect
  | deregister
deriving DecidableEq, Repr

inductive Connector.Release
  | close
  | newConnectionCallback
deriving DecidableEq, Repr

/-- `pushing` holds the calls of `start` and `stop` whose functor has not been
pushed yet, with their threads. -/
structure Connector (T : Type) where
  state_ : Connector.State
  connect_ : Bool
  channel_ : Option Channel
  queue : PendingQueue Connector.Functor
  pushing : List (T × Connector.Functor)
  work : List Connector.Work
  ops : List (Ledger.Op Connector.Use Connector.Release)
  nextFd : Nat
deriving DecidableEq, Repr

namespace Connector

open Channel (Interest)

/-- What the kernel answers during one step: the errors of `socket` and `connect`,
the pending error of the socket and whether it is connected to itself. -/
structure Answers where
  socket : Option Errno
  saveerror : Option Errno
  socketError : Option Errno
  selfConnect : Bool
deriving DecidableEq, Repr

variable {T : Type}

def new : Connector T where
  state_ := .KDisconnected
  connect_ := false
  channel_ := none
  queue := .empty
  pushing := []
  work := []
  ops := []
  nextFd := 0

def setstate (s : Connector T) (state : State) : Connector T := { s with state_ := state }

def query (s : Connector T) (how : Use) (sockfd : Nat) : Connector T :=
  { s with ops := s.ops ++ [.use how sockfd] }

def release (s : Connector T) (how : Release) (sockfd : Nat) : Connector T :=
  { s with ops := s.ops ++ [.release how sockfd] }

def close (s : Connector T) (sockfd : Nat) : Connector T := s.release .close sockfd

/-- The timer that would start the next attempt is commented out. -/
def retry (s : Connector T) (sockfd : Nat) : Connector T := s.close sockfd

def connecting (s : Connector T) (sockfd : Nat) : Option (Connector T) :=
  let s := s.setstate .KConnecting
  match s.channel_ with
  | some _ => none
  | none =>
      let channel := ((Channel.new sockfd).setCallback .writeCallback_).setCallback .errorCallback_
      some { s with
        channel_ := some { channel.setInterest .enableWriting with addedToLoop_ := true } }

def connect (s : Connector T) (answers : Answers) : Option (Connector T) := do
  let sockfd ← createNoblocking_stop s.nextFd answers.socket
  let s := { s with ops := s.ops ++ [Ledger.Op.acquire sockfd], nextFd := sockfd + 1 }
  match answers.saveerror with
  | none | some .EINPROGRESS | some .EINTR | some .EISCONN => s.connecting sockfd
  | some .EAGAIN | some .EADDRNOTAVAIL | some .ECONNREFUSED | some .ENETUNREACH
  | some .ETIMEDOUT => some (s.retry sockfd)
  | some _ => some (s.close sockfd)

def startInLoop (s : Connector T) (answers : Answers) : Option (Connector T) :=
  if s.state_ = .KDisconnected then
    if s.connect_ then s.connect answers else some s
  else none

/-- `disableall`, `remove` with its assertion, and the queued `resetChannel`. -/
def removeAndResetChannel (s : Connector T) : Option (Connector T × Nat) :=
  match s.channel_ with
  | none => none
  | some channel =>
      let channel := { channel.setInterest .disableall with addedToLoop_ := true }
      if channel.isNoneEvent then
        let channel := { channel with addedToLoop_ := false }
        let sockfd := channel.fd_
        let s := { s with channel_ := some channel }.query .deregister sockfd
        some ({ s with queue := s.queue.push .resetChannel }, sockfd)
      else none

def stopInLoop (s : Connector T) : Option (Connector T) :=
  if s.state_ = .KConnecting then do
    let (s, sockfd) ← (s.setstate .KDisconnected).removeAndResetChannel
    some (s.retry sockfd)
  else some s

def resetChannel (s : Connector T) : Connector T := { s with channel_ := none }

def handleWrite (s : Connector T) (answers : Answers) : Option (Connector T) :=
  if s.state_ = .KConnecting then do
    let (s, sockfd) ← s.removeAndResetChannel
    let s := s.query .getSocketError sockfd
    if answers.socketError.isSome then some (s.retry sockfd)
    else
      let s := s.query .isSelfConnect sockfd
      if answers.selfConnect then some (s.retry sockfd)
      else
        let s := s.setstate .KConnected
        if s.connect_ then some (s.release .newConnectionCallback sockfd)
        else some (s.close sockfd)
  else if s.state_ = .KDisconnected then some s
  else none

def handleError (s : Connector T) : Option (Connector T) :=
  if s.state_ = .KConnecting then do
    let (s, sockfd) ← s.removeAndResetChannel
    let s := s.query .getSocketError sockfd
    some (s.retry sockfd)
  else some s

def runFunctor (s : Connector T) (answers : Answers) : Functor → Option (Connector T)
  | .startInLoop => s.startInLoop answers
  | .stopInLoop => s.stopInLoop
  | .resetChannel => some s.resetChannel

def runWork (s : Connector T) (answers : Answers) : Work → Option (Connector T)
  | .startInLoop => s.startInLoop answers
  | .callback .errorCallback_ => s.handleError
  | .callback .writeCallback_ => s.handleWrite answers
  | .callback _ => some s

/-- With the descriptor it obtains, `connect` begins the attempt or closes it. -/
theorem connect_cases {s s' : Connector T} {answers : Answers}
    (h : s.connect answers = some s') : ∃ t : Connector T,
      t = { s with ops := s.ops ++ [.acquire s.nextFd], nextFd := s.nextFd + 1 } ∧
      (t.connecting s.nextFd = some s' ∨ s' = t.close s.nextFd) := by
  obtain ⟨sockfd, hsocket, hconnect⟩ := Option.bind_eq_some_iff.mp h
  obtain rfl : s.nextFd = sockfd := eq_of_createNoblocking_stop hsocket
  refine ⟨_, rfl, ?_⟩
  split at hconnect
  case h_1 | h_2 | h_3 | h_4 => exact .inl hconnect
  all_goals
    cases hconnect
    exact .inr rfl

inductive Action (T : Type)
  | start (t : T)
  | stop (t : T)
  | restart
  | push (t : T) (cb : Functor)
  | swap
  | run (answers : Answers)
  | dispatch (revents : BitVec 32)
  | work (answers : Answers)
deriving DecidableEq, Repr

variable [DecidableEq T] (threadPid : T)

/-- The thread is not between the two halves of a call. -/
def free (t : T) (s : Connector T) : Bool := t ∉ s.pushing.map Prod.fst

/-- The loop thread runs functors and dispatches events when it has nothing
else to do. -/
def idle (s : Connector T) : Bool := s.work.isEmpty && free threadPid s

/-- The loop thread runs the body of `start` at once, the others queue it;
`stop` queues its body on every thread. A channel is dispatched while it is
registered, with any events in `revents_`. -/
def next (s : Connector T) : Action T → Option (Connector T)
  | .start t =>
      if free t s then
        let s := { s with connect_ := true }
        if t = threadPid then some { s with work := .startInLoop :: s.work }
        else some { s with pushing := (t, .startInLoop) :: s.pushing }
      else none
  | .stop t =>
      if free t s then
        some { s with connect_ := false, pushing := (t, .stopInLoop) :: s.pushing }
      else none
  | .restart =>
      if free threadPid s then
        let s := { s with connect_ := true }.setstate .KDisconnected
        some { s with work := .startInLoop :: s.work }
      else none
  | .push t cb =>
      if (t, cb) ∈ s.pushing then
        some { s with pushing := s.pushing.erase (t, cb), queue := s.queue.push cb }
      else none
  | .swap =>
      if idle threadPid s then do
        let queue ← s.queue.swap
        some { s with queue := queue }
      else none
  | .run answers =>
      if idle threadPid s then do
        let (cb, queue) ← s.queue.pop
        { s with queue := queue }.runFunctor answers cb
      else none
  | .dispatch revents =>
      if idle threadPid s ∧ s.queue.functors.isEmpty then
        match s.channel_ with
        | none => none
        | some channel =>
            if channel.addedToLoop_ then
              let callbacks := { channel with revents_ := revents }.handleEvent
              some { s with work := callbacks.map Work.callback }
            else none
      else none
  | .work answers =>
      if free threadPid s then
        match s.work with
        | [] => none
        | task :: rest => { s with work := rest }.runWork answers task
      else none

def system : Transition.System (Connector T) (Action T) where
  init s := s = new
  next := next threadPid

/-- What a step can do. `start` runs its body at once on the loop thread and has a
second constructor for the other threads. -/
inductive Steps (s : Connector T) : Action T → Connector T → Prop
  | startHere : free threadPid s = true →
      Steps s (.start threadPid) { s with connect_ := true, work := .startInLoop :: s.work }
  | start {t : T} : free t s = true → t ≠ threadPid →
      Steps s (.start t) { s with connect_ := true, pushing := (t, .startInLoop) :: s.pushing }
  | stop {t : T} : free t s = true →
      Steps s (.stop t) { s with connect_ := false, pushing := (t, .stopInLoop) :: s.pushing }
  | restart : free threadPid s = true →
      Steps s .restart { s with
        connect_ := true
        state_ := .KDisconnected
        work := .startInLoop :: s.work }
  | push {t : T} {cb : Functor} : (t, cb) ∈ s.pushing →
      Steps s (.push t cb)
        { s with pushing := s.pushing.erase (t, cb), queue := s.queue.push cb }
  | swap {queue : PendingQueue Functor} : idle threadPid s = true →
      s.queue.swap = some queue → Steps s .swap { s with queue := queue }
  | run {answers : Answers} {cb : Functor} {queue : PendingQueue Functor} {s' : Connector T} :
      idle threadPid s = true → s.queue.pop = some (cb, queue) →
      { s with queue := queue }.runFunctor answers cb = some s' → Steps s (.run answers) s'
  | dispatch {revents : BitVec 32} {channel : Channel} : idle threadPid s = true →
      s.queue.functors = [] → s.channel_ = some channel → channel.addedToLoop_ = true →
      Steps s (.dispatch revents) { s with work :=
        ({ channel with revents_ := revents }.handleEvent).map Work.callback }
  | work {answers : Answers} {task : Work} {rest : List Work} {s' : Connector T} :
      free threadPid s = true → s.work = task :: rest →
      { s with work := rest }.runWork answers task = some s' → Steps s (.work answers) s'

variable {threadPid}

theorem next_steps {s s' : Connector T} {a : Action T} (h : next threadPid s a = some s') :
    Steps threadPid s a s' := by
  cases a <;> simp only [next, Option.ite_none_right_eq_some, Option.some.injEq] at h
  case start t =>
    obtain ⟨hfree, hcall⟩ := h
    split_ifs at hcall with hthread <;> cases hcall
    · subst hthread
      exact .startHere hfree
    · exact .start hfree hthread
  case stop t =>
    obtain ⟨hfree, rfl⟩ := h
    exact .stop hfree
  case restart =>
    obtain ⟨hfree, rfl⟩ := h
    exact .restart hfree
  case push t cb =>
    obtain ⟨hmem, rfl⟩ := h
    exact .push hmem
  case swap =>
    obtain ⟨hidle, hswap⟩ := h
    obtain ⟨queue, hqueue, hstate⟩ := Option.bind_eq_some_iff.mp hswap
    cases hstate
    exact .swap hidle hqueue
  case run answers =>
    obtain ⟨hidle, hrun⟩ := h
    obtain ⟨⟨cb, queue⟩, hpop, hresult⟩ := Option.bind_eq_some_iff.mp hrun
    exact .run hidle hpop hresult
  case dispatch revents =>
    obtain ⟨⟨hidle, hempty⟩, hdispatch⟩ := h
    split at hdispatch
    · cases hdispatch
    · rename_i channel hchannel
      split_ifs at hdispatch with hadded
      cases hdispatch
      exact .dispatch hidle (List.isEmpty_iff.mp hempty) hchannel hadded
  case work answers =>
    obtain ⟨hfree, hwork⟩ := h
    split at hwork
    · cases hwork
    · rename_i task rest hlist
      exact .work hfree hlist hwork

end Connector

end MuduoRpc
