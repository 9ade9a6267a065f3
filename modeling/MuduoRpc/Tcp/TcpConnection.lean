import Mathlib.Logic.Function.Basic
import MuduoRpc.Lib.Transition
import MuduoRpc.Loop.PendingQueue
import MuduoRpc.Net.ByteQueue
import MuduoRpc.Net.Channel
import MuduoRpc.Net.Errno

/-!
`TcpConnection`. Handlers and functors are atomic on the loop thread. Calls
from any thread are cut where other threads can come in between: after the
test of `state_` that accepts a `send`, a `shutdown` or a `forceClose`, and
before the push of the functor they hand to the loop. `log` records what the
connection does to the socket and which callbacks it invokes.
-/

namespace MuduoRpc

inductive TcpConnection.State
  | KConnecting
  | KConnected
  | KDisconnecting
  | KDisconnected
deriving DecidableEq, Repr

/-- The functors that the connection queues on its loop. `handleWrite` binds
the data member `writecompletecallback`; calling that functor calls nothing. -/
inductive TcpConnection.Functor (T : Type)
  | sendInLoop (t : T) (message : List UInt8)
  | shutdownInLoop
  | forceCloseInLoop
  | startReadInLoop
  | stopReadInLoop
  | connectDestroyed
  | writecompletecallback
  | writecompletecallbackMember
deriving DecidableEq, Repr

/-- `send` is a call whose caller saw `KConnected`, `gaveUp` a run of
`sendInLoop` that found `KDisconnected`. `write` holds the bytes that the
kernel accepted in one system call. -/
inductive TcpConnection.Event (T : Type)
  | send (t : T) (message : List UInt8)
  | sendInLoop (t : T) (message : List UInt8)
  | gaveUp (t : T) (message : List UInt8)
  | write (bytes : List UInt8)
  | ShutdownWrite
  | connectioncallback (connected : Bool)
  | messagecallback
  | writecompletecallback
  | closecallback
deriving DecidableEq, Repr

/-- The two calls that move `state_` to `KDisconnecting`. -/
inductive TcpConnection.Closing
  | shutdown
  | forceClose
deriving DecidableEq, Repr

/-- Where a thread stands inside a call: between its test of `state_` and its
assignment, or before its push of a functor. -/
inductive TcpConnection.Call (T : Type)
  | closing (closing : TcpConnection.Closing)
  | pushing (cb : TcpConnection.Functor T)
deriving DecidableEq, Repr

/-- The assertions whose failure ends the run. -/
inductive TcpConnection.Assertion
  | connectEstablished
  | handleClose
  | remove
deriving DecidableEq, Repr

/-- `calls t` is the unfinished call of thread `t`, and `work` the callbacks
that the current `handleEvent` has still to run. -/
structure TcpConnection (T : Type) where
  state_ : TcpConnection.State
  reading_ : Bool
  channel_ : Channel
  inputbuffer_ : ByteQueue
  outputbuffer_ : ByteQueue
  writecompletecallback : Bool
  queue : PendingQueue (TcpConnection.Functor T)
  calls : T → Option (TcpConnection.Call T)
  work : List Channel.Callback
  log : List (TcpConnection.Event T)
  aborted : Option TcpConnection.Assertion

namespace TcpConnection

inductive WriteResult
  | accepted (count : Nat)
  | failed (error : Errno)
deriving DecidableEq, Repr

/-- A read of no bytes is the end of the stream. -/
inductive ReadResult
  | received (data : List UInt8)
  | failed (error : Errno)
deriving DecidableEq, Repr

/-- What the kernel answers during one step. -/
structure Answers where
  written : WriteResult
  read : ReadResult
deriving DecidableEq, Repr

variable {T : Type}

/-- A connection as constructed, with its four channel callbacks set. -/
def new (sockfd initalsize : Nat) (writecompletecallback : Bool) : TcpConnection T where
  state_ := .KConnecting
  reading_ := true
  channel_ := { Channel.new sockfd with
    callbacks := [.closeCallback_, .readCallback_, .errorCallback_, .writeCallback_] }
  inputbuffer_ := .new initalsize
  outputbuffer_ := .new initalsize
  writecompletecallback := writecompletecallback
  queue := .empty
  calls _ := none
  work := []
  log := []
  aborted := none

def emit (s : TcpConnection T) (event : Event T) : TcpConnection T :=
  { s with log := s.log ++ [event] }

def setstate (s : TcpConnection T) (state : State) : TcpConnection T := { s with state_ := state }

def setInterest (s : TcpConnection T) (interest : Channel.Interest) : TcpConnection T :=
  { s with channel_ := { s.channel_.setInterest interest with addedToLoop_ := true } }

def queueInLoop (s : TcpConnection T) (cb : Functor T) : TcpConnection T :=
  { s with queue := s.queue.push cb }

/-- The end of `sendInLoop`: what was not written goes to the output buffer. -/
def bufferRemaining (s : TcpConnection T) (remaining : List UInt8) : TcpConnection T :=
  if remaining.isEmpty then s
  else
    let s := { s with outputbuffer_ := s.outputbuffer_.append remaining }
    if s.channel_.isWriting then s else s.setInterest .enableWriting

def sendInLoop (s : TcpConnection T) (t : T) (message : List UInt8) (result : WriteResult) :
    Option (TcpConnection T) :=
  if s.state_ = .KDisconnected then some (s.emit (.gaveUp t message))
  else
    let s := s.emit (.sendInLoop t message)
    if !s.channel_.isWriting ∧ s.outputbuffer_.readableBytes = 0 then
      match result with
      | .accepted nwrote =>
          if nwrote ≤ message.length then
            let s := s.emit (.write (message.take nwrote))
            let remaining := message.drop nwrote
            if remaining.isEmpty && s.writecompletecallback then
              some (s.queueInLoop .writecompletecallback)
            else some (s.bufferRemaining remaining)
          else none
      | .failed error =>
          let s := s.emit (.write [])
          if error ≠ Errno.EWOULDBLOCK ∧ (error = .EPIPE ∨ error = .ECONNRESET) then some s
          else some (s.bufferRemaining message)
    else some (s.bufferRemaining message)

def shutdownInLoop (s : TcpConnection T) : TcpConnection T :=
  if s.channel_.isWriting then s else s.emit .ShutdownWrite

def handleClose (s : TcpConnection T) : TcpConnection T :=
  if s.state_ = .KConnected ∨ s.state_ = .KDisconnecting then
    let s := (s.setstate .KDisconnected).setInterest .disableall
    (s.emit (.connectioncallback false)).emit .closecallback
  else { s with aborted := some .handleClose }

def forceCloseInLoop (s : TcpConnection T) : TcpConnection T :=
  if s.state_ = .KConnected ∨ s.state_ = .KConnecting then s.handleClose else s

def startReadInLoop (s : TcpConnection T) : TcpConnection T :=
  if !s.reading_ || !s.channel_.isReading then
    { s.setInterest .enableReading with reading_ := true }
  else s

def stopReadInLoop (s : TcpConnection T) : TcpConnection T :=
  if s.reading_ && s.channel_.isReading then
    { s.setInterest .disenableReading with reading_ := false }
  else s

def connectEstablished (s : TcpConnection T) : TcpConnection T :=
  if s.state_ = .KConnecting then
    ((s.setstate .KConnected).setInterest .enableReading).emit (.connectioncallback true)
  else { s with aborted := some .connectEstablished }

/-- `Channel::remove` with its assertion. -/
def remove (s : TcpConnection T) : TcpConnection T :=
  if s.channel_.isNoneEvent then { s with channel_ := { s.channel_ with addedToLoop_ := false } }
  else { s with aborted := some .remove }

/-- The user's callback runs between `disableall` and `remove`. It is taken to leave the
channel alone: a `startRead` that it makes on the loop thread is not covered. -/
def connectDestroyed (s : TcpConnection T) : TcpConnection T :=
  if s.state_ = .KConnected then
    (((s.setstate .KDisconnected).setInterest .disableall).emit
      (.connectioncallback false)).remove
  else s.remove

/-- `handleError`, for a failed read too, only logs. -/
def handleRead (s : TcpConnection T) (result : ReadResult) : Option (TcpConnection T) :=
  match result with
  | .received data =>
      if data.isEmpty then some s.handleClose
      else if data.length ≤ s.inputbuffer_.buffer.readRoom then
        some ({ s with inputbuffer_ := s.inputbuffer_.readFd data }.emit .messagecallback)
      else none
  | .failed _ => some s

/-- `handleWrite` after a write of `n` bytes. -/
def retrieveOutput (s : TcpConnection T) (n : Nat) (h : n ≤ s.outputbuffer_.readableBytes) :
    TcpConnection T :=
  { s.emit (.write (s.outputbuffer_.bytes.take n)) with
    outputbuffer_ := s.outputbuffer_.retrieve n h }

/-- `handleWrite` once the output buffer is empty. -/
def stopWriting (s : TcpConnection T) : TcpConnection T :=
  let s := s.setInterest .disableWriting
  if s.writecompletecallback then s.queueInLoop .writecompletecallbackMember else s

def handleWrite (s : TcpConnection T) (result : WriteResult) : Option (TcpConnection T) :=
  if s.channel_.isWriting then
    match result with
    | .accepted n =>
        if h : n ≤ s.outputbuffer_.readableBytes then
          if 0 < n then
            let s := s.retrieveOutput n h
            if s.outputbuffer_.readableBytes = 0 then
              let s := s.stopWriting
              if s.state_ = .KDisconnecting then some s.shutdownInLoop else some s
            else some s
          else some (s.emit (.write []))
        else none
    | .failed _ => some (s.emit (.write []))
  else some s

def runFunctor (s : TcpConnection T) (answers : Answers) :
    Functor T → Option (TcpConnection T)
  | .sendInLoop t message => s.sendInLoop t message answers.written
  | .shutdownInLoop => some s.shutdownInLoop
  | .forceCloseInLoop => some s.forceCloseInLoop
  | .startReadInLoop => some s.startReadInLoop
  | .stopReadInLoop => some s.stopReadInLoop
  | .connectDestroyed => some s.connectDestroyed
  | .writecompletecallback => some (s.emit .writecompletecallback)
  | .writecompletecallbackMember => some s

def runCallback (s : TcpConnection T) (answers : Answers) :
    Channel.Callback → Option (TcpConnection T)
  | .closeCallback_ => some s.handleClose
  | .readCallback_ => s.handleRead answers.read
  | .errorCallback_ => some s
  | .writeCallback_ => s.handleWrite answers.written

/-- `assign` is the assignment `setstate(KDisconnecting)` of a `shutdown` or
`forceClose` whose test succeeded. `removeConnection` is the owner queueing
`connectDestroyed`, which it also runs directly on the loop thread. `consume`
is the message callback retrieving from the input buffer. -/
inductive Action (T : Type)
  | connectEstablished
  | send (t : T) (message : List UInt8) (result : WriteResult)
  | shutdown (t : T)
  | forceClose (t : T)
  | assign (t : T)
  | startRead (t : T)
  | stopRead (t : T)
  | removeConnection (t : T)
  | connectDestroyed
  | push (t : T)
  | swap
  | run (answers : Answers)
  | dispatch (revents : BitVec 32)
  | callback (answers : Answers)
  | consume (len : Nat)
deriving DecidableEq, Repr

/-- The thread is not in the middle of a call. -/
def free (t : T) (s : TcpConnection T) : Bool := (s.calls t).isNone

variable [DecidableEq T] (threadPid : T)

def setCall (s : TcpConnection T) (t : T) (call : Option (Call T)) : TcpConnection T :=
  { s with calls := Function.update s.calls t call }

/-- Hand a functor to the loop from inside a call. -/
def hand (s : TcpConnection T) (t : T) (cb : Functor T) : TcpConnection T :=
  s.setCall t (some (.pushing cb))

/-- `runInLoop`: at once on the loop thread, through the queue elsewhere. -/
def runInLoop (s : TcpConnection T) (t : T) (cb : Functor T)
    (body : TcpConnection T → TcpConnection T) : TcpConnection T :=
  if t = threadPid then body s else s.hand t cb

def idle (s : TcpConnection T) : Bool := s.work.isEmpty && free threadPid s

def step (s : TcpConnection T) : Action T → Option (TcpConnection T)
  | .connectEstablished => if free threadPid s then some s.connectEstablished else none
  | .send t message result =>
      if free t s ∧ s.state_ = .KConnected then
        let s := s.emit (.send t message)
        if t = threadPid then s.sendInLoop t message result
        else some (s.hand t (.sendInLoop t message))
      else none
  | .shutdown t =>
      if free t s ∧ s.state_ = .KConnected then
        some (s.setCall t (some (.closing .shutdown)))
      else none
  | .forceClose t =>
      if free t s ∧ (s.state_ = .KConnected ∨ s.state_ = .KConnecting) then
        some (s.setCall t (some (.closing .forceClose)))
      else none
  | .assign t =>
      match s.calls t with
      | some (.closing .shutdown) =>
          some (((s.setstate .KDisconnecting).setCall t none).runInLoop threadPid t
            .shutdownInLoop shutdownInLoop)
      | some (.closing .forceClose) => some ((s.setstate .KDisconnecting).hand t .forceCloseInLoop)
      | _ => none
  | .startRead t =>
      if free t s then some (s.runInLoop threadPid t .startReadInLoop startReadInLoop) else none
  | .stopRead t =>
      if free t s then some (s.runInLoop threadPid t .stopReadInLoop stopReadInLoop) else none
  | .removeConnection t => if free t s then some (s.hand t .connectDestroyed) else none
  | .connectDestroyed => if free threadPid s then some s.connectDestroyed else none
  | .push t =>
      match s.calls t with
      | some (.pushing cb) => some ((s.setCall t none).queueInLoop cb)
      | _ => none
  | .swap =>
      if idle threadPid s then do
        let queue ← s.queue.swap
        some { s with queue := queue }
      else none
  | .run answers =>
      if idle threadPid s then do
        let (cb, queue) ← s.queue.pop
        { s with queue := queue }.runFunctor answers cb
      else none
  | .dispatch revents =>
      if idle threadPid s ∧ s.queue.functors.isEmpty ∧ s.channel_.addedToLoop_ then
        some { s with work := { s.channel_ with revents_ := revents }.handleEvent }
      else none
  | .callback answers =>
      if free threadPid s then
        match s.work with
        | [] => none
        | callback :: rest => { s with work := rest }.runCallback answers callback
      else none
  | .consume len =>
      if h : len ≤ s.inputbuffer_.readableBytes then
        if free threadPid s then
          some { s with inputbuffer_ := s.inputbuffer_.retrieve len h }
        else none
      else none

/-- A failed assertion ends the process. -/
def next (s : TcpConnection T) (a : Action T) : Option (TcpConnection T) :=
  if s.aborted = none then s.step threadPid a else none

def system : Transition.System (TcpConnection T) (Action T) where
  init s := ∃ sockfd initalsize writecompletecallback,
    s = new sockfd initalsize writecompletecallback
  next := next threadPid

end TcpConnection

end MuduoRpc
