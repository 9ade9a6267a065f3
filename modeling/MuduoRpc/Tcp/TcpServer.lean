import Mathlib.Logic.Function.Basic
import Mathlib.Tactic.SplitIfs
import MuduoRpc.Lib.Table
import MuduoRpc.Lib.Transition
import MuduoRpc.Loop.PendingQueue
import MuduoRpc.Net.InetAddress

/-!
The connection table of a `TcpServer`. The server accepts on its base loop and
gives each connection to an io loop, which may be the base loop; a loop stands
for its thread. A close event is a `handleClose` that invokes the closecallback,
once for a connection. Of the functors only `removeConnectionInLoop` touches the
table, and the others take their places in the queues.
-/

namespace MuduoRpc

/-- What a `TcpConnectionptr` points to. `serial` tells the objects apart. -/
structure TcpServer.Connection (L : Type) where
  serial : Nat
  name_ : List Char
  loop_ : L
deriving DecidableEq, Repr

inductive TcpServer.Functor (L : Type)
  | connectEstablished (conn : TcpServer.Connection L)
  | removeConnectionInLoop (conn : TcpServer.Connection L)
  | connectDestroyed (conn : TcpServer.Connection L)
deriving DecidableEq, Repr

/-- `accepted` and `closed` are the connections created and closed so far,
`removals` the calls of `removeConnectionInLoop` with the number of entries that
`erase` removed, and `overwritten` the entries that were assigned over. -/
structure TcpServer (L : Type) where
  loop_ : L
  ipPort_ : List Char
  name_ : List Char
  nxtConnId_ : BitVec 32
  connections_ : AList fun _ : List Char => TcpServer.Connection L
  queues : L → PendingQueue (TcpServer.Functor L)
  accepted : List (TcpServer.Connection L)
  closed : List (TcpServer.Connection L)
  removals : List (TcpServer.Connection L × Nat)
  overwritten : List (TcpServer.Connection L)

namespace TcpServer

open Decimal

variable {L : Type}

def new (loop : L) (listenAddr : InetAddress) (namestring : List Char) : TcpServer L where
  loop_ := loop
  ipPort_ := listenAddr.Ip_Port_to_string
  name_ := namestring
  nxtConnId_ := 1
  connections_ := ∅
  queues _ := .empty
  accepted := []
  closed := []
  removals := []
  overwritten := []

/-- The name that goes with an id. -/
def connname (s : TcpServer L) (id : BitVec 32) : List Char :=
  s.name_ ++ snprintf 64 ('-' :: s.ipPort_ ++ '#' :: decimal id.toInt)

variable [DecidableEq L]

def queueInLoop (s : TcpServer L) (loop : L) (cb : Functor L) : TcpServer L :=
  { s with queues := Function.update s.queues loop ((s.queues loop).push cb) }

def removeConnectionInLoop (s : TcpServer L) (conn : Connection L) : TcpServer L :=
  let n := Table.erased s.connections_ conn.name_
  let s := { s with
    connections_ := s.connections_.erase conn.name_
    removals := s.removals ++ [(conn, n)] }
  s.queueInLoop conn.loop_ (.connectDestroyed conn)

def runFunctor (s : TcpServer L) : Functor L → TcpServer L
  | .removeConnectionInLoop conn => s.removeConnectionInLoop conn
  | .connectEstablished _ | .connectDestroyed _ => s

/-- `loop->runInLoop(cb)`, called on the thread of another loop or of this one. -/
def runInLoop (s : TcpServer L) (thread loop : L) (cb : Functor L) : TcpServer L :=
  if thread = loop then s.runFunctor cb else s.queueInLoop loop cb

/-- `ioloop` is what `getNextEventLoop` returned. -/
def newConnection (s : TcpServer L) (ioloop : L) : TcpServer L :=
  let connname := s.connname s.nxtConnId_
  let conn := ⟨s.accepted.length, connname, ioloop⟩
  let s := { s with
    nxtConnId_ := s.nxtConnId_ + 1
    connections_ := s.connections_.insert connname conn
    accepted := s.accepted ++ [conn]
    overwritten := s.overwritten ++ (s.connections_.lookup connname).toList }
  s.runInLoop s.loop_ ioloop (.connectEstablished conn)

def removeConnection (s : TcpServer L) (conn : Connection L) : TcpServer L :=
  s.runInLoop conn.loop_ s.loop_ (.removeConnectionInLoop conn)

inductive Action (L : Type)
  | newConnection (ioloop : L)
  | close (conn : Connection L)
  | swap (loop : L)
  | run (loop : L)
deriving DecidableEq, Repr

def next (s : TcpServer L) : Action L → Option (TcpServer L)
  | .newConnection ioloop => some (s.newConnection ioloop)
  | .close conn =>
      if conn ∈ s.accepted ∧ conn ∉ s.closed then
        some ({ s with closed := s.closed ++ [conn] }.removeConnection conn)
      else none
  | .swap loop => do
      let queue ← (s.queues loop).swap
      some { s with queues := Function.update s.queues loop queue }
  | .run loop => do
      let (cb, queue) ← (s.queues loop).pop
      some ({ s with queues := Function.update s.queues loop queue }.runFunctor cb)

def system (loop : L) (listenAddr : InetAddress) (namestring : List Char) :
    Transition.System (TcpServer L) (Action L) where
  init s := s = new loop listenAddr namestring
  next := next

@[simp] theorem accepted_runFunctor (s : TcpServer L) (cb : Functor L) :
    (s.runFunctor cb).accepted = s.accepted := by
  cases cb <;> rfl

@[simp] theorem accepted_runInLoop (s : TcpServer L) (thread loop : L) (cb : Functor L) :
    (s.runInLoop thread loop cb).accepted = s.accepted := by
  rw [runInLoop]
  split_ifs
  · exact accepted_runFunctor s cb
  · rfl

@[simp] theorem accepted_newConnection (s : TcpServer L) (ioloop : L) :
    (s.newConnection ioloop).accepted =
      s.accepted ++ [⟨s.accepted.length, s.connname s.nxtConnId_, ioloop⟩] := by
  rw [newConnection, accepted_runInLoop]

end TcpServer

end MuduoRpc
