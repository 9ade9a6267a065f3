import MuduoRpc.Loop.EventLoopThreadPool
import MuduoRpc.Net.Acceptor
import MuduoRpc.Tcp.TcpServer

/-!
A server with its acceptor and its io loops, from `start` on. Each successful accept
becomes one connection, on the descriptor that the acceptor gave to the callback and on the
loop whose turn it is. The descriptor is always the listening one, and after one round of
turns the next accept reads beyond the end of the loops.
-/

namespace MuduoRpc

open Ledger (released)

namespace Acceptor

variable {P : Type} {s : Acceptor P}

def handedFd : Ledger.Op Empty (Release P) → Option Nat
  | .release (.new_connection_callback_ _) sockfd => some sockfd
  | _ => none

/-- The descriptor that the callback was given between two states, if it was called. -/
def given (s s' : Acceptor P) : Option Nat := (s'.ops.drop s.ops.length).findSome? handedFd

/-- With a callback set, `handle_read` ends the process or gives the listening descriptor to
the callback. -/
theorem handle_read_given (hcallback : s.new_connection_callback_ = true)
    (hrunning : s.fatal = false) (answers : Answers P) :
    (∃ error, answers.result = .failed error ∧ s.given (s.handle_read answers) = none ∧
      (s.handle_read answers).ops = s.ops ∧ (s.handle_read answers).accepted = s.accepted) ∨
    ∃ peer_addr, answers.result = .accepted peer_addr ∧
      s.given (s.handle_read answers) = some s.listen_fd_ ∧
      (s.handle_read answers).ops = s.ops ++ [.acquire s.nextFd,
        .release (.new_connection_callback_ peer_addr) s.listen_fd_] ∧
      (s.handle_read answers).accepted = s.accepted ++ [(s.nextFd, peer_addr)] ∧
      (s.handle_read answers).nextFd = s.nextFd + 1 := by
  rcases handle_read_cases s answers hrunning with ⟨error, hresult, heq⟩ | ⟨peer_addr, hresult, heq⟩
  · refine .inl ⟨error, hresult, ?_, ?_, ?_⟩ <;> rw [heq]
    rw [given, List.drop_length]
    rfl
  · have hops : (s.handle_read answers).ops = s.ops ++ [.acquire s.nextFd,
        .release (.new_connection_callback_ peer_addr) s.listen_fd_] := by
      rw [heq, hresult]
      simp [hcallback, release, Acceptor.sysAccept]
    refine .inr ⟨peer_addr, hresult, ?_, hops, ?_, ?_⟩
    · rw [given, hops, List.drop_left]
      rfl
    · rw [heq, hresult]
      simp [hcallback, release, Acceptor.sysAccept]
    · rw [heq, hresult]
      simp [hcallback, release, Acceptor.sysAccept]

/-- `handle_read` leaves the callback and the listening descriptor alone. -/
theorem handle_read_kept (hcallback : s.new_connection_callback_ = true)
    (hrunning : s.fatal = false) (answers : Answers P) :
    (s.handle_read answers).new_connection_callback_ = true ∧
      (s.handle_read answers).listen_fd_ = s.listen_fd_ ∧
      s.nextFd ≤ (s.handle_read answers).nextFd := by
  rcases handle_read_cases s answers hrunning with ⟨error, _, heq⟩ | ⟨peer_addr, hresult, heq⟩
  · rw [heq]
    exact ⟨hcallback, rfl, Nat.le_refl _⟩
  · rw [heq, hresult]
    simp [hcallback, release, Acceptor.sysAccept]

end Acceptor

namespace EventLoopThreadPool

variable {L : Type}

/-- The loops of so many calls: the base loop if the pool has none of its own. -/
def turns (baseloop : L) (loops : List L) (calls : Nat) : List L :=
  if loops = [] then List.replicate calls baseloop else loops.take calls

/-- A started pool after so many calls. -/
structure After (p : EventLoopThreadPool L) (baseloop : L) (loops : List L) (calls : Nat) :
    Prop where
  started : p.started_ = true
  base : p.baseloop_ = baseloop
  listed : p.loops_ = loops
  next : loops ≠ [] → p.next_ = calls ∧ calls ≤ loops.length

variable {p : EventLoopThreadPool L} {baseloop : L} {loops : List L} {calls : Nat}

/-- The next call takes the next turn, or there is none left. -/
theorem After.getNextEventLoop (h : After p baseloop loops calls) :
    (∃ loop p', p.getNextEventLoop = some (loop, p') ∧
      (loops = [] ∨ calls < loops.length) ∧
      turns baseloop loops (calls + 1) = turns baseloop loops calls ++ [loop] ∧
      After p' baseloop loops (calls + 1)) ∨
    p.getNextEventLoop = none ∧ loops ≠ [] ∧ calls = loops.length := by
  by_cases hloops : loops = []
  · refine .inl ⟨baseloop, p, ?_, .inl hloops, ?_, h.started, h.base, h.listed, absurd hloops⟩
    · simp [EventLoopThreadPool.getNextEventLoop, h.started, h.listed, hloops, h.base]
    · rw [turns, turns, if_pos hloops, if_pos hloops, List.replicate_succ']
  · obtain ⟨hnext, hle⟩ := h.next hloops
    have hready : p.Ready := ⟨h.started, h.listed ▸ hloops, by rw [hnext, h.listed]; exact hle⟩
    rcases Nat.lt_or_eq_of_le hle with hlt | heq
    · have hloop : p.loops_[p.next_]? = some loops[calls] := by
        rw [h.listed, hnext, List.getElem?_eq_getElem hlt]
      refine .inl ⟨loops[calls], { p with next_ := p.next_ + 1 }, ?_, .inr hlt, ?_, h.started,
        h.base, h.listed, fun _ => ⟨congrArg Nat.succ hnext, hlt⟩⟩
      · rw [getNextEventLoop_eq hready, hloop]
        rfl
      · rw [turns, turns, if_neg hloops, if_neg hloops, List.take_succ_eq_append_getElem hlt]
    · have hnone : p.loops_[p.next_]? = none := by
        rw [h.listed, hnext, heq, List.getElem?_length]
      refine .inr ⟨?_, hloops, heq⟩
      rw [getNextEventLoop_eq hready, hnone]
      rfl

theorem after_start {numThreads : Nat} {startLoop : Nat → L} {cb : Bool} {called : Option L}
    (h : ((new baseloop).serthreadnum numThreads).start startLoop cb = some (p, called)) :
    After p baseloop ((List.range numThreads).map startLoop) 0 := by
  cases h
  exact ⟨rfl, rfl, rfl, fun _ => ⟨rfl, Nat.zero_le _⟩⟩

end EventLoopThreadPool

open EventLoopThreadPool (turns After)

/-- `sockfds` are the descriptors that the connections were built on. -/
structure Serving (L P : Type) where
  accpetor_ : Acceptor P
  server : TcpServer L
  threadpool_ : EventLoopThreadPool L
  sockfds : List Nat

namespace Serving

variable {L P : Type} [DecidableEq L]

/-- The constructor, with the error of `socket`, `setThreadNum`, and `start` on the base
loop. -/
def start (error : Option Errno) (loop : L) (listenAddr : InetAddress) (namestring : List Char)
    (numThreads : Nat) (startLoop : Nat → L) (cb : Bool) : Option (Serving L P) := do
  let acceptor ← Acceptor.new error
  let (pool, _) ← ((EventLoopThreadPool.new loop).serthreadnum numThreads).start startLoop cb
  some {
    accpetor_ := (acceptor.setNewConnectioncallback true).listen
    server := .new loop listenAddr namestring
    threadpool_ := pool
    sockfds := [] }

def newConnection (s : Serving L P) (sockfd : Nat) : Option (Serving L P) := do
  let (ioloop, pool) ← s.threadpool_.getNextEventLoop
  some { s with
    server := s.server.newConnection ioloop
    threadpool_ := pool
    sockfds := s.sockfds ++ [sockfd] }

def handle_read (s : Serving L P) (answers : Acceptor.Answers P) : Option (Serving L P) :=
  let acceptor := s.accpetor_.handle_read answers
  match s.accpetor_.given acceptor with
  | some sockfd => { s with accpetor_ := acceptor }.newConnection sockfd
  | none => some { s with accpetor_ := acceptor }

/-- `server` is a step of the server that is not caused by the acceptor. -/
inductive Action (L P : Type)
  | handle_read (answers : Acceptor.Answers P)
  | server (action : TcpServer.Action L)
deriving DecidableEq, Repr

def next (s : Serving L P) : Action L P → Option (Serving L P)
  | .handle_read answers => s.handle_read answers
  | .server (.newConnection _) => none
  | .server action => (s.server.next action).map fun server => { s with server := server }

variable (loop : L) (listenAddr : InetAddress) (namestring : List Char) (numThreads : Nat)
  (startLoop : Nat → L) (cb : Bool)

/-- No step follows a failed accept, which ends the process. -/
def system : Transition.System (Serving L P) (Action L P) where
  init s := ∃ error, start error loop listenAddr namestring numThreads startLoop cb = some s
  next s a := if s.accpetor_.fatal then none else next s a

/-- One connection for each accepted descriptor, on the listening descriptor, while the
accepted one is neither closed nor given to anybody; the loops take turns; and an accept
goes through if the pool has no loops or one whose turn has not come. -/
structure Served (loop : L) (loops : List L) (s : Serving L P) : Prop where
  connections : s.server.accepted.length = s.accpetor_.accepted.length
  sockfds : s.sockfds = List.replicate s.accpetor_.accepted.length s.accpetor_.listen_fd_
  lost : ∀ conn ∈ s.accpetor_.accepted, released s.accpetor_.ops conn.1 = 0
  assigned : s.server.accepted.map TcpServer.Connection.loop_ =
    turns loop loops s.accpetor_.accepted.length
  accepts : s.accpetor_.fatal = false → ∀ peer_addr reserved,
    (s.handle_read ⟨.accepted peer_addr, reserved⟩).isSome = true ↔
      loops = [] ∨ s.accpetor_.accepted.length < loops.length

structure Invariant (loop : L) (loops : List L) (s : Serving L P) : Prop where
  callback : s.accpetor_.new_connection_callback_ = true
  listening : s.accpetor_.listen_fd_ < s.accpetor_.nextFd
  accepted : ∀ conn ∈ s.accpetor_.accepted, conn.1 ≠ s.accpetor_.listen_fd_
  kept : ∀ fd, fd ≠ s.accpetor_.listen_fd_ → released s.accpetor_.ops fd = 0
  connections : s.server.accepted.length = s.accpetor_.accepted.length
  sockfds : s.sockfds = List.replicate s.accpetor_.accepted.length s.accpetor_.listen_fd_
  pool : After s.threadpool_ loop loops s.accpetor_.accepted.length
  assigned : s.server.accepted.map TcpServer.Connection.loop_ =
    turns loop loops s.accpetor_.accepted.length

variable {loop listenAddr namestring numThreads startLoop cb} {loops : List L} {s s' : Serving L P}

omit [DecidableEq L] in
theorem invariant_start {error : Option Errno}
    (h : start error loop listenAddr namestring numThreads startLoop cb = some s) :
    Invariant loop ((List.range numThreads).map startLoop) s := by
  rw [start] at h
  obtain ⟨acceptor, hacceptor, hstart⟩ := Option.bind_eq_some_iff.mp h
  obtain ⟨listen_fd, hsocket, rfl⟩ := Option.map_eq_some_iff.mp hacceptor
  obtain rfl : 0 = listen_fd := eq_of_createNoblocking_stop hsocket
  obtain ⟨⟨pool, called⟩, hpool, hs⟩ := Option.bind_eq_some_iff.mp hstart
  cases hs
  refine ⟨rfl, Nat.zero_lt_two, ?_, ?_, rfl, rfl, EventLoopThreadPool.after_start hpool, ?_⟩
  · intro conn hconn
    cases hconn
  · intro fd _
    rfl
  · rw [EventLoopThreadPool.turns]
    split_ifs <;> rfl

/-- What becomes of an accept. -/
theorem handle_read_invariant (h : Invariant loop loops s) (hrunning : s.accpetor_.fatal = false)
    {answers : Acceptor.Answers P} (hread : s.handle_read answers = some s') :
    Invariant loop loops s' := by
  obtain ⟨hcallback, hlisten, hnext⟩ :=
    Acceptor.handle_read_kept h.callback hrunning answers
  have hbound : (s.accpetor_.handle_read answers).listen_fd_ <
      (s.accpetor_.handle_read answers).nextFd := by
    rw [hlisten]
    exact Nat.lt_of_lt_of_le h.listening hnext
  rcases Acceptor.handle_read_given h.callback hrunning answers with
    ⟨error, _, hgiven, hops, haccepted⟩ | ⟨peer_addr, _, hgiven, hops, haccepted, hfresh⟩
  · simp only [Serving.handle_read, hgiven] at hread
    cases hread
    constructor
    · exact hcallback
    · exact hbound
    · rw [haccepted, hlisten]
      exact h.accepted
    · rw [hops, hlisten]
      exact h.kept
    · rw [haccepted]
      exact h.connections
    · rw [haccepted, hlisten]
      exact h.sockfds
    · rw [haccepted]
      exact h.pool
    · rw [haccepted]
      exact h.assigned
  · simp only [Serving.handle_read, hgiven, newConnection] at hread
    obtain ⟨⟨ioloop, pool⟩, hloop, hs⟩ := Option.bind_eq_some_iff.mp hread
    cases hs
    rcases h.pool.getNextEventLoop with ⟨ioloop', pool', hloop', _, hturns, hpool⟩ | ⟨hnone, _, _⟩
    · obtain ⟨rfl, rfl⟩ := Prod.mk.inj (Option.some.inj (hloop.symm.trans hloop'))
      have hlength : (s.accpetor_.handle_read answers).accepted.length =
          s.accpetor_.accepted.length + 1 := by
        rw [haccepted, List.length_append]
        rfl
      constructor
      · exact hcallback
      · exact hbound
      · intro conn hconn
        rw [hlisten]
        rw [haccepted] at hconn
        rcases List.mem_append.mp hconn with hold | hnew
        · exact h.accepted conn hold
        · rw [List.mem_singleton.mp hnew]
          exact Nat.ne_of_gt h.listening
      · intro fd hfd
        rw [hlisten] at hfd
        rw [hops, Ledger.released_append, h.kept fd hfd]
        simp [released, Ledger.Op.releases, Ne.symm hfd]
      · rw [hlength, TcpServer.accepted_newConnection, List.length_append, h.connections]
        rfl
      · rw [hlength, hlisten, List.replicate_succ', h.sockfds]
      · rw [hlength]
        exact hpool
      · rw [hlength, hturns, TcpServer.accepted_newConnection, List.map_append, h.assigned]
        rfl
    · rw [hloop] at hnone
      cases hnone

/-- The other steps of the server accept nothing. -/
theorem accepted_server {server server' : TcpServer L} {action : TcpServer.Action L}
    (haction : ∀ ioloop, action ≠ .newConnection ioloop)
    (h : server.next action = some server') : server'.accepted = server.accepted := by
  cases action with
  | newConnection ioloop => exact absurd rfl (haction ioloop)
  | close conn =>
      simp only [TcpServer.next] at h
      split_ifs at h
      cases h
      exact TcpServer.accepted_runInLoop ..
  | swap loop =>
      obtain ⟨queue, _, hresult⟩ := Option.bind_eq_some_iff.mp h
      cases hresult
      rfl
  | run loop =>
      obtain ⟨⟨cb, queue⟩, _, hresult⟩ := Option.bind_eq_some_iff.mp h
      cases hresult
      exact TcpServer.accepted_runFunctor ..

theorem server_invariant (h : Invariant loop loops s) {action : TcpServer.Action L}
    (hnext : s.next (.server action) = some s') : Invariant loop loops s' := by
  have hstep : (∀ ioloop, action ≠ .newConnection ioloop) ∧
      (s.server.next action).map (fun server => { s with server := server }) = some s' := by
    cases action with
    | newConnection ioloop => cases hnext
    | close conn => exact ⟨nofun, hnext⟩
    | swap loop => exact ⟨nofun, hnext⟩
    | run loop => exact ⟨nofun, hnext⟩
  obtain ⟨haction, hmap⟩ := hstep
  obtain ⟨server, hserver, rfl⟩ := Option.map_eq_some_iff.mp hmap
  have haccepted := accepted_server haction hserver
  refine ⟨h.callback, h.listening, h.accepted, h.kept, ?_, h.sockfds, h.pool, ?_⟩
  · rw [haccepted]
    exact h.connections
  · rw [haccepted]
    exact h.assigned

theorem invariant
    (h : (system loop listenAddr namestring numThreads startLoop cb).Reachable s) :
    Invariant loop ((List.range numThreads).map startLoop) s := by
  apply h.invariant (I := Invariant loop ((List.range numThreads).map startLoop))
  · rintro s ⟨error, hs⟩
    exact invariant_start hs
  · intro s a s' hi _ hnext
    simp only [system] at hnext
    split_ifs at hnext with hfatal
    cases a with
    | handle_read answers =>
        exact handle_read_invariant hi (Bool.eq_false_iff.mpr hfatal) hnext
    | server action => exact server_invariant hi hnext

theorem Invariant.accepts (h : Invariant loop loops s) (hrunning : s.accpetor_.fatal = false)
    (peer_addr : P) (reserved : Acceptor.AcceptResult P) :
    (s.handle_read ⟨.accepted peer_addr, reserved⟩).isSome = true ↔
      loops = [] ∨ s.accpetor_.accepted.length < loops.length := by
  rcases Acceptor.handle_read_given h.callback hrunning ⟨.accepted peer_addr, reserved⟩ with
    ⟨error, hresult, _⟩ | ⟨_, _, hgiven, _⟩
  · cases hresult
  · simp only [Serving.handle_read, hgiven, newConnection]
    rcases h.pool.getNextEventLoop with ⟨ioloop, pool, hloop, hfew, _⟩ | ⟨hnone, hloops, hall⟩
    · simp [hloop, hfew]
    · simp [hnone, hloops, hall]

/-- In every run of a server, whatever is closed and removed in between. -/
theorem served (h : (system loop listenAddr namestring numThreads startLoop cb).Reachable s) :
    Served loop ((List.range numThreads).map startLoop) s where
  connections := (invariant h).connections
  sockfds := (invariant h).sockfds
  lost conn hconn := (invariant h).kept conn.1 ((invariant h).accepted conn hconn)
  assigned := (invariant h).assigned
  accepts := (invariant h).accepts

/-- Two loops and two connections, the first of them closed and removed: a third accept
does not go through. -/
theorem served_two_loops :
    ∃ s : Serving Nat Nat, s.server.removals.length = 1 ∧ s.accpetor_.accepted.length = 2 ∧
      s.accpetor_.fatal = false ∧ Served 0 [1, 2] s := by
  let listenAddr : InetAddress := ⟨.AF_INET6, "::1".toList, 0x901f⟩
  obtain ⟨s, hreach, hremovals, haccepted, hrunning⟩ : ∃ s : Serving Nat Nat,
      (system 0 listenAddr "EchoServer".toList 2 (· + 1) false).Reachable s ∧
      s.server.removals.length = 1 ∧ s.accpetor_.accepted.length = 2 ∧
      s.accpetor_.fatal = false :=
    Transition.System.exists_of_exec _
      ((start none 0 listenAddr "EchoServer".toList 2 (· + 1) false).get rfl)
      [.handle_read ⟨.accepted 7, .failed .EMFILE⟩, .server (.swap 1), .server (.run 1),
        .server (.close ⟨0, "EchoServer-[::1]:8080#1".toList, 1⟩),
        .handle_read ⟨.accepted 8, .failed .EMFILE⟩, .server (.swap 0), .server (.run 0)]
      ⟨none, (Option.some_get _).symm⟩ (by decide)
  exact ⟨s, hremovals, haccepted, hrunning, served hreach⟩

end Serving

end MuduoRpc
