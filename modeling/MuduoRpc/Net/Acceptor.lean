import MuduoRpc.Lib.Ledger
import MuduoRpc.Lib.Transition
import MuduoRpc.Net.Channel
import MuduoRpc.Net.Errno

/-!
`Acceptor` and the descriptors it is in charge of: the listening one, those that
the kernel's `accept` returns, and the reserve for the time when none are left.
Descriptors are numbered in the order in which they are obtained. `handle_read`
hands out the listening descriptor in place of the accepted one; when it does
not, every accepted descriptor is closed and the reserve is kept.
-/

namespace MuduoRpc

open Ledger (Balanced released)

namespace Acceptor

variable {P : Type}

/-- The kernel's answer to `accept`, with the address of the peer. -/
inductive AcceptResult (P : Type)
  | accepted (peer_addr : P)
  | failed (error : Errno)
deriving DecidableEq, Repr

/-- The answers to the `accept` of `Socket::Accept` and to the one in front of the
reserve. -/
structure Answers (P : Type) where
  result : AcceptResult P
  reserved : AcceptResult P
deriving DecidableEq, Repr

/-- The ways to let go of a descriptor. -/
inductive Release (P : Type)
  | close
  | new_connection_callback_ (peer_addr : P)
deriving DecidableEq, Repr

/-- A call of `handle_read`: whether a callback was set, and what `accept` said. -/
structure Call (P : Type) where
  callback : Bool
  result : AcceptResult P
deriving DecidableEq, Repr

/-- An accept succeeds and there is a callback to hand the descriptor to. -/
def Call.handsOver (call : Call P) : Bool :=
  match call.result with
  | .accepted _ => call.callback
  | .failed _ => false

end Acceptor

/-- `accepted` and `reserves` are the results of `accept` and `open`, `ops` what is
done to descriptors, and `fatal` says that a `LOG(FATAL)` has ended the process. -/
structure Acceptor (P : Type) where
  listen_fd_ : Nat
  active_cahnnel_ : Channel
  listening_ : Bool
  idlefd_ : Option Nat
  new_connection_callback_ : Bool
  nextFd : Nat
  ops : List (Ledger.Op Empty (Acceptor.Release P))
  accepted : List (Nat × P)
  reserves : List Nat
  history : List (Acceptor.Call P)
  fatal : Bool

namespace Acceptor

variable {P : Type}

/-- `open("/dev/null")`, which is taken to succeed. -/
def openNull (s : Acceptor P) : Acceptor P :=
  { s with
    ops := s.ops ++ [.acquire s.nextFd]
    nextFd := s.nextFd + 1
    reserves := s.reserves ++ [s.nextFd]
    idlefd_ := some s.nextFd }

/-- The constructor once it has the listening socket. -/
def onSocket (listen_fd : Nat) : Acceptor P :=
  openNull {
    listen_fd_ := listen_fd
    active_cahnnel_ := (Channel.new listen_fd).setCallback .readCallback_
    listening_ := false
    idlefd_ := none
    new_connection_callback_ := false
    nextFd := listen_fd + 1
    ops := [.acquire listen_fd]
    accepted := []
    reserves := []
    history := []
    fatal := false }

/-- The constructor, with the error of `socket`. -/
def new (error : Option Errno) : Option (Acceptor P) :=
  (createNoblocking_stop 0 error).map onSocket

/-- `cb` says whether the function object is not empty. -/
def setNewConnectioncallback (s : Acceptor P) (cb : Bool) : Acceptor P :=
  { s with new_connection_callback_ := cb }

def listen (s : Acceptor P) : Acceptor P :=
  { s with
    listening_ := true
    active_cahnnel_ := { s.active_cahnnel_.setInterest .enableReading with addedToLoop_ := true } }

def release (s : Acceptor P) (how : Release P) (fd : Nat) : Acceptor P :=
  { s with ops := s.ops ++ [.release how fd] }

/-- `::close(fd)`; there is nothing to close for a negative one. -/
def close (s : Acceptor P) : Option Nat → Acceptor P
  | some fd => s.release .close fd
  | none => s

/-- `::accept`: a new descriptor, or none. -/
def sysAccept (s : Acceptor P) : AcceptResult P → Acceptor P × Option (Nat × P)
  | .accepted peer_addr =>
      ({ s with
          ops := s.ops ++ [.acquire s.nextFd]
          nextFd := s.nextFd + 1
          accepted := s.accepted ++ [(s.nextFd, peer_addr)] },
        some (s.nextFd, peer_addr))
  | .failed _ => (s, none)

/-- `Socket::Accept`, which logs every failure as fatal. -/
def Accept (s : Acceptor P) (result : AcceptResult P) : Acceptor P × Option (Nat × P) :=
  let (s, connfd) := s.sysAccept result
  ({ s with fatal := s.fatal || connfd.isNone }, connfd)

/-- No descriptor is left: the reserve is given up to accept the connection and
drop it, and taken again. -/
def dropWithReserve (s : Acceptor P) (reserved : AcceptResult P) : Acceptor P :=
  let s := s.close s.idlefd_
  let (s, connfd) := s.sysAccept reserved
  let s := { s with idlefd_ := connfd.map Prod.fst }
  (s.close s.idlefd_).openNull

/-- The callback gets `listen_fd_.fd()` and not `connfd`. Nothing is done after a
failure, as the process has ended in `Accept`. -/
def handle_read (s : Acceptor P) (answers : Answers P) : Acceptor P :=
  let call : Call P := ⟨s.new_connection_callback_, answers.result⟩
  let s := { s with history := s.history ++ [call] }
  let (s, connfd) := s.Accept answers.result
  if s.fatal then s
  else
    match connfd with
    | some (connfd, peer_addr) =>
        if s.new_connection_callback_ then
          s.release (.new_connection_callback_ peer_addr) s.listen_fd_
        else s.close (some connfd)
    | none =>
        match answers.result with
        | .failed .EMFILE => s.dropWithReserve answers.reserved
        | _ => s

inductive Action (P : Type)
  | setNewConnectioncallback (cb : Bool)
  | listen
  | handle_read (answers : Answers P)
deriving DecidableEq, Repr

def next (s : Acceptor P) (a : Action P) : Option (Acceptor P) :=
  if s.fatal then none
  else
    match a with
    | .setNewConnectioncallback cb => some (s.setNewConnectioncallback cb)
    | .listen => some s.listen
    | .handle_read answers => some (s.handle_read answers)

def system : Transition.System (Acceptor P) (Action P) where
  init s := ∃ error, new error = some s
  next := next

/-- Every accepted descriptor is handed over with its own address or closed, once;
the listening one is neither; and the reserve is the one that is held open. -/
structure Accounted (s : Acceptor P) : Prop where
  accepted : ∀ connfd peer_addr, (connfd, peer_addr) ∈ s.accepted →
    released s.ops connfd = 1 ∧ ∀ how, .release how connfd ∈ s.ops →
      how = .close ∨ how = .new_connection_callback_ peer_addr
  listening : released s.ops s.listen_fd_ = 0
  reserve : ∃ idlefd, s.idlefd_ = some idlefd ∧
    ∀ fd, fd ∈ s.reserves ∧ released s.ops fd = 0 ↔ fd = idlefd

/-- Nothing has been handed over: besides `running`, which the running function has
in a local variable, the descriptors in `held` are open and all others closed. -/
structure Holds (s : Acceptor P) (running held : List Nat) : Prop where
  balanced : Balanced s.ops s.nextFd (running ++ held)
  closes : ∀ how fd, .release how fd ∈ s.ops → how = .close
  accepted : ∀ conn ∈ s.accepted, conn.1 < s.nextFd ∧ conn.1 ∉ held
  reserves : ∀ fd ∈ s.reserves, fd < s.nextFd ∧ fd ≠ s.listen_fd_

/-- Between two calls the listening descriptor and the reserve are open. -/
structure Settled (s : Acceptor P) (idlefd : Nat) : Prop where
  idle : s.idlefd_ = some idlefd
  reserve : idlefd ∈ s.reserves
  holds : Holds s [] [idlefd, s.listen_fd_]

variable {s s' : Acceptor P} {held : List Nat} {fd idlefd : Nat}

theorem Settled.accounted (h : Settled s idlefd) : Accounted s where
  accepted connfd peer_addr hmem := by
    obtain ⟨hbound, hfree⟩ := h.holds.accepted _ hmem
    refine ⟨h.holds.balanced.settled connfd hbound hfree, ?_⟩
    intro how hhow
    exact .inl (h.holds.closes how connfd hhow)
  listening := h.holds.balanced.held_open _ (by simp)
  reserve := by
    refine ⟨idlefd, h.idle, fun fd => ?_⟩
    constructor
    · rintro ⟨hmem, hopen⟩
      obtain ⟨hbound, hother⟩ := h.holds.reserves fd hmem
      by_contra hne
      have hclosed := h.holds.balanced.settled fd hbound (by simp [hne, hother])
      omega
    · rintro rfl
      exact ⟨h.reserve, h.holds.balanced.held_open _ (by simp)⟩

theorem Holds.closes_acquire {running : List Nat} (h : Holds s running held) (obtained : Nat)
    (how : Release P) (fd : Nat) (hmem : .release how fd ∈ s.ops ++ [.acquire obtained]) :
    how = .close := by
  rcases List.mem_append.mp hmem with hold | hnew
  · exact h.closes how fd hold
  · cases List.mem_singleton.mp hnew

theorem Holds.closes_close {running : List Nat} (h : Holds s running held) (closed : Nat)
    (how : Release P) (fd : Nat) (hmem : .release how fd ∈ (s.close (some closed)).ops) :
    how = .close := by
  rcases List.mem_append.mp hmem with hold | hnew
  · exact h.closes how fd hold
  · cases List.mem_singleton.mp hnew
    rfl

/-- The accepted descriptor is closed as long as it is a local variable. -/
theorem Holds.closeRunning (h : Holds s [fd] held) : Holds (s.close (some fd)) [] held where
  balanced := by
    have hreleased := h.balanced.release List.mem_cons_self .close
    rwa [List.singleton_append, List.erase_cons_head] at hreleased
  closes := h.closes_close fd
  accepted := h.accepted
  reserves := h.reserves

theorem Holds.sysAccept (h : Holds s [] held) (peer_addr : P) :
    Holds (s.sysAccept (.accepted peer_addr)).1 [s.nextFd] held where
  balanced := h.balanced.acquire
  closes := h.closes_acquire s.nextFd
  accepted conn hmem := by
    rcases List.mem_append.mp hmem with hold | hnew
    · obtain ⟨hbound, hfree⟩ := h.accepted conn hold
      exact ⟨Nat.lt_succ_of_lt hbound, hfree⟩
    · rw [List.mem_singleton.mp hnew]
      exact ⟨Nat.lt_succ_self _, fun hheld => Nat.lt_irrefl _ (h.balanced.held_lt _ hheld)⟩
  reserves fd hmem := by
    obtain ⟨hbound, hother⟩ := h.reserves fd hmem
    exact ⟨Nat.lt_succ_of_lt hbound, hother⟩

theorem Holds.openNull (h : Holds s [] [s.listen_fd_]) : Settled s.openNull s.nextFd where
  idle := rfl
  reserve := List.mem_append_right _ List.mem_cons_self
  holds := by
    have hlisten := h.balanced.held_lt _ List.mem_cons_self
    refine ⟨h.balanced.acquire, h.closes_acquire s.nextFd, ?_, ?_⟩
    · intro conn hmem
      obtain ⟨hbound, hfree⟩ := h.accepted conn hmem
      refine ⟨Nat.lt_succ_of_lt hbound, ?_⟩
      rw [List.mem_cons, not_or]
      exact ⟨Nat.ne_of_lt hbound, hfree⟩
    · intro fd hmem
      rcases List.mem_append.mp hmem with hold | hnew
      · obtain ⟨hbound, hother⟩ := h.reserves fd hold
        exact ⟨Nat.lt_succ_of_lt hbound, hother⟩
      · rw [List.mem_singleton.mp hnew]
        exact ⟨Nat.lt_succ_self _, Nat.ne_of_gt hlisten⟩

theorem Holds.closeReserve (h : Holds s [] [idlefd, s.listen_fd_]) :
    Holds (s.close (some idlefd)) [] [s.listen_fd_] where
  balanced := by
    have hreleased := h.balanced.release List.mem_cons_self .close
    rwa [List.nil_append, List.erase_cons_head] at hreleased
  closes := h.closes_close idlefd
  accepted conn hmem := by
    obtain ⟨hbound, hfree⟩ := h.accepted conn hmem
    exact ⟨hbound, fun hheld => hfree (List.mem_cons_of_mem _ hheld)⟩
  reserves := h.reserves

/-- Giving up the reserve for a connection leaves nothing behind but a new reserve.
No run gets there, as a failed `Accept` ends the process. -/
theorem Settled.dropWithReserve (h : Settled s idlefd) (reserved : AcceptResult P) :
    ∃ idlefd', Settled (s.dropWithReserve reserved) idlefd' := by
  have hclosed := h.holds.closeReserve
  rw [Acceptor.dropWithReserve, h.idle]
  cases reserved with
  | failed error =>
      have hheld : Holds { s.close (some idlefd) with idlefd_ := none } [] [s.listen_fd_] :=
        ⟨hclosed.balanced, hclosed.closes, hclosed.accepted, hclosed.reserves⟩
      exact ⟨_, hheld.openNull⟩
  | accepted peer_addr =>
      have haccepted := hclosed.sysAccept peer_addr
      have hheld : Holds { ((s.close (some idlefd)).sysAccept (.accepted peer_addr)).1 with
          idlefd_ := some s.nextFd } [s.nextFd] [s.listen_fd_] :=
        ⟨haccepted.balanced, haccepted.closes, haccepted.accepted, haccepted.reserves⟩
      exact ⟨_, hheld.closeRunning.openNull⟩

/-- What a call of `handle_read` does: it ends the process, or hands over the
listening descriptor, or closes the accepted one. -/
theorem handle_read_cases (s : Acceptor P) (answers : Answers P) (hrunning : s.fatal = false) :
    (∃ error, answers.result = .failed error ∧
      s.handle_read answers = { s with
        history := s.history ++ [⟨s.new_connection_callback_, answers.result⟩], fatal := true }) ∨
    ∃ peer_addr, answers.result = .accepted peer_addr ∧
      s.handle_read answers = { if s.new_connection_callback_ then
          (s.sysAccept answers.result).1.release (.new_connection_callback_ peer_addr) s.listen_fd_
        else (s.sysAccept answers.result).1.close (some s.nextFd) with
        history := s.history ++ [⟨s.new_connection_callback_, answers.result⟩] } := by
  cases hresult : answers.result with
  | failed error =>
      refine .inl ⟨error, rfl, ?_⟩
      simp [handle_read, Accept, Acceptor.sysAccept, hresult]
  | accepted peer_addr =>
      refine .inr ⟨peer_addr, rfl, ?_⟩
      cases hcallback : s.new_connection_callback_ <;>
        simp [handle_read, Accept, Acceptor.sysAccept, hresult, hrunning, hcallback, release, close]

/-- One hand-over is enough to expose the listening descriptor. -/
structure Accounts (s : Acceptor P) : Prop where
  exposed : (∃ call ∈ s.history, call.handsOver = true) → 0 < released s.ops s.listen_fd_
  settled : (∀ call ∈ s.history, call.handsOver = false) → ∃ idlefd, Settled s idlefd

theorem Settled.congr (h : Settled s idlefd) (hlisten : s'.listen_fd_ = s.listen_fd_)
    (hidle : s'.idlefd_ = s.idlefd_) (hops : s'.ops = s.ops) (hnext : s'.nextFd = s.nextFd)
    (haccepted : s'.accepted = s.accepted) (hreserves : s'.reserves = s.reserves) :
    Settled s' idlefd := by
  obtain ⟨hsome, hreserve, hbalanced, hcloses, hconns, hbound⟩ := h
  refine ⟨hidle.trans hsome, hreserves ▸ hreserve, ?_, ?_, ?_, ?_⟩
  · rw [hops, hnext, hlisten]
    exact hbalanced
  · rw [hops]
    exact hcloses
  · rw [haccepted, hnext, hlisten]
    exact hconns
  · rw [hreserves, hnext, hlisten]
    exact hbound

theorem Accounts.congr (h : Accounts s) (hlisten : s'.listen_fd_ = s.listen_fd_)
    (hidle : s'.idlefd_ = s.idlefd_) (hops : s'.ops = s.ops) (hnext : s'.nextFd = s.nextFd)
    (haccepted : s'.accepted = s.accepted) (hreserves : s'.reserves = s.reserves)
    (hhistory : s'.history = s.history) : Accounts s' where
  exposed hcall := by
    rw [hops, hlisten]
    exact h.exposed (hhistory ▸ hcall)
  settled hcalls := by
    obtain ⟨idlefd, hsettled⟩ := h.settled (hhistory ▸ hcalls)
    exact ⟨idlefd, hsettled.congr hlisten hidle hops hnext haccepted hreserves⟩

theorem accounts_new {error : Option Errno} (h : new error = some s) : Accounts s := by
  obtain ⟨listen_fd, hsocket, rfl⟩ := Option.map_eq_some_iff.mp h
  obtain rfl : 0 = listen_fd := eq_of_createNoblocking_stop hsocket
  constructor
  · rintro ⟨_, hmem, _⟩
    cases hmem
  · intro _
    refine ⟨1, Holds.openNull ⟨Balanced.empty.acquire, ?_, ?_, ?_⟩⟩
    · intro how fd hmem
      cases List.mem_singleton.mp hmem
    · intro conn hmem
      cases hmem
    · intro fd hmem
      cases hmem

theorem Accounts.handle_read (h : Accounts s) (hrunning : s.fatal = false) (answers : Answers P) :
    Accounts (s.handle_read answers) := by
  rcases handle_read_cases s answers hrunning with ⟨error, hresult, heq⟩ | ⟨peer_addr, hresult, heq⟩
  · rw [heq]
    constructor
    · rintro ⟨call, hmem, hover⟩
      rcases List.mem_append.mp hmem with hold | hnew
      · exact h.exposed ⟨call, hold, hover⟩
      · rw [List.mem_singleton.mp hnew, Call.handsOver, hresult] at hover
        cases hover
    · intro hcalls
      obtain ⟨idlefd, hsettled⟩ := h.settled fun call hmem =>
        hcalls call (List.mem_append_left _ hmem)
      exact ⟨idlefd, hsettled.congr rfl rfl rfl rfl rfl rfl⟩
  · rw [heq, hresult]
    cases hcallback : s.new_connection_callback_ with
    | true =>
        constructor
        · intro _
          change 0 < released (s.ops ++ [.acquire s.nextFd] ++
            [.release (.new_connection_callback_ peer_addr) s.listen_fd_]) s.listen_fd_
          rw [Ledger.released_append]
          apply Nat.lt_of_lt_of_le _ (Nat.le_add_left _ _)
          simp [released, Ledger.Op.releases]
        · intro hcalls
          have hover := hcalls _ (List.mem_append_right _ List.mem_cons_self)
          rw [Call.handsOver] at hover
          cases hover
    | false =>
        constructor
        · rintro ⟨call, hmem, hover⟩
          rcases List.mem_append.mp hmem with hold | hnew
          · apply Nat.lt_of_lt_of_le (h.exposed ⟨call, hold, hover⟩)
            change released s.ops s.listen_fd_ ≤ released (s.ops ++ [.acquire s.nextFd] ++
              [.release .close s.nextFd]) s.listen_fd_
            rw [List.append_assoc]
            exact Ledger.released_le_append _ _ _
          · rw [List.mem_singleton.mp hnew, Call.handsOver] at hover
            cases hover
        · intro hcalls
          obtain ⟨idlefd, hsettled⟩ := h.settled fun call hmem =>
            hcalls call (List.mem_append_left _ hmem)
          have hheld := (hsettled.holds.sysAccept peer_addr).closeRunning
          have hclosed : Settled ((s.sysAccept (.accepted peer_addr)).1.close (some s.nextFd))
              idlefd := ⟨hsettled.idle, hsettled.reserve, hheld⟩
          exact ⟨idlefd, hclosed.congr rfl rfl rfl rfl rfl rfl⟩

theorem accounts_step {a : Action P} (h : Accounts s) (hnext : s.next a = some s') :
    Accounts s' := by
  unfold next at hnext
  split at hnext
  · cases hnext
  · rename_i hfatal
    have hrunning : s.fatal = false := Bool.eq_false_iff.mpr hfatal
    cases a with
    | setNewConnectioncallback | listen =>
        cases hnext
        exact h.congr rfl rfl rfl rfl rfl rfl rfl
    | handle_read answers =>
        cases hnext
        exact h.handle_read hrunning answers

/-- The descriptors are accounted for exactly as long as no accept succeeds while a
callback is set. -/
theorem accounted_iff
    (h : (system : Transition.System (Acceptor P) (Action P)).Reachable s) :
    Accounted s ↔ ∀ call ∈ s.history, call.handsOver = false := by
  have haccounts : Accounts s := by
    apply h.invariant (I := Accounts)
    · rintro _ ⟨error, hnew⟩
      exact accounts_new hnew
    · intro _ _ _ hi _ hnext
      exact accounts_step hi hnext
  constructor
  · intro haccounted call hmem
    by_contra hover
    have hexposed := haccounts.exposed ⟨call, hmem, Bool.eq_true_of_not_eq_false hover⟩
    rw [haccounted.listening] at hexposed
    cases hexposed
  · intro hcalls
    obtain ⟨_, hsettled⟩ := haccounts.settled hcalls
    exact hsettled.accounted

/-- Without a callback the accepted descriptor 2 is closed. -/
theorem accounted_iff_closed :
    ∃ s, (system : Transition.System (Acceptor Nat) (Action Nat)).Reachable s ∧
      s.accepted = [(2, 7)] ∧ (Accounted s ↔ ∀ call ∈ s.history, call.handsOver = false) := by
  obtain ⟨s, hreach, haccepted⟩ : ∃ s,
      (system : Transition.System (Acceptor Nat) (Action Nat)).ReachableVia
        (fun _ _ => True) s ∧ s.accepted = [(2, 7)] :=
    Transition.System.exists_of_exec _ (onSocket 0)
      [.listen, .handle_read ⟨.accepted 7, .failed .EMFILE⟩] ⟨none, rfl⟩ (by decide)
  exact ⟨s, hreach, haccepted, accounted_iff hreach⟩

/-- With a callback set it is handed descriptor 0, on which the server listens, and
the accepted descriptor 2 is lost. -/
theorem listening_descriptor_handed_out :
    ∃ s, (system : Transition.System (Acceptor Nat) (Action Nat)).Reachable s ∧
      s.accepted = [(2, 7)] ∧ s.listen_fd_ = 0 ∧
      s.ops = [.acquire 0, .acquire 1, .acquire 2, .release (.new_connection_callback_ 7) 0] ∧
      ¬Accounted s := by
  obtain ⟨s, hreach, haccepted, hlisten, hops⟩ : ∃ s,
      (system : Transition.System (Acceptor Nat) (Action Nat)).ReachableVia
        (fun _ _ => True) s ∧ s.accepted = [(2, 7)] ∧ s.listen_fd_ = 0 ∧
      s.ops = [.acquire 0, .acquire 1, .acquire 2, .release (.new_connection_callback_ 7) 0] :=
    Transition.System.exists_of_exec _ (onSocket 0)
      [.setNewConnectioncallback true, .listen, .handle_read ⟨.accepted 7, .failed .EMFILE⟩]
      ⟨none, rfl⟩ (by decide)
  refine ⟨s, hreach, haccepted, hlisten, hops, ?_⟩
  intro haccounted
  have hlistening := haccounted.listening
  rw [hops, hlisten] at hlistening
  revert hlistening
  decide

end Acceptor

end MuduoRpc
