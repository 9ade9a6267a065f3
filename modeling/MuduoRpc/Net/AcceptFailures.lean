import MuduoRpc.Net.Acceptor

/-!
Accepts that fail for a while. `handle_read` has a branch for the lack of descriptors and
`socketops::accept` knows which errors pass, but the acceptor goes through
`Socket::Accept`, which ends the process on every error.
-/

namespace MuduoRpc

/-- The errors that `socketops::accept` gives back to its caller. -/
def Errno.transient : List Errno := [.EAGAIN, .ECONNABORTED, .EINTR, .EPROTO, .EPERM, .EMFILE]

namespace Acceptor

variable {P : Type}

/-- `socketops::accept`, the wrapper that the acceptor does not use. -/
def socketopsAccept (s : Acceptor P) (result : AcceptResult P) : Acceptor P × Option (Nat × P) :=
  let (s, connfd) := s.sysAccept result
  match result with
  | .accepted _ => (s, connfd)
  | .failed error => ({ s with fatal := s.fatal || !Errno.transient.contains error }, connfd)

/-- The acceptor of a started server. -/
structure Serving (s : Acceptor P) : Prop where
  running : s.fatal = false
  listening : s.listening_ = true
  reading : s.active_cahnnel_.isReading = true
  callback : s.new_connection_callback_ = true

/-- What a call of `handle_read` is for. It delivers a connection to the callback; if no
descriptor is left it drops one connection with the reserve and opens the reserve again;
any other error changes nothing. -/
structure Handled (s : Acceptor P) (answers : Answers P) (s' : Acceptor P) : Prop where
  serving : s'.Serving
  delivered : ∀ peer_addr, answers.result = .accepted peer_addr → ∃ fd,
    s'.ops = s.ops ++ [.acquire s.nextFd, .release (.new_connection_callback_ peer_addr) fd]
  dropped : answers.result = .failed .EMFILE → ∃ idlefd, s.idlefd_ = some idlefd ∧
    ∀ peer_addr, answers.reserved = .accepted peer_addr →
      s'.ops = s.ops ++ [.release .close idlefd, .acquire s.nextFd, .release .close s.nextFd,
        .acquire (s.nextFd + 1)] ∧ s'.idlefd_ = some (s.nextFd + 1)
  ignored : ∀ error, answers.result = .failed error → error ≠ .EMFILE →
    s'.ops = s.ops ∧ s'.idlefd_ = s.idlefd_

/-- Every call does what it is for, whatever failed before. -/
def Survives (s : Acceptor P) : List (Answers P) → Prop
  | [] => True
  | answers :: rest =>
      s.Handled answers (s.handle_read answers) ∧ (s.handle_read answers).Survives rest

variable {s : Acceptor P} {answers : Answers P}

theorem socketopsAccept_transient (s : Acceptor P) {error : Errno}
    (h : error ∈ Errno.transient) : s.socketopsAccept (.failed error) = (s, none) := by
  have hpasses : Errno.transient.contains error = true := List.contains_iff_mem.mpr h
  simp only [socketopsAccept, sysAccept, hpasses, Bool.not_true, Bool.or_false]

theorem handle_read_failed (h : s.fatal = false) {error : Errno}
    (hresult : answers.result = .failed error) : (s.handle_read answers).fatal = true := by
  rcases handle_read_cases s answers h with ⟨_, _, heq⟩ | ⟨_, haccepted, _⟩
  · rw [heq]
  · rw [hresult] at haccepted
    cases haccepted

/-- A connection is delivered, with the descriptor that the code has for it. -/
theorem handle_read_accepted (h : s.Serving) {peer_addr : P}
    (hresult : answers.result = .accepted peer_addr) :
    s.Handled answers (s.handle_read answers) := by
  rcases handle_read_cases s answers h.running with ⟨_, hfailed, _⟩ | ⟨peer, haccepted, heq⟩
  · rw [hresult] at hfailed
    cases hfailed
  · rw [if_pos h.callback, hresult] at heq
    obtain rfl : peer_addr = peer := by
      rw [hresult] at haccepted
      cases haccepted
      rfl
    rw [heq]
    refine ⟨⟨h.running, h.listening, h.reading, h.callback⟩, ?_, ?_, ?_⟩
    · intro other hother
      rw [hresult] at hother
      cases hother
      exact ⟨s.listen_fd_, List.append_assoc _ _ _⟩
    · intro hfailed
      rw [hresult] at hfailed
      cases hfailed
    · intro error hfailed
      rw [hresult] at hfailed
      cases hfailed

theorem handled_iff (h : s.Serving) :
    s.Handled answers (s.handle_read answers) ↔
      ∃ peer_addr, answers.result = .accepted peer_addr := by
  constructor
  · intro hhandled
    cases hresult : answers.result with
    | accepted peer_addr => exact ⟨peer_addr, rfl⟩
    | failed error =>
        have hfatal := handle_read_failed h.running hresult
        rw [hhandled.serving.running] at hfatal
        cases hfatal
  · rintro ⟨peer_addr, hresult⟩
    exact handle_read_accepted h hresult

/-- A started acceptor survives the calls exactly if no accept fails in them. -/
theorem survives_iff (h : s.Serving) (calls : List (Answers P)) :
    s.Survives calls ↔ ∀ answers ∈ calls, ∃ peer_addr, answers.result = .accepted peer_addr := by
  induction calls generalizing s with
  | nil => simp [Survives]
  | cons answers rest ih =>
      rw [List.forall_mem_cons, Survives]
      constructor
      · rintro ⟨hhandled, hrest⟩
        exact ⟨(handled_iff h).mp hhandled, (ih hhandled.serving).mp hrest⟩
      · rintro ⟨haccepted, hrest⟩
        have hhandled := (handled_iff h).mpr haccepted
        exact ⟨hhandled, (ih hhandled.serving).mpr hrest⟩

theorem serving_listen {error : Option Errno} (h : new error = some s) :
    Serving (s.setNewConnectioncallback true).listen := by
  obtain ⟨listen_fd, -, rfl⟩ := Option.map_eq_some_iff.mp h
  refine ⟨rfl, rfl, ?_, rfl⟩
  change Flags.has ((0 : BitVec 32) ||| Channel.ReadEvent) Channel.ReadEvent = true
  decide

/-- Two connections one after the other. -/
theorem survives_iff_accepted : ∃ s : Acceptor Nat, new none = some s ∧
    (s.setNewConnectioncallback true).listen.Survives
      [⟨.accepted 7, .failed .EAGAIN⟩, ⟨.accepted 8, .failed .EAGAIN⟩] := by
  have hnew : new none = some (onSocket 0 : Acceptor Nat) := rfl
  refine ⟨_, hnew, (survives_iff (serving_listen hnew) _).mpr ?_⟩
  intro answers hmem
  rcases List.mem_cons.mp hmem with rfl | hlast
  · exact ⟨7, rfl⟩
  · rw [List.mem_singleton.mp hlast]
    exact ⟨8, rfl⟩

/-- Out of descriptors for one connection: the other wrapper passes the error on, and
`handle_read` ends the process before it comes to the reserve. -/
theorem transient_failure_fatal : ∃ acceptor s : Acceptor Nat, new none = some acceptor ∧
    s = (acceptor.setNewConnectioncallback true).listen ∧
    s.Serving ∧ .EMFILE ∈ Errno.transient ∧ s.socketopsAccept (.failed .EMFILE) = (s, none) ∧
      (s.handle_read ⟨.failed .EMFILE, .accepted 7⟩).fatal = true ∧
      (s.handle_read ⟨.failed .EMFILE, .accepted 7⟩).ops = s.ops ∧
      ¬s.Survives [⟨.failed .EMFILE, .accepted 7⟩, ⟨.accepted 8, .failed .EAGAIN⟩] := by
  have hnew : new none = some (onSocket 0 : Acceptor Nat) := rfl
  refine ⟨_, _, hnew, rfl, serving_listen hnew, by decide,
    socketopsAccept_transient _ (by decide), rfl, rfl, ?_⟩
  rintro ⟨hhandled, _⟩
  have hfatal := hhandled.serving.running
  cases hfatal

end Acceptor

end MuduoRpc
