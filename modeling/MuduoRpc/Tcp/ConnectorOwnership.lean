import MuduoRpc.Tcp.Connector

/-!
Who owns the descriptor of a connection attempt. `retry` leaves `state_` at
`KConnecting` when `handleWrite` or `handleError` calls it, so a second handler
in the same dispatch, or a later `stopInLoop`, takes the closed descriptor for
a live one. As long as that does not happen every descriptor is closed or
handed over exactly once, and not touched afterwards.
-/

namespace MuduoRpc.Connector

open Ledger (Balanced)

variable {T : Type}

/-- The descriptor of the registered channel, if there is one. -/
def registered (s : Connector T) : List Nat :=
  match s.channel_ with
  | some channel => if channel.addedToLoop_ then [channel.fd_] else []
  | none => []

/-- A channel that has been removed waits for one `resetChannel`. -/
def removed (s : Connector T) : Nat :=
  match s.channel_ with
  | some channel => if channel.addedToLoop_ then 0 else 1
  | none => 0

/-- Whether the step runs one of the three callers of
`removeAndResetChannel`. -/
def mayRemove (s : Connector T) : Action T → Bool
  | .work _ => s.work.head? = some (.callback .errorCallback_) ||
      s.work.head? = some (.callback .writeCallback_)
  | .run _ => s.queue.functors.head? = some .stopInLoop
  | _ => false

/-- No handler of the attempt and no `stopInLoop` runs in state `KConnecting`
once the channel of the attempt has been removed. -/
def attemptRegistered (s : Connector T) (a : Action T) : Bool :=
  !(mayRemove s a && s.state_ = .KConnecting) || s.registered ≠ []

/-- The invariant, with the descriptors that the running function holds in
local variables. -/
structure Owns (s : Connector T) (sockfds : List Nat) : Prop where
  balanced : Balanced s.ops s.nextFd (sockfds ++ s.registered)
  resets : s.queue.toList.count .resetChannel = s.removed
  pushing : ∀ call ∈ s.pushing, call.2 ≠ .resetChannel

variable {s s' : Connector T} {sockfd : Nat}

theorem owns_new : Owns (new : Connector T) [] where
  balanced := Balanced.empty
  resets := rfl
  pushing := by simp [new]

theorem Owns.setstate {sockfds : List Nat} (h : Owns s sockfds) (state : State) :
    Owns (s.setstate state) sockfds :=
  ⟨h.balanced, h.resets, h.pushing⟩

theorem Owns.query {sockfds : List Nat} (h : Owns s sockfds) (how : Use)
    (hmem : sockfd ∈ sockfds) : Owns (s.query how sockfd) sockfds :=
  ⟨h.balanced.use (List.mem_append_left _ hmem) how, h.resets, h.pushing⟩

theorem Owns.release (h : Owns s [sockfd]) (how : Release) : Owns (s.release how sockfd) [] where
  balanced := by
    have hreleased := h.balanced.release (List.mem_append_left _ List.mem_cons_self) how
    rwa [List.singleton_append, List.erase_cons_head] at hreleased
  resets := h.resets
  pushing := h.pushing

theorem Owns.connecting (h : Owns s [sockfd]) (hnext : s.connecting sockfd = some s') :
    Owns s' [] := by
  rw [Connector.connecting] at hnext
  split at hnext
  · cases hnext
  · rename_i hnone
    cases hnext
    have hnone' : s.channel_ = none := hnone
    obtain ⟨hbalanced, hresets, hpushing⟩ := h
    simp only [registered, removed, hnone'] at hbalanced hresets
    exact ⟨hbalanced, hresets, hpushing⟩

theorem Owns.connect (h : Owns s []) {answers : Answers}
    (hnext : s.connect answers = some s') : Owns s' [] := by
  obtain ⟨t, rfl, hconnect⟩ := connect_cases hnext
  have hobtained : Owns { s with ops := s.ops ++ [.acquire s.nextFd], nextFd := s.nextFd + 1 }
      [s.nextFd] := ⟨h.balanced.acquire, h.resets, h.pushing⟩
  rcases hconnect with hbegins | rfl
  · exact hobtained.connecting hbegins
  · exact hobtained.release .close

theorem Owns.startInLoop (h : Owns s []) {answers : Answers}
    (hnext : s.startInLoop answers = some s') : Owns s' [] := by
  rw [Connector.startInLoop] at hnext
  split_ifs at hnext
  · exact h.connect hnext
  · cases hnext
    exact h

/-- Removing the registered channel leaves its descriptor with the caller and
one `resetChannel` in the queue. -/
theorem Owns.removeAndResetChannel (h : Owns s []) (hregistered : s.registered ≠ [])
    (hnext : s.removeAndResetChannel = some (s', sockfd)) : Owns s' [sockfd] := by
  obtain ⟨hbalanced, hresets, hpushing⟩ := h
  cases hchannel : s.channel_ with
  | none => exact absurd (by simp [registered, hchannel]) hregistered
  | some channel =>
      have hadded : channel.addedToLoop_ = true := by
        by_contra hnot
        exact hregistered (by simp [registered, hchannel, hnot])
      simp only [registered, removed, hchannel, hadded, if_true, List.nil_append]
        at hbalanced hresets
      simp only [Connector.removeAndResetChannel, hchannel] at hnext
      split_ifs at hnext
      cases hnext
      refine ⟨hbalanced.use List.mem_cons_self _, ?_, hpushing⟩
      change (s.queue.push .resetChannel).toList.count .resetChannel = 1
      rw [PendingQueue.toList_push, List.count_append, hresets]
      rfl

theorem Owns.stopInLoop (h : Owns s [])
    (hregistered : s.state_ = .KConnecting → s.registered ≠ [])
    (hnext : s.stopInLoop = some s') : Owns s' [] := by
  by_cases hstate : s.state_ = .KConnecting
  · rw [Connector.stopInLoop, if_pos hstate] at hnext
    obtain ⟨⟨t, sockfd⟩, hremove, hresult⟩ := Option.bind_eq_some_iff.mp hnext
    cases hresult
    have hidle := h.setstate .KDisconnected
    exact (hidle.removeAndResetChannel (hregistered hstate) hremove).release .close
  · rw [Connector.stopInLoop, if_neg hstate] at hnext
    cases hnext
    exact h

theorem Owns.handleError (h : Owns s [])
    (hregistered : s.state_ = .KConnecting → s.registered ≠ [])
    (hnext : s.handleError = some s') : Owns s' [] := by
  by_cases hstate : s.state_ = .KConnecting
  · rw [Connector.handleError, if_pos hstate] at hnext
    obtain ⟨⟨t, sockfd⟩, hremove, hresult⟩ := Option.bind_eq_some_iff.mp hnext
    cases hresult
    have hheld := h.removeAndResetChannel (hregistered hstate) hremove
    exact (hheld.query .getSocketError List.mem_cons_self).release .close
  · rw [Connector.handleError, if_neg hstate] at hnext
    cases hnext
    exact h

theorem Owns.handleWrite (h : Owns s []) {answers : Answers}
    (hregistered : s.state_ = .KConnecting → s.registered ≠ [])
    (hnext : s.handleWrite answers = some s') : Owns s' [] := by
  by_cases hstate : s.state_ = .KConnecting
  · rw [Connector.handleWrite, if_pos hstate] at hnext
    obtain ⟨⟨t, sockfd⟩, hremove, hresult⟩ := Option.bind_eq_some_iff.mp hnext
    have hheld := h.removeAndResetChannel (hregistered hstate) hremove
    have herror := hheld.query .getSocketError List.mem_cons_self
    have hself := herror.query .isSelfConnect List.mem_cons_self
    simp only at hresult
    split_ifs at hresult <;> cases hresult
    · exact herror.release .close
    · exact hself.release .close
    · exact (hself.setstate .KConnected).release .newConnectionCallback
    · exact (hself.setstate .KConnected).release .close
  · rw [Connector.handleWrite, if_neg hstate] at hnext
    split_ifs at hnext
    cases hnext
    exact h

theorem registered_of_removed (h : 0 < s.removed) : s.removed = 1 ∧ s.registered = [] := by
  cases hchannel : s.channel_ with
  | none => simp [removed, hchannel] at h
  | some channel =>
      cases hadded : channel.addedToLoop_ with
      | true => simp [removed, hchannel, hadded] at h
      | false => simp [removed, registered, hchannel, hadded]

theorem owns_run (h : Owns s []) {answers : Answers} {cb : Functor}
    {queue : PendingQueue Functor} (hpop : s.queue.pop = some (cb, queue))
    (hguard : cb = .stopInLoop → s.state_ = .KConnecting → s.registered ≠ [])
    (hnext : { s with queue := queue }.runFunctor answers cb = some s') : Owns s' [] := by
  have hcount := h.resets
  rw [PendingQueue.toList_pop hpop] at hcount
  cases cb with
  | startInLoop =>
      have hpopped : Owns { s with queue := queue } [] := ⟨h.balanced, hcount, h.pushing⟩
      exact hpopped.startInLoop hnext
  | stopInLoop =>
      have hpopped : Owns { s with queue := queue } [] := ⟨h.balanced, hcount, h.pushing⟩
      exact hpopped.stopInLoop (hguard rfl) hnext
  | resetChannel =>
      -- the one queued `resetChannel` finds a channel that has been removed
      rw [List.count_cons_self] at hcount
      obtain ⟨hone, hnone⟩ := registered_of_removed (s := s) (by omega)
      have hbalanced := h.balanced
      rw [hnone] at hbalanced
      cases hnext
      exact ⟨hbalanced, by change queue.toList.count .resetChannel = 0; omega, h.pushing⟩

theorem owns_work (h : Owns s []) {answers : Answers} {task : Work} {rest : List Work}
    (hguard : task = .callback .errorCallback_ ∨ task = .callback .writeCallback_ →
      s.state_ = .KConnecting → s.registered ≠ [])
    (hnext : { s with work := rest }.runWork answers task = some s') : Owns s' [] := by
  have hrest : Owns { s with work := rest } [] := ⟨h.balanced, h.resets, h.pushing⟩
  cases task with
  | startInLoop => exact hrest.startInLoop hnext
  | callback callback =>
      cases callback with
      | errorCallback_ => exact hrest.handleError (hguard (.inl rfl)) hnext
      | writeCallback_ => exact hrest.handleWrite (hguard (.inr rfl)) hnext
      | closeCallback_ | readCallback_ =>
          cases hnext
          exact hrest

variable [DecidableEq T] {threadPid : T}

theorem owns_step {a : Action T} (h : Owns s []) (hguard : attemptRegistered s a = true)
    (hnext : next threadPid s a = some s') : Owns s' [] := by
  cases next_steps hnext with
  | startHere | restart | dispatch => exact ⟨h.balanced, h.resets, h.pushing⟩
  | start | stop => exact ⟨h.balanced, h.resets, by simpa using h.pushing⟩
  | @push t cb hmem =>
      have hother := h.pushing _ hmem
      refine ⟨h.balanced, ?_, fun call hcall => h.pushing call (List.mem_of_mem_erase hcall)⟩
      change (s.queue.push cb).toList.count .resetChannel = s.removed
      rw [PendingQueue.toList_push, List.count_append, List.count_singleton, h.resets]
      simpa using hother
  | @swap queue _ hqueue =>
      refine ⟨h.balanced, ?_, h.pushing⟩
      change queue.toList.count .resetChannel = s.removed
      rw [PendingQueue.toList_swap hqueue, h.resets]
  | run _ hpop hrun =>
      refine owns_run h hpop ?_ hrun
      rintro rfl hstate
      obtain ⟨hhead, _⟩ := PendingQueue.pop_eq_some.mp hpop
      simpa [attemptRegistered, mayRemove, hhead, hstate] using hguard
  | work _ hlist hwork =>
      refine owns_work h ?_ hwork
      rintro (rfl | rfl) hstate <;>
        simpa [attemptRegistered, mayRemove, hlist, hstate] using hguard

end MuduoRpc.Connector
