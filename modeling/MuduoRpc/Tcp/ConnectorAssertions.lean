import MuduoRpc.Tcp.ConnectorOwnership

/-!
What the functions of the connector take for granted about `state_` and
`channel_`. It holds while attempts are begun one at a time and none of them is
found failed by a handler: `retry` does not set the state back, and the channel
of a stopped attempt stays until the queued `resetChannel` has run.
-/

namespace MuduoRpc

open Connector

/-- A connector, and whether its last step called `retry`. -/
structure Attempts (T : Type) extends Connector T where
  retried : Bool
deriving DecidableEq, Repr

namespace Connector

variable {T : Type}

def retryError : Option Errno → Bool
  | some .EAGAIN | some .EADDRNOTAVAIL | some .ECONNREFUSED | some .ENETUNREACH
  | some .ETIMEDOUT => true
  | _ => false

/-- `startInLoop` gets an error from `connect` that makes it call `retry`. -/
def startRetries (s : Connector T) (answers : Answers) : Bool :=
  s.state_ = .KDisconnected && s.connect_ && retryError answers.saveerror

/-- A handler of a live attempt finds it failed. -/
def handlerRetries (s : Connector T) (answers : Answers) : Channel.Callback → Bool
  | .errorCallback_ => s.state_ = .KConnecting
  | .writeCallback_ =>
      s.state_ = .KConnecting && (answers.socketError.isSome || answers.selfConnect)
  | _ => false

/-- Whether the step calls `retry`. -/
def retries (s : Connector T) : Action T → Bool
  | .run answers =>
      match s.queue.functors.head? with
      | some .startInLoop => s.startRetries answers
      | some .stopInLoop => s.state_ = .KConnecting
      | _ => false
  | .work answers =>
      match s.work.head? with
      | some .startInLoop => s.startRetries answers
      | some (.callback callback) => s.handlerRetries answers callback
      | none => false
  | _ => false

/-- How many calls of `start` and `restart` have not got to `startInLoop` yet. -/
def starts (s : Connector T) : Nat :=
  (s.pushing.map Prod.snd).count .startInLoop + s.queue.toList.count .startInLoop +
    s.work.count .startInLoop

/-- `start` begins an attempt only from rest: none is pending or under way and the
last one did not succeed; on the loop thread its channel is gone too. `restart`
may follow a success. No handler finds an attempt failed. -/
def orderly [DecidableEq T] (threadPid : T) (s : Connector T) : Action T → Bool
  | .start t => s.starts = 0 && s.state_ = .KDisconnected &&
      (t ≠ threadPid || s.channel_.isNone)
  | .restart => s.starts = 0 && s.channel_.isNone
  | .work answers =>
      match s.work.head? with
      | some (.callback callback) => !s.handlerRetries answers callback
      | _ => true
  | _ => true

def deregistered (ops : List (Ledger.Op Use Release)) : List Nat :=
  ops.filterMap fun
    | .use .deregister sockfd => some sockfd
    | _ => none

/-- The descriptors of the channels that the queued `resetChannel`s were queued
for: the last of those deregistered. -/
def awaited (s : Connector T) : List Nat :=
  let sockfds := deregistered s.ops
  sockfds.drop (sockfds.length - s.queue.toList.count .resetChannel)

/-- What a functor or a handler does to the attempt: nothing, begin it or end it. -/
inductive Effect (s s' : Connector T) : Prop
  | kept (state : s'.state_ = s.state_) (channel : s'.channel_ = s.channel_)
      (ops : deregistered s'.ops = deregistered s.ops) (queue : s'.queue = s.queue)
  | began {channel : Channel} (before : s.state_ = .KDisconnected)
      (empty : s.channel_ = none) (state : s'.state_ = .KConnecting)
      (channel_ : s'.channel_ = some channel) (added : channel.addedToLoop_ = true)
      (callbacks : channel.callbacks = [.errorCallback_, .writeCallback_])
      (ops : deregistered s'.ops = deregistered s.ops) (queue : s'.queue = s.queue)
  | ended {channel channel' : Channel} (before : s.state_ = .KConnecting)
      (live : s.channel_ = some channel) (state : s'.state_ ≠ .KConnecting)
      (channel_ : s'.channel_ = some channel') (removed : channel'.addedToLoop_ = false)
      (callbacks : channel'.callbacks = channel.callbacks)
      (ops : deregistered s'.ops = deregistered s.ops ++ [channel'.fd_])
      (queue : s'.queue = s.queue.push .resetChannel)

/-- The effect, with nothing done to the pending calls. -/
structure Acts (s s' : Connector T) : Prop where
  effect : Effect s s'
  pushing : s'.pushing = s.pushing
  work : s'.work = s.work

variable {s s' : Connector T}

theorem deregistered_append (ops more : List (Ledger.Op Use Release)) :
    deregistered (ops ++ more) = deregistered ops ++ deregistered more :=
  List.filterMap_append

theorem deregistered_release (ops : List (Ledger.Op Use Release)) (how : Release)
    (sockfd : Nat) : deregistered (ops ++ [.release how sockfd]) = deregistered ops := by
  rw [deregistered_append]
  exact List.append_nil _

theorem deregistered_acquire (ops : List (Ledger.Op Use Release)) (sockfd : Nat) :
    deregistered (ops ++ [.acquire sockfd]) = deregistered ops := by
  rw [deregistered_append]
  exact List.append_nil _

theorem deregistered_query (ops : List (Ledger.Op Use Release)) {how : Use}
    (hhow : how ≠ .deregister) (sockfd : Nat) :
    deregistered (ops ++ [.use how sockfd]) = deregistered ops := by
  rw [deregistered_append]
  cases how with
  | getSocketError => exact List.append_nil _
  | isSelfConnect => exact List.append_nil _
  | deregister => exact absurd rfl hhow

theorem Acts.refl (s : Connector T) : Acts s s :=
  ⟨.kept rfl rfl rfl rfl, rfl, rfl⟩

theorem startInLoop_acts {answers : Answers} (h : s.startInLoop answers = some s') :
    s.state_ = .KDisconnected ∧ Acts s s' := by
  rw [Connector.startInLoop] at h
  split_ifs at h with hstate hconnect
  · refine ⟨hstate, ?_⟩
    obtain ⟨t, rfl, hbegins | rfl⟩ := connect_cases h
    · rw [Connector.connecting] at hbegins
      split at hbegins
      · cases hbegins
      · rename_i hnone
        cases hbegins
        refine ⟨.began hstate hnone rfl rfl rfl rfl ?_ rfl, rfl, rfl⟩
        exact deregistered_acquire _ _
    · refine ⟨.kept rfl rfl ?_ rfl, rfl, rfl⟩
      exact (deregistered_release _ _ _).trans (deregistered_acquire _ _)
  · cases h
    exact ⟨hstate, Acts.refl s⟩

/-- Removing the channel, whatever state is set before and after. -/
theorem removeAndResetChannel_spec {sockfd : Nat}
    (h : s.removeAndResetChannel = some (s', sockfd)) :
    ∃ channel channel', s.channel_ = some channel ∧ s'.channel_ = some channel' ∧
      channel'.addedToLoop_ = false ∧ channel'.callbacks = channel.callbacks ∧
      channel'.fd_ = sockfd ∧ deregistered s'.ops = deregistered s.ops ++ [sockfd] ∧
      s'.queue = s.queue.push .resetChannel ∧ s'.state_ = s.state_ ∧
      s'.pushing = s.pushing ∧ s'.work = s.work := by
  rw [Connector.removeAndResetChannel] at h
  cases hchannel : s.channel_ with
  | none => simp [hchannel] at h
  | some channel =>
      simp only [hchannel] at h
      split_ifs at h
      cases h
      exact ⟨channel, _, rfl, rfl, rfl, rfl, rfl, deregistered_append _ _, rfl, rfl, rfl, rfl⟩

theorem stopInLoop_acts (h : s.stopInLoop = some s') :
    Acts s s' ∧ (s.state_ = .KConnecting → s'.state_ = .KDisconnected) := by
  rw [Connector.stopInLoop] at h
  split_ifs at h with hstate
  · obtain ⟨⟨t, sockfd⟩, hremove, hresult⟩ := Option.bind_eq_some_iff.mp h
    cases hresult
    obtain ⟨channel, channel', hlive, hchannel, hremoved, hcallbacks, rfl, hops, hqueue, hafter,
      hpushing, hwork⟩ := removeAndResetChannel_spec hremove
    refine ⟨⟨.ended hstate hlive ?_ hchannel hremoved hcallbacks ?_ hqueue, hpushing, hwork⟩,
      fun _ => hafter⟩
    · rw [show (t.retry channel'.fd_).state_ = .KDisconnected from hafter]
      simp
    · exact (deregistered_release _ _ _).trans hops
  · cases h
    exact ⟨Acts.refl s, fun hconnecting => absurd hconnecting hstate⟩

theorem handleError_acts {answers : Answers}
    (hok : s.handlerRetries answers .errorCallback_ = false) (h : s.handleError = some s') :
    Acts s s' := by
  have hstate : s.state_ ≠ .KConnecting := of_decide_eq_false hok
  rw [Connector.handleError, if_neg hstate] at h
  cases h
  exact Acts.refl s

theorem handleWrite_acts {answers : Answers}
    (hok : s.handlerRetries answers .writeCallback_ = false)
    (h : s.handleWrite answers = some s') : Acts s s' := by
  by_cases hstate : s.state_ = .KConnecting
  · have hnone : answers.socketError.isSome = false ∧ answers.selfConnect = false := by
      simpa [handlerRetries, hstate] using hok
    rw [Connector.handleWrite, if_pos hstate] at h
    obtain ⟨⟨t, sockfd⟩, hremove, hresult⟩ := Option.bind_eq_some_iff.mp h
    obtain ⟨channel, channel', hlive, hchannel, hremoved, hcallbacks, rfl, hops, hqueue, _,
      hpushing, hwork⟩ := removeAndResetChannel_spec hremove
    simp only [hnone.1, hnone.2, Bool.false_eq_true, if_false] at hresult
    have hqueried : deregistered ((t.query .getSocketError channel'.fd_).query .isSelfConnect
        channel'.fd_).ops = deregistered s.ops ++ [channel'.fd_] := by
      refine (deregistered_query _ (by simp) _).trans ?_
      exact (deregistered_query _ (by simp) _).trans hops
    split_ifs at hresult
    all_goals
      cases hresult
      refine ⟨.ended hstate hlive ?_ hchannel hremoved hcallbacks ?_ hqueue, hpushing, hwork⟩
      · simp [Connector.release, Connector.close, setstate]
      · exact (deregistered_release _ _ _).trans hqueried
  · rw [Connector.handleWrite, if_neg hstate] at h
    split_ifs at h
    cases h
    exact Acts.refl s

theorem runFunctor_acts {answers : Answers} {cb : Functor} (hcb : cb ≠ .resetChannel)
    (h : s.runFunctor answers cb = some s') : Acts s s' := by
  cases cb with
  | startInLoop => exact (startInLoop_acts h).2
  | stopInLoop => exact (stopInLoop_acts h).1
  | resetChannel => exact absurd rfl hcb

theorem runWork_acts {answers : Answers} {task : Work}
    (hok : ∀ callback, task = .callback callback → s.handlerRetries answers callback = false)
    (h : s.runWork answers task = some s') : Acts s s' := by
  cases task with
  | startInLoop => exact (startInLoop_acts h).2
  | callback callback =>
      cases callback with
      | errorCallback_ => exact handleError_acts (hok _ rfl) h
      | writeCallback_ => exact handleWrite_acts (hok _ rfl) h
      | closeCallback_ | readCallback_ =>
          cases h
          exact Acts.refl s

/-- The attempt as `state_` and `channel_` show it. -/
structure Attempt (s : Connector T) : Prop where
  live : s.state_ = .KConnecting ↔ s.registered ≠ []
  callbacks : ∀ channel, s.channel_ = some channel →
    channel.callbacks = [.errorCallback_, .writeCallback_]
  last : ∀ channel, s.channel_ = some channel → channel.addedToLoop_ = false →
    (deregistered s.ops).getLast? = some channel.fd_

/-- At most one `startInLoop` is pending, no attempt is under way while it is, and
no `resetChannel` is queued behind it. A dispatch leaves handlers of a live
attempt to be run, in order. -/
structure Pending (s : Connector T) : Prop where
  once : s.starts ≤ 1
  rest : 0 < s.starts → s.state_ = .KDisconnected
  immediate : .startInLoop ∈ s.work → s.channel_ = none
  behind : s.queue.toList.Pairwise fun earlier later =>
    earlier = .startInLoop → later ≠ .resetChannel
  work : s.work = [] ∨ s.work = [.startInLoop] ∨ s.state_ = .KConnecting ∧
    (s.work = [.callback .errorCallback_] ∨ s.work = [.callback .writeCallback_] ∨
      s.work = [.callback .errorCallback_, .callback .writeCallback_])

theorem registered_congr (h : s'.channel_ = s.channel_) : s'.registered = s.registered := by
  rw [registered, registered, h]

theorem Attempt.congr (h : Attempt s) (hstate : s'.state_ = s.state_)
    (hchannel : s'.channel_ = s.channel_) (hops : s'.ops = s.ops) : Attempt s' := by
  constructor
  · rw [hstate, registered_congr hchannel]
    exact h.live
  · rw [hchannel]
    exact h.callbacks
  · rw [hchannel, hops]
    exact h.last

theorem Attempt.acts (h : Attempt s) (hacts : Acts s s') : Attempt s' := by
  cases hacts.effect with
  | kept hstate hchannel hops _ =>
      constructor
      · rw [hstate, registered_congr hchannel]
        exact h.live
      · rw [hchannel]
        exact h.callbacks
      · rw [hchannel, hops]
        exact h.last
  | @began channel _ _ hstate hchannel hadded hcallbacks _ _ =>
      constructor
      · simp [hstate, registered, hchannel, hadded]
      · intro other hother
        cases hchannel.symm.trans hother
        exact hcallbacks
      · intro other hother hremoved
        cases hchannel.symm.trans hother
        rw [hadded] at hremoved
        cases hremoved
  | @ended channel channel' _ hlive hstate hchannel hremoved hcallbacks hops _ =>
      constructor
      · simp [hstate, registered, hchannel, hremoved]
      · intro other hother
        cases hchannel.symm.trans hother
        rw [hcallbacks]
        exact h.callbacks channel hlive
      · intro other hother _
        cases hchannel.symm.trans hother
        rw [hops, List.getLast?_append]
        rfl

theorem Pending.congr (h : Pending s) (hstate : s'.state_ = s.state_)
    (hchannel : s'.channel_ = s.channel_) (hwork : s'.work = s.work)
    (hstarts : s'.starts = s.starts)
    (hbehind : s'.queue.toList.Pairwise fun earlier later =>
      earlier = .startInLoop → later ≠ .resetChannel) : Pending s' := by
  refine ⟨hstarts ▸ h.once, ?_, ?_, hbehind, ?_⟩
  · rw [hstarts, hstate]
    exact h.rest
  · rw [hwork, hchannel]
    exact h.immediate
  · rw [hwork, hstate]
    exact h.work

theorem Pending.starts_eq_zero (h : Pending s) (hlive : s.state_ = .KConnecting) :
    s.starts = 0 := by
  by_contra hpending
  have hrest := h.rest (Nat.pos_of_ne_zero hpending)
  rw [hlive] at hrest
  cases hrest

/-- Nothing is left to be run in the dispatch when an attempt begins or ends. -/
theorem Pending.acts (h : Pending s) (hacts : Acts s s') (hwork : s.work = [])
    (hbegan : s.state_ = .KDisconnected → s'.state_ = .KConnecting → s.starts = 0) :
    Pending s' := by
  have hwork' : s'.work = [] := hacts.work.trans hwork
  have hstarts (hqueue : s'.queue.toList.count .startInLoop = s.queue.toList.count .startInLoop) :
      s'.starts = s.starts := by
    rw [starts, starts, hacts.pushing, hacts.work, hqueue]
  cases hacts.effect with
  | kept hstate _ _ hqueue =>
      have hsame := hstarts (by rw [hqueue])
      refine ⟨hsame ▸ h.once, ?_, ?_, hqueue ▸ h.behind, .inl hwork'⟩
      · rw [hsame, hstate]
        exact h.rest
      · rw [hwork']
        intro hmem
        cases hmem
  | began hbefore _ hstate _ _ _ _ hqueue =>
      have hnone : s'.starts = 0 := (hstarts (by rw [hqueue])).trans (hbegan hbefore hstate)
      refine ⟨by omega, by omega, ?_, hqueue ▸ h.behind, .inl hwork'⟩
      rw [hwork']
      intro hmem
      cases hmem
  | ended hbefore _ _ _ _ _ _ hqueue =>
      have hzero := h.starts_eq_zero hbefore
      have hcount : s'.queue.toList.count .startInLoop = s.queue.toList.count .startInLoop := by
        rw [hqueue, PendingQueue.toList_push, List.count_append]
        rfl
      have hnone : s'.starts = 0 := (hstarts hcount).trans hzero
      refine ⟨by omega, by omega, ?_, ?_, .inl hwork'⟩
      · rw [hwork']
        intro hmem
        cases hmem
      · rw [hqueue, PendingQueue.toList_push]
        refine List.pairwise_append.mpr ⟨h.behind, List.pairwise_singleton _ _, ?_⟩
        rintro earlier hearlier later _ rfl
        have hpositive := List.count_pos_iff.mpr hearlier
        rw [starts] at hzero
        omega

/-- Taking a functor from the queue leaves one pending `startInLoop` less, if it was
one. -/
theorem Pending.pop (h : Pending s) {cb : Functor} {queue : PendingQueue Functor}
    (hpop : s.queue.pop = some (cb, queue)) :
    Pending { s with queue := queue } ∧
      (cb = .startInLoop → starts { s with queue := queue } = 0) := by
  have hlist := PendingQueue.toList_pop hpop
  have hcount : s.starts = starts { s with queue := queue } +
      if cb = .startInLoop then 1 else 0 := by
    simp only [starts, hlist, List.count_cons, beq_iff_eq]
    omega
  have hle : starts { s with queue := queue } ≤ s.starts := by omega
  have honce := h.once
  refine ⟨⟨by omega, fun hpositive => h.rest (by omega), h.immediate, ?_, h.work⟩, ?_⟩
  · have hbehind := h.behind
    rw [hlist] at hbehind
    exact (List.pairwise_cons.mp hbehind).2
  · rintro rfl
    rw [if_pos rfl] at hcount
    omega

/-- The same for the work of the loop thread, when nothing is left behind it. -/
theorem Pending.done (h : Pending s) {task : Work} (hlist : s.work = [task]) :
    Pending { s with work := [] } ∧
      (task = .startInLoop → starts { s with work := [] } = 0) := by
  have hcount : s.starts = starts { s with work := [] } +
      if task = .startInLoop then 1 else 0 := by
    simp only [starts, hlist, List.count_cons, List.count_nil, beq_iff_eq]
    omega
  have honce := h.once
  refine ⟨⟨by omega, fun hpositive => h.rest (by omega), ?_, h.behind, .inl rfl⟩, ?_⟩
  · intro hmem
    cases hmem
  · rintro rfl
    rw [if_pos rfl] at hcount
    omega

/-- A handler that may run is the last of its dispatch. -/
theorem Pending.last_task (h : Pending s) {answers : Answers} {task : Work} {rest : List Work}
    (hlist : s.work = task :: rest)
    (hok : ∀ callback, task = .callback callback → s.handlerRetries answers callback = false) :
    rest = [] := by
  rcases h.work with hnone | hstart | ⟨hlive, herror | hwrite | hboth⟩
  · rw [hnone] at hlist
    cases hlist
  · rw [hstart] at hlist
    cases hlist
    rfl
  · rw [herror] at hlist
    cases hlist
    rfl
  · rw [hwrite] at hlist
    cases hlist
    rfl
  · rw [hboth] at hlist
    cases hlist
    have hretries := hok _ rfl
    simp [handlerRetries, hlive] at hretries

theorem startInLoop_retries {answers : Answers} (hretries : s.startRetries answers = true)
    (h : s.startInLoop answers = some s') : s'.state_ = .KDisconnected := by
  simp only [startRetries, Bool.and_eq_true, decide_eq_true_eq] at hretries
  obtain ⟨⟨hstate, hconnect⟩, herror⟩ := hretries
  rw [Connector.startInLoop, if_pos hstate, if_pos hconnect] at h
  obtain ⟨sockfd, _, hattempt⟩ := Option.bind_eq_some_iff.mp h
  split at hattempt
  case h_1 | h_2 | h_3 | h_4 => simp_all [retryError]
  all_goals
    cases hattempt
    exact hstate

structure Rest (s : Connector T) : Prop where
  owns : Owns s []
  attempt : Attempt s
  pending : Pending s

theorem rest_new : Rest (Connector.new : Connector T) := by
  refine ⟨owns_new, ⟨by simp [Connector.new, registered], ?_, ?_⟩, ?_⟩
  · intro channel hchannel
    cases hchannel
  · intro channel hchannel
    cases hchannel
  · constructor <;> simp [Connector.new, starts, PendingQueue.toList, PendingQueue.empty]

/-- At rest the loop thread has nothing to do. -/
theorem Rest.idle_work (h : Rest s) (hstarts : s.starts = 0)
    (hstate : s.state_ ≠ .KConnecting) : s.work = [] := by
  rcases h.pending.work with hnone | hstart | ⟨hlive, _⟩
  · exact hnone
  · rw [starts, hstart] at hstarts
    simp at hstarts
  · exact absurd hlive hstate

/-- The loop thread takes up a new attempt at once. -/
theorem Rest.begin_now (h : Rest s) (howns : Owns s' []) (hstarts : s.starts = 0)
    (hchannel : s.channel_ = none) (hstate : s'.state_ = .KDisconnected)
    (hsame : s'.channel_ = s.channel_) (hops : s'.ops = s.ops) (hqueue : s'.queue = s.queue)
    (hpushing : s'.pushing = s.pushing) (hwork : s'.work = .startInLoop :: s.work) :
    Rest s' := by
  have hdead : s.state_ ≠ .KConnecting := by
    intro hlive
    exact h.attempt.live.mp hlive (by rw [registered, hchannel])
  have hnil := h.idle_work hstarts hdead
  have hone : s'.starts = 1 := by
    rw [starts] at hstarts ⊢
    rw [hpushing, hqueue, hwork, List.count_cons_self]
    omega
  refine ⟨howns, ?_, ?_⟩
  · constructor
    · rw [hstate, registered_congr hsame, registered, hchannel]
      simp
    · rw [hsame]
      exact h.attempt.callbacks
    · rw [hsame, hops]
      exact h.attempt.last
  · refine ⟨by omega, fun _ => hstate, fun _ => hsame.trans hchannel, hqueue ▸ h.pending.behind,
      .inr (.inl ?_)⟩
    rw [hwork, hnil]

/-- Only `startInLoop` acts in state `KDisconnected`. -/
theorem runFunctor_at_rest {answers : Answers} {cb : Functor} (hcb : cb ≠ .startInLoop)
    (hstate : s.state_ = .KDisconnected) (h : s.runFunctor answers cb = some s') :
    s'.state_ = .KDisconnected := by
  have hdead : s.state_ ≠ .KConnecting := by simp [hstate]
  cases cb with
  | startInLoop => exact absurd rfl hcb
  | stopInLoop =>
      rw [runFunctor, Connector.stopInLoop, if_neg hdead] at h
      cases h
      exact hstate
  | resetChannel =>
      cases h
      exact hstate

theorem runWork_at_rest {answers : Answers} {task : Work} (htask : task ≠ .startInLoop)
    (hstate : s.state_ = .KDisconnected) (h : s.runWork answers task = some s') :
    s'.state_ = .KDisconnected := by
  have hdead : s.state_ ≠ .KConnecting := by simp [hstate]
  cases task with
  | startInLoop => exact absurd rfl htask
  | callback callback =>
      cases callback with
      | errorCallback_ =>
          rw [runWork, Connector.handleError, if_neg hdead] at h
          cases h
          exact hstate
      | writeCallback_ =>
          rw [runWork, Connector.handleWrite, if_neg hdead, if_pos hstate] at h
          cases h
          exact hstate
      | closeCallback_ | readCallback_ =>
          cases h
          exact hstate

theorem Rest.run (h : Rest s) (hwork : s.work = []) {answers : Answers} {cb : Functor}
    {queue : PendingQueue Functor} (hpop : s.queue.pop = some (cb, queue)) (howns : Owns s' [])
    (hnext : { s with queue := queue }.runFunctor answers cb = some s') : Rest s' := by
  obtain ⟨hpending, hstarts⟩ := h.pending.pop hpop
  have hattempt : Attempt { s with queue := queue } :=
    ⟨h.attempt.live, h.attempt.callbacks, h.attempt.last⟩
  by_cases hreset : cb = .resetChannel
  · subst hreset
    have hcount := h.owns.resets
    rw [PendingQueue.toList_pop hpop, List.count_cons_self] at hcount
    obtain ⟨_, hnone⟩ := registered_of_removed (s := s) (by omega)
    cases hnext
    refine ⟨howns, ⟨?_, ?_, ?_⟩, ?_⟩
    · have hdead : s.state_ ≠ .KConnecting := fun hlive => h.attempt.live.mp hlive hnone
      exact iff_of_false hdead (fun hsome => hsome rfl)
    · intro channel hchannel
      cases hchannel
    · intro channel hchannel
      cases hchannel
    · exact ⟨hpending.once, hpending.rest, fun _ => rfl, hpending.behind, hpending.work⟩
  · have hacts := runFunctor_acts hreset hnext
    refine ⟨howns, hattempt.acts hacts, hpending.acts hacts hwork fun hrest hlive => ?_⟩
    by_cases hstart : cb = .startInLoop
    · exact hstarts hstart
    · rw [runFunctor_at_rest hstart hrest hnext] at hlive
      cases hlive

theorem Rest.work (h : Rest s) {answers : Answers} {task : Work} {rest : List Work}
    (hlist : s.work = task :: rest)
    (hok : ∀ callback, task = .callback callback → s.handlerRetries answers callback = false)
    (howns : Owns s' []) (hnext : { s with work := rest }.runWork answers task = some s') :
    Rest s' := by
  obtain rfl := h.pending.last_task hlist hok
  obtain ⟨hpending, hstarts⟩ := h.pending.done hlist
  have hattempt : Attempt { s with work := [] } :=
    ⟨h.attempt.live, h.attempt.callbacks, h.attempt.last⟩
  have hacts : Acts { s with work := [] } s' := runWork_acts hok hnext
  refine ⟨howns, hattempt.acts hacts, hpending.acts hacts rfl fun hrest hlive => ?_⟩
  by_cases hstart : task = .startInLoop
  · exact hstarts hstart
  · rw [runWork_at_rest hstart hrest hnext] at hlive
    cases hlive

theorem handleEvent_attempt {channel : Channel}
    (h : channel.callbacks = [.errorCallback_, .writeCallback_]) :
    channel.handleEvent = [] ∨ channel.handleEvent = [.errorCallback_] ∨
      channel.handleEvent = [.writeCallback_] ∨
      channel.handleEvent = [.errorCallback_, .writeCallback_] := by
  cases herror : Channel.wants channel.revents_ .errorCallback_ <;>
    cases hwrite : Channel.wants channel.revents_ .writeCallback_ <;>
    simp [Channel.handleEvent, h, herror, hwrite]

theorem startInLoop_not_mem (callbacks : List Channel.Callback) :
    Work.startInLoop ∉ callbacks.map Work.callback := by
  intro hmem
  obtain ⟨_, _, hcallback⟩ := List.mem_map.mp hmem
  cases hcallback

/-- One `startInLoop` more, on its way to the queue. -/
theorem Rest.begin_later (h : Rest s) {t : T} (howns : Owns { s with
      connect_ := true, pushing := (t, .startInLoop) :: s.pushing } [])
    (hstarts : s.starts = 0) (hstate : s.state_ = .KDisconnected) :
    Rest { s with connect_ := true, pushing := (t, .startInLoop) :: s.pushing } := by
  have hone : starts { s with
      connect_ := true, pushing := (t, .startInLoop) :: s.pushing } = s.starts + 1 := by
    simp only [starts, List.map_cons, List.count_cons_self]
    omega
  refine ⟨howns, h.attempt.congr rfl rfl rfl, ?_⟩
  exact ⟨by omega, fun _ => hstate, h.pending.immediate, h.pending.behind, h.pending.work⟩

/-- No `resetChannel` is handed over by a thread, so none gets behind `startInLoop`. -/
theorem Rest.push [DecidableEq T] (h : Rest s) {t : T} {cb : Functor} (hmem : (t, cb) ∈ s.pushing)
    (howns : Owns { s with
      pushing := s.pushing.erase (t, cb), queue := s.queue.push cb } []) :
    Rest { s with pushing := s.pushing.erase (t, cb), queue := s.queue.push cb } := by
  refine ⟨howns, h.attempt.congr rfl rfl rfl, h.pending.congr rfl rfl rfl ?_ ?_⟩
  · have hcount := ((List.perm_cons_erase hmem).map Prod.snd).count_eq Functor.startInLoop
    rw [List.map_cons, List.count_cons] at hcount
    simp only [starts, PendingQueue.toList_push, List.count_append, List.count_singleton, hcount]
    omega
  · rw [PendingQueue.toList_push]
    refine List.pairwise_append.mpr ⟨h.pending.behind, List.pairwise_singleton _ _, ?_⟩
    intro _ _ later hlater _
    rw [List.mem_singleton.mp hlater]
    exact h.owns.pushing _ hmem

/-- A live channel is dispatched to its two handlers. -/
theorem Rest.dispatch (h : Rest s) {revents : BitVec 32} {channel : Channel}
    (hchannel : s.channel_ = some channel) (hadded : channel.addedToLoop_ = true)
    (howns : Owns { s with work :=
      ({ channel with revents_ := revents }.handleEvent).map Work.callback } []) :
    Rest { s with work :=
      ({ channel with revents_ := revents }.handleEvent).map Work.callback } := by
  have hlive : s.state_ = .KConnecting := by
    apply h.attempt.live.mpr
    simp [registered, hchannel, hadded]
  have hzero := h.pending.starts_eq_zero hlive
  have hnomem := startInLoop_not_mem ({ channel with revents_ := revents }.handleEvent)
  have hnone : starts { s with work :=
      ({ channel with revents_ := revents }.handleEvent).map Work.callback } = 0 := by
    rw [starts, Nat.add_eq_zero_iff] at hzero ⊢
    exact ⟨hzero.1, List.count_eq_zero.mpr hnomem⟩
  have hbound : ({ channel with revents_ := revents } : Channel).callbacks =
      [.errorCallback_, .writeCallback_] := h.attempt.callbacks channel hchannel
  refine ⟨howns, h.attempt.congr rfl rfl rfl, ?_⟩
  refine ⟨by omega, by omega, fun hmem => absurd hmem hnomem, h.pending.behind, ?_⟩
  rcases handleEvent_attempt hbound with hnil | herror | hwrite | hboth
  · exact .inl (by rw [hnil]; rfl)
  · exact .inr (.inr ⟨hlive, .inl (by rw [herror]; rfl)⟩)
  · exact .inr (.inr ⟨hlive, .inr (.inl (by rw [hwrite]; rfl))⟩)
  · exact .inr (.inr ⟨hlive, .inr (.inr (by rw [hboth]; rfl))⟩)

variable [DecidableEq T] {threadPid : T}

theorem idle_work (h : idle threadPid s = true) : s.work = [] := by
  rw [idle, Bool.and_eq_true] at h
  exact List.isEmpty_iff.mp h.1

/-- The handlers that an orderly run takes up do not retry. -/
theorem handlerRetries_of_orderly {answers : Answers} {task : Work} {rest : List Work}
    (hguard : orderly threadPid s (.work answers) = true) (hlist : s.work = task :: rest)
    (callback : Channel.Callback) (htask : task = .callback callback) :
    s.handlerRetries answers callback = false := by
  simpa [orderly, hlist, htask] using hguard

/-- One step of an orderly run. -/
theorem rest_step {a : Action T} (h : Rest s) (hguard : orderly threadPid s a = true)
    (hnext : next threadPid s a = some s') : Rest s' := by
  have hregistered : attemptRegistered s a = true := by
    by_cases hlive : s.state_ = .KConnecting
    · simp [attemptRegistered, h.attempt.live.mp hlive]
    · simp [attemptRegistered, hlive]
  have howns := owns_step h.owns hregistered hnext
  cases next_steps hnext with
  | startHere =>
      simp only [orderly, Bool.and_eq_true, Bool.or_eq_true, decide_eq_true_eq,
        Option.isNone_iff_eq_none, ne_eq, not_true_eq_false, false_or] at hguard
      obtain ⟨⟨hstarts, hstate⟩, hnone⟩ := hguard
      exact h.begin_now howns hstarts hnone hstate rfl rfl rfl rfl rfl
  | start =>
      simp only [orderly, Bool.and_eq_true, decide_eq_true_eq] at hguard
      exact h.begin_later howns hguard.1.1 hguard.1.2
  | stop =>
      refine ⟨howns, h.attempt.congr rfl rfl rfl,
        h.pending.congr rfl rfl rfl ?_ h.pending.behind⟩
      simp [starts]
  | restart =>
      simp only [orderly, Bool.and_eq_true, decide_eq_true_eq,
        Option.isNone_iff_eq_none] at hguard
      exact h.begin_now howns hguard.1 hguard.2 rfl rfl rfl rfl rfl rfl
  | push hmem => exact h.push hmem howns
  | swap _ hswap =>
      have hlist := PendingQueue.toList_swap hswap
      refine ⟨howns, h.attempt.congr rfl rfl rfl, h.pending.congr rfl rfl rfl ?_ ?_⟩
      · rw [starts, starts, hlist]
      · rw [hlist]
        exact h.pending.behind
  | run hidle hpop hrun => exact h.run (idle_work hidle) hpop howns hrun
  | dispatch _ _ hchannel hadded => exact h.dispatch hchannel hadded howns
  | work _ hlist hwork => exact h.work hlist (handlerRetries_of_orderly hguard hlist) howns hwork

/-- In an orderly run only `startInLoop` and `stopInLoop` retry, and in
`KDisconnected`. -/
theorem disconnected_of_retries {a : Action T} (hguard : orderly threadPid s a = true)
    (hnext : next threadPid s a = some s') (hretries : s.retries a = true) :
    s'.state_ = .KDisconnected := by
  cases next_steps hnext with
  | @run _ cb queue _ _ hpop hrun =>
      obtain ⟨hhead, _⟩ := PendingQueue.pop_eq_some.mp hpop
      simp only [retries, hhead, List.head?_cons] at hretries
      cases cb with
      | startInLoop => exact startInLoop_retries (s := { s with queue := queue }) hretries hrun
      | stopInLoop => exact (stopInLoop_acts hrun).2 (of_decide_eq_true hretries)
      | resetChannel => cases hretries
  | @work _ task rest _ _ hlist hwork =>
      rw [retries, hlist] at hretries
      cases task with
      | startInLoop => exact startInLoop_retries (s := { s with work := rest }) hretries hwork
      | callback callback =>
          have hfails : s.handlerRetries _ callback = true := hretries
          rw [handlerRetries_of_orderly hguard hlist callback rfl] at hfails
          cases hfails
  | startHere | start | stop | restart | push | swap | dispatch => cases hretries

end Connector

namespace Attempts

variable {T : Type}

def new : Attempts T := { Connector.new with retried := false }

/-- The function is the next one the loop thread runs. -/
def runsNext (s : Attempts T) (cb : Functor) : Prop := s.queue.functors.head? = some cb

def startsNext (s : Attempts T) : Prop :=
  s.runsNext .startInLoop ∨ s.work.head? = some .startInLoop

/-- The assertions, for whatever runs next, and what `retry` should leave behind. -/
structure AssertionsHold (s : Attempts T) : Prop where
  startInLoop : s.startsNext → s.state_ = .KDisconnected
  connecting : s.startsNext → s.connect_ = true → s.channel_ = none
  handleWrite : s.work.head? = some (.callback .writeCallback_) →
    s.state_ = .KConnecting ∨ s.state_ = .KDisconnected
  removeAndResetChannel : s.runsNext .stopInLoop ∨
    (∃ callback, s.work.head? = some (.callback callback)) →
    s.state_ = .KConnecting → s.registered ≠ []
  resetChannel : s.runsNext .resetChannel →
    ∀ channel, s.channel_ = some channel → s.awaited.head? = some channel.fd_
  retry : s.retried = true → s.state_ = .KDisconnected

variable [DecidableEq T] (threadPid : T)

def next (s : Attempts T) (a : Action T) : Option (Attempts T) :=
  (Connector.next threadPid s.toConnector a).map fun s' =>
    { s' with retried := s.retries a }

def system : Transition.System (Attempts T) (Action T) where
  init s := s = new
  next := next threadPid

variable {threadPid} {s : Attempts T}

omit [DecidableEq T] in
theorem startsNext_pending (h : s.startsNext) : 0 < s.starts := by
  rcases h with hrun | hwork
  · have hmem : Functor.startInLoop ∈ s.queue.toList :=
      List.mem_append_left _ (List.mem_of_mem_head? hrun)
    have hcount := List.count_pos_iff.mpr hmem
    rw [starts]
    omega
  · have hcount := List.count_pos_iff.mpr (List.mem_of_mem_head? hwork)
    rw [starts]
    omega

omit [DecidableEq T] in
/-- No channel is left when `startInLoop` runs: nothing is registered in state
`KDisconnected`, and a removed channel would have its `resetChannel` queued behind. -/
theorem channel_none_of_startsNext (h : Rest s.toConnector) (hstarts : s.startsNext) :
    s.channel_ = none := by
  rcases hstarts with hrun | hwork
  · have hbehind := h.pending.behind
    obtain ⟨rest, hlist⟩ : ∃ rest, s.queue.toList = .startInLoop :: rest := by
      obtain ⟨rest, hfunctors⟩ := List.head?_eq_some_iff.mp hrun
      exact ⟨rest ++ s.queue.pendingFunctors_, by rw [PendingQueue.toList, hfunctors]; rfl⟩
    rw [hlist, List.pairwise_cons] at hbehind
    have hnone : s.queue.toList.count .resetChannel = 0 := by
      rw [hlist, List.count_cons_of_ne (by simp)]
      exact List.count_eq_zero.mpr fun hmem => hbehind.1 _ hmem rfl rfl
    have hdead : s.state_ ≠ .KConnecting := by
      rw [h.pending.rest (startsNext_pending (.inl hrun))]
      simp
    have hregistered : s.registered = [] := by
      by_contra hlive
      exact hdead (h.attempt.live.mpr hlive)
    rw [h.owns.resets] at hnone
    cases hchannel : s.channel_ with
    | none => rfl
    | some channel =>
        cases hadded : channel.addedToLoop_ with
        | true => simp [registered, hchannel, hadded] at hregistered
        | false => simp [removed, hchannel, hadded] at hnone
  · exact h.pending.immediate (List.mem_of_mem_head? hwork)

omit [DecidableEq T] in
/-- The one queued `resetChannel` was queued for the channel it finds. -/
theorem awaited_of_runsNext (h : Rest s.toConnector) (hrun : s.runsNext .resetChannel)
    (channel : Channel) (hchannel : s.channel_ = some channel) :
    s.awaited.head? = some channel.fd_ := by
  have hmem : Functor.resetChannel ∈ s.queue.toList :=
    List.mem_append_left _ (List.mem_of_mem_head? hrun)
  have hcount := h.owns.resets
  have hpositive := List.count_pos_iff.mpr hmem
  have hremoved : channel.addedToLoop_ = false := by
    cases hadded : channel.addedToLoop_ with
    | true => simp [removed, hchannel, hadded] at hcount; omega
    | false => rfl
  have hone : s.queue.toList.count .resetChannel = 1 := by
    rw [hcount, removed, hchannel]
    simp [hremoved]
  have hlast := h.attempt.last channel hchannel hremoved
  obtain ⟨before, hbefore⟩ := List.getLast?_eq_some_iff.mp hlast
  simp only [awaited, hone, hbefore]
  simp

omit [DecidableEq T] in
theorem assertionsHold_of_rest (h : Rest s.toConnector)
    (hretried : s.retried = true → s.state_ = .KDisconnected) : s.AssertionsHold where
  startInLoop hstarts := h.pending.rest (startsNext_pending hstarts)
  connecting hstarts _ := channel_none_of_startsNext h hstarts
  handleWrite hwrite := by
    rcases h.pending.work with hnone | hstart | ⟨hlive, _⟩
    · rw [hnone] at hwrite
      cases hwrite
    · rw [hstart] at hwrite
      cases hwrite
    · exact .inl hlive
  removeAndResetChannel _ := h.attempt.live.mp
  resetChannel := awaited_of_runsNext h
  retry := hretried

/-- While attempts are begun from rest only and no handler finds one failed, every
assertion of the connector holds. -/
theorem assertionsHold_of_orderly (h : (system threadPid).ReachableVia
    (fun s a => orderly threadPid s.toConnector a = true) s) : s.AssertionsHold := by
  obtain ⟨hrest, hretried⟩ : Rest s.toConnector ∧
      (s.retried = true → s.state_ = .KDisconnected) := by
    apply h.invariant
      (I := fun s => Rest s.toConnector ∧ (s.retried = true → s.state_ = .KDisconnected))
    · rintro _ rfl
      refine ⟨rest_new, ?_⟩
      intro hretried
      cases hretried
    · intro s a _ hi hguard hnext
      obtain ⟨t, hstep, hresult⟩ := Option.map_eq_some_iff.mp hnext
      cases hresult
      exact ⟨rest_step hi.1 hguard hstep, disconnected_of_retries hguard hstep⟩
  exact assertionsHold_of_rest hrest hretried

/-- A second `start`, once the stopped attempt is cleaned up. -/
theorem assertionsHold_of_orderly_again :
    ∃ s, (system false).Reachable s ∧ s.startsNext ∧ s.ops.length = 3 ∧ s.AssertionsHold := by
  obtain ⟨s, hreach, hstarts, hops⟩ : ∃ s, (system false).ReachableVia
      (fun s a => orderly false s.toConnector a = true) s ∧
      s.queue.functors.head? = some .startInLoop ∧ s.ops.length = 3 :=
    Transition.System.exists_of_exec _ new
      [.start true, .push true .startInLoop, .swap, .run ⟨none, some .EINPROGRESS, none, false⟩,
        .stop true, .push true .stopInLoop, .swap, .run ⟨none, none, none, false⟩,
        .swap, .run ⟨none, none, none, false⟩, .start true, .push true .startInLoop, .swap]
      rfl (by decide)
  exact ⟨s, hreach.reachable, .inl hstarts, hops, assertionsHold_of_orderly hreach⟩

/-- One `start`, and the attempt is refused: `retry` leaves `KConnecting` behind, and
the next `start` finds it. -/
theorem retry_leaves_connecting : ∃ s s', (system false).exec (fun _ _ => True) new
      [.start false, .work ⟨none, some .EINPROGRESS, none, false⟩, .dispatch Poll.POLLOUT,
        .work ⟨none, none, some .ECONNREFUSED, false⟩] = some s ∧
    ¬s.AssertionsHold ∧
    (system false).exec (fun _ _ => True) s
      [.swap, .run ⟨none, none, none, false⟩, .start false] = some s' ∧
    s'.startsNext ∧ s'.state_ = .KConnecting := by
  refine ⟨_, _, rfl, ?_, rfl, .inr rfl, rfl⟩
  intro hassertions
  cases hassertions.retry rfl

/-- A `start` behind a `stop` in one batch: `startInLoop` runs before the
`resetChannel` that `stopInLoop` queues, and `connecting` finds the old channel. -/
theorem start_before_reset : ∃ s, (system false).exec (fun _ _ => True) new
      [.start true, .push true .startInLoop, .swap, .run ⟨none, some .EINPROGRESS, none, false⟩,
        .stop true, .push true .stopInLoop, .start true, .push true .startInLoop, .swap,
        .run ⟨none, none, none, false⟩] = some s ∧
    s.startsNext ∧ s.connect_ = true ∧ s.channel_ ≠ none ∧ ¬s.AssertionsHold := by
  refine ⟨_, rfl, .inl rfl, rfl, by decide, ?_⟩
  intro hassertions
  cases hassertions.connecting (.inl rfl) rfl

end Attempts

end MuduoRpc
