import MuduoRpc.Tcp.Deaf
import MuduoRpc.Tcp.Shutdown

/-!
`forceClose`. The call assigns `KDisconnecting`, and the functor it queues acts
only in the states `KConnected` and `KConnecting`. When the functor runs, the
connection is closed exactly if a close was handled in between.
-/

namespace MuduoRpc.TcpConnection

variable {T : Type} {s s' s'' : TcpConnection T}

/-- A function that leaves the calls of the threads alone and takes nothing
out of the queue. -/
structure Extends (s s' : TcpConnection T) : Prop where
  calls : s'.calls = s.calls
  queue : s.queue.toList <+: s'.queue.toList

theorem Adds.extends {events : List (Event T)} (h : Adds s events s') : Extends s s' := by
  obtain ⟨cbs, hqueue, _⟩ := h.queue
  exact ⟨h.calls, cbs, hqueue.symm⟩

theorem Quiet.extends (h : Quiet s s') : Extends s s' := by
  obtain ⟨_, hadds, _⟩ := h.adds
  exact hadds.extends

theorem extends_shutdownInLoop (s : TcpConnection T) : Extends s s.shutdownInLoop := by
  unfold shutdownInLoop
  split_ifs
  · exact ⟨rfl, List.prefix_rfl⟩
  · exact (adds_emit s _).extends

theorem Sends.extends {t : T} {message : List UInt8} {result : WriteResult}
    (h : Sends s t message result s') : Extends s s' := by
  obtain ⟨_, _, hadds, _⟩ := h.adds
  exact hadds.extends

theorem Extends.trans (h : Extends s s') (h' : Extends s' s'') :
    Extends s s'' :=
  ⟨h'.calls.trans h.calls, h.queue.trans h'.queue⟩

theorem Writes.extends {result : WriteResult} (h : Writes s result s') : Extends s s' := by
  cases h with
  | idle _ => exact ⟨rfl, List.prefix_rfl⟩
  | nothing _ _ => exact (adds_emit s _).extends
  | something hfits _ _ => exact (adds_retrieveOutput s hfits).extends
  | drained hfits _ _ _ =>
      exact (adds_retrieveOutput s hfits).extends.trans (quiet_stopWriting _).extends
  | halfClosed hfits _ _ _ _ =>
      exact ((adds_retrieveOutput s hfits).extends.trans (quiet_stopWriting _).extends).trans
        (adds_emit _ _).extends

theorem extends_runFunctor {answers : Answers} {cb : Functor T}
    (hrun : s.runFunctor answers cb = some s') : Extends s s' := by
  cases cb with
  | sendInLoop t message => exact (sendInLoop_sends hrun).extends
  | shutdownInLoop => cases hrun; exact extends_shutdownInLoop s
  | forceCloseInLoop => cases hrun; exact (quiet_forceCloseInLoop s).extends
  | startReadInLoop => cases hrun; exact (quiet_startReadInLoop s).extends
  | stopReadInLoop => cases hrun; exact (quiet_stopReadInLoop s).extends
  | connectDestroyed => cases hrun; exact (quiet_connectDestroyed s).extends
  | writecompletecallback => cases hrun; exact (adds_emit s _).extends
  | writecompletecallbackMember => cases hrun; exact ⟨rfl, List.prefix_rfl⟩

theorem extends_runCallback {answers : Answers} {callback : Channel.Callback}
    (hrun : s.runCallback answers callback = some s') : Extends s s' := by
  cases callback with
  | closeCallback_ => cases hrun; exact (quiet_handleClose s).extends
  | readCallback_ => exact (quiet_handleRead hrun).extends
  | errorCallback_ => cases hrun; exact ⟨rfl, List.prefix_rfl⟩
  | writeCallback_ => exact (handleWrite_writes hrun).extends

theorem state_handleClose (h : s.state_ = .KConnected ∨ s.state_ = .KDisconnecting) :
    s.handleClose.state_ = .KDisconnected := by
  rw [handleClose, if_pos h]
  rfl

theorem Unclosed.steady (h : Unclosed s) (hlog : lifecycle s'.log = lifecycle s.log) :
    Unclosed s' := by
  rw [Unclosed, hlog]
  exact h

theorem getElem?_extends {xs ys : List (Functor T)} {n : Nat} {cb : Functor T}
    (h : xs <+: ys) (hget : xs[n]? = some cb) : ys[n]? = some cb := by
  obtain ⟨hlt, rfl⟩ := List.getElem?_eq_some_iff.mp hget
  exact List.prefix_iff_getElem?.mp h n hlt

variable [DecidableEq T]

/-- Where one call of `forceClose` stands: its functor not pushed yet, queued
with `ahead` others before it, or run. -/
inductive Forcing
  | called
  | queued (ahead : Nat)
  | ran
deriving DecidableEq, Repr

/-- The step runs `handleClose`, for the peer's close or from
`forceCloseInLoop`. -/
def handlesClose (s : TcpConnection T) : Action T → Bool
  | .run _ =>
      s.queue.functors.head? = some .forceCloseInLoop ∧
        (s.state_ = .KConnected ∨ s.state_ = .KConnecting)
  | .callback answers =>
      s.work.head? = some .closeCallback_ ∨
        s.work.head? = some .readCallback_ ∧ answers.read = .received []
  | _ => false

/-- The connection is closed, and its close was reported once. -/
structure ClosedOnce (s : TcpConnection T) : Prop where
  state : s.state_ = .KDisconnected
  mute : Mute s
  closed : s.log.count .closecallback = 1
  reported : s.log.count (.connectioncallback false) = 1

/-- A connection on which thread `t` has called `forceClose`; `handled` says
whether a close has been handled since. -/
structure ForceClosing (T : Type) where
  conn : TcpConnection T
  forcing : Forcing
  handled : Bool

def Forcing.after (t : T) (s : TcpConnection T) : Forcing → Action T → Forcing
  | .called, .push t' => if t' = t then .queued s.queue.toList.length else .called
  | .queued 0, .run _ => .ran
  | .queued (ahead + 1), .run _ => .queued ahead
  | forcing, _ => forcing

/-- Every run from a call of `forceClose` on a connected connection to the run
of the functor that the call queues. -/
def ForceClosing.system (threadPid t : T) : Transition.System (ForceClosing T) (Action T) where
  init f := f.forcing = .called ∧ f.handled = false ∧
    ∃ s, (TcpConnection.system threadPid).Reachable s ∧ s.state_ = .KConnected ∧
      s.next threadPid (.forceClose t) = some f.conn
  next f a :=
    if f.forcing = .ran then none
    else do
      let conn ← f.conn.next threadPid a
      some ⟨conn, f.forcing.after t f.conn a, f.handled || handlesClose f.conn a⟩

/-- The step is the assignment of a `shutdown` or `forceClose`. -/
def assigns : Action T → Bool
  | .assign _ => true
  | _ => false

/-- No `shutdown` or `forceClose` assigns `KDisconnecting` to a connection that
has been disconnected, and reading is not started on it. -/
def undisturbed (threadPid : T) (f : ForceClosing T) (a : Action T) : Prop :=
  f.conn.state_ = .KDisconnected → restarts threadPid f.conn a = false ∧ assigns a = false

variable {threadPid t : T} {a : Action T}

theorem calls_hand {u : T} {call : Call T} {cb : Functor T} (hcall : s.calls t = some call)
    (hfree : s.calls u = none) : (s.hand u cb).calls t = some call := by
  have hne : t ≠ u := by
    rintro rfl
    rw [hcall] at hfree
    cases hfree
  exact (Function.update_of_ne hne _ _).trans hcall

theorem calls_setCall_ne {u : T} {call : Call T} {other : Option (Call T)}
    (hcall : s.calls t = some call) (hne : t ≠ u) : (s.setCall u other).calls t = some call :=
  (Function.update_of_ne hne _ _).trans hcall

/-- Only its own steps move a thread that is inside a call. -/
theorem Steps.calls_kept {call : Call T} (h : Steps threadPid s a s')
    (hcall : s.calls t = some call) (hassign : a ≠ .assign t) (hpush : a ≠ .push t) :
    s'.calls t = some call := by
  cases h with
  | connectEstablished => rw [(quiet_connectEstablished s).extends.calls, hcall]
  | sendHere _ _ hsend =>
      rw [(sendInLoop_sends hsend).extends.calls]
      exact hcall
  | @send u message _ _ hfree _ =>
      have hsent : (s.emit (.send u message)).calls t = some call := hcall
      exact calls_hand hsent hfree
  | shutdown hfree _ | forceClose hfree _ =>
      apply calls_setCall_ne hcall
      rintro rfl
      rw [hcall] at hfree
      cases hfree
  | assignShutdownHere _ =>
      have hne : t ≠ threadPid := fun heq => hassign (congrArg Action.assign heq.symm)
      rw [(extends_shutdownInLoop _).calls]
      exact calls_setCall_ne hcall hne
  | @assignShutdown u _ _ =>
      have hne : t ≠ u := fun heq => hassign (congrArg Action.assign heq.symm)
      exact calls_setCall_ne (calls_setCall_ne hcall hne) hne
  | @assignForceClose u _ =>
      have hne : t ≠ u := fun heq => hassign (congrArg Action.assign heq.symm)
      have hset : (s.setstate .KDisconnecting).calls t = some call := hcall
      exact calls_setCall_ne hset hne
  | startReadHere => rw [(quiet_startReadInLoop s).extends.calls, hcall]
  | stopReadHere => rw [(quiet_stopReadInLoop s).extends.calls, hcall]
  | startRead hfree | stopRead hfree | removeConnection hfree => exact calls_hand hcall hfree
  | connectDestroyed => rw [(quiet_connectDestroyed s).extends.calls, hcall]
  | @push u _ _ =>
      have hne : t ≠ u := fun heq => hpush (congrArg Action.push heq.symm)
      exact calls_setCall_ne hcall hne
  | run _ hrun =>
      rw [(extends_runFunctor hrun).calls]
      exact hcall
  | callback _ hrun =>
      rw [(extends_runCallback hrun).calls]
      exact hcall
  | swap | dispatch | consume => exact hcall

/-- Functors leave the queue only by being run. -/
theorem Steps.queue_extends (h : Steps threadPid s a s') (hrun : ∀ answers, a ≠ .run answers) :
    s.queue.toList <+: s'.queue.toList := by
  cases h with
  | connectEstablished => exact (quiet_connectEstablished s).extends.queue
  | sendHere _ _ hsend => exact (sendInLoop_sends hsend).extends.queue
  | assignShutdownHere _ =>
      exact (extends_shutdownInLoop ((s.setstate .KDisconnecting).setCall threadPid none)).queue
  | startReadHere => exact (quiet_startReadInLoop s).extends.queue
  | stopReadHere => exact (quiet_stopReadInLoop s).extends.queue
  | connectDestroyed => exact (quiet_connectDestroyed s).extends.queue
  | push _ =>
      refine ⟨_, (PendingQueue.toList_push s.queue _).symm⟩
  | swap hqueue =>
      rw [← PendingQueue.toList_swap hqueue]
  | @run answers _ _ _ _ _ => exact absurd rfl (hrun answers)
  | callback _ hcallback => exact (extends_runCallback hcallback).queue
  | send | shutdown | forceClose | assignShutdown | assignForceClose | startRead | stopRead
  | removeConnection | dispatch | consume => exact List.prefix_rfl

theorem Steps.queue_run {answers : Answers} (h : Steps threadPid s (.run answers) s') :
    ∃ cb rest, s.queue.toList = cb :: rest ∧ rest <+: s'.queue.toList := by
  cases h with
  | @run _ cb queue _ hpop hrun =>
      exact ⟨cb, queue.toList, PendingQueue.toList_pop hpop, (extends_runFunctor hrun).queue⟩

/-- On an open connection `handleClose` closes it. -/
theorem Steps.state_of_handlesClose (h : Steps threadPid s a s')
    (hopen : s.state_ = .KConnected ∨ s.state_ = .KDisconnecting)
    (hcloses : handlesClose s a = true) : s'.state_ = .KDisconnected := by
  cases h with
  | @run answers cb queue _ hpop hrun =>
      simp only [handlesClose, PendingQueue.head?_of_pop hpop, Option.some.injEq,
        decide_eq_true_eq] at hcloses
      obtain ⟨rfl, hstate⟩ := hcloses
      cases hrun
      have hstate' : { s with queue := queue }.state_ = .KConnected ∨
          { s with queue := queue }.state_ = .KConnecting := hstate
      rw [forceCloseInLoop, if_pos hstate']
      exact state_handleClose hopen
  | @callback answers callback rest _ hwork hrun =>
      simp only [handlesClose, hwork, List.head?_cons, Option.some.injEq,
        decide_eq_true_eq] at hcloses
      rcases hcloses with rfl | ⟨rfl, hend⟩
      · cases hrun
        exact state_handleClose hopen
      · rw [runCallback, hend] at hrun
        cases hrun
        exact state_handleClose hopen
  | _ => cases hcloses

/-- Nothing else disconnects a connection in the state `KDisconnecting`. -/
theorem Steps.handlesClose_of_state (h : Steps threadPid s a s')
    (hbefore : s.state_ = .KDisconnecting) (hafter : s'.state_ = .KDisconnected) :
    handlesClose s a = true := by
  have hmoved : s'.state_ ≠ s.state_ := by
    rw [hbefore, hafter]
    exact nofun
  cases h with
  | connectEstablished =>
      rw [TcpConnection.connectEstablished, if_neg (by simp [hbefore])] at hmoved
      exact absurd rfl hmoved
  | sendHere _ hstate _ => cases hbefore.symm.trans hstate
  | assignShutdownHere _ => cases (steady_shutdownInLoop _).state.symm.trans hafter
  | assignShutdown | assignForceClose => cases hafter
  | startReadHere => exact absurd (steady_startReadInLoop s).state hmoved
  | stopReadHere => exact absurd (steady_stopReadInLoop s).state hmoved
  | connectDestroyed =>
      rw [TcpConnection.connectDestroyed, if_neg (by simp [hbefore])] at hmoved
      exact absurd (steady_remove s).state hmoved
  | @run answers cb queue _ hpop hrun =>
      exfalso
      apply hmoved
      cases cb with
      | sendInLoop => exact (sendInLoop_sends hrun).steady.state
      | shutdownInLoop => cases hrun; exact (steady_shutdownInLoop _).state
      | forceCloseInLoop =>
          rw [runFunctor, forceCloseInLoop, if_neg (by simp [hbefore])] at hrun
          cases hrun
          rfl
      | startReadInLoop => cases hrun; exact (steady_startReadInLoop _).state
      | stopReadInLoop => cases hrun; exact (steady_stopReadInLoop _).state
      | connectDestroyed =>
          rw [runFunctor, TcpConnection.connectDestroyed, if_neg (by simp [hbefore])] at hrun
          cases hrun
          exact (steady_remove _).state
      | writecompletecallback | writecompletecallbackMember => cases hrun; rfl
  | @callback answers callback rest _ hwork hrun =>
      simp only [handlesClose, hwork, List.head?_cons, Option.some.injEq, decide_eq_true_eq]
      cases callback with
      | closeCallback_ => exact .inl rfl
      | readCallback_ =>
          refine .inr ⟨rfl, ?_⟩
          cases hread : answers.read with
          | received data =>
              simp only [runCallback, hread, handleRead] at hrun
              split_ifs at hrun with hempty <;> cases hrun
              · rw [List.isEmpty_iff.mp hempty]
              · exact absurd rfl hmoved
          | failed error =>
              simp only [runCallback, hread, handleRead] at hrun
              cases hrun
              exact absurd rfl hmoved
      | errorCallback_ =>
          cases hrun
          exact absurd rfl hmoved
      | writeCallback_ => exact absurd (handleWrite_writes hrun).steady.state hmoved
  | send | shutdown | forceClose | startRead | stopRead | removeConnection | push | swap
  | dispatch | consume => exact absurd rfl hmoved

theorem count_lifecycle (s : TcpConnection T) {e : Event T} (he : e.isLifecycle = true) :
    s.log.count e = (lifecycle s.log).count e :=
  (List.count_filter he).symm

theorem closedOnce_of_closed (h : Unclosed s) (hstate : s'.state_ = .KDisconnected)
    (hlog : lifecycle s'.log =
      lifecycle s.log ++ [.connectioncallback false, .closecallback]) (hmute : Mute s') :
    ClosedOnce s' := by
  have hreported : .connectioncallback false ∉ lifecycle s.log :=
    fun hmem => by cases h _ hmem
  have hclosed : .closecallback ∉ lifecycle s.log := fun hmem => by cases h _ hmem
  refine ⟨hstate, hmute, ?_, ?_⟩
  · rw [count_lifecycle s' rfl, hlog, List.count_append, List.count_eq_zero.mpr hclosed]
    rfl
  · rw [count_lifecycle s' rfl, hlog, List.count_append, List.count_eq_zero.mpr hreported]
    rfl

/-- Since the assignment: either no close has been handled, or one has. -/
def Settled (handled : Bool) (s : TcpConnection T) : Prop :=
  s.state_ = .KDisconnecting ∧ Unclosed s ∧ handled = false ∨ ClosedOnce s ∧ handled = true

theorem Steps.settled {handled : Bool} (h : Steps threadPid s a s') (hs : Settled handled s)
    (hguard : s.state_ = .KDisconnected → restarts threadPid s a = false ∧ assigns a = false) :
    Settled (handled || handlesClose s a) s' := by
  rcases hs with ⟨hstate, hunclosed, rfl⟩ | ⟨hclosed, rfl⟩
  · have hstays : s'.state_ = .KDisconnecting → handlesClose s a = false := by
      intro hstate'
      apply Bool.eq_false_iff.mpr
      intro hcloses
      cases hstate'.symm.trans (h.state_of_handlesClose (.inr hstate) hcloses)
    cases h.turns with
    | steady hs' hlog =>
        have hstate' := hs'.trans hstate
        exact .inl ⟨hstate', hunclosed.steady hlog, hstays hstate'⟩
    | established hs _ _ => cases hstate.symm.trans hs
    | disconnecting _ hs' hlog => exact .inl ⟨hs', hunclosed.steady hlog, hstays hs'⟩
    | closed _ hs' hlog hmute =>
        exact .inr ⟨closedOnce_of_closed hunclosed hs' hlog hmute,
          h.handlesClose_of_state hstate hs'⟩
    | destroyed hs _ _ _ => cases hstate.symm.trans hs
  · have hstate := hclosed.state
    obtain ⟨hrestart, hassign⟩ := hguard hstate
    right
    refine ⟨?_, rfl⟩
    cases h.turns with
    | steady hs' hlog =>
        refine ⟨hs'.trans hstate, ?_, ?_, ?_⟩
        · exact h.mute hclosed.mute (by simp [hstate]) hrestart fun hnot => absurd hstate hnot
        · rw [count_lifecycle s' rfl, hlog, ← count_lifecycle s rfl, hclosed.closed]
        · rw [count_lifecycle s' rfl, hlog, ← count_lifecycle s rfl, hclosed.reported]
    | established hs _ _ => cases hstate.symm.trans hs
    | disconnecting heq _ _ =>
        rw [heq] at hassign
        cases hassign
    | closed hs _ _ _ => rcases hs with hs | hs <;> cases hstate.symm.trans hs
    | destroyed hs _ _ _ => cases hstate.symm.trans hs

/-- Between the test and the assignment of `forceClose`. -/
def Tested (handled : Bool) (s : TcpConnection T) : Prop :=
  s.state_ = .KDisconnected ∨
    (s.state_ = .KConnected ∨ s.state_ = .KDisconnecting) ∧ Unclosed s ∧ handled = false

theorem Steps.tested {handled : Bool} (h : Steps threadPid s a s') (hs : Tested handled s)
    (hguard : s.state_ = .KDisconnected → assigns a = false) :
    Tested (handled || handlesClose s a) s' := by
  rcases hs with hstate | ⟨hopen, hunclosed, rfl⟩
  · left
    cases h.turns with
    | steady hs' _ => exact hs'.trans hstate
    | established hs _ _ => cases hstate.symm.trans hs
    | disconnecting heq _ _ =>
        have hassign := hguard hstate
        rw [heq] at hassign
        cases hassign
    | closed _ hs' _ _ => exact hs'
    | destroyed _ hs' _ _ => exact hs'
  · have hstays : s'.state_ ≠ .KDisconnected → handlesClose s a = false := by
      intro hstate'
      apply Bool.eq_false_iff.mpr
      intro hcloses
      exact hstate' (h.state_of_handlesClose hopen hcloses)
    cases h.turns with
    | steady hs' hlog =>
        have hopen' : s'.state_ = .KConnected ∨ s'.state_ = .KDisconnecting := hs' ▸ hopen
        refine .inr ⟨hopen', hunclosed.steady hlog, hstays ?_⟩
        rcases hopen' with hstate' | hstate' <;> rw [hstate'] <;> exact nofun
    | established _ hs' _ =>
        rename_i hs _
        rcases hopen with hstate | hstate <;> cases hstate.symm.trans hs
    | disconnecting _ hs' hlog =>
        refine .inr ⟨.inr hs', hunclosed.steady hlog, hstays ?_⟩
        rw [hs']
        exact nofun
    | closed _ hs' _ _ => exact .inl hs'
    | destroyed _ hs' _ _ => exact .inl hs'

/-- The invariant of a call of `forceClose` until its functor has run. -/
def Forced (t : T) : Forcing → Bool → TcpConnection T → Prop
  | .called, handled, s =>
      s.calls t = some (.closing .forceClose) ∧ Tested handled s ∨
        s.calls t = some (.pushing .forceCloseInLoop) ∧ Settled handled s
  | .queued ahead, handled, s =>
      s.queue.toList[ahead]? = some .forceCloseInLoop ∧ Settled handled s
  | .ran, handled, s => Settled handled s

theorem after_called (hpush : a ≠ .push t) : Forcing.after t s .called a = .called := by
  cases a with
  | push t' =>
      have hne : t' ≠ t := fun heq => hpush (congrArg Action.push heq)
      exact if_neg hne
  | _ => rfl

theorem after_queued {ahead : Nat} (hrun : ∀ answers, a ≠ .run answers) :
    Forcing.after t s (.queued ahead) a = .queued ahead := by
  cases a with
  | run answers => exact absurd rfl (hrun answers)
  | _ => cases ahead <;> rfl

theorem forced_called {handled : Bool} (h : Forced t .called handled s)
    (hguard : s.state_ = .KDisconnected → restarts threadPid s a = false ∧ assigns a = false)
    (hstep : Steps threadPid s a s') :
    Forced t (Forcing.after t s .called a) (handled || handlesClose s a) s' := by
  by_cases hpush : a = .push t
  · subst hpush
    rcases h with ⟨hcall, _⟩ | ⟨hcall, hsettled⟩
    · cases hstep with
      | push hpushing => cases hcall.symm.trans hpushing
    · have hsettled' := hstep.settled hsettled hguard
      cases hstep with
      | @push _ cb hpushing =>
          have hcb : Functor.forceCloseInLoop = cb := by
            cases hcall.symm.trans hpushing
            rfl
          rw [Forcing.after, if_pos rfl]
          refine ⟨?_, hsettled'⟩
          change (s.queue.push cb).toList[s.queue.toList.length]? = _
          rw [PendingQueue.toList_push, List.getElem?_concat_length, hcb]
  · rw [after_called hpush]
    by_cases hassign : a = .assign t
    · subst hassign
      rcases h with ⟨hcall, htested⟩ | ⟨hcall, _⟩
      · right
        rcases htested with hstate | ⟨_, hunclosed, rfl⟩
        · cases (hguard hstate).2
        · cases hstep with
          | assignShutdownHere hother => cases hcall.symm.trans hother
          | assignShutdown _ hother => cases hcall.symm.trans hother
          | assignForceClose _ =>
              exact ⟨Function.update_self _ _ _, .inl ⟨rfl, hunclosed, rfl⟩⟩
      · cases hstep with
        | assignShutdownHere hother => cases hcall.symm.trans hother
        | assignShutdown _ hother => cases hcall.symm.trans hother
        | assignForceClose hother => cases hcall.symm.trans hother
    · rcases h with ⟨hcall, htested⟩ | ⟨hcall, hsettled⟩
      · exact .inl ⟨hstep.calls_kept hcall hassign hpush,
          hstep.tested htested fun hstate => (hguard hstate).2⟩
      · exact .inr ⟨hstep.calls_kept hcall hassign hpush, hstep.settled hsettled hguard⟩

theorem forced_queued {ahead : Nat} {handled : Bool} (h : Forced t (.queued ahead) handled s)
    (hguard : s.state_ = .KDisconnected → restarts threadPid s a = false ∧ assigns a = false)
    (hstep : Steps threadPid s a s') :
    Forced t (Forcing.after t s (.queued ahead) a) (handled || handlesClose s a) s' := by
  obtain ⟨hqueued, hsettled⟩ := h
  have hsettled' := hstep.settled hsettled hguard
  by_cases hrun : ∃ answers, a = .run answers
  · obtain ⟨answers, rfl⟩ := hrun
    cases ahead with
    | zero => exact hsettled'
    | succ ahead =>
        obtain ⟨cb, rest, hlist, hrest⟩ := hstep.queue_run
        rw [hlist, List.getElem?_cons_succ] at hqueued
        exact ⟨getElem?_extends hrest hqueued, hsettled'⟩
  · have hnot : ∀ answers, a ≠ .run answers := fun answers heq => hrun ⟨answers, heq⟩
    rw [after_queued hnot]
    exact ⟨getElem?_extends (hstep.queue_extends hnot) hqueued, hsettled'⟩

theorem forced_of_reachable {f : ForceClosing T}
    (h : (ForceClosing.system threadPid t).ReachableVia (undisturbed threadPid) f) :
    Forced t f.forcing f.handled f.conn := by
  apply h.invariant (I := fun f => Forced t f.forcing f.handled f.conn)
  · rintro ⟨conn, forcing, handled⟩ ⟨hforcing, hhandled, s, hreach, hstate, hnext⟩
    cases hforcing
    cases hhandled
    have hunclosed := unclosed_of_open hreach (.inr hstate)
    cases (next_steps hnext).2 with
    | forceClose _ _ =>
        left
        exact ⟨Function.update_self _ _ _, .inr ⟨.inl hstate, hunclosed, rfl⟩⟩
  · intro f a f' hi hguard hnext
    simp only [ForceClosing.system] at hnext
    split_ifs at hnext with hran
    obtain ⟨conn, hconn, hstate⟩ := Option.bind_eq_some_iff.mp hnext
    cases hstate
    have hstep := (next_steps hconn).2
    cases hforcing : f.forcing with
    | called =>
        rw [hforcing] at hi
        exact forced_called hi hguard hstep
    | queued ahead =>
        rw [hforcing] at hi
        exact forced_queued hi hguard hstep
    | ran => exact absurd hforcing hran

/-- When the functor of `forceClose` has run, the connection is closed, once,
exactly if a close was handled between the call and the run. -/
theorem closedOnce_iff_handled {f : ForceClosing T}
    (h : (ForceClosing.system threadPid t).ReachableVia (undisturbed threadPid) f)
    (hran : f.forcing = .ran) : ClosedOnce f.conn ↔ f.handled = true := by
  have hforced := forced_of_reachable h
  rw [hran] at hforced
  rcases hforced with ⟨hstate, _, hhandled⟩ | ⟨hclosed, hhandled⟩
  · rw [hhandled]
    constructor
    · intro hclosed
      cases hstate.symm.trans hclosed.state
    · exact nofun
  · exact iff_of_true hclosed hhandled

instance (f : ForceClosing T) (a : Action T) : Decidable (undisturbed threadPid f a) :=
  inferInstanceAs (Decidable (_ → _))

/-- An established connection whose loop thread has just called `forceClose`. -/
def forceCloseCalled : ForceClosing Bool where
  conn := (new 5 8 false).connectEstablished.setCall true (some (.closing .forceClose))
  forcing := .called
  handled := false

theorem forceCloseCalled_init : (ForceClosing.system true true).init forceCloseCalled := by
  have hnew : (system true).Reachable (new 5 8 false) := .start ⟨5, 8, false, rfl⟩
  have hestablished : (system true).next (new 5 8 false) .connectEstablished =
      some (new 5 8 false).connectEstablished := rfl
  exact ⟨rfl, rfl, (new 5 8 false).connectEstablished, hnew.step trivial hestablished, rfl, rfl⟩

/-- The peer hangs up in the iteration before the functor runs. -/
theorem closedOnce_iff_handled_hangup : ∃ f : ForceClosing Bool,
    f.handled = true ∧ (ClosedOnce f.conn ↔ f.handled = true) := by
  obtain ⟨f, hreach, hran, hhandled⟩ : ∃ f, (ForceClosing.system true true).ReachableVia
      (undisturbed true) f ∧ f.forcing = .ran ∧ f.handled = true :=
    Transition.System.exists_of_exec _ forceCloseCalled
      [.assign true, .push true, .dispatch 0x10, .callback ⟨.accepted 0, .received []⟩, .swap,
        .run ⟨.accepted 0, .received []⟩] forceCloseCalled_init (by decide)
  exact ⟨f, hhandled, closedOnce_iff_handled hreach hran⟩

/-- The functor of `forceClose` runs alone: it finds `KDisconnecting`, the
channel is still reading and no callback is invoked. -/
theorem forceClose_not_closed : ∃ f : ForceClosing Bool,
    (ForceClosing.system true true).Reachable f ∧ f.forcing = .ran ∧
      f.conn.state_ = .KDisconnecting ∧ f.conn.channel_.isReading = true ∧
      f.conn.log = [.connectioncallback true] :=
  Transition.System.exists_of_exec _ forceCloseCalled
    [.assign true, .push true, .swap, .run ⟨.accepted 0, .received []⟩]
    forceCloseCalled_init (by decide)

end MuduoRpc.TcpConnection
