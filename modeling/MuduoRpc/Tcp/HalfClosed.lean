import MuduoRpc.Tcp.Deaf
import MuduoRpc.Tcp.SentMessages
import MuduoRpc.Tcp.Shutdown

/-!
A connection behind its half-close. It may be closed then, by the peer, by
`forceClose` or by its owner: every accepted message has been written, none is
accepted any more, and none is written.
-/

namespace MuduoRpc.TcpConnection

variable {T : Type} [DecidableEq T] {threadPid : T}
variable {s s' : TcpConnection T} {events : List (Event T)}

/-- No message waits to be written, and none has been given up. -/
structure Spent (s : TcpConnection T) : Prop where
  empty : s.outputbuffer_.bytes = []
  unsent : ∀ t, outstanding t s = []
  accepted : ∀ t message, .gaveUp t message ∉ s.log

theorem Spent.adds (h : Spent s) (hadds : Adds s events s')
    (hevents : ∀ e ∈ events, e.isCall = false) (hempty : s'.outputbuffer_.bytes = []) :
    Spent s' where
  empty := hempty
  unsent t := (hadds.outstanding t).trans (h.unsent t)
  accepted t message hmem := by
    rw [hadds.log] at hmem
    rcases List.mem_append.mp hmem with hold | hnew
    · exact h.accepted t message hold
    · cases hevents _ hnew

theorem Spent.quiet (h : Spent s) (hquiet : Quiet s s') : Spent s' := by
  obtain ⟨events, hadds, hplain⟩ := hquiet.adds
  apply h.adds hadds
  · intro e he
    have hevent := hplain e he
    cases e <;> first | rfl | cases hevent
  · rw [hquiet.output]
    exact h.empty

/-- A step that moves functors or calls and nothing else. -/
theorem Spent.reschedule (h : Spent s) (houtput : s'.outputbuffer_ = s.outputbuffer_)
    (hlog : s'.log = s.log) (hout : ∀ t, outstanding t s' = outstanding t s) : Spent s' where
  empty := houtput ▸ h.empty
  unsent t := (hout t).trans (h.unsent t)
  accepted := hlog ▸ h.accepted

theorem Spent.setCall {t : T} {call : Option (Call T)} (h : Spent s)
    (hold : ∀ t' message, s.calls t ≠ some (.pushing (.sendInLoop t' message)))
    (hnew : ∀ t' message, call ≠ some (.pushing (.sendInLoop t' message))) :
    Spent (s.setCall t call) :=
  h.reschedule rfl rfl (outstanding_setCall hold hnew)

theorem Spent.shutdownInLoop (h : Spent s) : Spent s.shutdownInLoop := by
  unfold TcpConnection.shutdownInLoop
  split_ifs
  · exact h
  · exact h.adds (adds_emit s _) (by simp [Event.isCall]) h.empty

/-- There is nothing to write: a write takes no byte. -/
theorem Spent.writes {result : WriteResult} (h : Spent s) (hw : Writes s result s') :
    Spent s' := by
  have hnone : s.outputbuffer_.readableBytes = 0 := bytes_eq_nil.mp h.empty
  cases hw with
  | idle _ => exact h
  | nothing _ _ => exact h.adds (adds_emit s _) (by simp [Event.isCall]) h.empty
  | something _ _ hless => omega
  | drained hfits _ hall _ =>
      have hquiet := quiet_stopWriting (s.retrieveOutput _ hfits)
      have hretrieved : Spent (s.retrieveOutput _ hfits) := by
        apply h.adds (adds_retrieveOutput s hfits) (by simp [Event.isCall])
        rw [← hquiet.output]
        exact bytes_stopWriting s hfits hall
      exact hretrieved.quiet hquiet
  | halfClosed _ _ hpos hall _ => omega

/-- No `sendInLoop` is in the queue. -/
theorem Spent.runFunctor {answers : Answers} {cb : Functor T}
    {queue : PendingQueue (Functor T)} (h : Spent s) (hpop : s.queue.pop = some (cb, queue))
    (hrun : { s with queue := queue }.runFunctor answers cb = some s') : Spent s' := by
  have hpopped : ∀ t, cb.messageOf t = [] ∧ outstanding t { s with queue := queue } = [] := by
    intro t
    exact List.append_eq_nil_iff.mp ((outstanding_pop hpop t).symm.trans (h.unsent t))
  have hrest : Spent { s with queue := queue } := ⟨h.empty, fun t => (hpopped t).2, h.accepted⟩
  cases cb with
  | sendInLoop t message =>
      have hnone : (Functor.sendInLoop t message).messageOf t = [] := (hpopped t).1
      simp [Functor.messageOf] at hnone
  | shutdownInLoop => cases hrun; exact hrest.shutdownInLoop
  | forceCloseInLoop => cases hrun; exact hrest.quiet (quiet_forceCloseInLoop _)
  | startReadInLoop => cases hrun; exact hrest.quiet (quiet_startReadInLoop _)
  | stopReadInLoop => cases hrun; exact hrest.quiet (quiet_stopReadInLoop _)
  | connectDestroyed => cases hrun; exact hrest.quiet (quiet_connectDestroyed _)
  | writecompletecallback => cases hrun; exact hrest.quiet (quiet_emit _ rfl)
  | writecompletecallbackMember => cases hrun; exact hrest

theorem Spent.runCallback {answers : Answers} {callback : Channel.Callback} (h : Spent s)
    (hrun : s.runCallback answers callback = some s') : Spent s' := by
  cases callback with
  | closeCallback_ => cases hrun; exact h.quiet (quiet_handleClose s)
  | readCallback_ => exact h.quiet (quiet_handleRead hrun)
  | errorCallback_ => cases hrun; exact h
  | writeCallback_ => exact h.writes (handleWrite_writes hrun)

/-- Only a connected connection accepts a message. -/
theorem Spent.step {a : Action T} (h : Spent s) (hstate : s.state_ ≠ .KConnected)
    (hown : ∀ t t' message, s.calls t = some (.pushing (.sendInLoop t' message)) → t' = t)
    (hstep : Steps threadPid s a s') : Spent s' := by
  have hhand : ∀ {t : T} {cb : Functor T}, s.calls t = none →
      (∀ t' message, cb ≠ .sendInLoop t' message) → Spent (s.hand t cb) := by
    intro t cb hfree hcb
    exact h.setCall (by simp [hfree]) (by simpa using hcb)
  have hassign : ∀ {t : T} {closing : Closing} {call : Option (Call T)},
      s.calls t = some (.closing closing) →
      (∀ t' message, call ≠ some (.pushing (.sendInLoop t' message))) →
      Spent ((s.setstate .KDisconnecting).setCall t call) := by
    intro t closing call hcall hnew
    exact (h.quiet (quiet_setstate s _)).setCall (by simp [setstate, hcall]) hnew
  cases hstep with
  | connectEstablished => exact h.quiet (quiet_connectEstablished s)
  | sendHere _ hconnected _ | send _ _ hconnected => exact absurd hconnected hstate
  | shutdown _ hconnected => exact absurd hconnected hstate
  | forceClose hfree _ => exact h.setCall (by simp [hfree]) (by simp)
  | assignShutdownHere hcall => exact (hassign hcall (by simp)).shutdownInLoop
  | assignShutdown hother hcall =>
      exact (hassign hcall (by simp)).setCall (by simp [TcpConnection.setCall]) (by simp)
  | assignForceClose hcall => exact hassign hcall (by simp)
  | startReadHere => exact h.quiet (quiet_startReadInLoop s)
  | startRead hfree => exact hhand hfree (by simp)
  | stopReadHere => exact h.quiet (quiet_stopReadInLoop s)
  | stopRead hfree => exact hhand hfree (by simp)
  | removeConnection hfree => exact hhand hfree (by simp)
  | connectDestroyed => exact h.quiet (quiet_connectDestroyed s)
  | push hcall => exact h.reschedule rfl rfl (outstanding_push hown hcall)
  | swap hswap =>
      refine h.reschedule rfl rfl ?_
      intro t
      simp [outstanding, PendingQueue.toList_swap hswap]
  | run hpop hrun => exact h.runFunctor hpop hrun
  | dispatch => exact h.reschedule rfl rfl fun _ => rfl
  | @callback _ _ rest _ _ hrun =>
      have hrest : Spent { s with work := rest } := h.reschedule rfl rfl fun _ => rfl
      exact hrest.runCallback hrun
  | consume _ => exact h.reschedule rfl rfl fun _ => rfl

/-- Behind the half-close the connection does not come back. -/
structure HalfClosed (s : TcpConnection T) : Prop extends Spent s where
  closing : s.state_ ≠ .KConnecting ∧ s.state_ ≠ .KConnected

theorem HalfClosed.step {a : Action T} (h : HalfClosed s)
    (hdelivered : Delivered threadPid s) (hstep : Steps threadPid s a s') : HalfClosed s' := by
  refine ⟨h.toSpent.step h.closing.2 hdelivered.own hstep, ?_⟩
  cases hstep.turns with
  | steady hs' _ =>
      rw [hs']
      exact h.closing
  | established hs _ _ => exact absurd hs h.closing.1
  | disconnecting _ hs' _ => simp [hs']
  | closed _ hs' _ _ => simp [hs']
  | destroyed _ hs' _ _ => simp [hs']

theorem Draining.halfClosed (h : Draining s) (hclosed : .ShutdownWrite ∈ s.log) :
    HalfClosed s := by
  obtain ⟨hstate, hempty, hnone⟩ := h.closed hclosed
  exact ⟨⟨hempty, hnone, h.accepted⟩, by simp [hstate]⟩

/-- The connection stays open until it half-closes, and half-closes while no
message is outstanding. -/
def staysUntilHalfClose (threadPid : T) (s : TcpConnection T) (a : Action T) : Prop :=
  sendsWithoutFault a = true ∧ (.ShutdownWrite ∉ s.log →
    closes s a = false ∧ (halfCloses threadPid s a = true → ∀ t, outstanding t s = []))

theorem halfClosed_of_reachable
    (h : (system threadPid).ReachableVia (staysUntilHalfClose threadPid) s)
    (hclosed : .ShutdownWrite ∈ s.log) : HalfClosed s := by
  have hall : Delivered threadPid s ∧ (.ShutdownWrite ∉ s.log → Draining s) ∧
      (.ShutdownWrite ∈ s.log → HalfClosed s) := by
    apply h.invariant (I := fun s => Delivered threadPid s ∧
      (.ShutdownWrite ∉ s.log → Draining s) ∧ (.ShutdownWrite ∈ s.log → HalfClosed s))
    · rintro s ⟨sockfd, initalsize, writecompletecallback, rfl⟩
      exact ⟨delivered_new _ _ _, fun _ => draining_new _ _ _, nofun⟩
    · rintro s a s' ⟨hdelivered, hopen, hhalf⟩ ⟨hfault, hguard⟩ hnext
      obtain ⟨-, hstep⟩ := next_steps hnext
      refine ⟨hdelivered.step hfault hstep, ?_⟩
      by_cases hmem : .ShutdownWrite ∈ s.log
      · obtain ⟨events, hlog, -⟩ := hstep.log
        have hmem' : .ShutdownWrite ∈ s'.log := hlog ▸ List.mem_append_left _ hmem
        exact ⟨fun hnot => absurd hmem' hnot, fun _ => (hhalf hmem).step hdelivered hstep⟩
      · obtain ⟨hstays, hout⟩ := hguard hmem
        have hdraining := (hopen hmem).step hdelivered hstays hout hstep
        exact ⟨fun _ => hdraining, hdraining.halfClosed⟩
  exact hall.2.2 hclosed

/-- Behind the half-close every message that was accepted has been written, in
full and for good. -/
theorem written_of_halfClose
    (h : (system threadPid).ReachableVia (staysUntilHalfClose threadPid) s)
    (hclosed : .ShutdownWrite ∈ s.log) : written s.log = streamed s.log ∧
      ∀ t, streamedMessages t s.log = sent t s.log := by
  have hdelivered := delivered_of_reachable (fun _ _ ha => ha.1) h
  have hhalf := halfClosed_of_reachable h hclosed
  have hstream := hdelivered.stream
  rw [Streams, hhalf.empty, List.append_nil, List.append_nil] at hstream
  refine ⟨hstream, fun t => ?_⟩
  rw [streamedMessages_eq_ran hhalf.accepted, hdelivered.order, hhalf.unsent, List.append_nil]

instance [Fintype T] (s : TcpConnection T) (a : Action T) :
    Decidable (staysUntilHalfClose threadPid s a) :=
  inferInstanceAs (Decidable (_ ∧ _))

end MuduoRpc.TcpConnection
