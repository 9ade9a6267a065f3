import Mathlib.Data.List.Basic
import MuduoRpc.Tcp.OutputStream

/-!
The half-close. `shutdown` on the loop thread half-closes at once, while a
message accepted from another thread may still be on its way through the
queue. When no such message is, every byte of every accepted message has been
written at the half-close, and nothing is written after it.
-/

namespace MuduoRpc.TcpConnection

open Channel

variable {T : Type}

/-- The channel waits for writability exactly while there is output. -/
def Armed (s : TcpConnection T) : Prop :=
  s.channel_.isWriting = true ↔ s.outputbuffer_.bytes ≠ []

variable {s s' : TcpConnection T} {events : List (Event T)}

theorem armed_new (sockfd initalsize : Nat) (writecompletecallback : Bool) :
    Armed (new sockfd initalsize writecompletecallback : TcpConnection T) := by
  have hidle : (new sockfd initalsize writecompletecallback :
      TcpConnection T).channel_.isWriting = false := Flags.has_zero _
  rw [Armed, hidle]
  simp [new]

theorem isWriting_enableReading (s : TcpConnection T) :
    (s.setInterest .enableReading).channel_.isWriting = s.channel_.isWriting := by
  have hother : Flags.has ReadEvent WriteEvernt = false := by decide
  exact (Flags.has_or _ _ _).trans (by rw [hother, Bool.or_false, isWriting])

theorem isWriting_disenableReading (s : TcpConnection T) :
    (s.setInterest .disenableReading).channel_.isWriting = s.channel_.isWriting :=
  Flags.has_and_of_subset (by decide)

theorem isWriting_enableWriting (s : TcpConnection T) :
    (s.setInterest .enableWriting).channel_.isWriting = true := by
  have hsame : Flags.has WriteEvernt WriteEvernt = true := by decide
  exact (Flags.has_or _ _ _).trans (by rw [hsame, Bool.or_true])

theorem Armed.bufferRemaining (h : Armed s) (remaining : List UInt8) :
    Armed (s.bufferRemaining remaining) := by
  by_cases hempty : remaining.isEmpty = true
  · rw [TcpConnection.bufferRemaining, if_pos hempty]
    exact h
  · have houtput : (s.bufferRemaining remaining).outputbuffer_.bytes ≠ [] := by
      rw [bytes_bufferRemaining]
      exact List.append_ne_nil_of_right_ne_nil _ (by simpa using hempty)
    have hwriting : (s.bufferRemaining remaining).channel_.isWriting = true := by
      simp only [TcpConnection.bufferRemaining, if_neg hempty]
      split_ifs with hwriting
      · exact hwriting
      · exact isWriting_enableWriting _
    exact ⟨fun _ => houtput, fun _ => hwriting⟩

theorem Armed.sends {t : T} {message : List UInt8} {result : WriteResult} (h : Armed s)
    (hs : Sends s t message result s') : Armed s' := by
  have hemit : ∀ e, Armed (s.emit e) := fun _ => h
  have hemit' : ∀ e e', Armed ((s.emit e).emit e') := fun _ _ => h
  cases hs with
  | gaveUp _ => exact hemit _
  | complete _ _ _ => exact h
  | direct _ _ _ _ => exact (hemit' _ _).bufferRemaining _
  | refused _ _ _ => exact (hemit' _ _).bufferRemaining _
  | fault _ _ => exact hemit' _ _
  | buffered _ _ => exact (hemit _).bufferRemaining _

theorem state_bufferRemaining (s : TcpConnection T) (remaining : List UInt8) :
    (s.bufferRemaining remaining).state_ = s.state_ := by
  simp only [bufferRemaining]
  split_ifs <;> rfl

theorem Sends.state {t : T} {message : List UInt8} {result : WriteResult}
    (h : Sends s t message result s') : s'.state_ = s.state_ := by
  cases h with
  | gaveUp _ => rfl
  | complete _ _ _ => rfl
  | direct _ _ _ _ => exact state_bufferRemaining _ _
  | refused _ _ _ => exact state_bufferRemaining _ _
  | fault _ _ => rfl
  | buffered _ _ => exact state_bufferRemaining _ _

theorem armed_of_writing {n : Nat} (hfits : n < s.outputbuffer_.readableBytes)
    (hwriting : s.channel_.isWriting = true) :
    Armed (s.retrieveOutput n hfits.le) := by
  have hbytes : (s.retrieveOutput n hfits.le).outputbuffer_.bytes = s.outputbuffer_.bytes.drop n :=
    ByteQueue.bytes_retrieve s.outputbuffer_ n hfits.le
  refine ⟨fun _ => ?_, fun _ => hwriting⟩
  rw [hbytes, Ne, List.drop_eq_nil_iff, ByteQueue.length_bytes]
  omega

theorem bytes_stopWriting (s : TcpConnection T) {n : Nat}
    (hfits : n ≤ s.outputbuffer_.readableBytes) (hall : n = s.outputbuffer_.readableBytes) :
    (s.retrieveOutput n hfits).stopWriting.outputbuffer_.bytes = [] := by
  have hbytes : (s.retrieveOutput n hfits).outputbuffer_.bytes = s.outputbuffer_.bytes.drop n :=
    ByteQueue.bytes_retrieve s.outputbuffer_ n hfits
  rw [(quiet_stopWriting _).output, hbytes, List.drop_eq_nil_iff, ByteQueue.length_bytes]
  exact hall.ge

/-- The state has not moved, but possibly from `KConnecting` to
`KConnected`. -/
def Forward (s s' : TcpConnection T) : Prop :=
  s'.state_ = s.state_ ∨ s.state_ = .KConnecting ∧ s'.state_ = .KConnected

theorem Forward.disconnecting (h : Forward s s') (hstate : s.state_ = .KDisconnecting) :
    s'.state_ = .KDisconnecting := by
  rcases h with hsame | ⟨hconnecting, -⟩
  · exact hsame.trans hstate
  · rw [hstate] at hconnecting
    cases hconnecting

def ShutdownPending (s : TcpConnection T) : Prop :=
  .shutdownInLoop ∈ s.queue.toList ∨ ∃ t, s.calls t = some (.pushing .shutdownInLoop)

theorem Adds.shutdownPending (h : Adds s events s') (hpending : ShutdownPending s') :
    ShutdownPending s := by
  obtain ⟨cbs, hqueue, hcbs⟩ := h.queue
  rcases hpending with hmem | ⟨t, hcall⟩
  · rw [hqueue] at hmem
    exact (List.mem_append.mp hmem).elim .inl fun hmem => by cases hcbs _ hmem
  · exact .inr ⟨t, h.calls ▸ hcall⟩

theorem forward_connectEstablished (s : TcpConnection T) :
    Forward s s.connectEstablished ∧
      s.connectEstablished.channel_.isWriting = s.channel_.isWriting := by
  unfold connectEstablished
  split_ifs with hstate
  · exact ⟨.inr ⟨hstate, rfl⟩, isWriting_enableReading s⟩
  · exact ⟨.inl rfl, rfl⟩

theorem forward_startReadInLoop (s : TcpConnection T) :
    Forward s s.startReadInLoop ∧ s.startReadInLoop.channel_.isWriting = s.channel_.isWriting := by
  unfold startReadInLoop
  split_ifs
  · exact ⟨.inl rfl, isWriting_enableReading s⟩
  · exact ⟨.inl rfl, rfl⟩

theorem forward_stopReadInLoop (s : TcpConnection T) :
    Forward s s.stopReadInLoop ∧ s.stopReadInLoop.channel_.isWriting = s.channel_.isWriting := by
  unfold stopReadInLoop
  split_ifs
  · exact ⟨.inl rfl, isWriting_disenableReading s⟩
  · exact ⟨.inl rfl, rfl⟩

theorem forward_connectDestroyed (h : s.state_ ≠ .KConnected) :
    Forward s s.connectDestroyed ∧
      s.connectDestroyed.channel_.isWriting = s.channel_.isWriting := by
  rw [connectDestroyed, if_neg h]
  unfold remove
  split_ifs <;> exact ⟨.inl rfl, rfl⟩

theorem forward_handleRead {result : ReadResult} (hdata : result ≠ .received [])
    (h : s.handleRead result = some s') :
    Forward s s' ∧ s'.channel_.isWriting = s.channel_.isWriting := by
  cases result with
  | received data =>
      have hne : ¬data.isEmpty = true := fun hempty =>
        hdata (congrArg ReadResult.received (List.isEmpty_iff.mp hempty))
      simp only [handleRead, if_neg hne] at h
      split_ifs at h
      cases h
      exact ⟨.inl rfl, rfl⟩
  | failed error =>
      cases h
      exact ⟨.inl rfl, rfl⟩

/-- Events that are neither a half-close nor a message given up. -/
def Event.isOrdinary : Event T → Bool
  | .ShutdownWrite | .gaveUp _ _ => false
  | _ => true

theorem isOrdinary_of_isPlain {e : Event T} (h : e.isPlain = true) : e.isOrdinary = true := by
  cases e <;> first | rfl | cases h

theorem isOrdinary_of_isWrite {e : Event T} (h : e.isWrite = true) : e.isOrdinary = true := by
  cases e <;> first | rfl | cases h

theorem isWrite_of_isPlain {e : Event T} (h : e.isPlain = true) : e.isWrite = false := by
  cases e <;> first | rfl | cases h

section Threads

variable [DecidableEq T]

/-- At every half-close of the log, the messages accepted before it have run
and everything has been written; after it nothing is written. -/
def Graceful (log : List (Event T)) : Prop :=
  ∀ before after, log = before ++ .ShutdownWrite :: after →
    (∀ t, streamedMessages t before = sent t before) ∧ written before = streamed before ∧
      ∀ e ∈ after, e.isWrite = false

theorem Graceful.append {log : List (Event T)} (h : Graceful log)
    (hevents : .ShutdownWrite ∉ events)
    (hclosed : .ShutdownWrite ∈ log → ∀ e ∈ events, e.isWrite = false) :
    Graceful (log ++ events) := by
  intro before after hsplit
  rcases List.append_eq_append_iff.mp hsplit with ⟨between, -, hbetween⟩ | ⟨between, hlog, hbetween⟩
  · exact absurd (by simp [hbetween]) hevents
  · cases between with
    | nil =>
        rw [List.nil_append] at hbetween
        exact absurd (hbetween ▸ List.mem_cons_self) hevents
    | cons e between =>
        obtain ⟨rfl, rfl⟩ := List.cons_eq_cons.mp hbetween
        obtain ⟨hsent, hwritten, hquiet⟩ := h before between hlog
        refine ⟨hsent, hwritten, ?_⟩
        intro e he
        rcases List.mem_append.mp he with hold | hnew
        · exact hquiet e hold
        · exact hclosed (by simp [hlog]) e hnew

theorem Graceful.shutdownWrite {log : List (Event T)} (h : Graceful log)
    (hsent : ∀ t, streamedMessages t log = sent t log) (hwritten : written log = streamed log) :
    Graceful (log ++ [.ShutdownWrite]) := by
  intro before after hsplit
  rcases List.eq_nil_or_concat after with rfl | ⟨after', e, rfl⟩
  · obtain ⟨rfl, -⟩ := List.append_inj' hsplit rfl
    exact ⟨hsent, hwritten, by simp⟩
  · rw [List.concat_eq_append] at hsplit ⊢
    rw [← List.cons_append, ← List.append_assoc] at hsplit
    obtain ⟨hlog, hlast⟩ := List.append_inj' hsplit rfl
    obtain rfl : Event.ShutdownWrite = e := by simpa using hlast
    obtain ⟨hsent', hwritten', hquiet⟩ := h before after' hlog
    refine ⟨hsent', hwritten', ?_⟩
    intro e he
    rcases List.mem_append.mp he with he | he
    · exact hquiet e he
    · rw [List.mem_singleton.mp he]
      rfl

/-- The invariant of a connection that stays open until its half-close. -/
structure Draining (s : TcpConnection T) : Prop where
  connected : s.state_ ≠ .KDisconnected
  armed : Armed s
  accepted : ∀ t message, .gaveUp t message ∉ s.log
  closing : ShutdownPending s → s.state_ = .KDisconnecting
  closed : .ShutdownWrite ∈ s.log → s.state_ = .KDisconnecting ∧ s.outputbuffer_.bytes = [] ∧
    ∀ t, outstanding t s = []
  graceful : Graceful s.log

theorem Draining.adds (h : Draining s) (hadds : Adds s events s') (hstate : Forward s s')
    (harmed : Armed s') (hevents : ∀ e ∈ events, e.isOrdinary = true)
    (hclosed : .ShutdownWrite ∈ s.log →
      s'.outputbuffer_.bytes = [] ∧ ∀ e ∈ events, e.isWrite = false) : Draining s' := by
  have hnone : .ShutdownWrite ∉ events := by
    intro hmem
    cases hevents _ hmem
  have hlog : Event.ShutdownWrite ∈ s'.log → .ShutdownWrite ∈ s.log := by
    intro hmem
    rw [hadds.log] at hmem
    exact (List.mem_append.mp hmem).resolve_right hnone
  constructor
  · rcases hstate with hsame | ⟨-, hconnected⟩
    · rw [hsame]
      exact h.connected
    · simp [hconnected]
  · exact harmed
  · intro t message hmem
    rw [hadds.log] at hmem
    rcases List.mem_append.mp hmem with hold | hnew
    · exact h.accepted t message hold
    · cases hevents _ hnew
  · intro hpending
    exact hstate.disconnecting (h.closing (hadds.shutdownPending hpending))
  · intro hmem
    obtain ⟨hdisconnecting, -, hout⟩ := h.closed (hlog hmem)
    refine ⟨hstate.disconnecting hdisconnecting, (hclosed (hlog hmem)).1, ?_⟩
    intro t
    exact (hadds.outstanding t).trans (hout t)
  · rw [hadds.log]
    apply h.graceful.append hnone
    intro hmem
    exact (hclosed hmem).2

theorem Draining.quiet (h : Draining s) (hquiet : Quiet s s') (hstate : Forward s s')
    (hwriting : s'.channel_.isWriting = s.channel_.isWriting) : Draining s' := by
  obtain ⟨events, hadds, hplain⟩ := hquiet.adds
  apply h.adds hadds hstate
  · rw [Armed, hwriting, hquiet.output]
    exact h.armed
  · intro e he
    exact isOrdinary_of_isPlain (hplain e he)
  · intro hmem
    constructor
    · rw [hquiet.output]
      exact (h.closed hmem).2.1
    · intro e he
      exact isWrite_of_isPlain (hplain e he)

/-- A step that moves functors or calls and nothing else. -/
theorem Draining.reschedule (h : Draining s) (hstate : s'.state_ = s.state_)
    (houtput : s'.outputbuffer_ = s.outputbuffer_) (hchannel : s'.channel_ = s.channel_)
    (hlog : s'.log = s.log) (hclosing : ShutdownPending s' → ShutdownPending s)
    (hout : (∀ t, outstanding t s = []) → ∀ t, outstanding t s' = []) : Draining s' where
  connected := hstate ▸ h.connected
  armed := by
    rw [Armed, hchannel, houtput]
    exact h.armed
  accepted := hlog ▸ h.accepted
  closing hpending := hstate.trans (h.closing (hclosing hpending))
  closed hmem := by
    obtain ⟨hdisconnecting, hempty, hnone⟩ := h.closed (hlog ▸ hmem)
    exact ⟨hstate.trans hdisconnecting, houtput ▸ hempty, hout hnone⟩
  graceful := hlog ▸ h.graceful

/-- Before the half-close there is none in the log. -/
theorem Draining.not_closed (h : Draining s) (hstate : s.state_ ≠ .KDisconnecting) :
    .ShutdownWrite ∉ s.log :=
  fun hmem => hstate (h.closed hmem).1

theorem Draining.sends {t : T} {message : List UInt8} {result : WriteResult} (h : Draining s)
    (hopen : .ShutdownWrite ∉ s.log) (hs : Sends s t message result s') : Draining s' := by
  obtain ⟨e, writes, hadds, he, hwrites⟩ := hs.adds
  rcases he with ⟨-, rfl⟩ | ⟨hdisconnected, -⟩
  · apply h.adds hadds (.inl hs.state) (h.armed.sends hs)
    · intro w hw
      rcases List.mem_cons.mp hw with rfl | hwrite
      · rfl
      · exact isOrdinary_of_isWrite (hwrites w hwrite)
    · intro hmem
      exact absurd hmem hopen
  · exact absurd hdisconnected h.connected

theorem streamedMessages_eq_ran {log : List (Event T)}
    (h : ∀ t message, .gaveUp t message ∉ log) (t : T) : streamedMessages t log = ran t log := by
  apply List.flatMap_congr
  intro e he
  cases e with
  | gaveUp t' message => exact absurd he (h t' message)
  | _ => rfl

variable {threadPid : T}

/-- A half-close of a drained connection with no message outstanding. -/
theorem Draining.shutdownWrite (h : Draining s) (hdelivered : Delivered threadPid s)
    (hstate : s.state_ = .KDisconnecting) (hidle : s.channel_.isWriting = false)
    (hout : ∀ t, outstanding t s = []) : Draining (s.emit .ShutdownWrite) := by
  have hempty : s.outputbuffer_.bytes = [] := by
    by_contra hne
    rw [h.armed.mpr hne] at hidle
    cases hidle
  have hsent : ∀ t, streamedMessages t s.log = sent t s.log := by
    intro t
    rw [streamedMessages_eq_ran h.accepted, hdelivered.order, hout, List.append_nil]
  have hwritten : written s.log = streamed s.log := by
    have hstream := hdelivered.stream
    rwa [Streams, hempty, List.append_nil, List.append_nil] at hstream
  refine ⟨h.connected, h.armed, ?_, h.closing, fun _ => ⟨hstate, hempty, hout⟩,
    h.graceful.shutdownWrite hsent hwritten⟩
  intro t message hmem
  rcases List.mem_append.mp hmem with hold | hnew
  · exact h.accepted t message hold
  · cases List.mem_singleton.mp hnew

theorem Draining.shutdownInLoop (h : Draining s) (hdelivered : Delivered threadPid s)
    (hstate : s.state_ = .KDisconnecting)
    (hout : s.channel_.isWriting = false → ∀ t, outstanding t s = []) :
    Draining s.shutdownInLoop := by
  unfold TcpConnection.shutdownInLoop
  split_ifs with hwriting
  · exact h
  · have hidle := Bool.eq_false_iff.mpr hwriting
    exact h.shutdownWrite hdelivered hstate hidle (hout hidle)

theorem Draining.setstate (h : Draining s) : Draining (s.setstate .KDisconnecting) where
  connected := nofun
  armed := h.armed
  accepted := h.accepted
  closing _ := rfl
  closed hmem := ⟨rfl, (h.closed hmem).2⟩
  graceful := h.graceful

/-- A thread takes up or ends a call. A message or a half-close that it is
about to push must fit the state. -/
theorem Draining.setCall {t : T} {call : Option (Call T)} (h : Draining s)
    (hold : ∀ t' message, s.calls t ≠ some (.pushing (.sendInLoop t' message)))
    (hnew : ∀ t' message, call ≠ some (.pushing (.sendInLoop t' message)))
    (hshutdown : call = some (.pushing .shutdownInLoop) → s.state_ = .KDisconnecting) :
    Draining (s.setCall t call) where
  connected := h.connected
  armed := h.armed
  accepted := h.accepted
  closing := by
    rintro (hmem | ⟨u, hcall⟩)
    · exact h.closing (.inl hmem)
    · rcases calls_setCall hcall with hother | hcall
      · exact h.closing (.inr ⟨u, hother⟩)
      · exact hshutdown hcall
  closed hmem := by
    obtain ⟨hstate, hempty, hout⟩ := h.closed hmem
    exact ⟨hstate, hempty, fun u => (outstanding_setCall hold hnew u).trans (hout u)⟩
  graceful := h.graceful

theorem Draining.emit_send (h : Draining s) (hstate : s.state_ = .KConnected) (t : T)
    (message : List UInt8) :
    Draining (s.emit (.send t message)) ∧ .ShutdownWrite ∉ (s.emit (.send t message)).log := by
  have hopen := h.not_closed (by simp [hstate])
  constructor
  · apply h.adds (adds_emit s _) (.inl rfl) h.armed (by simp [Event.isOrdinary])
    intro hmem
    exact absurd hmem hopen
  · simpa [emit] using hopen

theorem Draining.send {t : T} {message : List UInt8} (h : Draining s)
    (hstate : s.state_ = .KConnected) :
    Draining ((s.emit (.send t message)).hand t (.sendInLoop t message)) := by
  obtain ⟨hemit, hopen⟩ := h.emit_send hstate t message
  refine ⟨h.connected, h.armed, hemit.accepted, ?_, fun hmem => absurd hmem hopen, hemit.graceful⟩
  rintro (hmem | ⟨u, hcall⟩)
  · exact h.closing (.inl hmem)
  · rcases calls_setCall hcall with hother | hcall
    · exact h.closing (.inr ⟨u, hother⟩)
    · cases hcall

theorem Draining.push {t : T} {cb : Functor T} (h : Draining s)
    (hown : ∀ t t' message, s.calls t = some (.pushing (.sendInLoop t' message)) → t' = t)
    (hcall : s.calls t = some (.pushing cb)) :
    Draining ((s.setCall t none).queueInLoop cb) := by
  refine h.reschedule rfl rfl rfl rfl ?_ ?_
  · rintro (hmem | ⟨u, hpush⟩)
    · rw [queueInLoop, PendingQueue.toList_push, List.mem_append, List.mem_singleton] at hmem
      rcases hmem with hmem | rfl
      · exact .inl hmem
      · exact .inr ⟨t, hcall⟩
    · rcases calls_setCall hpush with hother | hnone
      · exact .inr ⟨u, hother⟩
      · cases hnone
  · intro hout u
    exact (outstanding_push hown hcall u).trans (hout u)

theorem Draining.writes {result : WriteResult} (h : Draining s)
    (hdelivered : Delivered threadPid s) (hw : Writes s result s')
    (hout : ∀ n, result = .accepted n → s.channel_.isWriting = true → 0 < n →
      n = s.outputbuffer_.readableBytes → s.state_ = .KDisconnecting →
      ∀ t, outstanding t s = []) : Draining s' := by
  have hnot_closed : s.channel_.isWriting = true → .ShutdownWrite ∉ s.log := by
    intro hwriting hmem
    exact h.armed.mp hwriting (h.closed hmem).2.1
  have hstop : ∀ {n : Nat} (hfits : n ≤ s.outputbuffer_.readableBytes),
      n = s.outputbuffer_.readableBytes → s.channel_.isWriting = true →
      Draining (s.retrieveOutput n hfits).stopWriting := by
    intro n hfits hall hwriting
    have hempty := bytes_stopWriting s hfits hall
    obtain ⟨events, hadds, hplain⟩ := (quiet_stopWriting (s.retrieveOutput n hfits)).adds
    apply h.adds ((adds_retrieveOutput s hfits).trans hadds)
      (.inl (state_stopWriting (s.retrieveOutput n hfits)))
    · rw [Armed, isWriting_stopWriting, hempty]
      simp
    · intro e he
      rcases List.mem_append.mp he with hwrite | hquiet
      · rw [List.mem_singleton.mp hwrite]
        rfl
      · exact isOrdinary_of_isPlain (hplain e hquiet)
    · intro hmem
      exact absurd hmem (hnot_closed hwriting)
  cases hw with
  | idle _ => exact h
  | nothing hwriting _ =>
      apply h.adds (adds_emit s _) (.inl rfl) h.armed (by simp [Event.isOrdinary])
      intro hmem
      exact absurd hmem (hnot_closed hwriting)
  | something hfits hwriting hless =>
      apply h.adds (adds_retrieveOutput s hfits) (.inl rfl) (armed_of_writing hless hwriting)
        (by simp [Event.isOrdinary])
      intro hmem
      exact absurd hmem (hnot_closed hwriting)
  | drained hfits hwriting hall _ => exact hstop hfits hall hwriting
  | halfClosed hfits hwriting hpos hall hstate =>
      have hquiet := quiet_stopWriting (s.retrieveOutput _ hfits)
      obtain ⟨events, hadds, -⟩ := hquiet.adds
      apply (hstop hfits hall hwriting).shutdownWrite
        ((hdelivered.retrieveOutput hfits).quiet hquiet)
        ((state_stopWriting (s.retrieveOutput _ hfits)).trans hstate) (isWriting_stopWriting _)
      intro t
      exact (((adds_retrieveOutput s hfits).trans hadds).outstanding t).trans
        (hout _ rfl hwriting hpos hall hstate t)

/-- The step runs `handleClose`, or `connectDestroyed` on a connection that is
still connected. -/
def closes (s : TcpConnection T) : Action T → Bool
  | .connectDestroyed => s.state_ = .KConnected
  | .run _ =>
      match s.queue.functors.head? with
      | some .connectDestroyed => s.state_ = .KConnected
      | some .forceCloseInLoop => s.state_ = .KConnected ∨ s.state_ = .KConnecting
      | _ => false
  | .callback answers =>
      match s.work.head? with
      | some .closeCallback_ => true
      | some .readCallback_ => answers.read = .received []
      | _ => false
  | _ => false

variable (threadPid) in
/-- The step calls `ShutdownWrite`. -/
def halfCloses (s : TcpConnection T) : Action T → Bool
  | .assign t =>
      t = threadPid ∧ s.calls t = some (.closing .shutdown) ∧ s.channel_.isWriting = false
  | .run _ => s.queue.functors.head? = some .shutdownInLoop ∧ s.channel_.isWriting = false
  | .callback answers =>
      s.work.head? = some .writeCallback_ ∧ s.channel_.isWriting = true ∧
        0 < s.outputbuffer_.readableBytes ∧
        answers.written = .accepted s.outputbuffer_.readableBytes ∧ s.state_ = .KDisconnecting
  | _ => false

theorem Draining.runFunctor {answers : Answers} {cb : Functor T}
    {queue : PendingQueue (Functor T)} (h : Draining s) (hdelivered : Delivered threadPid s)
    (hopen : closes s (.run answers) = false)
    (hout : halfCloses threadPid s (.run answers) = true → ∀ t, outstanding t s = [])
    (hpop : s.queue.pop = some (cb, queue))
    (hrun : { s with queue := queue }.runFunctor answers cb = some s') : Draining s' := by
  have hhead := PendingQueue.head?_of_pop hpop
  have hpopped := outstanding_pop hpop
  have hrest : Draining { s with queue := queue } := by
    refine h.reschedule rfl rfl rfl rfl ?_ ?_
    · rintro (hmem | hcall)
      · left
        rw [PendingQueue.toList_pop hpop]
        exact List.mem_cons_of_mem _ hmem
      · exact .inr hcall
    · intro hnone t
      exact (List.append_eq_nil_iff.mp ((hpopped t).symm.trans (hnone t))).2
  cases cb with
  | sendInLoop t message =>
      -- the popped message was outstanding, so nothing has been half-closed yet
      apply hrest.sends ?_ (sendInLoop_sends hrun)
      intro hmem
      have hnone : (Functor.sendInLoop t message).messageOf t = [] :=
        (List.append_eq_nil_iff.mp ((hpopped t).symm.trans ((h.closed hmem).2.2 t))).1
      simp [Functor.messageOf] at hnone
  | shutdownInLoop =>
      cases hrun
      have hpending : ShutdownPending s := .inl (by simp [PendingQueue.toList_pop hpop])
      have hdelivered' : Delivered threadPid { s with queue := queue } :=
        hdelivered.reschedule rfl rfl (fun t => (hpopped t).symm) hdelivered.own
      apply hrest.shutdownInLoop hdelivered' (h.closing hpending)
      intro hidle t
      exact (hpopped t).symm.trans (hout (by simpa [halfCloses, hhead] using hidle) t)
  | forceCloseInLoop =>
      cases hrun
      rw [forceCloseInLoop, if_neg (by simpa [closes, hhead] using hopen)]
      exact hrest
  | startReadInLoop =>
      cases hrun
      obtain ⟨hstate, hwriting⟩ := forward_startReadInLoop { s with queue := queue }
      exact hrest.quiet (quiet_startReadInLoop _) hstate hwriting
  | stopReadInLoop =>
      cases hrun
      obtain ⟨hstate, hwriting⟩ := forward_stopReadInLoop { s with queue := queue }
      exact hrest.quiet (quiet_stopReadInLoop _) hstate hwriting
  | connectDestroyed =>
      cases hrun
      have hne : s.state_ ≠ .KConnected := by simpa [closes, hhead] using hopen
      obtain ⟨hstate, hwriting⟩ := forward_connectDestroyed (s := { s with queue := queue }) hne
      exact hrest.quiet (quiet_connectDestroyed _) hstate hwriting
  | writecompletecallback =>
      cases hrun
      exact hrest.quiet (quiet_emit _ rfl) (.inl rfl) rfl
  | writecompletecallbackMember =>
      cases hrun
      exact hrest

theorem Draining.runCallback {answers : Answers} {callback : Channel.Callback}
    {rest : List Channel.Callback} (h : Draining s) (hdelivered : Delivered threadPid s)
    (hopen : closes s (.callback answers) = false)
    (hout : halfCloses threadPid s (.callback answers) = true → ∀ t, outstanding t s = [])
    (hwork : s.work = callback :: rest)
    (hrun : { s with work := rest }.runCallback answers callback = some s') : Draining s' := by
  have hrest : Draining { s with work := rest } :=
    h.reschedule rfl rfl rfl rfl id fun hnone => hnone
  have hdelivered' : Delivered threadPid { s with work := rest } :=
    hdelivered.reschedule rfl rfl (fun _ => rfl) hdelivered.own
  cases callback with
  | closeCallback_ => simp [closes, hwork] at hopen
  | readCallback_ =>
      have hdata : answers.read ≠ .received [] := by simpa [closes, hwork] using hopen
      obtain ⟨hstate, hwriting⟩ := forward_handleRead hdata hrun
      exact hrest.quiet (quiet_handleRead hrun) hstate hwriting
  | errorCallback_ =>
      cases hrun
      exact hrest
  | writeCallback_ =>
      refine hrest.writes hdelivered' (handleWrite_writes hrun) ?_
      intro n hresult hwriting hpos hall hstate
      subst hall
      exact hout (decide_eq_true
        ⟨by rw [hwork, List.head?_cons], hwriting, hpos, hresult, hstate⟩)

theorem Draining.step {a : Action T} (h : Draining s) (hdelivered : Delivered threadPid s)
    (hopen : closes s a = false)
    (hout : halfCloses threadPid s a = true → ∀ t, outstanding t s = [])
    (hstep : Steps threadPid s a s') : Draining s' := by
  have hhand : ∀ {t : T} {cb : Functor T}, s.calls t = none → cb ≠ .shutdownInLoop →
      (∀ t' message, cb ≠ .sendInLoop t' message) → Draining (s.hand t cb) := by
    intro t cb hfree hshutdown hcb
    apply h.setCall (by simp [hfree]) (by simpa using hcb)
    intro hcall
    exact absurd (by simpa using hcall) hshutdown
  have hassign : ∀ {t : T} {closing : Closing} {call : Option (Call T)},
      s.calls t = some (.closing closing) →
      (∀ t' message, call ≠ some (.pushing (.sendInLoop t' message))) →
      Draining ((s.setstate .KDisconnecting).setCall t call) := by
    intro t closing call hcall hnew
    exact h.setstate.setCall (by simp [TcpConnection.setstate, hcall]) hnew fun _ => rfl
  cases hstep with
  | connectEstablished =>
      obtain ⟨hstate, hwriting⟩ := forward_connectEstablished s
      exact h.quiet (quiet_connectEstablished s) hstate hwriting
  | sendHere hfree hstate hsend =>
      obtain ⟨hemit, hnot_closed⟩ := h.emit_send hstate threadPid _
      exact hemit.sends hnot_closed (sendInLoop_sends hsend)
  | send hother hfree hstate => exact h.send hstate
  | shutdown hfree hstate => exact h.setCall (by simp [hfree]) (by simp) (by simp)
  | forceClose hfree hstate => exact h.setCall (by simp [hfree]) (by simp) (by simp)
  | assignShutdownHere hcall =>
      have hbefore : ∀ t' message,
          (s.setstate .KDisconnecting).calls threadPid ≠
            some (.pushing (.sendInLoop t' message)) := by
        simp [TcpConnection.setstate, hcall]
      have hdelivered' : Delivered threadPid
          ((s.setstate .KDisconnecting).setCall threadPid none) :=
        (hdelivered.quiet (quiet_setstate s _)).setCall hbefore (by simp)
      apply (hassign hcall (by simp)).shutdownInLoop hdelivered' rfl
      intro hidle t
      exact (outstanding_setCall hbefore (by simp) t).trans
        (hout (decide_eq_true ⟨rfl, hcall, hidle⟩) t)
  | assignShutdown hother hcall =>
      exact (hassign hcall (by simp)).setCall (by simp [TcpConnection.setCall]) (by simp)
        fun _ => rfl
  | assignForceClose hcall => exact hassign hcall (by simp)
  | startReadHere =>
      obtain ⟨hstate, hwriting⟩ := forward_startReadInLoop s
      exact h.quiet (quiet_startReadInLoop s) hstate hwriting
  | startRead hfree => exact hhand hfree (by simp) (by simp)
  | stopReadHere =>
      obtain ⟨hstate, hwriting⟩ := forward_stopReadInLoop s
      exact h.quiet (quiet_stopReadInLoop s) hstate hwriting
  | stopRead hfree => exact hhand hfree (by simp) (by simp)
  | removeConnection hfree => exact hhand hfree (by simp) (by simp)
  | connectDestroyed =>
      obtain ⟨hstate, hwriting⟩ := forward_connectDestroyed (of_decide_eq_false hopen)
      exact h.quiet (quiet_connectDestroyed s) hstate hwriting
  | push hcall => exact h.push hdelivered.own hcall
  | swap hswap =>
      refine h.reschedule rfl rfl rfl rfl ?_ ?_
      · simp only [ShutdownPending, PendingQueue.toList_swap hswap]
        exact id
      · intro hnone t
        simpa [outstanding, PendingQueue.toList_swap hswap] using hnone t
  | run hpop hrun => exact h.runFunctor hdelivered hopen hout hpop hrun
  | dispatch => exact h.reschedule rfl rfl rfl rfl id fun hnone => hnone
  | callback hwork hrun => exact h.runCallback hdelivered hopen hout hwork hrun
  | consume hlen => exact h.reschedule rfl rfl rfl rfl id fun hnone => hnone

theorem draining_new (sockfd initalsize : Nat) (writecompletecallback : Bool) :
    Draining (new sockfd initalsize writecompletecallback : TcpConnection T) where
  connected := nofun
  armed := armed_new _ _ _
  accepted := by simp [new]
  closing := by simp [ShutdownPending, new]
  closed := by simp [new]
  graceful := by simp [Graceful, new]

/-- A step that meets the test does half-close. -/
theorem shutdownWrite_of_halfCloses {a : Action T} (hhalf : halfCloses threadPid s a = true)
    (hstep : Steps threadPid s a s') : s'.log.getLast? = some .ShutdownWrite := by
  cases hstep with
  | assignShutdownHere hcall =>
      obtain ⟨-, -, hidle⟩ := of_decide_eq_true hhalf
      have hnext : ((s.setstate .KDisconnecting).setCall threadPid none).channel_.isWriting =
          false := hidle
      rw [shutdownInLoop, if_neg (by simp [hnext])]
      simp [emit]
  | assignShutdown hother hcall => exact absurd (of_decide_eq_true hhalf).1 hother
  | assignForceClose hcall =>
      obtain ⟨-, hshutdown, -⟩ := of_decide_eq_true hhalf
      rw [hcall] at hshutdown
      cases hshutdown
  | run hpop hrun =>
      obtain ⟨hhead, hidle⟩ := of_decide_eq_true hhalf
      rw [PendingQueue.head?_of_pop hpop] at hhead
      cases hhead
      cases hrun
      rw [shutdownInLoop, if_neg (by simp [hidle])]
      simp [emit]
  | callback hwork hrun =>
      obtain ⟨hhead, hwriting, hsome, hall, hstate⟩ := of_decide_eq_true hhalf
      rw [hwork, List.head?_cons] at hhead
      cases hhead
      have hwrites := handleWrite_writes hrun
      rw [hall] at hwrites
      cases hwrites with
      | idle hidle => exact absurd hidle (by simp [hwriting])
      | nothing _ hnothing => exact absurd (hnothing _ rfl) (by omega)
      | something _ _ hless => exact absurd hless (Nat.lt_irrefl _)
      | drained _ _ _ hopen => exact absurd hstate hopen
      | halfClosed _ _ _ _ _ => simp [emit]
  | _ => cases hhalf

/-- In a run without faults and without a close, every half-close is graceful
if no accepted message is outstanding whenever a step half-closes. -/
theorem graceful_of_none_outstanding
    (h : (system threadPid).ReachableVia (fun s a =>
      (sendsWithoutFault a = true ∧ closes s a = false) ∧
        (halfCloses threadPid s a = true → ∀ t, outstanding t s = [])) s) :
    Graceful s.log := by
  have hboth : Delivered threadPid s ∧ Draining s := by
    apply h.invariant (I := fun s => Delivered threadPid s ∧ Draining s)
    · rintro s ⟨sockfd, initalsize, writecompletecallback, rfl⟩
      exact ⟨delivered_new _ _ _, draining_new _ _ _⟩
    · rintro s a s' ⟨hdelivered, hs⟩ ⟨⟨hfault, hopen⟩, hout⟩ hnext
      obtain ⟨-, hstep⟩ := next_steps hnext
      exact ⟨hdelivered.step hfault hstep, hs.step hdelivered hopen hout hstep⟩
  exact hboth.2.graceful

/-- A partly written message of another thread is flushed before the
half-close. -/
theorem graceful_of_none_outstanding_flushed : ∃ s : TcpConnection Bool,
    s.log.getLast? = some .ShutdownWrite ∧ written s.log = [1, 2] ∧ Graceful s.log := by
  obtain ⟨s, hreach, hs⟩ : ∃ s, (system true).ReachableVia
      (fun s a => (sendsWithoutFault a = true ∧ closes s a = false) ∧
        (halfCloses true s a = true → ∀ t, outstanding t s = [])) s ∧
      (s.log.getLast? = some .ShutdownWrite ∧ written s.log = [1, 2]) :=
    Transition.System.exists_of_exec _ (new 5 8 true)
      [.connectEstablished, .send false [1, 2] (.accepted 0), .push false, .swap,
        .run ⟨.accepted 1, .received []⟩, .shutdown true, .assign true, .dispatch 0x4,
        .callback ⟨.accepted 1, .received []⟩]
      ⟨5, 8, true, rfl⟩ (by decide)
  exact ⟨s, hs.1, hs.2, graceful_of_none_outstanding hreach⟩

/-- `shutdown` on the loop thread half-closes while an accepted message of
another thread waits in the queue, and the message is written afterwards. -/
theorem shutdown_overtakes_send : ∃ s : TcpConnection Bool,
    (system true).ReachableVia
      (fun s a => sendsWithoutFault a = true ∧ closes s a = false) s ∧ ¬Graceful s.log := by
  obtain ⟨s, hreach, hlog⟩ : ∃ s, (system true).ReachableVia
      (fun s a => sendsWithoutFault a = true ∧ closes s a = false) s ∧
      s.log = [.connectioncallback true, .send false [1, 2], .ShutdownWrite,
        .sendInLoop false [1, 2], .write [1, 2]] :=
    Transition.System.exists_of_exec _ (new 5 8 false)
      [.connectEstablished, .send false [1, 2] (.accepted 0), .push false, .shutdown true,
        .assign true, .swap, .run ⟨.accepted 2, .received []⟩]
      ⟨5, 8, false, rfl⟩ (by decide)
  refine ⟨s, hreach, fun hgraceful => ?_⟩
  obtain ⟨hsent, -, -⟩ := hgraceful [.connectioncallback true, .send false [1, 2]]
    [.sendInLoop false [1, 2], .write [1, 2]] hlog
  exact absurd (hsent false) (by decide)

end Threads

end MuduoRpc.TcpConnection
