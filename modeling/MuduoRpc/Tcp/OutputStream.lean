import MuduoRpc.Lib.Table
import MuduoRpc.Tcp.Steps

/-!
The output of a connection. What the kernel has accepted followed by the
output buffer is the concatenation of the messages for which `sendInLoop` ran,
in the order of those runs; and the runs for the messages of one thread come
in the order of its calls.
-/

namespace MuduoRpc.TcpConnection

variable {T : Type}

def Event.writtenBytes : Event T → List UInt8
  | .write bytes => bytes
  | _ => []

def Event.streamedBytes : Event T → List UInt8
  | .sendInLoop _ message => message
  | _ => []

/-- The bytes the kernel has accepted. -/
def written (log : List (Event T)) : List UInt8 := log.flatMap Event.writtenBytes

/-- The messages for which `sendInLoop` ran in a state other than
`KDisconnected`, in the order of the runs. -/
def streamed (log : List (Event T)) : List UInt8 := log.flatMap Event.streamedBytes

@[simp] theorem written_append (log events : List (Event T)) :
    written (log ++ events) = written log ++ written events :=
  List.flatMap_append

@[simp] theorem streamed_append (log events : List (Event T)) :
    streamed (log ++ events) = streamed log ++ streamed events :=
  List.flatMap_append

def Event.isWrite : Event T → Bool
  | .write _ => true
  | _ => false

/-- Events that say nothing about messages, writes or the half-close. -/
def Event.isPlain : Event T → Bool
  | .send _ _ | .sendInLoop _ _ | .gaveUp _ _ | .write _ | .ShutdownWrite => false
  | _ => true

def Functor.isWriteComplete : Functor T → Bool
  | .writecompletecallback | .writecompletecallbackMember => true
  | _ => false

/-- A handler adds the events to the log. It may queue a write-complete
callback, and leaves the calls of the threads alone. -/
structure Adds (s : TcpConnection T) (events : List (Event T)) (s' : TcpConnection T) :
    Prop where
  log : s'.log = s.log ++ events
  calls : s'.calls = s.calls
  queue : ∃ cbs, s'.queue.toList = s.queue.toList ++ cbs ∧ ∀ cb ∈ cbs, cb.isWriteComplete = true

variable {s s' s'' : TcpConnection T} {events events' : List (Event T)}

theorem Adds.of_eq (hlog : s'.log = s.log) (hcalls : s'.calls = s.calls)
    (hqueue : s'.queue = s.queue) : Adds s [] s' :=
  ⟨by rw [hlog, List.append_nil], hcalls, [], by rw [hqueue, List.append_nil], by simp⟩

theorem Adds.trans (h : Adds s events s') (h' : Adds s' events' s'') :
    Adds s (events ++ events') s'' := by
  obtain ⟨cbs, hqueue, hcbs⟩ := h.queue
  obtain ⟨cbs', hqueue', hcbs'⟩ := h'.queue
  refine ⟨by rw [h'.log, h.log, List.append_assoc], h'.calls.trans h.calls, cbs ++ cbs',
    by rw [hqueue', hqueue, List.append_assoc], ?_⟩
  intro cb hcb
  rcases List.mem_append.mp hcb with hold | hnew
  · exact hcbs cb hold
  · exact hcbs' cb hnew

theorem adds_emit (s : TcpConnection T) (e : Event T) : Adds s [e] (s.emit e) :=
  ⟨rfl, rfl, [], by simp [emit], by simp⟩

theorem adds_queueInLoop (s : TcpConnection T) {cb : Functor T} (h : cb.isWriteComplete = true) :
    Adds s [] (s.queueInLoop cb) :=
  ⟨by simp [queueInLoop], rfl, [cb], by simp [queueInLoop], by simpa using h⟩

theorem adds_bufferRemaining (s : TcpConnection T) (remaining : List UInt8) :
    Adds s [] (s.bufferRemaining remaining) := by
  simp only [bufferRemaining]
  split_ifs <;> exact .of_eq rfl rfl rfl

theorem bytes_bufferRemaining (s : TcpConnection T) (remaining : List UInt8) :
    (s.bufferRemaining remaining).outputbuffer_.bytes = s.outputbuffer_.bytes ++ remaining := by
  simp only [bufferRemaining]
  split_ifs with hempty
  · rw [List.isEmpty_iff.mp hempty, List.append_nil]
  · exact ByteQueue.bytes_append s.outputbuffer_ remaining
  · exact ByteQueue.bytes_append s.outputbuffer_ remaining

/-- A run of `sendInLoop` records one message and at most one write. -/
theorem Sends.adds {t : T} {message : List UInt8} {result : WriteResult}
    (h : Sends s t message result s') : ∃ e writes, Adds s (e :: writes) s' ∧
      (s.state_ ≠ .KDisconnected ∧ e = .sendInLoop t message ∨
        s.state_ = .KDisconnected ∧ e = .gaveUp t message) ∧
      ∀ w ∈ writes, w.isWrite = true := by
  have hone : ∀ e : Event T, Adds s [e] (s.emit e) := adds_emit s
  cases h with
  | gaveUp hstate => exact ⟨_, [], hone _, .inr ⟨hstate, rfl⟩, by simp⟩
  | complete hstate _ _ =>
      exact ⟨_, _, ((hone _).trans (adds_emit _ _)).trans (adds_queueInLoop _ rfl),
        .inl ⟨hstate, rfl⟩, by simp [Event.isWrite]⟩
  | direct hstate _ _ _ =>
      exact ⟨_, _, ((hone _).trans (adds_emit _ _)).trans (adds_bufferRemaining _ _),
        .inl ⟨hstate, rfl⟩, by simp [Event.isWrite]⟩
  | refused hstate _ _ =>
      exact ⟨_, _, ((hone _).trans (adds_emit _ _)).trans (adds_bufferRemaining _ _),
        .inl ⟨hstate, rfl⟩, by simp [Event.isWrite]⟩
  | fault hstate _ =>
      exact ⟨_, _, (hone _).trans (adds_emit _ _), .inl ⟨hstate, rfl⟩, by simp [Event.isWrite]⟩
  | buffered hstate _ =>
      exact ⟨_, [], (hone _).trans (adds_bufferRemaining _ _), .inl ⟨hstate, rfl⟩, by simp⟩

/-- A handler that leaves the output buffer alone and adds only plain events. -/
structure Quiet (s s' : TcpConnection T) : Prop where
  output : s'.outputbuffer_ = s.outputbuffer_
  adds : ∃ events, Adds s events s' ∧ ∀ e ∈ events, e.isPlain = true

theorem Quiet.of_eq (houtput : s'.outputbuffer_ = s.outputbuffer_) (hlog : s'.log = s.log)
    (hcalls : s'.calls = s.calls) (hqueue : s'.queue = s.queue) : Quiet s s' :=
  ⟨houtput, [], .of_eq hlog hcalls hqueue, by simp⟩

theorem Quiet.trans (h : Quiet s s') (h' : Quiet s' s'') : Quiet s s'' := by
  obtain ⟨events, hadds, hplain⟩ := h.adds
  obtain ⟨events', hadds', hplain'⟩ := h'.adds
  refine ⟨h'.output.trans h.output, events ++ events', hadds.trans hadds', ?_⟩
  intro e he
  rcases List.mem_append.mp he with hold | hnew
  · exact hplain e hold
  · exact hplain' e hnew

theorem quiet_emit (s : TcpConnection T) {e : Event T} (h : e.isPlain = true) :
    Quiet s (s.emit e) :=
  ⟨rfl, [e], adds_emit s e, by simpa using h⟩

theorem quiet_setstate (s : TcpConnection T) (state : State) : Quiet s (s.setstate state) :=
  .of_eq rfl rfl rfl rfl

theorem quiet_setInterest (s : TcpConnection T) (interest : Channel.Interest) :
    Quiet s (s.setInterest interest) :=
  .of_eq rfl rfl rfl rfl

theorem quiet_handleClose (s : TcpConnection T) : Quiet s s.handleClose := by
  unfold handleClose
  split_ifs
  · exact ((quiet_setstate s _).trans (quiet_setInterest _ _)).trans
      ((quiet_emit _ rfl).trans (quiet_emit _ rfl))
  · exact .of_eq rfl rfl rfl rfl

theorem quiet_forceCloseInLoop (s : TcpConnection T) : Quiet s s.forceCloseInLoop := by
  unfold forceCloseInLoop
  split_ifs
  · exact quiet_handleClose s
  · exact .of_eq rfl rfl rfl rfl

theorem quiet_startReadInLoop (s : TcpConnection T) : Quiet s s.startReadInLoop := by
  unfold startReadInLoop
  split_ifs <;> exact .of_eq rfl rfl rfl rfl

theorem quiet_stopReadInLoop (s : TcpConnection T) : Quiet s s.stopReadInLoop := by
  unfold stopReadInLoop
  split_ifs <;> exact .of_eq rfl rfl rfl rfl

theorem quiet_connectEstablished (s : TcpConnection T) : Quiet s s.connectEstablished := by
  unfold connectEstablished
  split_ifs
  · exact ((quiet_setstate s _).trans (quiet_setInterest _ _)).trans (quiet_emit _ rfl)
  · exact .of_eq rfl rfl rfl rfl

theorem quiet_remove (s : TcpConnection T) : Quiet s s.remove := by
  unfold remove
  split_ifs <;> exact .of_eq rfl rfl rfl rfl

theorem quiet_connectDestroyed (s : TcpConnection T) : Quiet s s.connectDestroyed := by
  unfold connectDestroyed
  split_ifs
  · exact (((quiet_setstate s _).trans (quiet_setInterest _ _)).trans (quiet_emit _ rfl)).trans
      (quiet_remove _)
  · exact quiet_remove s

theorem quiet_handleRead {result : ReadResult} (h : s.handleRead result = some s') :
    Quiet s s' := by
  cases result with
  | received data =>
      simp only [handleRead] at h
      split_ifs at h <;> cases h
      · exact quiet_handleClose s
      · exact ⟨rfl, [.messagecallback], ⟨rfl, rfl, [], by simp [emit], by simp⟩,
          by simp [Event.isPlain]⟩
  | failed error =>
      cases h
      exact .of_eq rfl rfl rfl rfl

theorem quiet_queueInLoop (s : TcpConnection T) {cb : Functor T} (h : cb.isWriteComplete = true) :
    Quiet s (s.queueInLoop cb) :=
  ⟨rfl, [], adds_queueInLoop s h, by simp⟩

theorem quiet_stopWriting (s : TcpConnection T) : Quiet s s.stopWriting := by
  have hoff := quiet_setInterest s .disableWriting
  simp only [stopWriting]
  split_ifs
  · exact hoff.trans (quiet_queueInLoop _ rfl)
  · exact hoff

theorem adds_retrieveOutput (s : TcpConnection T) {n : Nat}
    (h : n ≤ s.outputbuffer_.readableBytes) :
    Adds s [.write (s.outputbuffer_.bytes.take n)] (s.retrieveOutput n h) :=
  ⟨rfl, rfl, [], by simp [retrieveOutput, emit], by simp⟩

/-- An observation that plain events do not touch. -/
theorem Quiet.flatMap_eq {β : Type} {f : Event T → List β} (h : Quiet s s')
    (hf : ∀ e : Event T, e.isPlain = true → f e = []) : s'.log.flatMap f = s.log.flatMap f := by
  obtain ⟨events, hadds, hplain⟩ := h.adds
  have hnil : events.flatMap f = [] := by
    apply List.flatMap_eq_nil_iff.mpr
    intro e he
    exact hf e (hplain e he)
  rw [hadds.log, List.flatMap_append, hnil, List.append_nil]

theorem writtenBytes_of_isPlain (e : Event T) (h : e.isPlain = true) : e.writtenBytes = [] := by
  cases e <;> first | rfl | cases h

theorem streamedBytes_of_isPlain (e : Event T) (h : e.isPlain = true) : e.streamedBytes = [] := by
  cases e <;> first | rfl | cases h

theorem Quiet.written (h : Quiet s s') : written s'.log = written s.log :=
  h.flatMap_eq writtenBytes_of_isPlain

theorem Quiet.streamed (h : Quiet s s') : streamed s'.log = streamed s.log :=
  h.flatMap_eq streamedBytes_of_isPlain

/-- Nothing is lost, repeated or reordered between `sendInLoop` and the
kernel. Inside `sendInLoop`, `remaining` is what it still has to write or to
buffer. -/
def Streams (s : TcpConnection T) (remaining : List UInt8) : Prop :=
  written s.log ++ s.outputbuffer_.bytes ++ remaining = streamed s.log

theorem Quiet.streams {remaining : List UInt8} (h : Quiet s s') (hs : Streams s remaining) :
    Streams s' remaining := by
  rw [Streams, h.written, h.streamed, h.output]
  exact hs

theorem Streams.emit_send (hs : Streams s []) (t : T) (message : List UInt8) :
    Streams (s.emit (.send t message)) [] := by
  simpa [Streams, emit, written, streamed, Event.writtenBytes, Event.streamedBytes] using hs

theorem Streams.emit_sendInLoop (hs : Streams s []) (t : T) (message : List UInt8) :
    Streams (s.emit (.sendInLoop t message)) message := by
  rw [Streams, List.append_nil] at hs
  have hwritten : written (s.emit (.sendInLoop t message)).log = written s.log := by
    simp [emit, written, Event.writtenBytes]
  have hstreamed : streamed (s.emit (.sendInLoop t message)).log = streamed s.log ++ message := by
    simp [emit, streamed, Event.streamedBytes]
  rw [Streams, hwritten, hstreamed, ← hs]
  rfl

theorem Streams.emit_write {remaining : List UInt8} (hs : Streams s remaining) (n : Nat)
    (hempty : s.outputbuffer_.bytes = []) :
    Streams (s.emit (.write (remaining.take n))) (remaining.drop n) := by
  rw [Streams, hempty, List.append_nil] at hs
  have hwritten : written (s.emit (.write (remaining.take n))).log =
      written s.log ++ remaining.take n := by
    simp [emit, written, Event.writtenBytes]
  have hstreamed : streamed (s.emit (.write (remaining.take n))).log = streamed s.log := by
    simp [emit, streamed, Event.streamedBytes]
  have hbytes : (s.emit (.write (remaining.take n))).outputbuffer_.bytes = [] := hempty
  rw [Streams, hwritten, hstreamed, hbytes, List.append_nil, List.append_assoc,
    List.take_append_drop, hs]

theorem Streams.emit_ShutdownWrite (hs : Streams s []) : Streams (s.emit .ShutdownWrite) [] := by
  simpa [Streams, emit, written, streamed, Event.writtenBytes, Event.streamedBytes] using hs

theorem Streams.emit_failedWrite {remaining : List UInt8} (hs : Streams s remaining) :
    Streams (s.emit (.write [])) remaining := by
  simpa [Streams, emit, written, streamed, Event.writtenBytes, Event.streamedBytes] using hs

theorem Streams.bufferRemaining {remaining : List UInt8} (hs : Streams s remaining) :
    Streams (s.bufferRemaining remaining) [] := by
  have hlog : (s.bufferRemaining remaining).log = s.log := by
    rw [(adds_bufferRemaining s remaining).log, List.append_nil]
  rw [Streams, hlog, bytes_bufferRemaining, List.append_nil, ← List.append_assoc]
  exact hs

/-- A write that does not break the connection. -/
def WriteResult.faultless : WriteResult → Bool
  | .failed .EPIPE | .failed .ECONNRESET => false
  | _ => true

theorem Sends.streams {t : T} {message : List UInt8} {result : WriteResult} (hs : Streams s [])
    (hresult : result.faultless = true) (h : Sends s t message result s') : Streams s' [] := by
  have hstart : Streams (s.emit (.sendInLoop t message)) message := hs.emit_sendInLoop t message
  cases h with
  | gaveUp _ => simpa [Streams, emit, written, streamed, Event.writtenBytes, Event.streamedBytes]
      using hs
  | complete _ _ hempty =>
      have hwritten := hstart.emit_write message.length hempty
      rw [List.take_length, List.drop_length] at hwritten
      exact (quiet_queueInLoop _ rfl).streams hwritten
  | direct _ _ hempty _ => exact (hstart.emit_write _ hempty).bufferRemaining
  | refused _ _ _ => exact hstart.emit_failedWrite.bufferRemaining
  | fault _ hfault => obtain rfl | rfl := hfault <;> cases hresult
  | buffered _ _ => exact hstart.bufferRemaining

theorem streams_retrieveOutput {n : Nat} (h : n ≤ s.outputbuffer_.readableBytes)
    (hs : Streams s []) : Streams (s.retrieveOutput n h) [] := by
  rw [Streams, List.append_nil] at hs ⊢
  have hwritten : written (s.retrieveOutput n h).log =
      written s.log ++ s.outputbuffer_.bytes.take n := by
    simp [retrieveOutput, emit, written, Event.writtenBytes]
  have hstreamed : streamed (s.retrieveOutput n h).log = streamed s.log := by
    simp [retrieveOutput, emit, streamed, Event.streamedBytes]
  have hbytes : (s.retrieveOutput n h).outputbuffer_.bytes = s.outputbuffer_.bytes.drop n :=
    ByteQueue.bytes_retrieve s.outputbuffer_ n h
  rw [hwritten, hstreamed, hbytes, List.append_assoc, List.take_append_drop, hs]

/-- Handlers leave the calls of the threads alone. -/
theorem Quiet.calls (h : Quiet s s') : s'.calls = s.calls := by
  obtain ⟨_, hadds, _⟩ := h.adds
  exact hadds.calls

theorem Sends.calls {t : T} {message : List UInt8} {result : WriteResult}
    (h : Sends s t message result s') : s'.calls = s.calls := by
  obtain ⟨_, _, hadds, _⟩ := h.adds
  exact hadds.calls

theorem Writes.calls {result : WriteResult} (h : Writes s result s') : s'.calls = s.calls := by
  cases h with
  | idle _ => rfl
  | nothing _ _ => rfl
  | something hfits _ _ => rfl
  | drained hfits _ _ _ => exact (quiet_stopWriting _).calls
  | halfClosed hfits _ _ _ _ => exact (quiet_stopWriting _).calls

theorem calls_shutdownInLoop (s : TcpConnection T) : s.shutdownInLoop.calls = s.calls := by
  unfold shutdownInLoop
  split_ifs <;> rfl

theorem calls_runFunctor {answers : Answers} {cb : Functor T}
    (h : s.runFunctor answers cb = some s') : s'.calls = s.calls := by
  cases cb with
  | sendInLoop t message => exact (sendInLoop_sends h).calls
  | shutdownInLoop => cases h; exact calls_shutdownInLoop s
  | forceCloseInLoop => cases h; exact (quiet_forceCloseInLoop s).calls
  | startReadInLoop => cases h; exact (quiet_startReadInLoop s).calls
  | stopReadInLoop => cases h; exact (quiet_stopReadInLoop s).calls
  | connectDestroyed => cases h; exact (quiet_connectDestroyed s).calls
  | writecompletecallback | writecompletecallbackMember => cases h; rfl

theorem calls_runCallback {answers : Answers} {callback : Channel.Callback}
    (h : s.runCallback answers callback = some s') : s'.calls = s.calls := by
  cases callback with
  | closeCallback_ => cases h; exact (quiet_handleClose s).calls
  | readCallback_ => exact (quiet_handleRead h).calls
  | errorCallback_ => cases h; rfl
  | writeCallback_ => exact (handleWrite_writes h).calls

section Threads

variable [DecidableEq T]

def Event.sentBy (t : T) : Event T → List (List UInt8)
  | .send t' message => if t' = t then [message] else []
  | _ => []

def Event.ranFor (t : T) : Event T → List (List UInt8)
  | .sendInLoop t' message | .gaveUp t' message => if t' = t then [message] else []
  | _ => []

def Event.streamedFor (t : T) : Event T → List (List UInt8)
  | .sendInLoop t' message => if t' = t then [message] else []
  | _ => []

def Functor.messageOf (t : T) : Functor T → List (List UInt8)
  | .sendInLoop t' message => if t' = t then [message] else []
  | _ => []

def Call.messageOf (t : T) : Call T → List (List UInt8)
  | .pushing cb => cb.messageOf t
  | .closing _ => []

/-- The messages of a thread's accepted calls of `send`, in call order. -/
def sent (t : T) (log : List (Event T)) : List (List UInt8) := log.flatMap (Event.sentBy t)

/-- The messages of a thread for which `sendInLoop` ran, in the order of the
runs. -/
def ran (t : T) (log : List (Event T)) : List (List UInt8) := log.flatMap (Event.ranFor t)

/-- Those of them that are part of `streamed`. -/
def streamedMessages (t : T) (log : List (Event T)) : List (List UInt8) :=
  log.flatMap (Event.streamedFor t)

/-- The messages of a thread whose `sendInLoop` is still to be run. -/
def outstanding (t : T) (s : TcpConnection T) : List (List UInt8) :=
  s.queue.toList.flatMap (Functor.messageOf t) ++ (s.calls t).elim [] (Call.messageOf t)

@[simp] theorem sent_append (t : T) (log events : List (Event T)) :
    sent t (log ++ events) = sent t log ++ sent t events :=
  List.flatMap_append

@[simp] theorem ran_append (t : T) (log events : List (Event T)) :
    ran t (log ++ events) = ran t log ++ ran t events :=
  List.flatMap_append

theorem streamedMessages_sublist_ran (t : T) (log : List (Event T)) :
    (streamedMessages t log).Sublist (ran t log) := by
  induction log with
  | nil => exact .slnil
  | cons e log ih =>
      rw [streamedMessages, ran, List.flatMap_cons, List.flatMap_cons]
      refine List.Sublist.append ?_ ih
      cases e <;> first | exact .refl _ | exact List.nil_sublist _

theorem Adds.outstanding (h : Adds s events s') (t : T) :
    outstanding t s' = outstanding t s := by
  obtain ⟨cbs, hqueue, hcbs⟩ := h.queue
  have hnil : cbs.flatMap (Functor.messageOf t) = [] := by
    apply List.flatMap_eq_nil_iff.mpr
    intro cb hcb
    have hcomplete := hcbs cb hcb
    cases cb <;> first | rfl | cases hcomplete
  rw [TcpConnection.outstanding, TcpConnection.outstanding, hqueue, h.calls,
    List.flatMap_append, hnil, List.append_nil]

/-- Events that are neither a `send` nor a run of `sendInLoop`. -/
def Event.isCall : Event T → Bool
  | .send _ _ | .sendInLoop _ _ | .gaveUp _ _ => true
  | _ => false

theorem sent_eq_nil {t : T} (h : ∀ e ∈ events, e.isCall = false) : sent t events = [] := by
  apply List.flatMap_eq_nil_iff.mpr
  intro e he
  have hcall := h e he
  cases e <;> first | rfl | cases hcall

theorem ran_eq_nil {t : T} (h : ∀ e ∈ events, e.isCall = false) : ran t events = [] := by
  apply List.flatMap_eq_nil_iff.mpr
  intro e he
  have hcall := h e he
  cases e <;> first | rfl | cases hcall

variable (threadPid : T)

/-- The invariant of a connection's output. `own` says that the functor a
thread is about to push carries its own message. -/
structure Delivered (s : TcpConnection T) : Prop where
  stream : Streams s []
  order : ∀ t, sent t s.log = ran t s.log ++ outstanding t s
  own : ∀ t t' message, s.calls t = some (.pushing (.sendInLoop t' message)) → t' = t
  direct : outstanding threadPid s = []

variable {threadPid}

theorem Delivered.adds (h : Delivered threadPid s) (hadds : Adds s events s')
    (hcalls : ∀ e ∈ events, e.isCall = false) (hstream : Streams s' []) :
    Delivered threadPid s' where
  stream := hstream
  order t := by
    rw [hadds.log, sent_append, ran_append, sent_eq_nil hcalls, ran_eq_nil hcalls,
      List.append_nil, List.append_nil, hadds.outstanding]
    exact h.order t
  own := hadds.calls ▸ h.own
  direct := (hadds.outstanding threadPid).trans h.direct

theorem Delivered.quiet (h : Delivered threadPid s) (hquiet : Quiet s s') :
    Delivered threadPid s' := by
  obtain ⟨events, hadds, hplain⟩ := hquiet.adds
  apply h.adds hadds ?_ (hquiet.streams h.stream)
  intro e he
  have hevent := hplain e he
  cases e <;> first | rfl | cases hevent

theorem Delivered.emit_ShutdownWrite (h : Delivered threadPid s) :
    Delivered threadPid (s.emit .ShutdownWrite) :=
  h.adds (adds_emit s _) (by simp [Event.isCall]) h.stream.emit_ShutdownWrite

theorem Delivered.shutdownInLoop (h : Delivered threadPid s) :
    Delivered threadPid s.shutdownInLoop := by
  unfold TcpConnection.shutdownInLoop
  split_ifs
  · exact h
  · exact h.emit_ShutdownWrite

theorem Delivered.retrieveOutput {n : Nat} (h : Delivered threadPid s)
    (hfits : n ≤ s.outputbuffer_.readableBytes) : Delivered threadPid (s.retrieveOutput n hfits) :=
  h.adds (adds_retrieveOutput s hfits) (by simp [Event.isCall])
    (streams_retrieveOutput hfits h.stream)

/-- A step that moves functors or calls and nothing else. -/
theorem Delivered.reschedule (h : Delivered threadPid s)
    (houtput : s'.outputbuffer_ = s.outputbuffer_) (hlog : s'.log = s.log)
    (houtstanding : ∀ t, outstanding t s' = outstanding t s)
    (hown : ∀ t t' message, s'.calls t = some (.pushing (.sendInLoop t' message)) → t' = t) :
    Delivered threadPid s' where
  stream := by
    rw [Streams, houtput, hlog]
    exact h.stream
  order t := by
    rw [hlog, houtstanding]
    exact h.order t
  own := hown
  direct := (houtstanding threadPid).trans h.direct

theorem messageOf_eq_nil {call : Option (Call T)}
    (h : ∀ t' message, call ≠ some (.pushing (.sendInLoop t' message))) (u : T) :
    call.elim [] (Call.messageOf u) = [] := by
  rcases call with _ | _ | cb
  · rfl
  · rfl
  · cases cb <;> first | rfl | exact absurd rfl (h _ _)

theorem outstanding_setCall {t : T} {call : Option (Call T)}
    (hold : ∀ t' message, s.calls t ≠ some (.pushing (.sendInLoop t' message)))
    (hnew : ∀ t' message, call ≠ some (.pushing (.sendInLoop t' message))) (u : T) :
    outstanding u (s.setCall t call) = outstanding u s := by
  by_cases hu : u = t
  · subst hu
    simp [outstanding, setCall, messageOf_eq_nil hold, messageOf_eq_nil hnew]
  · simp [outstanding, setCall, Function.update_of_ne hu]

theorem outstanding_push {t : T} {cb : Functor T}
    (hown : ∀ t t' message, s.calls t = some (.pushing (.sendInLoop t' message)) → t' = t)
    (hcall : s.calls t = some (.pushing cb)) (u : T) :
    outstanding u ((s.setCall t none).queueInLoop cb) = outstanding u s := by
  by_cases hu : u = t
  · subst hu
    simp [outstanding, setCall, queueInLoop, hcall, Call.messageOf]
  · have hother : cb.messageOf u = [] := by
      cases cb with
      | sendInLoop t' message =>
          obtain rfl : t' = t := hown t t' message hcall
          exact if_neg (Ne.symm hu)
      | _ => rfl
    simp [outstanding, setCall, queueInLoop, Function.update_of_ne hu, hother]

theorem calls_setCall {t u : T} {call : Option (Call T)} {c : Call T}
    (h : (s.setCall t call).calls u = some c) : s.calls u = some c ∨ call = some c :=
  Table.update_eq_some h

/-- A thread takes up or ends a call that carries no message. -/
theorem Delivered.setCall {t : T} {call : Option (Call T)} (h : Delivered threadPid s)
    (hold : ∀ t' message, s.calls t ≠ some (.pushing (.sendInLoop t' message)))
    (hnew : ∀ t' message, call ≠ some (.pushing (.sendInLoop t' message))) :
    Delivered threadPid (s.setCall t call) := by
  refine h.reschedule rfl rfl (outstanding_setCall hold hnew) ?_
  intro u t' message hcall
  rcases calls_setCall hcall with hcall | hpush
  · exact h.own u t' message hcall
  · exact absurd hpush (hnew t' message)

theorem Delivered.push {t : T} {cb : Functor T} (h : Delivered threadPid s)
    (hcall : s.calls t = some (.pushing cb)) :
    Delivered threadPid ((s.setCall t none).queueInLoop cb) := by
  refine h.reschedule rfl rfl (outstanding_push h.own hcall) ?_
  intro u t' message hpush
  rcases calls_setCall hpush with hpush | hnone
  · exact h.own u t' message hpush
  · cases hnone

theorem outstanding_hand {t : T} (hfree : s.calls t = none) (message : List UInt8) (u : T) :
    outstanding u (s.hand t (.sendInLoop t message)) =
      outstanding u s ++ if t = u then [message] else [] := by
  by_cases hu : u = t
  · subst hu
    simp [outstanding, hand, setCall, hfree, Call.messageOf, Functor.messageOf]
  · simp [outstanding, hand, setCall, Function.update_of_ne hu, Ne.symm hu]

theorem sent_emit (s : TcpConnection T) (t u : T) (message : List UInt8) :
    sent u (s.emit (.send t message)).log = sent u s.log ++ if t = u then [message] else [] := by
  simp [emit, sent, Event.sentBy]

theorem ran_emit (s : TcpConnection T) (t u : T) (message : List UInt8) :
    ran u (s.emit (.send t message)).log = ran u s.log := by
  simp [emit, ran, Event.ranFor]

theorem Delivered.send {t : T} {message : List UInt8} (h : Delivered threadPid s)
    (hother : t ≠ threadPid) (hfree : s.calls t = none) :
    Delivered threadPid ((s.emit (.send t message)).hand t (.sendInLoop t message)) where
  stream := h.stream.emit_send t message
  order u := by
    have hsent := sent_emit s t u message
    have hran := ran_emit s t u message
    have hhand := outstanding_hand (s := s.emit (.send t message)) hfree message u
    calc sent u (s.emit (.send t message)).log
        = ran u s.log ++ outstanding u s ++ if t = u then [message] else [] := by
          rw [hsent, h.order]
      _ = ran u (s.emit (.send t message)).log ++ outstanding u
            ((s.emit (.send t message)).hand t (.sendInLoop t message)) := by
          rw [hran, hhand, List.append_assoc]
          rfl
  own u t' message' hpush := by
    by_cases hu : u = t
    · subst hu
      have hsame : u = t' ∧ message = message' := by
        simpa [hand, TcpConnection.setCall] using hpush
      exact hsame.1.symm
    · exact h.own u t' message' (by
        simpa [hand, emit, TcpConnection.setCall, Function.update_of_ne hu] using hpush)
  direct := by
    rw [outstanding_hand (s := s.emit (.send t message)) hfree, if_neg hother, List.append_nil]
    exact h.direct

/-- `sendInLoop` runs for a message that was sent and is not among the
outstanding ones any more. -/
theorem delivered_of_sends {t : T} {message : List UInt8} {result : WriteResult}
    (hstream : Streams s [])
    (horder : ∀ u, sent u s.log =
      ran u s.log ++ ((if t = u then [message] else []) ++ outstanding u s))
    (hown : ∀ t t' message, s.calls t = some (.pushing (.sendInLoop t' message)) → t' = t)
    (hdirect : outstanding threadPid s = []) (hresult : result.faultless = true)
    (h : Sends s t message result s') : Delivered threadPid s' := by
  obtain ⟨e, writes, hadds, he, hwrites⟩ := h.adds
  have hcalls : ∀ w ∈ writes, w.isCall = false := by
    intro w hw
    have hwrite := hwrites w hw
    cases w <;> first | rfl | cases hwrite
  constructor
  · exact h.streams hstream hresult
  · intro u
    have hsent : sent u (e :: writes) = [] := by
      rw [← List.singleton_append, sent_append, sent_eq_nil hcalls, List.append_nil]
      rcases he with ⟨-, rfl⟩ | ⟨-, rfl⟩ <;> rfl
    have hran : ran u (e :: writes) = if t = u then [message] else [] := by
      rw [← List.singleton_append, ran_append, ran_eq_nil hcalls, List.append_nil]
      rcases he with ⟨-, rfl⟩ | ⟨-, rfl⟩ <;> simp [ran, Event.ranFor]
    rw [hadds.log, sent_append, ran_append, hsent, hran, hadds.outstanding, List.append_nil,
      horder, List.append_assoc]
  · exact hadds.calls ▸ hown
  · exact (hadds.outstanding threadPid).trans hdirect

theorem outstanding_pop {cb : Functor T} {queue : PendingQueue (Functor T)}
    (hpop : s.queue.pop = some (cb, queue)) (t : T) :
    outstanding t s = cb.messageOf t ++ outstanding t { s with queue := queue } := by
  simp [outstanding, PendingQueue.toList_pop hpop]

theorem Delivered.writes {result : WriteResult} (h : Delivered threadPid s)
    (hw : Writes s result s') : Delivered threadPid s' := by
  cases hw with
  | idle _ => exact h
  | nothing _ _ =>
      exact h.adds (adds_emit s _) (by simp [Event.isCall]) h.stream.emit_failedWrite
  | something hfits _ _ => exact h.retrieveOutput hfits
  | drained hfits _ _ _ => exact (h.retrieveOutput hfits).quiet (quiet_stopWriting _)
  | halfClosed hfits _ _ _ _ =>
      exact ((h.retrieveOutput hfits).quiet (quiet_stopWriting _)).emit_ShutdownWrite

theorem Delivered.runFunctor {answers : Answers} {cb : Functor T}
    {queue : PendingQueue (Functor T)} (h : Delivered threadPid s)
    (hpop : s.queue.pop = some (cb, queue)) (hresult : answers.written.faultless = true)
    (hrun : { s with queue := queue }.runFunctor answers cb = some s') :
    Delivered threadPid s' := by
  have hpopped := outstanding_pop hpop
  have hrest : (∀ t, cb.messageOf t = []) → Delivered threadPid { s with queue := queue } := by
    intro hnone
    refine h.reschedule rfl rfl ?_ h.own
    intro t
    rw [hpopped t, hnone t, List.nil_append]
  cases cb with
  | sendInLoop t message =>
      have hdirect : (Functor.sendInLoop t message).messageOf threadPid = [] ∧
          outstanding threadPid { s with queue := queue } = [] :=
        List.append_eq_nil_iff.mp ((hpopped threadPid).symm.trans h.direct)
      apply delivered_of_sends (s := { s with queue := queue }) h.stream ?_ h.own
        hdirect.2 hresult (sendInLoop_sends hrun)
      intro u
      exact (h.order u).trans (congrArg (ran u s.log ++ ·) (hpopped u))
  | shutdownInLoop => cases hrun; exact (hrest fun _ => rfl).shutdownInLoop
  | forceCloseInLoop => cases hrun; exact (hrest fun _ => rfl).quiet (quiet_forceCloseInLoop _)
  | startReadInLoop => cases hrun; exact (hrest fun _ => rfl).quiet (quiet_startReadInLoop _)
  | stopReadInLoop => cases hrun; exact (hrest fun _ => rfl).quiet (quiet_stopReadInLoop _)
  | connectDestroyed => cases hrun; exact (hrest fun _ => rfl).quiet (quiet_connectDestroyed _)
  | writecompletecallback => cases hrun; exact (hrest fun _ => rfl).quiet (quiet_emit _ rfl)
  | writecompletecallbackMember => cases hrun; exact hrest fun _ => rfl

theorem Delivered.runCallback {answers : Answers} {callback : Channel.Callback}
    (h : Delivered threadPid s) (hrun : s.runCallback answers callback = some s') :
    Delivered threadPid s' := by
  cases callback with
  | closeCallback_ => cases hrun; exact h.quiet (quiet_handleClose s)
  | readCallback_ => exact h.quiet (quiet_handleRead hrun)
  | errorCallback_ => cases hrun; exact h
  | writeCallback_ => exact h.writes (handleWrite_writes hrun)

/-- No direct write of the step fails with `EPIPE` or `ECONNRESET`. -/
def sendsWithoutFault : Action T → Bool
  | .send _ _ result => result.faultless
  | .run answers => answers.written.faultless
  | _ => true

theorem Delivered.step {a : Action T} (h : Delivered threadPid s)
    (hguard : sendsWithoutFault a = true) (hstep : Steps threadPid s a s') :
    Delivered threadPid s' := by
  have hhand : ∀ {t : T} {cb : Functor T}, s.calls t = none →
      (∀ t' message, cb ≠ .sendInLoop t' message) → Delivered threadPid (s.hand t cb) := by
    intro t cb hfree hcb
    exact h.setCall (by simp [hfree]) (by simpa using hcb)
  have hassign : ∀ {t : T} {closing : Closing} {call : Option (Call T)},
      s.calls t = some (.closing closing) →
      (∀ t' message, call ≠ some (.pushing (.sendInLoop t' message))) →
      Delivered threadPid ((s.setstate .KDisconnecting).setCall t call) := by
    intro t closing call hcall hnew
    exact (h.quiet (quiet_setstate s _)).setCall (by simp [setstate, hcall]) hnew
  cases hstep with
  | connectEstablished => exact h.quiet (quiet_connectEstablished s)
  | @sendHere message result _ hfree hstate hsend =>
      apply delivered_of_sends (h.stream.emit_send _ _) ?_ h.own h.direct hguard
        (sendInLoop_sends hsend)
      intro u
      have hsame : outstanding u (s.emit (.send threadPid message)) = outstanding u s := rfl
      rw [sent_emit, ran_emit, h.order, hsame, List.append_assoc]
      by_cases hu : threadPid = u
      · subst hu
        rw [h.direct, List.append_nil, List.nil_append]
      · rw [if_neg hu, List.append_nil, List.nil_append]
  | send hother hfree hstate => exact h.send hother hfree
  | shutdown hfree hstate => exact h.setCall (by simp [hfree]) (by simp)
  | forceClose hfree hstate => exact h.setCall (by simp [hfree]) (by simp)
  | assignShutdownHere hcall => exact (hassign hcall (by simp)).shutdownInLoop
  | assignShutdown hother hcall =>
      exact (hassign hcall (by simp)).setCall (by simp [TcpConnection.setCall]) (by simp)
  | assignForceClose hcall => exact hassign hcall (by simp)
  | startReadHere => exact h.quiet (quiet_startReadInLoop s)
  | startRead hfree => exact hhand hfree (by simp)
  | stopReadHere => exact h.quiet (quiet_stopReadInLoop s)
  | stopRead hfree => exact hhand hfree (by simp)
  | removeConnection hfree => exact hhand hfree (by simp)
  | connectDestroyed => exact h.quiet (quiet_connectDestroyed s)
  | push hcall => exact h.push hcall
  | swap hswap =>
      refine h.reschedule rfl rfl ?_ h.own
      intro t
      simp [outstanding, PendingQueue.toList_swap hswap]
  | run hpop hrun => exact h.runFunctor hpop hguard hrun
  | dispatch => exact h.reschedule rfl rfl (fun _ => rfl) h.own
  | @callback _ _ rest _ hwork hrun =>
      have hrest : Delivered threadPid { s with work := rest } :=
        h.reschedule rfl rfl (fun _ => rfl) h.own
      exact hrest.runCallback hrun
  | consume hlen => exact h.reschedule rfl rfl (fun _ => rfl) h.own

theorem delivered_new (sockfd initalsize : Nat) (writecompletecallback : Bool) :
    Delivered threadPid (new sockfd initalsize writecompletecallback) := by
  refine ⟨?_, fun t => rfl, ?_, rfl⟩
  · simp [Streams, new, written, streamed]
  · simp [new]

theorem delivered_of_reachable {guard : TcpConnection T → Action T → Prop}
    (hguard : ∀ s a, guard s a → sendsWithoutFault a = true)
    (h : (system threadPid).ReachableVia guard s) : Delivered threadPid s := by
  apply h.invariant
  · rintro s ⟨sockfd, initalsize, writecompletecallback, rfl⟩
    exact delivered_new sockfd initalsize writecompletecallback
  · intro s a s' hs ha hnext
    exact hs.step (hguard s a ha) (next_steps hnext).2

/-- The stream of a connection, in every state of every run in which no direct
write fails with `EPIPE` or `ECONNRESET`. Every accepted message is run for once or
is still outstanding, and the messages of a thread enter the stream in the
order of its calls. -/
theorem output_stream
    (h : (system threadPid).ReachableVia (fun _ a => sendsWithoutFault a = true) s) :
    written s.log ++ s.outputbuffer_.bytes = streamed s.log ∧
      ∀ t, sent t s.log = ran t s.log ++ outstanding t s ∧
        (streamedMessages t s.log).Sublist (sent t s.log) := by
  have hs := delivered_of_reachable (fun _ _ ha => ha) h
  constructor
  · exact (List.append_nil _).symm.trans hs.stream
  · intro t
    constructor
    · exact hs.order t
    · rw [hs.order t]
      exact (streamedMessages_sublist_ran t s.log).trans (List.sublist_append_left _ _)

/-- A message of another thread is buffered behind the rest of a partial write,
and a later write takes from both. -/
theorem output_stream_two_threads : ∃ s : TcpConnection Bool,
    (written s.log = [3, 4, 1] ∧ s.outputbuffer_.bytes = [2] ∧ outstanding false s = []) ∧
      written s.log ++ s.outputbuffer_.bytes = streamed s.log ∧
      ∀ t, sent t s.log = ran t s.log ++ outstanding t s ∧
        (streamedMessages t s.log).Sublist (sent t s.log) := by
  obtain ⟨s, hreach, hs⟩ : ∃ s, (system true).ReachableVia
      (fun _ a => sendsWithoutFault a = true) s ∧
      (written s.log = [3, 4, 1] ∧ s.outputbuffer_.bytes = [2] ∧ outstanding false s = []) :=
    Transition.System.exists_of_exec _ (new 5 8 true)
      [.connectEstablished, .send false [1, 2] (.accepted 0), .send true [3, 4] (.accepted 1),
        .push false, .swap, .run ⟨.accepted 0, .received []⟩, .dispatch 0x4,
        .callback ⟨.accepted 2, .received []⟩]
      ⟨5, 8, true, rfl⟩ (by decide)
  exact ⟨s, hs, output_stream hreach⟩

end Threads

end MuduoRpc.TcpConnection
