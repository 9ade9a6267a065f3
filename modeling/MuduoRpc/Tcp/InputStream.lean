import MuduoRpc.Tcp.OutputStream

/-!
The input of a connection. What a step reads goes behind what is in the input buffer, and
what the message callback takes comes from its front. Nothing else touches the buffer.
-/

namespace MuduoRpc.TcpConnection

variable {T : Type}

/-- The bytes that the kernel hands over in the step. -/
def Action.reads (s : TcpConnection T) : Action T → List UInt8
  | .callback ⟨_, .received data⟩ =>
      if s.work.head? = some .readCallback_ then data else []
  | _ => []

/-- The bytes that the message callback takes in the step. -/
def Action.consumes (s : TcpConnection T) : Action T → List UInt8
  | .consume len => s.inputbuffer_.bytes.take len
  | _ => []

variable {s s' : TcpConnection T}

theorem input_bufferRemaining (s : TcpConnection T) (remaining : List UInt8) :
    (s.bufferRemaining remaining).inputbuffer_ = s.inputbuffer_ := by
  simp only [bufferRemaining]
  split_ifs <;> rfl

theorem input_handleClose (s : TcpConnection T) :
    s.handleClose.inputbuffer_ = s.inputbuffer_ := by
  unfold handleClose
  split_ifs <;> rfl

theorem input_stopWriting (s : TcpConnection T) :
    s.stopWriting.inputbuffer_ = s.inputbuffer_ := by
  simp only [stopWriting]
  split_ifs <;> rfl

theorem input_shutdownInLoop (s : TcpConnection T) :
    s.shutdownInLoop.inputbuffer_ = s.inputbuffer_ := by
  unfold shutdownInLoop
  split_ifs <;> rfl

theorem input_forceCloseInLoop (s : TcpConnection T) :
    s.forceCloseInLoop.inputbuffer_ = s.inputbuffer_ := by
  unfold forceCloseInLoop
  split_ifs
  · exact input_handleClose s
  · rfl

theorem input_startReadInLoop (s : TcpConnection T) :
    s.startReadInLoop.inputbuffer_ = s.inputbuffer_ := by
  unfold startReadInLoop
  split_ifs <;> rfl

theorem input_stopReadInLoop (s : TcpConnection T) :
    s.stopReadInLoop.inputbuffer_ = s.inputbuffer_ := by
  unfold stopReadInLoop
  split_ifs <;> rfl

theorem input_connectEstablished (s : TcpConnection T) :
    s.connectEstablished.inputbuffer_ = s.inputbuffer_ := by
  unfold connectEstablished
  split_ifs <;> rfl

theorem input_remove (s : TcpConnection T) : s.remove.inputbuffer_ = s.inputbuffer_ := by
  unfold remove
  split_ifs <;> rfl

theorem input_connectDestroyed (s : TcpConnection T) :
    s.connectDestroyed.inputbuffer_ = s.inputbuffer_ := by
  unfold connectDestroyed
  split_ifs
  · exact input_remove _
  · exact input_remove s

theorem Sends.input {t : T} {message : List UInt8} {result : WriteResult}
    (h : Sends s t message result s') : s'.inputbuffer_ = s.inputbuffer_ := by
  cases h with
  | gaveUp _ | complete _ _ _ | fault _ _ => rfl
  | direct _ _ _ _ | refused _ _ _ | buffered _ _ => exact input_bufferRemaining _ _

theorem Writes.input {result : WriteResult} (h : Writes s result s') :
    s'.inputbuffer_ = s.inputbuffer_ := by
  cases h with
  | idle _ | nothing _ _ | something _ _ _ => rfl
  | drained hfits _ _ _ => exact input_stopWriting _
  | halfClosed hfits _ _ _ _ => exact input_stopWriting _

theorem input_runFunctor {answers : Answers} {cb : Functor T}
    (h : s.runFunctor answers cb = some s') : s'.inputbuffer_ = s.inputbuffer_ := by
  cases cb with
  | sendInLoop t message => exact (sendInLoop_sends h).input
  | shutdownInLoop => cases h; exact input_shutdownInLoop s
  | forceCloseInLoop => cases h; exact input_forceCloseInLoop s
  | startReadInLoop => cases h; exact input_startReadInLoop s
  | stopReadInLoop => cases h; exact input_stopReadInLoop s
  | connectDestroyed => cases h; exact input_connectDestroyed s
  | writecompletecallback | writecompletecallbackMember => cases h; rfl

theorem input_handleRead {data : List UInt8} (h : s.handleRead (.received data) = some s') :
    s'.inputbuffer_.bytes = s.inputbuffer_.bytes ++ data := by
  simp only [handleRead] at h
  split_ifs at h with hempty hroom <;> cases h
  · rw [input_handleClose, List.isEmpty_iff.mp hempty, List.append_nil]
  · exact ByteQueue.bytes_readFd s.inputbuffer_ data

/-- A callback of the channel reads only if it is the one for reading. -/
theorem input_runCallback {answers : Answers} {callback : Channel.Callback}
    {rest : List Channel.Callback} (hwork : s.work = callback :: rest)
    (h : { s with work := rest }.runCallback answers callback = some s') :
    s'.inputbuffer_.bytes = s.inputbuffer_.bytes ++ (Action.callback answers).reads s := by
  obtain ⟨written, read⟩ := answers
  have hother (hcallback : callback ≠ .readCallback_)
      (hinput : s'.inputbuffer_ = s.inputbuffer_) :
      s'.inputbuffer_.bytes =
        s.inputbuffer_.bytes ++ (Action.callback (T := T) ⟨written, read⟩).reads s := by
    cases read <;> simp [Action.reads, hwork, hcallback, hinput]
  cases callback with
  | closeCallback_ => cases h; exact hother (by decide) (input_handleClose _)
  | errorCallback_ => cases h; exact hother (by decide) rfl
  | writeCallback_ => exact hother (by decide) (handleWrite_writes h).input
  | readCallback_ =>
      cases read with
      | received data =>
          have hreads : (Action.callback (T := T) ⟨written, .received data⟩).reads s = data := by
            simp [Action.reads, hwork]
          rw [hreads]
          exact input_handleRead (s := { s with work := rest }) h
      | failed error =>
          cases h
          exact (List.append_nil _).symm

variable [DecidableEq T] {threadPid : T}

theorem Steps.input {a : Action T} (h : Steps threadPid s a s') :
    s.inputbuffer_.bytes ++ a.reads s = a.consumes s ++ s'.inputbuffer_.bytes := by
  have hsame {reads consumes : List UInt8} (hreads : reads = []) (hconsumes : consumes = [])
      (hinput : s'.inputbuffer_ = s.inputbuffer_) :
      s.inputbuffer_.bytes ++ reads = consumes ++ s'.inputbuffer_.bytes := by
    rw [hreads, hconsumes, hinput, List.append_nil, List.nil_append]
  cases h with
  | callback hwork hrun => exact (input_runCallback hwork hrun).symm
  | consume hlen =>
      have hbytes := ByteQueue.bytes_retrieve s.inputbuffer_ _ hlen
      simp only [Action.reads, Action.consumes, hbytes, List.append_nil, List.take_append_drop]
  | connectEstablished => exact hsame rfl rfl (input_connectEstablished s)
  | sendHere hfree hstate hsend => exact hsame rfl rfl (sendInLoop_sends hsend).input
  | assignShutdownHere hcall => exact hsame rfl rfl (input_shutdownInLoop _)
  | startReadHere => exact hsame rfl rfl (input_startReadInLoop s)
  | stopReadHere => exact hsame rfl rfl (input_stopReadInLoop s)
  | connectDestroyed => exact hsame rfl rfl (input_connectDestroyed s)
  | @run _ _ queue _ hpop hrun =>
      exact hsame rfl rfl (input_runFunctor (s := { s with queue := queue }) hrun)
  | _ => exact hsame rfl rfl rfl

end MuduoRpc.TcpConnection
