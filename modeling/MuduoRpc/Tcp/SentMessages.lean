import MuduoRpc.Lib.Interleaving
import MuduoRpc.Tcp.OutputStream

/-!
The messages of all threads together. Those that are in the output stream are among those
of the accepted calls of `send`, none of them more often than it was sent.
-/

namespace MuduoRpc.TcpConnection

variable {T : Type}

def Event.sentItem : Event T → List (T × List UInt8)
  | .send t message => [(t, message)]
  | _ => []

def Event.streamedItem : Event T → List (T × List UInt8)
  | .sendInLoop t message => [(t, message)]
  | _ => []

/-- The accepted calls of `send`, with their threads. -/
def sentItems (log : List (Event T)) : List (T × List UInt8) := log.flatMap Event.sentItem

/-- The messages that make up `streamed`, with their threads. -/
def streamedItems (log : List (Event T)) : List (T × List UInt8) :=
  log.flatMap Event.streamedItem

def Action.sentItem : Action T → List (T × List UInt8)
  | .send t message _ => [(t, message)]
  | _ => []

theorem streamed_eq (log : List (Event T)) :
    streamed log = ((streamedItems log).map Prod.snd).flatten := by
  induction log with
  | nil => rfl
  | cons e log ih =>
      rw [streamed, streamedItems, List.flatMap_cons, List.flatMap_cons, List.map_append,
        List.flatten_append]
      refine congrArg₂ (· ++ ·) ?_ ih
      cases e <;> first | rfl | exact (List.append_nil _).symm

variable {s s' s'' : TcpConnection T}

theorem sentItems_append (log events : List (Event T)) :
    sentItems (log ++ events) = sentItems log ++ sentItems events :=
  List.flatMap_append

/-- The log goes on with events none of which is a call of `send`. -/
def Continues (s s' : TcpConnection T) : Prop :=
  ∃ events, s'.log = s.log ++ events ∧ sentItems events = []

theorem Continues.of_eq (h : s'.log = s.log) : Continues s s' :=
  ⟨[], h.trans (List.append_nil _).symm, rfl⟩

theorem Continues.trans (h : Continues s s') (h' : Continues s' s'') : Continues s s'' := by
  obtain ⟨events, hlog, hnone⟩ := h
  obtain ⟨events', hlog', hnone'⟩ := h'
  refine ⟨events ++ events', by rw [hlog', hlog, List.append_assoc], ?_⟩
  rw [sentItems_append, hnone, hnone', List.append_nil]

theorem continues_emit (s : TcpConnection T) {e : Event T} (h : e.sentItem = []) :
    Continues s (s.emit e) :=
  ⟨[e], rfl, by simp [sentItems, h]⟩

theorem Quiet.continues (h : Quiet s s') : Continues s s' := by
  obtain ⟨events, hadds, hplain⟩ := h.adds
  refine ⟨events, hadds.log, List.flatMap_eq_nil_iff.mpr fun e he => ?_⟩
  have hevent := hplain e he
  cases e <;> first | rfl | cases hevent

/-- A run of `sendInLoop` is no call of `send`. -/
theorem Sends.continues {t : T} {message : List UInt8} {result : WriteResult}
    (h : Sends s t message result s') : Continues s s' := by
  obtain ⟨e, writes, hadds, he, hwrites⟩ := h.adds
  refine ⟨e :: writes, hadds.log, List.flatMap_eq_nil_iff.mpr fun event hevent => ?_⟩
  rcases List.mem_cons.mp hevent with rfl | hwrite
  · rcases he with ⟨_, rfl⟩ | ⟨_, rfl⟩ <;> rfl
  · have hisWrite := hwrites event hwrite
    cases event <;> first | rfl | cases hisWrite

theorem Writes.continues {result : WriteResult} (h : Writes s result s') : Continues s s' := by
  have hretrieve {n : Nat} (hfits : n ≤ s.outputbuffer_.readableBytes) :
      Continues s (s.retrieveOutput n hfits) :=
    ⟨_, (adds_retrieveOutput s hfits).log, rfl⟩
  cases h with
  | idle _ => exact .of_eq rfl
  | nothing _ _ => exact continues_emit s rfl
  | something hfits _ _ => exact hretrieve hfits
  | drained hfits _ _ _ => exact (hretrieve hfits).trans (quiet_stopWriting _).continues
  | halfClosed hfits _ _ _ _ =>
      exact ((hretrieve hfits).trans (quiet_stopWriting _).continues).trans
        (continues_emit _ rfl)

theorem continues_shutdownInLoop (s : TcpConnection T) : Continues s s.shutdownInLoop := by
  unfold shutdownInLoop
  split_ifs
  · exact .of_eq rfl
  · exact continues_emit s rfl

theorem continues_runFunctor {answers : Answers} {cb : Functor T}
    (h : s.runFunctor answers cb = some s') : Continues s s' := by
  cases cb with
  | sendInLoop t message => exact (sendInLoop_sends h).continues
  | shutdownInLoop => cases h; exact continues_shutdownInLoop s
  | forceCloseInLoop => cases h; exact (quiet_forceCloseInLoop s).continues
  | startReadInLoop => cases h; exact (quiet_startReadInLoop s).continues
  | stopReadInLoop => cases h; exact (quiet_stopReadInLoop s).continues
  | connectDestroyed => cases h; exact (quiet_connectDestroyed s).continues
  | writecompletecallback => cases h; exact continues_emit s rfl
  | writecompletecallbackMember => cases h; exact .of_eq rfl

theorem continues_runCallback {answers : Answers} {callback : Channel.Callback}
    (h : s.runCallback answers callback = some s') : Continues s s' := by
  cases callback with
  | closeCallback_ => cases h; exact (quiet_handleClose s).continues
  | readCallback_ => exact (quiet_handleRead h).continues
  | errorCallback_ => cases h; exact .of_eq rfl
  | writeCallback_ => exact (handleWrite_writes h).continues

variable [DecidableEq T] {threadPid : T}

/-- A step continues the log, with the call of `send` that it is. -/
theorem Steps.log {a : Action T} (h : Steps threadPid s a s') :
    ∃ events, s'.log = s.log ++ events ∧ sentItems events = a.sentItem := by
  cases h with
  | sendHere hfree hstate hsend =>
      obtain ⟨events, hlog, hnone⟩ := (sendInLoop_sends hsend).continues
      refine ⟨_ :: events, hlog.trans (List.append_assoc _ _ _), ?_⟩
      rw [sentItems, List.flatMap_cons]
      exact congrArg (_ ++ ·) hnone
  | send hother hfree hstate => exact ⟨_, rfl, rfl⟩
  | connectEstablished => exact (quiet_connectEstablished s).continues
  | @assignShutdownHere hcall =>
      exact continues_shutdownInLoop ((s.setstate .KDisconnecting).setCall threadPid none)
  | startReadHere => exact (quiet_startReadInLoop s).continues
  | stopReadHere => exact (quiet_stopReadInLoop s).continues
  | connectDestroyed => exact (quiet_connectDestroyed s).continues
  | @run _ _ queue _ hpop hrun => exact continues_runFunctor (s := { s with queue := queue }) hrun
  | @callback _ _ rest _ hwork hrun => exact continues_runCallback (s := { s with work := rest }) hrun
  | _ => exact ⟨[], (List.append_nil _).symm, rfl⟩

theorem Steps.sentItems {a : Action T} (h : Steps threadPid s a s') :
    sentItems s'.log = sentItems s.log ++ a.sentItem := by
  obtain ⟨events, hlog, hsent⟩ := h.log
  rw [hlog, sentItems_append, hsent]

theorem filter_streamedItems (t : T) (log : List (Event T)) :
    (streamedItems log).filter (fun item => item.1 = t) =
      (streamedMessages t log).map (Prod.mk t) := by
  induction log with
  | nil => rfl
  | cons e log ih =>
      rw [streamedItems, streamedMessages, List.flatMap_cons, List.flatMap_cons,
        List.filter_append, List.map_append]
      refine congrArg₂ (· ++ ·) ?_ ih
      cases e with
      | sendInLoop u message =>
          by_cases hu : u = t
          · subst hu
            simp [Event.streamedItem, Event.streamedFor]
          · simp [Event.streamedItem, Event.streamedFor, hu]
      | _ => rfl

theorem filter_sentItems (t : T) (log : List (Event T)) :
    (sentItems log).filter (fun item => item.1 = t) = (sent t log).map (Prod.mk t) := by
  induction log with
  | nil => rfl
  | cons e log ih =>
      rw [TcpConnection.sentItems, sent, List.flatMap_cons, List.flatMap_cons,
        List.filter_append, List.map_append]
      refine congrArg₂ (· ++ ·) ?_ ih
      cases e with
      | send u message =>
          by_cases hu : u = t
          · subst hu
            simp [Event.sentItem, Event.sentBy]
          · simp [Event.sentItem, Event.sentBy, hu]
      | _ => rfl

/-- No message is in the stream more often than it was sent. -/
theorem Delivered.subperm (h : Delivered threadPid s) :
    (streamedItems s.log).Subperm (sentItems s.log) := by
  refine Interleaving.subperm_of_sublists fun t => ?_
  rw [filter_streamedItems, filter_sentItems, h.order t]
  exact ((streamedMessages_sublist_ran t s.log).trans (List.sublist_append_left _ _)).map _

end MuduoRpc.TcpConnection
