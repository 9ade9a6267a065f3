import MuduoRpc.Rpc.Conforming
import MuduoRpc.Rpc.OutstandingCalls
import MuduoRpc.Rpc.RpcMessage
import MuduoRpc.Tcp.SentMessages

/-!
A channel on its connection. The step in which a call hands its message to the codec is
the one in which the connection sends the frame, so the interleavings are those of the
threads in `CallMethod`, the loop of the connection and every other call on it. What gets
into the socket is the frames of calls, one after the other.
-/

namespace MuduoRpc.Rpc

open TcpConnection (WriteResult)

structure CallPath (T : Type) where
  channel : RpcChannel T
  conn_ : TcpConnection T

namespace CallPath

variable {T : Type}

/-- `conn` is any step of the connection but a `send`: the codec of the channel is the only
one to send on it. -/
inductive Action (T : Type)
  | fetchAdd (t : T) (arguments : CallMethod.Arguments)
  | store (t : T)
  | send (t : T) (result : WriteResult)
  | conn (a : TcpConnection.Action T)

/-- No direct write of the step fails with `EPIPE` or `ECONNRESET`. -/
def sendsWithoutFault : Action T → Bool
  | .send _ result => result.faultless
  | .conn a => TcpConnection.sendsWithoutFault a
  | _ => true

section Steps

variable {Msg : Type} (lib : ProtoLib Msg) (wire : RpcMessage → Msg) (threadPid : T)
  [DecidableEq T]

/-- `ProtoRpcCodec::send`: the frame is built in a new buffer, and nothing is sent unless
the connection is up. -/
def codecSend (conn_ : TcpConnection T) (t : T) (message : Msg) (result : WriteResult) :
    Option (TcpConnection T) := do
  let buf ← fillEmptyMessage lib (Buffer.new 1024) message
  if conn_.state_ = .KConnected then conn_.next threadPid (.send t buf.readable result)
  else some conn_

def next (s : CallPath T) : Action T → Option (CallPath T)
  | .fetchAdd t arguments => do
      let channel ← s.channel.next (.fetchAdd t arguments)
      some { s with channel := channel }
  | .store t => do
      let channel ← s.channel.next (.store t)
      some { s with channel := channel }
  | .send t result =>
      match s.channel.calls t with
      | some (.send call) => do
          let conn_ ← codecSend lib threadPid s.conn_ t (wire call.message) result
          some ⟨s.channel.send t call, conn_⟩
      | _ => none
  | .conn (.send _ _ _) => none
  | .conn a => do
      let conn_ ← s.conn_.next threadPid a
      some { s with conn_ := conn_ }

/-- A failed assertion of the connection ends the process. -/
def system : Transition.System (CallPath T) (Action T) where
  init s := (∃ id, s.channel = .new id) ∧ ∃ sockfd initalsize writecompletecallback,
    s.conn_ = .new sockfd initalsize writecompletecallback
  next s a := if s.conn_.aborted = none then next lib wire threadPid s a else none

/-- What a step can do. -/
inductive Steps (s : CallPath T) : Action T → CallPath T → Prop
  | fetchAdd {t : T} {arguments : CallMethod.Arguments} {channel : RpcChannel T} :
      s.channel.next (.fetchAdd t arguments) = some channel →
      Steps s (.fetchAdd t arguments) { s with channel := channel }
  | store {t : T} {channel : RpcChannel T} : s.channel.next (.store t) = some channel →
      Steps s (.store t) { s with channel := channel }
  | sent {t : T} {result : WriteResult} {call : CallMethod} {buf : Buffer}
      {conn_ : TcpConnection T} : s.channel.calls t = some (.send call) →
      fillEmptyMessage lib (Buffer.new 1024) (wire call.message) = some buf →
      s.conn_.next threadPid (.send t buf.readable result) = some conn_ →
      Steps s (.send t result) ⟨s.channel.send t call, conn_⟩
  | dropped {t : T} {result : WriteResult} {call : CallMethod} {buf : Buffer} :
      s.channel.calls t = some (.send call) →
      fillEmptyMessage lib (Buffer.new 1024) (wire call.message) = some buf →
      Steps s (.send t result) { s with channel := s.channel.send t call }
  | conn {a : TcpConnection.Action T} {conn_ : TcpConnection T} : a.sentItem = [] →
      s.conn_.next threadPid a = some conn_ → Steps s (.conn a) { s with conn_ := conn_ }

variable {lib wire threadPid} {s s' : CallPath T} {a : Action T}

theorem next_steps (h : (system lib wire threadPid).next s a = some s') :
    Steps lib wire threadPid s a s' := by
  simp only [system] at h
  split_ifs at h
  cases a with
  | fetchAdd t arguments =>
      obtain ⟨channel, hchannel, hs'⟩ := Option.bind_eq_some_iff.mp h
      cases hs'
      exact .fetchAdd hchannel
  | store t =>
      obtain ⟨channel, hchannel, hs'⟩ := Option.bind_eq_some_iff.mp h
      cases hs'
      exact .store hchannel
  | send t result =>
      simp only [next] at h
      split at h
      · rename_i call hcall
        simp only [codecSend, Option.bind_eq_bind, Option.bind_eq_some_iff] at h
        obtain ⟨conn_, ⟨buf, hfill, hconn⟩, hs'⟩ := h
        cases hs'
        split_ifs at hconn with hconnected
        · exact .sent hcall hfill hconn
        · cases hconn
          exact .dropped hcall hfill
      · cases h
  | conn a =>
      cases a with
      | send t message result => cases h
      | _ =>
          obtain ⟨conn_, hconn, hs'⟩ := Option.bind_eq_some_iff.mp h
          cases hs'
          exact .conn rfl hconn

/-- The channel makes its own steps. -/
theorem Steps.channel (h : Steps lib wire threadPid s a s') :
    s'.channel = s.channel ∨ ∃ b, s.channel.next b = some s'.channel := by
  have hsend {t : T} {call : CallMethod} (hcall : s.channel.calls t = some (.send call)) :
      s.channel.next (.send t) = some (s.channel.send t call) := by
    simp only [RpcChannel.next, hcall]
  cases h with
  | fetchAdd hchannel => exact .inr ⟨_, hchannel⟩
  | store hchannel => exact .inr ⟨_, hchannel⟩
  | sent hcall _ _ => exact .inr ⟨_, hsend hcall⟩
  | dropped hcall _ => exact .inr ⟨_, hsend hcall⟩
  | conn _ _ => exact .inl rfl

theorem Steps.conn_ (h : Steps lib wire threadPid s a s') (hfault : sendsWithoutFault a = true) :
    s'.conn_ = s.conn_ ∨ ∃ b, TcpConnection.sendsWithoutFault b = true ∧
      s.conn_.next threadPid b = some s'.conn_ := by
  cases h with
  | sent _ _ hconn => exact .inr ⟨.send _ _ _, hfault, hconn⟩
  | conn _ hconn => exact .inr ⟨_, hfault, hconn⟩
  | _ => exact .inl rfl

theorem conn_reachable {guard : CallPath T → Action T → Prop}
    (hguard : ∀ s a, guard s a → sendsWithoutFault a = true)
    (h : (system lib wire threadPid).ReachableVia guard s) :
    (TcpConnection.system threadPid).ReachableVia
      (fun _ a => TcpConnection.sendsWithoutFault a = true) s.conn_ := by
  apply h.project CallPath.conn_
  · rintro s ⟨_, hconn⟩
    exact hconn
  · intro s a s' ha hnext
    exact (next_steps hnext).conn_ (hguard s a ha)

/-- The connection has accepted frames of messages that the channel has sent, in their
order. -/
structure Framed (lib : ProtoLib Msg) (wire : RpcMessage → Msg) (s : CallPath T) : Prop where
  accepted : ((TcpConnection.sentItems s.conn_.log).map Prod.snd).Sublist
    (s.channel.sent.map fun message => frame lib (wire message))
  rooms : ∀ message ∈ s.channel.sent, lib.byteSizeLong (wire message) + 4 < 2 ^ 31

theorem Framed.send (h : Framed lib wire s) {t : T} {call : CallMethod} {buf : Buffer}
    (hfill : fillEmptyMessage lib (Buffer.new 1024) (wire call.message) = some buf)
    {message : RpcMessage} (hmessage : message ∈ (s.channel.send t call).sent) :
    lib.byteSizeLong (wire message) + 4 < 2 ^ 31 := by
  rcases List.mem_append.mp hmessage with hold | hnew
  · exact h.rooms message hold
  · rw [List.mem_singleton.mp hnew]
    exact room_of_fillEmptyMessage hfill

theorem Framed.step (hsized : lib.Sized) (h : Framed lib wire s)
    (hstep : Steps lib wire threadPid s a s') : Framed lib wire s' := by
  cases hstep with
  | fetchAdd hchannel =>
      simp only [RpcChannel.next, Option.ite_none_right_eq_some, Option.some.injEq] at hchannel
      obtain ⟨_, rfl⟩ := hchannel
      exact ⟨h.accepted, h.rooms⟩
  | store hchannel =>
      simp only [RpcChannel.next] at hchannel
      split at hchannel <;> cases hchannel
      exact ⟨h.accepted, h.rooms⟩
  | @sent t result call buf conn_ hcall hfill hconn =>
      refine ⟨?_, fun message hmessage => h.send hfill hmessage⟩
      have hreadable : buf.readable = frame lib (wire call.message) :=
        readable_of_fillEmptyMessage hsized hfill
      simp only [(TcpConnection.next_steps hconn).2.sentItems, RpcChannel.send, List.map_append,
        TcpConnection.Action.sentItem, hreadable]
      exact h.accepted.append (List.Sublist.refl _)
  | dropped hcall hfill =>
      refine ⟨?_, fun message hmessage => h.send hfill hmessage⟩
      simp only [RpcChannel.send, List.map_append]
      exact h.accepted.trans (List.sublist_append_left _ _)
  | conn hsilent hconn =>
      refine ⟨?_, h.rooms⟩
      simp only [(TcpConnection.next_steps hconn).2.sentItems, hsilent, List.append_nil]
      exact h.accepted

theorem framed_of_reachable (hsized : lib.Sized) {guard : CallPath T → Action T → Prop}
    (h : (system lib wire threadPid).ReachableVia guard s) : Framed lib wire s := by
  apply h.invariant
  · rintro s ⟨⟨id, hchannel⟩, sockfd, initalsize, writecompletecallback, hconn⟩
    constructor
    · rw [hchannel, hconn]
      exact List.Sublist.refl _
    · rw [hchannel]
      intro message hmessage
      cases hmessage
  · intro s a s' hs _ hnext
    exact hs.step hsized (next_steps hnext)

/-- What is in the socket and in the output buffer is the frames of messages that the
channel has sent, none of them twice. -/
theorem served_of_reachable (hsized : lib.Sized) {guard : CallPath T → Action T → Prop}
    (hguard : ∀ s a, guard s a → sendsWithoutFault a = true)
    (h : (system lib wire threadPid).ReachableVia guard s) :
    ∃ served : List RpcMessage, served.Subperm s.channel.sent ∧
      TcpConnection.written s.conn_.log ++ s.conn_.outputbuffer_.bytes =
        (served.map wire).flatMap (frame lib) := by
  have hdelivered := TcpConnection.delivered_of_reachable (fun _ _ ha => ha)
    (conn_reachable hguard h)
  have hstreamed : ((TcpConnection.streamedItems s.conn_.log).map Prod.snd).Subperm
      (s.channel.sent.map fun message => frame lib (wire message)) :=
    (Interleaving.subperm_map Prod.snd hdelivered.subperm).trans
      (framed_of_reachable hsized h).accepted.subperm
  obtain ⟨served, hserved, hframes⟩ := Interleaving.exists_map_eq_of_subperm hstreamed
  refine ⟨served, hserved, ?_⟩
  calc TcpConnection.written s.conn_.log ++ s.conn_.outputbuffer_.bytes
      = TcpConnection.streamed s.conn_.log := (List.append_nil _).symm.trans hdelivered.stream
    _ = (served.map fun message => frame lib (wire message)).flatten := by
        rw [TcpConnection.streamed_eq, hframes]
    _ = (served.map wire).flatMap (frame lib) := by
        rw [List.flatMap_map, List.flatMap_def]

end Steps

end CallPath

end MuduoRpc.Rpc
