import MuduoRpc.System.CallPath

/-!
The calls of a channel on the wire, in the encoding of the generated class. A receiver that
keeps to the frame format gets the requests; the one of this repository gets none.
-/

namespace MuduoRpc.Rpc

open Protobuf (Runtime)

variable {U : Type}

/-- The message that a caller fills in, with the strings and enumerators that the generated
setters store. -/
def RpcMessage.toImpl (message : RpcMessage) : Protobuf.RpcMessage U where
  service_ := message.service.toUTF8.data.toList
  method_ := message.method.toUTF8.data.toList
  request_ := message.request
  response_ := message.response
  id_ := message.id
  type_ :=
    match message.type with
    | .REQUEST => 0
    | .RESPONSE => 1
  error_ :=
    match message.error with
    | .OK => 0
    | .WRONG_PROTO => 1
    | .NO_SERVICE => 2
    | .NO_METHOD => 3
    | .INVALID_REQUEST => 4
    | .INVALID_RESPONSE => 5
    | .TIMEOUT => 6
  unknown_fields := []

/-- No string is longer than what is read of a message. -/
def RpcMessage.Fits (rt : Runtime U) (message : RpcMessage) : Prop :=
  message.service.toUTF8.data.toList.length ≤ rt.maxSize ∧
    message.method.toUTF8.data.toList.length ≤ rt.maxSize ∧
    message.request.length ≤ rt.maxSize ∧ message.response.length ≤ rt.maxSize

instance (rt : Runtime U) (message : RpcMessage) : Decidable (message.Fits rt) :=
  inferInstanceAs (Decidable (_ ∧ _))

/-- The same of the arguments of a call. -/
def CallMethod.Arguments.Fits (rt : Runtime U) (arguments : CallMethod.Arguments) : Prop :=
  arguments.service.toUTF8.data.toList.length ≤ rt.maxSize ∧
    arguments.method.toUTF8.data.toList.length ≤ rt.maxSize ∧
    arguments.request.length ≤ rt.maxSize

instance (rt : Runtime U) (arguments : CallMethod.Arguments) :
    Decidable (arguments.Fits rt) :=
  inferInstanceAs (Decidable (_ ∧ _))

variable {rt : Runtime U}

namespace CallPath

variable {T : Type}

/-- The arguments of each call fit into a message, and no direct write of the step fails
with `EPIPE` or `ECONNRESET`. -/
def orderly (rt : Runtime U) : Action T → Bool
  | .fetchAdd _ arguments => arguments.Fits rt
  | a => sendsWithoutFault a

theorem sendsWithoutFault_of_orderly {a : Action T} (ha : orderly rt a = true) :
    sendsWithoutFault a = true := by
  cases a with
  | fetchAdd _ _ => rfl
  | _ => exact ha

variable [DecidableEq T] {lite : Protobuf.RpcMessage.MessageLite U}
  {adler32 : Nat → List UInt8 → Nat} {threadPid : T} {s s' : CallPath T}

theorem requests_of_reachable (h : rt.Lawful)
    (hreach : (system (protobuf rt lite adler32) RpcMessage.toImpl threadPid).ReachableVia
      (fun _ a => sendsWithoutFault a = true) s) :
    ∃ served : List RpcMessage, served.Subperm s.channel.sent ∧
      (∀ message ∈ served.map RpcMessage.toImpl,
        (protobuf rt lite adler32).byteSizeLong message + 4 < 2 ^ 31) ∧
      TcpConnection.written s.conn_.log ++ s.conn_.outputbuffer_.bytes =
        (served.map RpcMessage.toImpl).flatMap (frame (protobuf rt lite adler32)) := by
  have hsized : (protobuf rt lite adler32).Sized := protobuf_sized h
  obtain ⟨served, hserved, hframes⟩ := served_of_reachable hsized (fun _ _ ha => ha) hreach
  refine ⟨served, hserved, ?_, hframes⟩
  intro message hmessage
  obtain ⟨sent, hsent, rfl⟩ := List.mem_map.mp hmessage
  exact (framed_of_reachable hsized hreach).rooms sent (hserved.subset hsent)

/-- Two calls on two threads, the second of them first on the wire, and the frame of the
first one written in part. -/
theorem exists_two_calls : ∃ s : CallPath Bool,
    (system wireFormat RpcMessage.toImpl true).ReachableVia
        (fun _ a => orderly Protobuf.WireFormat.runtime a = true) s ∧
    (s.channel.made.length = 2 ∧ s.channel.sent.map RpcMessage.id = [2, 1] ∧
      (TcpConnection.written s.conn_.log).length = 50) :=
  Transition.System.exists_of_exec _ ⟨.new 0, .new 5 8 true⟩
    [.conn .connectEstablished, .fetchAdd false ⟨"EchoService", "Echo", [18, 1, 97], 1, 2⟩,
      .fetchAdd true ⟨"EchoService", "Echo", [18, 1, 98], 3, 4⟩, .store true, .store false,
      .send true (.accepted 30), .send false (.accepted 0), .conn (.push false), .conn .swap,
      .conn (.run ⟨.accepted 0, .received []⟩), .conn (.dispatch 0x4),
      .conn (.callback ⟨.accepted 20, .received []⟩)]
    ⟨⟨0, rfl⟩, 5, 8, true, rfl⟩ (by decide +kernel)

/-- The decode loop of this repository takes no request off the wire, however what was
written is cut on the way, and keeps all of it in its buffer. -/
theorem requests_not_received (h : rt.Lawful)
    (hreach : (system (protobuf rt lite adler32) RpcMessage.toImpl threadPid).ReachableVia
      (fun _ a => sendsWithoutFault a = true) s) {buffer : ByteQueue} (hempty : buffer.bytes = [])
    {chunks : List (List UInt8)}
    (harrived : chunks.flatten <+: TcpConnection.written s.conn_.log) :
    (receive (protobuf rt lite adler32) chunks buffer).1 = [] ∧
      (receive (protobuf rt lite adler32) chunks buffer).2.bytes = chunks.flatten := by
  obtain ⟨served, _, hrooms, hframes⟩ := requests_of_reachable h hreach
  obtain ⟨rest, hrest⟩ := harrived
  have hfront : chunks.flatten ++ (rest ++ s.conn_.outputbuffer_.bytes) =
      (served.map RpcMessage.toImpl).flatMap (frame (protobuf rt lite adler32)) := by
    rw [← List.append_assoc, hrest, hframes]
  exact receive_front (protobuf_sized h) hrooms hempty hfront

/-- The first frame arrives whole, in two chunks, and the second one in part. -/
theorem requests_not_received_cut :
    ∃ s : CallPath Bool, (TcpConnection.written s.conn_.log).length = 50 ∧
      let chunks := [(TcpConnection.written s.conn_.log).take 10,
        (TcpConnection.written s.conn_.log).drop 10]
      (receive wireFormat chunks (ByteQueue.new 16)).1 = [] ∧
        (receive wireFormat chunks (ByteQueue.new 16)).2.bytes = chunks.flatten := by
  obtain ⟨s, hreach, _, _, hwritten⟩ := exists_two_calls
  refine ⟨s, hwritten, requests_not_received Protobuf.WireFormat.runtime_lawful
    (hreach.mono fun _ _ => sendsWithoutFault_of_orderly) (ByteQueue.bytes_new 16) ?_⟩
  simp

end CallPath

end MuduoRpc.Rpc
