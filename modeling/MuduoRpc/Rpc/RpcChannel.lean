import MuduoRpc.Lib.Table
import MuduoRpc.Lib.Transition
import MuduoRpc.Rpc.Runtime

/-!
`RpcChannel::CallMethod` on any number of threads. A call takes its id from the
atomic counter, stores its closure under the lock and hands its message to the
codec outside of it; the threads interleave between these three steps. Pointers
are numbers, and nothing else in the repository writes `outstandings_`.
-/

namespace MuduoRpc.Rpc

inductive RpcMessage.ErrorCode
  | OK
  | WRONG_PROTO
  | NO_SERVICE
  | NO_METHOD
  | INVALID_REQUEST
  | INVALID_RESPONSE
  | TIMEOUT
deriving DecidableEq, Repr

structure RpcMessage where
  type : MessageType
  id : BitVec 64
  service : String
  method : String
  request : List UInt8
  response : List UInt8
  error : RpcMessage.ErrorCode
deriving DecidableEq, Repr

def RpcMessage.new : RpcMessage := ⟨.REQUEST, 0, "", "", [], [], .OK⟩

structure OutStandingCall where
  responses : Nat
  done : Nat
deriving DecidableEq, Repr

/-- What a caller passes to `CallMethod`: the names that the descriptor gives, the
serialized request, and the pointers to the response and the closure. -/
structure CallMethod.Arguments where
  service : String
  method : String
  request : List UInt8
  response : Nat
  done : Nat
deriving DecidableEq, Repr

/-- A call that has taken its id. -/
structure CallMethod where
  arguments : CallMethod.Arguments
  id : BitVec 64
deriving DecidableEq, Repr

namespace CallMethod

def message (call : CallMethod) : RpcMessage :=
  { RpcMessage.new with
    type := .REQUEST
    id := call.id
    service := call.arguments.service
    method := call.arguments.method
    request := call.arguments.request }

def out (call : CallMethod) : OutStandingCall := ⟨call.arguments.response, call.arguments.done⟩

/-- What a call has still to do. -/
inductive Rest
  | store (call : CallMethod)
  | send (call : CallMethod)
deriving DecidableEq, Repr

end CallMethod

/-- `calls t` is the unfinished call of thread `t`. `made` and `stored` are the
calls that have taken their ids and those that have stored their closures, and
`sent` the messages handed to `codec_.send`. -/
structure RpcChannel (T : Type) where
  id_ : BitVec 64
  outstandings_ : AList fun _ : BitVec 64 => OutStandingCall
  calls : T → Option CallMethod.Rest
  made : List CallMethod
  stored : List CallMethod
  sent : List RpcMessage

namespace RpcChannel

variable {T : Type}

/-- The constructors leave `id_` as it is. -/
def new (id : BitVec 64) : RpcChannel T where
  id_ := id
  outstandings_ := ∅
  calls _ := none
  made := []
  stored := []
  sent := []

inductive Action (T : Type)
  | fetchAdd (t : T) (arguments : CallMethod.Arguments)
  | store (t : T)
  | send (t : T)
deriving DecidableEq, Repr

section Steps

variable [DecidableEq T]

/-- `id_.fetch_add(1) + 1`. The second addition is one of `int64_t`, which the language leaves
undefined at the greatest value; it is taken to wrap around as the atomic one does. -/
def fetchAdd (s : RpcChannel T) (t : T) (arguments : CallMethod.Arguments) : RpcChannel T :=
  let call : CallMethod := ⟨arguments, s.id_ + 1⟩
  { s with
    id_ := s.id_ + 1
    calls := Function.update s.calls t (some (.store call))
    made := s.made ++ [call] }

/-- `outstandings_[id] = out`, with the lock held. -/
def store (s : RpcChannel T) (t : T) (call : CallMethod) : RpcChannel T :=
  { s with
    outstandings_ := s.outstandings_.insert call.id call.out
    calls := Function.update s.calls t (some (.send call))
    stored := s.stored ++ [call] }

def send (s : RpcChannel T) (t : T) (call : CallMethod) : RpcChannel T :=
  { s with
    calls := Function.update s.calls t none
    sent := s.sent ++ [call.message] }

def next (s : RpcChannel T) : Action T → Option (RpcChannel T)
  | .fetchAdd t arguments => if s.calls t = none then some (s.fetchAdd t arguments) else none
  | .store t =>
      match s.calls t with
      | some (.store call) => some (s.store t call)
      | _ => none
  | .send t =>
      match s.calls t with
      | some (.send call) => some (s.send t call)
      | _ => none

def system : Transition.System (RpcChannel T) (Action T) where
  init s := ∃ id, s = new id
  next := next

end Steps

/-- A message on the wire is the request of one call, whose response and closure are
stored under its id. -/
structure Correlated (s : RpcChannel T) : Prop where
  distinct : (s.made.map CallMethod.id).Nodup
  stored : ∀ call ∈ s.stored, s.outstandings_.lookup call.id =
    some ⟨call.arguments.response, call.arguments.done⟩
  sent : ∀ message ∈ s.sent, ∃ call ∈ s.stored, call.message = message ∧
    s.outstandings_.lookup message.id = some ⟨call.arguments.response, call.arguments.done⟩ ∧
    ∀ other ∈ s.made, other.id = message.id → other = call

/-- The ids count up from that of the first call. -/
structure Numbered (s : RpcChannel T) (first : BitVec 64) : Prop where
  next : s.id_ = first + BitVec.ofNat 64 s.made.length
  ids : ∀ n call, s.made[n]? = some call → call.id = first + BitVec.ofNat 64 (n + 1)

structure Consistent (s : RpcChannel T) (first : BitVec 64) : Prop where
  numbered : Numbered s first
  storing : ∀ t call, s.calls t = some (.store call) → call ∈ s.made
  sending : ∀ t call, s.calls t = some (.send call) → call ∈ s.stored
  made : s.stored ⊆ s.made
  stored : ∀ call ∈ s.stored, s.outstandings_.lookup call.id = some call.out
  sent : ∀ message ∈ s.sent, ∃ call ∈ s.stored, call.message = message

variable {s s' : RpcChannel T} {first : BitVec 64} {call other : CallMethod}

/-- Fewer than `2 ^ 64` steps of the counter do not meet again. -/
theorem Numbered.position (h : Numbered s first) (hfew : s.made.length < 2 ^ 64) {n m : Nat}
    (hn : s.made[n]? = some call) (hm : s.made[m]? = some other) (hsame : call.id = other.id) :
    n = m := by
  have hbound := (List.getElem?_eq_some_iff.mp hn).1
  have hbound' := (List.getElem?_eq_some_iff.mp hm).1
  rw [h.ids n call hn, h.ids m other hm, BitVec.add_right_inj] at hsame
  have hvalues := congrArg BitVec.toNat hsame
  rw [BitVec.toNat_ofNat, BitVec.toNat_ofNat] at hvalues
  omega

theorem Numbered.id_injective (h : Numbered s first) (hfew : s.made.length < 2 ^ 64)
    (hmem : call ∈ s.made) (hmem' : other ∈ s.made) (hsame : call.id = other.id) :
    call = other := by
  obtain ⟨n, hn⟩ := List.mem_iff_getElem?.mp hmem
  obtain ⟨m, hm⟩ := List.mem_iff_getElem?.mp hmem'
  obtain rfl := h.position hfew hn hm hsame
  exact Option.some.inj (hn.symm.trans hm)

theorem Numbered.distinct (h : Numbered s first) (hfew : s.made.length < 2 ^ 64) :
    (s.made.map CallMethod.id).Nodup := by
  rw [List.nodup_iff_getElem?_ne_getElem?]
  intro n m hnm hm hsame
  rw [List.length_map] at hm
  rw [List.getElem?_map, List.getElem?_map, List.getElem?_eq_getElem hm,
    List.getElem?_eq_getElem (Nat.lt_trans hnm hm), Option.map_some, Option.map_some] at hsame
  have hposition := h.position hfew (List.getElem?_eq_getElem (Nat.lt_trans hnm hm))
    (List.getElem?_eq_getElem hm) (Option.some.inj hsame)
  omega

theorem Consistent.toCorrelated (h : Consistent s first) (hfew : s.made.length < 2 ^ 64) :
    Correlated s where
  distinct := h.numbered.distinct hfew
  stored := h.stored
  sent message hsent := by
    obtain ⟨call, hstored, rfl⟩ := h.sent message hsent
    refine ⟨call, hstored, rfl, h.stored call hstored, ?_⟩
    intro other hmade hsame
    exact h.numbered.id_injective hfew hmade (h.made hstored) hsame

theorem consistent_new (id : BitVec 64) : Consistent (new id : RpcChannel T) id where
  numbered := ⟨(BitVec.add_zero id).symm, by intro n call hn; cases hn⟩
  storing t call hcall := by cases hcall
  sending t call hcall := by cases hcall
  made := List.Subset.refl _
  stored call hmem := by cases hmem
  sent message hmem := by cases hmem

variable [DecidableEq T] {t : T}

theorem Numbered.fetchAdd (h : Numbered s first) (arguments : CallMethod.Arguments) :
    Numbered (s.fetchAdd t arguments) first where
  next := by
    simp only [RpcChannel.fetchAdd, List.length_append, List.length_singleton, h.next,
      BitVec.ofNat_add, BitVec.add_assoc]
    rfl
  ids n call hn := by
    rcases Table.getElem?_concat_eq_some hn with hold | ⟨rfl, rfl⟩
    · exact h.ids n call hold
    · simp only [h.next, BitVec.ofNat_add, BitVec.add_assoc]
      rfl

theorem Consistent.fetchAdd (h : Consistent s first) (arguments : CallMethod.Arguments) :
    Consistent (s.fetchAdd t arguments) first where
  numbered := h.numbered.fetchAdd arguments
  storing t' call hcall := by
    rcases Table.update_eq_some hcall with hold | hnew
    · exact List.mem_append_left _ (h.storing t' call hold)
    · cases hnew
      exact List.mem_append_right _ List.mem_cons_self
  sending t' call hcall := by
    rcases Table.update_eq_some hcall with hold | hnew
    · exact h.sending t' call hold
    · cases hnew
  made := List.Subset.trans h.made (List.subset_append_left _ _)
  stored := h.stored
  sent := h.sent

theorem Consistent.made_store (h : Consistent s first)
    (hcall : s.calls t = some (.store call)) : (s.store t call).stored ⊆ s.made := by
  intro other hmem
  rcases List.mem_append.mp hmem with hold | hnew
  · exact h.made hold
  · rw [List.mem_singleton.mp hnew]
    exact h.storing t call hcall

/-- A store under the id of another call would have to be that call's own. -/
theorem Consistent.store (h : Consistent s first) (hfew : s.made.length < 2 ^ 64)
    (hcall : s.calls t = some (.store call)) : Consistent (s.store t call) first where
  numbered := ⟨h.numbered.next, h.numbered.ids⟩
  storing t' other hother := by
    rcases Table.update_eq_some hother with hold | hnew
    · exact h.storing t' other hold
    · cases hnew
  sending t' other hother := by
    rcases Table.update_eq_some hother with hold | hnew
    · exact List.mem_append_left _ (h.sending t' other hold)
    · cases hnew
      exact List.mem_append_right _ List.mem_cons_self
  made := h.made_store hcall
  stored other hmem := by
    change (s.outstandings_.insert call.id call.out).lookup other.id = some other.out
    by_cases hid : other.id = call.id
    · obtain rfl := h.numbered.id_injective hfew (h.made_store hcall hmem)
        (h.storing t call hcall) hid
      exact AList.lookup_insert _
    · rw [AList.lookup_insert_ne hid]
      rcases List.mem_append.mp hmem with hold | hnew
      · exact h.stored other hold
      · exact absurd (congrArg CallMethod.id (List.mem_singleton.mp hnew)) hid
  sent message hmem := by
    obtain ⟨other, hother, hmessage⟩ := h.sent message hmem
    exact ⟨other, List.mem_append_left _ hother, hmessage⟩

theorem Consistent.send (h : Consistent s first) (hcall : s.calls t = some (.send call)) :
    Consistent (s.send t call) first where
  numbered := ⟨h.numbered.next, h.numbered.ids⟩
  storing t' other hother := by
    rcases Table.update_eq_some hother with hold | hnew
    · exact h.storing t' other hold
    · cases hnew
  sending t' other hother := by
    rcases Table.update_eq_some hother with hold | hnew
    · exact h.sending t' other hold
    · cases hnew
  made := h.made
  stored := h.stored
  sent message hmem := by
    rcases List.mem_append.mp hmem with hold | hnew
    · exact h.sent message hold
    · exact ⟨call, h.sending t call hcall, (List.mem_singleton.mp hnew).symm⟩

theorem made_next_le {a : Action T} (hnext : s.next a = some s') :
    s.made.length ≤ s'.made.length := by
  cases a with
  | fetchAdd t arguments =>
      simp only [next, Option.ite_none_right_eq_some, Option.some.injEq] at hnext
      obtain ⟨_, rfl⟩ := hnext
      simp [RpcChannel.fetchAdd]
  | store t | send t =>
      simp only [next] at hnext
      split at hnext <;> cases hnext
      exact Nat.le_refl _

theorem consistent_step {a : Action T} (h : Consistent s first) (hnext : s.next a = some s')
    (hfew : s'.made.length < 2 ^ 64) : Consistent s' first := by
  have hfew' : s.made.length < 2 ^ 64 := Nat.lt_of_le_of_lt (made_next_le hnext) hfew
  cases a with
  | fetchAdd t arguments =>
      simp only [next, Option.ite_none_right_eq_some, Option.some.injEq] at hnext
      obtain ⟨_, rfl⟩ := hnext
      exact h.fetchAdd arguments
  | store t =>
      simp only [next] at hnext
      split at hnext
      · rename_i call hcall
        cases hnext
        exact h.store hfew' hcall
      · cases hnext
  | send t =>
      simp only [next] at hnext
      split at hnext
      · rename_i call hcall
        cases hnext
        exact h.send hcall
      · cases hnext

/-- In every interleaving of fewer than `2 ^ 64` calls, from any value of the
counter, the messages sent are correlated with their calls. -/
theorem correlated (h : (system : Transition.System (RpcChannel T) (Action T)).Reachable s)
    (hfew : s.made.length < 2 ^ 64) : Correlated s := by
  obtain ⟨first, hconsistent⟩ : ∃ first, s.made.length < 2 ^ 64 → Consistent s first := by
    apply h.invariant (I := fun s => ∃ first, s.made.length < 2 ^ 64 → Consistent s first)
    · rintro _ ⟨id, rfl⟩
      exact ⟨id, fun _ => consistent_new id⟩
    · rintro s a s' ⟨first, hi⟩ _ hnext
      refine ⟨first, fun hfew' => ?_⟩
      exact consistent_step (hi (Nat.lt_of_le_of_lt (made_next_le hnext) hfew')) hnext hfew'
  exact (hconsistent hfew).toCorrelated hfew

/-- Two threads, the later call sent first, and a counter that wraps around. -/
theorem correlated_interleaved :
    ∃ s, (system : Transition.System (RpcChannel Bool) (Action Bool)).Reachable s ∧
      s.sent.map RpcMessage.id = [0, BitVec.allOnes 64] ∧
      s.outstandings_.lookup 0 = some ⟨3, 4⟩ ∧
      s.outstandings_.lookup (BitVec.allOnes 64) = some ⟨1, 2⟩ ∧ Correlated s := by
  obtain ⟨s, hreach, hsent, hfirst, hsecond, hmade⟩ : ∃ s,
      (system : Transition.System (RpcChannel Bool) (Action Bool)).ReachableVia
        (fun _ _ => True) s ∧
      s.sent.map RpcMessage.id = [0, BitVec.allOnes 64] ∧
      s.outstandings_.lookup 0 = some ⟨3, 4⟩ ∧
      s.outstandings_.lookup (BitVec.allOnes 64) = some ⟨1, 2⟩ ∧ s.made.length = 2 :=
    Transition.System.exists_of_exec _ (new (BitVec.allOnes 64 - 1))
      [.fetchAdd true ⟨"EchoService", "Echo", [10], 1, 2⟩,
        .fetchAdd false ⟨"EchoService", "Echo", [11], 3, 4⟩,
        .store false, .send false, .store true, .send true]
      ⟨_, rfl⟩ (by decide)
  refine ⟨s, hreach, hsent, hfirst, hsecond, correlated hreach ?_⟩
  rw [hmade]
  decide

end RpcChannel

end MuduoRpc.Rpc
