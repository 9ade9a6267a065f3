import MuduoRpc.Rpc.RpcChannel

/-!
The calls of a channel are accounted for. A call that has taken its id is in the hands of
one thread until it has been sent, it is sent once, and its response and closure are in
one entry of `outstandings_`, which is what the destructor deletes.
-/

namespace MuduoRpc.Rpc

def CallMethod.Rest.call : CallMethod.Rest → CallMethod
  | .store call | .send call => call

namespace RpcChannel

variable {T : Type}

/-- What `~RpcChannel` deletes. -/
def deleted (s : RpcChannel T) : List Nat :=
  s.outstandings_.entries.flatMap fun outstanding =>
    [outstanding.snd.responses, outstanding.snd.done]

/-- The thread is inside the call. -/
def Pending (s : RpcChannel T) (t : T) (call : CallMethod) : Prop :=
  ∃ rest, s.calls t = some rest ∧ rest.call = call

/-- A call is pending on one thread or has been sent, and not both. -/
structure SentOnce (s : RpcChannel T) : Prop where
  distinct : (s.made.map CallMethod.id).Nodup
  made : ∀ t call, s.Pending t call → call ∈ s.made
  apart : ∀ t t' call, s.Pending t call → s.Pending t' call → t = t'
  once : (s.sent.map RpcMessage.id).Nodup
  sent : ∀ message ∈ s.sent, ∃ call ∈ s.made, call.message = message
  unsent : ∀ t call, s.Pending t call → call.id ∉ s.sent.map RpcMessage.id
  complete : ∀ call ∈ s.made, call.message ∈ s.sent ∨ ∃ t, s.Pending t call

/-- A call has an entry once it has been stored. -/
structure StoredOnce (s : RpcChannel T) : Prop where
  once : (s.stored.map CallMethod.id).Nodup
  made : s.stored ⊆ s.made
  unstored : ∀ t call, s.calls t = some (.store call) → call.id ∉ s.stored.map CallMethod.id
  complete : ∀ call ∈ s.made, call ∈ s.stored ∨ ∃ t, s.calls t = some (.store call)
  entries : s.outstandings_.entries.Perm (s.stored.map fun call => ⟨call.id, call.out⟩)

variable {s s' : RpcChannel T} {call other : CallMethod}

theorem sentOnce_new (id : BitVec 64) : SentOnce (new id : RpcChannel T) := by
  constructor <;> simp [new, Pending]

theorem storedOnce_new (id : BitVec 64) : StoredOnce (new id : RpcChannel T) := by
  constructor <;> simp [new]

theorem SentOnce.eq_of_id (h : SentOnce s) (hcall : call ∈ s.made) (hother : other ∈ s.made)
    (hid : call.id = other.id) : call = other :=
  List.inj_on_of_nodup_map h.distinct hcall hother hid

theorem StoredOnce.not_mem (h : StoredOnce s) {t : T}
    (hcall : s.calls t = some (.store call)) : call.id ∉ s.outstandings_ := by
  intro hmem
  obtain ⟨entry, hentry, hid⟩ := List.mem_map.mp (AList.mem_keys.mp hmem)
  obtain ⟨other, hother, rfl⟩ := List.mem_map.mp (h.entries.mem_iff.mp hentry)
  exact h.unstored t call hcall (List.mem_map.mpr ⟨other, hother, hid⟩)

variable [DecidableEq T] {t : T}

theorem pending_update {entry : Option CallMethod.Rest}
    (hcalls : s'.calls = Function.update s.calls t entry) {u : T} :
    s'.Pending u call ↔
      u = t ∧ (∃ rest, entry = some rest ∧ rest.call = call) ∨ u ≠ t ∧ s.Pending u call := by
  by_cases hu : u = t
  · subst hu
    simp [Pending, hcalls]
  · simp [Pending, hcalls, hu]

theorem fresh_of_distinct {arguments : CallMethod.Arguments}
    (h : ((s.fetchAdd t arguments).made.map CallMethod.id).Nodup) :
    s.id_ + 1 ∉ s.made.map CallMethod.id := by
  rw [fetchAdd, List.map_append] at h
  intro hmem
  exact List.disjoint_of_nodup_append h hmem List.mem_cons_self

theorem SentOnce.fetchAdd (h : SentOnce s) {arguments : CallMethod.Arguments}
    (hfree : s.calls t = none)
    (hdistinct : ((s.fetchAdd t arguments).made.map CallMethod.id).Nodup) :
    SentOnce (s.fetchAdd t arguments) := by
  have hfresh := fresh_of_distinct hdistinct
  have hpending {u : T} {call : CallMethod} : (s.fetchAdd t arguments).Pending u call ↔
      u = t ∧ call = ⟨arguments, s.id_ + 1⟩ ∨ u ≠ t ∧ s.Pending u call := by
    have hcalls : (s.fetchAdd t arguments).calls =
        Function.update s.calls t (some (.store ⟨arguments, s.id_ + 1⟩)) := rfl
    rw [pending_update hcalls]
    simp [CallMethod.Rest.call, eq_comm]
  constructor
  · exact hdistinct
  · intro u call hcall
    rcases hpending.mp hcall with ⟨_, rfl⟩ | ⟨_, hold⟩
    · exact List.mem_append_right _ List.mem_cons_self
    · exact List.mem_append_left _ (h.made u call hold)
  · intro u u' call hcall hcall'
    rcases hpending.mp hcall with ⟨hu, hnew⟩ | ⟨_, hold⟩ <;>
      rcases hpending.mp hcall' with ⟨hu', hnew'⟩ | ⟨_, hold'⟩
    · rw [hu, hu']
    · exact absurd (List.mem_map.mpr ⟨call, h.made u' call hold', congrArg _ hnew⟩) hfresh
    · exact absurd (List.mem_map.mpr ⟨call, h.made u call hold, congrArg _ hnew'⟩) hfresh
    · exact h.apart u u' call hold hold'
  · exact h.once
  · intro message hmessage
    obtain ⟨call, hcall, hsame⟩ := h.sent message hmessage
    exact ⟨call, List.mem_append_left _ hcall, hsame⟩
  · intro u call hcall hsent
    rcases hpending.mp hcall with ⟨_, rfl⟩ | ⟨_, hold⟩
    · obtain ⟨message, hmessage, hid⟩ := List.mem_map.mp hsent
      obtain ⟨other, hother, rfl⟩ := h.sent message hmessage
      exact hfresh (List.mem_map.mpr ⟨other, hother, hid⟩)
    · exact h.unsent u call hold hsent
  · intro call hcall
    rcases List.mem_append.mp hcall with hold | hnew
    · refine (h.complete call hold).imp id fun ⟨u, hu⟩ => ⟨u, hpending.mpr (.inr ⟨?_, hu⟩)⟩
      rintro rfl
      obtain ⟨rest, hrest, _⟩ := hu
      rw [hfree] at hrest
      cases hrest
    · exact .inr ⟨t, hpending.mpr (.inl ⟨rfl, List.mem_singleton.mp hnew⟩)⟩

theorem SentOnce.store (h : SentOnce s) (hcall : s.calls t = some (.store call)) :
    SentOnce (s.store t call) := by
  have hpending {u : T} {other : CallMethod} :
      (s.store t call).Pending u other ↔ s.Pending u other := by
    have hcalls : (s.store t call).calls = Function.update s.calls t (some (.send call)) := rfl
    rw [pending_update hcalls]
    by_cases hu : u = t
    · subst hu
      simp [Pending, hcall, CallMethod.Rest.call]
    · simp [hu]
  exact ⟨h.distinct, fun u other hother => h.made u other (hpending.mp hother),
    fun u u' other hu hu' => h.apart u u' other (hpending.mp hu) (hpending.mp hu'), h.once, h.sent,
    fun u other hother => h.unsent u other (hpending.mp hother),
    fun other hother => (h.complete other hother).imp id fun ⟨u, hu⟩ => ⟨u, hpending.mpr hu⟩⟩

theorem SentOnce.send (h : SentOnce s) (hcall : s.calls t = some (.send call)) :
    SentOnce (s.send t call) := by
  have hhere : s.Pending t call := ⟨_, hcall, rfl⟩
  have hpending {u : T} {other : CallMethod} :
      (s.send t call).Pending u other ↔ u ≠ t ∧ s.Pending u other := by
    have hcalls : (s.send t call).calls = Function.update s.calls t none := rfl
    rw [pending_update hcalls]
    simp
  constructor
  · exact h.distinct
  · intro u other hother
    exact h.made u other (hpending.mp hother).2
  · intro u u' other hu hu'
    exact h.apart u u' other (hpending.mp hu).2 (hpending.mp hu').2
  · simp only [RpcChannel.send, List.map_append]
    refine List.Nodup.append h.once (List.nodup_singleton _) ?_
    rw [List.disjoint_right]
    intro id hid
    rw [List.map_singleton, List.mem_singleton] at hid
    subst hid
    exact h.unsent t call hhere
  · intro message hmessage
    rcases List.mem_append.mp hmessage with hold | hnew
    · exact h.sent message hold
    · exact ⟨call, h.made t call hhere, (List.mem_singleton.mp hnew).symm⟩
  · intro u other hother hsent
    obtain ⟨hu, hold⟩ := hpending.mp hother
    simp only [RpcChannel.send, List.map_append] at hsent
    rcases List.mem_append.mp hsent with hsent | hsame
    · exact h.unsent u other hold hsent
    · obtain rfl : other = call :=
        h.eq_of_id (h.made u other hold) (h.made t call hhere) (List.mem_singleton.mp hsame)
      exact hu (h.apart u t other hold hhere)
  · intro other hother
    rcases h.complete other hother with hsent | ⟨u, hu⟩
    · exact .inl (List.mem_append_left _ hsent)
    · by_cases hut : u = t
      · subst hut
        obtain ⟨rest, hrest, rfl⟩ := hu
        obtain rfl : rest = .send call := Option.some.inj (hrest.symm.trans hcall)
        exact .inl (List.mem_append_right _ List.mem_cons_self)
      · exact .inr ⟨u, hpending.mpr ⟨hut, hu⟩⟩

theorem StoredOnce.fetchAdd (h : StoredOnce s) {arguments : CallMethod.Arguments}
    (hfree : s.calls t = none)
    (hdistinct : ((s.fetchAdd t arguments).made.map CallMethod.id).Nodup) :
    StoredOnce (s.fetchAdd t arguments) := by
  have hfresh := fresh_of_distinct hdistinct
  refine ⟨h.once, List.Subset.trans h.made (List.subset_append_left _ _), ?_, ?_, h.entries⟩
  · intro u call hcall
    by_cases hu : u = t
    · subst hu
      simp only [RpcChannel.fetchAdd, Function.update_self, Option.some.injEq,
        CallMethod.Rest.store.injEq] at hcall
      subst hcall
      intro hmem
      obtain ⟨other, hother, hid⟩ := List.mem_map.mp hmem
      exact hfresh (List.mem_map.mpr ⟨other, h.made hother, hid⟩)
    · simp only [RpcChannel.fetchAdd, Function.update_of_ne hu] at hcall
      exact h.unstored u call hcall
  · intro call hcall
    rcases List.mem_append.mp hcall with hold | hnew
    · refine (h.complete call hold).imp id (Exists.imp fun u hu => ?_)
      have hother : u ≠ t := by
        rintro rfl
        rw [hfree] at hu
        cases hu
      simp only [RpcChannel.fetchAdd, Function.update_of_ne hother, hu]
    · refine .inr ⟨t, ?_⟩
      simp only [RpcChannel.fetchAdd, Function.update_self, List.mem_singleton.mp hnew]

theorem StoredOnce.store (h : StoredOnce s) (hsent : SentOnce s)
    (hcall : s.calls t = some (.store call)) : StoredOnce (s.store t call) := by
  have hhere : s.Pending t call := ⟨_, hcall, rfl⟩
  constructor
  · simp only [RpcChannel.store, List.map_append]
    refine List.Nodup.append h.once (List.nodup_singleton _) ?_
    rw [List.disjoint_right]
    intro id hid
    rw [List.map_singleton, List.mem_singleton] at hid
    subst hid
    exact h.unstored t call hcall
  · intro other hother
    rcases List.mem_append.mp hother with hold | hnew
    · exact h.made hold
    · rw [List.mem_singleton.mp hnew]
      exact hsent.made t call hhere
  · intro u other hother hmem
    have hu : u ≠ t := by
      rintro rfl
      simp [RpcChannel.store] at hother
    simp only [RpcChannel.store, Function.update_of_ne hu] at hother
    simp only [RpcChannel.store, List.map_append] at hmem
    have hthere : s.Pending u other := ⟨_, hother, rfl⟩
    rcases List.mem_append.mp hmem with hold | hsame
    · exact h.unstored u other hother hold
    · obtain rfl : other = call := hsent.eq_of_id (hsent.made u other hthere)
        (hsent.made t call hhere) (List.mem_singleton.mp hsame)
      exact hu (hsent.apart u t other hthere hhere)
  · intro other hother
    rcases h.complete other hother with hold | ⟨u, hu⟩
    · exact .inl (List.mem_append_left _ hold)
    · by_cases hut : u = t
      · subst hut
        rw [hcall] at hu
        cases hu
        exact .inl (List.mem_append_right _ List.mem_cons_self)
      · refine .inr ⟨u, ?_⟩
        simp only [RpcChannel.store, Function.update_of_ne hut, hu]
  · simp only [RpcChannel.store, AList.entries_insert_of_notMem (h.not_mem hcall),
      List.map_append, List.map_singleton]
    exact (h.entries.cons _).trans (List.perm_append_singleton _ _).symm

theorem StoredOnce.send (h : StoredOnce s) (hcall : s.calls t = some (.send call)) :
    StoredOnce (s.send t call) := by
  refine ⟨h.once, h.made, ?_, ?_, h.entries⟩
  · intro u other hother
    rcases Table.update_eq_some hother with hold | hnew
    · exact h.unstored u other hold
    · cases hnew
  · intro other hother
    refine (h.complete other hother).imp id fun ⟨u, hu⟩ => ⟨u, ?_⟩
    have hother : u ≠ t := by
      rintro rfl
      rw [hcall] at hu
      cases hu
    simp only [RpcChannel.send, Function.update_of_ne hother, hu]

theorem accounted_step {a : Action T} (hsent : SentOnce s) (hstored : StoredOnce s)
    (hnext : s.next a = some s') (hdistinct : (s'.made.map CallMethod.id).Nodup) :
    SentOnce s' ∧ StoredOnce s' := by
  cases a with
  | fetchAdd t arguments =>
      simp only [next, Option.ite_none_right_eq_some, Option.some.injEq] at hnext
      obtain ⟨hfree, rfl⟩ := hnext
      exact ⟨hsent.fetchAdd hfree hdistinct, hstored.fetchAdd hfree hdistinct⟩
  | store t =>
      simp only [next] at hnext
      split at hnext
      · rename_i call hcall
        cases hnext
        exact ⟨hsent.store hcall, hstored.store hsent hcall⟩
      · cases hnext
  | send t =>
      simp only [next] at hnext
      split at hnext
      · rename_i call hcall
        cases hnext
        exact ⟨hsent.send hcall, hstored.send hcall⟩
      · cases hnext

theorem accounted_of_reachable
    (h : (system : Transition.System (RpcChannel T) (Action T)).Reachable s)
    (hfew : s.made.length < 2 ^ 64) : SentOnce s ∧ StoredOnce s := by
  obtain ⟨_, haccounted⟩ : ∃ first, s.made.length < 2 ^ 64 →
      Consistent s first ∧ SentOnce s ∧ StoredOnce s := by
    apply h.invariant (I := fun s => ∃ first, s.made.length < 2 ^ 64 →
      Consistent s first ∧ SentOnce s ∧ StoredOnce s)
    · rintro _ ⟨id, rfl⟩
      exact ⟨id, fun _ => ⟨consistent_new id, sentOnce_new id, storedOnce_new id⟩⟩
    · rintro s a s' ⟨first, hi⟩ _ hnext
      refine ⟨first, fun hfew' => ?_⟩
      obtain ⟨hconsistent, hsent, hstored⟩ :=
        hi (Nat.lt_of_le_of_lt (made_next_le hnext) hfew')
      have hconsistent' := consistent_step hconsistent hnext hfew'
      exact ⟨hconsistent', accounted_step hsent hstored hnext
        (hconsistent'.numbered.distinct hfew')⟩
  exact (haccounted hfew).2

omit [DecidableEq T] in
theorem StoredOnce.deleted (h : StoredOnce s) : s.deleted.Perm
    (s.stored.flatMap fun call => [call.arguments.response, call.arguments.done]) := by
  have hperm := h.entries.flatMap_right
    fun outstanding => [outstanding.snd.responses, outstanding.snd.done]
  rwa [List.flatMap_map] at hperm

omit [DecidableEq T] in
/-- Once no thread is inside a call, every call has been stored and sent. -/
theorem perm_of_idle (hsent : SentOnce s) (hstored : StoredOnce s)
    (hidle : ∀ t, s.calls t = none) :
    s.sent.Perm (s.made.map CallMethod.message) ∧ s.stored.Perm s.made := by
  have hmessages : ((s.made.map CallMethod.message).map RpcMessage.id).Nodup := by
    rw [List.map_map]
    exact hsent.distinct
  constructor
  · refine (List.perm_ext_iff_of_nodup hsent.once.of_map hmessages.of_map).mpr fun message => ?_
    constructor
    · intro hmessage
      obtain ⟨call, hcall, rfl⟩ := hsent.sent message hmessage
      exact List.mem_map_of_mem hcall
    · intro hmessage
      obtain ⟨call, hcall, rfl⟩ := List.mem_map.mp hmessage
      refine (hsent.complete call hcall).resolve_right ?_
      rintro ⟨t, rest, hrest, _⟩
      rw [hidle] at hrest
      cases hrest
  · refine (List.perm_ext_iff_of_nodup hstored.once.of_map hsent.distinct.of_map).mpr fun call => ?_
    refine ⟨fun hcall => hstored.made hcall, fun hcall => ?_⟩
    refine (hstored.complete call hcall).resolve_right ?_
    rintro ⟨t, hstoring⟩
    rw [hidle] at hstoring
    cases hstoring

/-- In every interleaving of fewer than `2 ^ 64` calls no message is sent twice, a call has
been sent or is in the hands of a thread, and the destructor deletes the response and the
closure of each stored call once. When no thread is inside a call, these are all calls. -/
theorem calls_accounted
    (h : (system : Transition.System (RpcChannel T) (Action T)).Reachable s)
    (hfew : s.made.length < 2 ^ 64) :
    (s.sent.map RpcMessage.id).Nodup ∧
      (∀ call ∈ s.made, call.message ∈ s.sent ∧ (∀ t, ¬s.Pending t call) ∨
        call.message ∉ s.sent ∧ ∃! t, s.Pending t call) ∧
      s.deleted.Perm
        (s.stored.flatMap fun call => [call.arguments.response, call.arguments.done]) ∧
      ((∀ t, s.calls t = none) →
        s.sent.Perm (s.made.map CallMethod.message) ∧ s.stored.Perm s.made) := by
  obtain ⟨hsent, hstored⟩ := accounted_of_reachable h hfew
  have hunsent {t : T} {call : CallMethod} (hpending : s.Pending t call) :
      call.message ∉ s.sent := fun hmem =>
    hsent.unsent t call hpending (List.mem_map_of_mem (f := RpcMessage.id) hmem)
  refine ⟨hsent.once, fun call hcall => ?_, hstored.deleted, perm_of_idle hsent hstored⟩
  rcases hsent.complete call hcall with hmem | ⟨t, hpending⟩
  · exact .inl ⟨hmem, fun t hpending => hunsent hpending hmem⟩
  · exact .inr ⟨hunsent hpending, t, hpending, fun u hu => hsent.apart u t call hu hpending⟩

/-- Two calls that have been made, the second of them sent. -/
theorem calls_accounted_overtaken :
    ∃ s, (system : Transition.System (RpcChannel Bool) (Action Bool)).Reachable s ∧
      s.deleted = [3, 4] ∧ (s.sent.map RpcMessage.id).Nodup ∧
      s.deleted.Perm
        (s.stored.flatMap fun call => [call.arguments.response, call.arguments.done]) := by
  obtain ⟨s, hreach, hdeleted, hmade⟩ : ∃ s,
      (system : Transition.System (RpcChannel Bool) (Action Bool)).ReachableVia
        (fun _ _ => True) s ∧ s.deleted = [3, 4] ∧ s.made.length = 2 :=
    Transition.System.exists_of_exec _ (new 0)
      [.fetchAdd true ⟨"EchoService", "Echo", [10], 1, 2⟩,
        .fetchAdd false ⟨"EchoService", "Echo", [11], 3, 4⟩, .store false, .send false]
      ⟨_, rfl⟩ (by decide)
  have hfew : s.made.length < 2 ^ 64 := by
    rw [hmade]
    decide
  obtain ⟨honce, _, hperm, _⟩ := calls_accounted hreach hfew
  exact ⟨s, hreach, hdeleted, honce, hperm⟩

end RpcChannel

end MuduoRpc.Rpc
