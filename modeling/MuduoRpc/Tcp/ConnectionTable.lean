import Mathlib.Data.List.Perm.Basic
import Mathlib.Tactic.SplitIfs
import MuduoRpc.Tcp.TcpServer

/-!
The table of a server lists the connections that were accepted and have not been
removed. Names repeat only when ids do, as long as the buffer of the formatted
id is not cut off; every closed connection has one removal, done or queued on
the base loop.
-/

namespace MuduoRpc.TcpServer

open Decimal

variable {L : Type}

/-- The entry of a connection is in the table from its acceptance to its removal. -/
def Entry (s : TcpServer L) (name : List Char) (conn : Connection L) : Prop :=
  conn.name_ = name ∧ conn ∈ s.accepted ∧ conn ∉ s.removals.map Prod.fst

structure TableCorrect (s : TcpServer L) : Prop where
  distinct : (s.accepted.map Connection.name_).Nodup
  listed : ∀ name conn, s.connections_.lookup name = some conn ↔ s.Entry name conn
  kept : s.overwritten = []
  erased : ∀ removal ∈ s.removals, removal.2 = 1

/-- The connections as numbered and named by their ids. -/
structure Named (s : TcpServer L) : Prop where
  short : s.ipPort_.length ≤ 47
  next : s.nxtConnId_ = BitVec.ofNat 32 (s.accepted.length + 1)
  names : ∀ serial conn, s.accepted[serial]? = some conn →
    conn.serial = serial ∧ conn.name_ = s.connname (BitVec.ofNat 32 (serial + 1))

variable {s : TcpServer L} {conn conn' : Connection L}

/-- The buffer holds the address and any positive `int`. -/
theorem connname_fits (h : s.ipPort_.length ≤ 47) {id : Nat} (hid : id < 2 ^ 31) :
    s.connname (BitVec.ofNat 32 id) = s.name_ ++ ('-' :: s.ipPort_ ++ '#' :: decimal id) := by
  have hdigits := length_decimal_of_int hid
  rw [connname, toInt_ofNat_of_lt hid, snprintf_of_fits]
  simp only [List.length_append, List.length_cons]
  omega

theorem connname_injective (h : s.ipPort_.length ≤ 47) {id id' : Nat} (hid : id < 2 ^ 31)
    (hid' : id' < 2 ^ 31)
    (hsame : s.connname (BitVec.ofNat 32 id) = s.connname (BitVec.ofNat 32 id')) : id = id' := by
  rw [connname_fits h hid, connname_fits h hid', List.append_right_inj,
    List.append_right_inj, List.cons_inj_right] at hsame
  exact Int.ofNat.inj (decimal_injective hsame)

/-- The name tells accepted connections apart. -/
theorem Named.name_injective (h : Named s) (hfew : s.accepted.length < 2 ^ 31)
    (hmem : conn ∈ s.accepted) (hmem' : conn' ∈ s.accepted) (hsame : conn.name_ = conn'.name_) :
    conn = conn' := by
  obtain ⟨serial, hserial⟩ := List.mem_iff_getElem?.mp hmem
  obtain ⟨serial', hserial'⟩ := List.mem_iff_getElem?.mp hmem'
  have hbound := (List.getElem?_eq_some_iff.mp hserial).1
  have hbound' := (List.getElem?_eq_some_iff.mp hserial').1
  rw [(h.names serial conn hserial).2, (h.names serial' conn' hserial').2] at hsame
  have hids := connname_injective h.short (by omega) (by omega) hsame
  obtain rfl : serial = serial' := by omega
  exact Option.some.inj (hserial.symm.trans hserial')

/-- No accepted connection has the name that the next one will get. -/
theorem Named.fresh (h : Named s) (hfew : s.accepted.length + 1 < 2 ^ 31)
    (hmem : conn ∈ s.accepted) : conn.name_ ≠ s.connname s.nxtConnId_ := by
  intro hsame
  obtain ⟨serial, hserial⟩ := List.mem_iff_getElem?.mp hmem
  have hbound := (List.getElem?_eq_some_iff.mp hserial).1
  rw [(h.names serial conn hserial).2, h.next] at hsame
  have hids := connname_injective h.short (by omega) hfew hsame
  omega

theorem Named.distinct (h : Named s) (hfew : s.accepted.length < 2 ^ 31) :
    (s.accepted.map Connection.name_).Nodup := by
  have hnodup : s.accepted.Nodup := by
    rw [List.nodup_iff_getElem?_ne_getElem?]
    intro i j hij hj hsame
    have hi : s.accepted[i]? = some s.accepted[i] := List.getElem?_eq_getElem (by omega)
    have hserial := (h.names i _ hi).1
    have hserial' := (h.names j _ (hsame ▸ hi)).1
    omega
  apply hnodup.map_on
  intro conn hmem conn' hmem' hsame
  exact h.name_injective hfew hmem hmem' hsame

theorem Named.accept (h : Named s) {ioloop : L} {table : AList fun _ : List Char => Connection L}
    {overwritten : List (Connection L)} :
    Named { s with
      nxtConnId_ := s.nxtConnId_ + 1
      connections_ := table
      accepted := s.accepted ++ [⟨s.accepted.length, s.connname s.nxtConnId_, ioloop⟩]
      overwritten := overwritten } where
  short := h.short
  next := by
    simp only [h.next, List.length_append, List.length_singleton]
    exact (BitVec.ofNat_add (s.accepted.length + 1) 1).symm
  names serial conn hserial := by
    rcases Table.getElem?_concat_eq_some hserial with hold | ⟨rfl, rfl⟩
    · exact h.names serial conn hold
    · exact ⟨rfl, by rw [h.next]; rfl⟩

variable [DecidableEq L]

/-- Where the removals of a connection are: done, or queued on the base loop. -/
def removing (s : TcpServer L) (conn : Connection L) : Nat :=
  (s.queues s.loop_).toList.count (.removeConnectionInLoop conn) +
    (s.removals.map Prod.fst).count conn

/-- `running` are the removals that the running function has taken on. -/
structure Consistent (s : TcpServer L) (running : List (Connection L)) : Prop where
  named : Named s
  table : Table.Lists s.connections_ s.Entry
  once : ∀ conn, running.count conn + s.removing conn = s.closed.count conn
  closed : s.closed.Nodup ∧ s.closed ⊆ s.accepted
  elsewhere : ∀ loop conn, loop ≠ s.loop_ →
    .removeConnectionInLoop conn ∉ (s.queues loop).toList
  kept : s.overwritten = []
  erased : ∀ removal ∈ s.removals, removal.2 = 1

theorem consistent_new (loop : L) (namestring : List Char) {listenAddr : InetAddress}
    (hip : listenAddr.ip.length ≤ 39) : Consistent (new loop listenAddr namestring) [] where
  named := by
    refine ⟨?_, rfl, ?_⟩
    · have hlength := listenAddr.length_Ip_Port_to_string
      change listenAddr.Ip_Port_to_string.length ≤ 47
      omega
    · intro serial conn hserial
      cases hserial
  table := by
    apply Table.Lists.empty.congr
    intro name conn
    simp [Entry, new]
  once _ := rfl
  closed := ⟨List.nodup_nil, List.Subset.refl _⟩
  elsewhere _ _ _ := List.not_mem_nil
  kept := rfl
  erased removal hmem := by cases hmem

variable {running running' : List (Connection L)} {loop : L}

/-- A queue operation, by which removals may come in or go out. -/
theorem Consistent.requeue (h : Consistent s running) {queue : PendingQueue (Functor L)}
    (hmem : ∀ conn, .removeConnectionInLoop conn ∈ queue.toList →
      loop = s.loop_ ∨ .removeConnectionInLoop conn ∈ (s.queues loop).toList)
    (hcount : ∀ conn, running'.count conn + queue.toList.count (.removeConnectionInLoop conn) =
      running.count conn + (s.queues loop).toList.count (.removeConnectionInLoop conn)) :
    Consistent { s with queues := Function.update s.queues loop queue } running' where
  named := ⟨h.named.short, h.named.next, h.named.names⟩
  table := h.table
  once conn := by
    have honce := h.once conn
    have hsame := hcount conn
    rw [removing] at honce ⊢
    by_cases hbase : loop = s.loop_
    · subst hbase
      simp only [Function.update_self]
      omega
    · have hnone := List.count_eq_zero.mpr (h.elsewhere loop conn hbase)
      have hnone' : queue.toList.count (.removeConnectionInLoop conn) = 0 := by
        apply List.count_eq_zero.mpr
        intro hqueued
        exact h.elsewhere loop conn hbase ((hmem conn hqueued).resolve_left hbase)
      simp only [Function.update_of_ne (Ne.symm hbase)]
      omega
  closed := h.closed
  elsewhere other conn hother := by
    by_cases hsame : other = loop
    · subst hsame
      simp only [Function.update_self]
      intro hqueued
      exact h.elsewhere other conn hother ((hmem conn hqueued).resolve_left hother)
    · simp only [Function.update_of_ne hsame]
      exact h.elsewhere other conn hother
  kept := h.kept
  erased := h.erased

theorem Consistent.queueInLoop (h : Consistent s running) {cb : Functor L}
    (hcb : ∀ conn, cb ≠ .removeConnectionInLoop conn) :
    Consistent (s.queueInLoop loop cb) running := by
  apply h.requeue
  · intro conn hqueued
    rw [PendingQueue.toList_push] at hqueued
    rcases List.mem_append.mp hqueued with hold | hnew
    · exact .inr hold
    · exact absurd (List.mem_singleton.mp hnew).symm (hcb conn)
  · intro conn
    rw [PendingQueue.toList_push, List.count_append, List.count_singleton]
    simp [hcb conn]

/-- A removal that is due finds its connection in the table. -/
theorem Consistent.due (h : Consistent s [conn]) : s.Entry conn.name_ conn := by
  have honce := h.once conn
  rw [List.count_singleton_self] at honce
  have hle := List.nodup_iff_count_le_one.mp h.closed.1 conn
  have hmem : conn ∈ s.closed := List.count_pos_iff.mp (by omega)
  refine ⟨rfl, h.closed.2 hmem, ?_⟩
  rw [← List.count_eq_zero]
  rw [removing] at honce
  omega

theorem Consistent.removeConnectionInLoop (h : Consistent s [conn])
    (hfew : s.accepted.length < 2 ^ 31) :
    Consistent (s.removeConnectionInLoop conn) [] := by
  have hentry := h.due
  have herased : Consistent { s with
      connections_ := s.connections_.erase conn.name_
      removals := s.removals ++ [(conn, Table.erased s.connections_ conn.name_)] } [] := by
    refine ⟨⟨h.named.short, h.named.next, h.named.names⟩, ?_, ?_, h.closed, h.elsewhere, h.kept, ?_⟩
    · apply (h.table.erase conn.name_).congr
      intro name other
      simp only [Entry, List.map_append, List.map_cons, List.map_nil, List.mem_append,
        List.mem_singleton, not_or]
      constructor
      · rintro ⟨⟨rfl, hmem, hlive⟩, hname⟩
        exact ⟨rfl, hmem, hlive, fun hsame => hname (by rw [hsame])⟩
      · rintro ⟨rfl, hmem, hlive, hother⟩
        refine ⟨⟨rfl, hmem, hlive⟩, fun hname => hother ?_⟩
        exact h.named.name_injective hfew hmem hentry.2.1 hname
    · intro other
      have honce := h.once other
      simp only [removing, List.map_append, List.map_cons, List.map_nil, List.count_append,
        List.count_nil] at honce ⊢
      omega
    · intro removal hmem
      rcases List.mem_append.mp hmem with hold | hnew
      · exact h.erased removal hold
      · rw [List.mem_singleton.mp hnew]
        exact h.table.erased_eq_one hentry
  exact herased.queueInLoop (by simp)

/-- A closed connection is removed at once on the base loop and queued there by
the others. -/
theorem Consistent.removeConnection (h : Consistent s [conn])
    (hfew : s.accepted.length < 2 ^ 31) : Consistent (s.removeConnection conn) [] := by
  rw [TcpServer.removeConnection, TcpServer.runInLoop]
  split_ifs with hbase
  · exact h.removeConnectionInLoop hfew
  · apply h.requeue
    · intro _ _
      exact .inl rfl
    · intro other
      rw [PendingQueue.toList_push, List.count_append, List.count_nil, List.count_singleton,
        List.count_singleton]
      simp only [beq_iff_eq, Functor.removeConnectionInLoop.injEq]
      omega

theorem Consistent.close (h : Consistent s []) (hmem : conn ∈ s.accepted)
    (hopen : conn ∉ s.closed) : Consistent { s with closed := s.closed ++ [conn] } [conn] where
  named := ⟨h.named.short, h.named.next, h.named.names⟩
  table := h.table
  once other := by
    have honce := h.once other
    simp only [removing, List.count_append, List.count_nil] at honce ⊢
    omega
  closed := by
    refine ⟨List.nodup_append.mpr ⟨h.closed.1, List.nodup_singleton conn, ?_⟩, ?_⟩
    · intro other hclosed _ hlast hsame
      rw [hsame, List.mem_singleton.mp hlast] at hclosed
      exact hopen hclosed
    · intro other hclosed
      rcases List.mem_append.mp hclosed with hold | hnew
      · exact h.closed.2 hold
      · rw [List.mem_singleton.mp hnew]
        exact hmem
  elsewhere := h.elsewhere
  kept := h.kept
  erased := h.erased

theorem Consistent.removed_accepted (h : Consistent s running)
    (hremoved : conn ∈ s.removals.map Prod.fst) : conn ∈ s.accepted := by
  apply h.closed.2
  have hpositive := List.count_pos_iff.mpr hremoved
  have honce := h.once conn
  rw [removing] at honce
  apply List.count_pos_iff.mp
  omega

theorem Consistent.newConnection (h : Consistent s []) (hfew : s.accepted.length + 1 < 2 ^ 31)
    (ioloop : L) : Consistent (s.newConnection ioloop) [] := by
  have hfree : ∀ conn, ¬s.Entry (s.connname s.nxtConnId_) conn := by
    rintro conn ⟨hname, hmem, _⟩
    exact h.named.fresh hfew hmem hname
  have haccepted : Consistent { s with
      nxtConnId_ := s.nxtConnId_ + 1
      connections_ := s.connections_.insert (s.connname s.nxtConnId_)
        ⟨s.accepted.length, s.connname s.nxtConnId_, ioloop⟩
      accepted := s.accepted ++ [⟨s.accepted.length, s.connname s.nxtConnId_, ioloop⟩]
      overwritten := s.overwritten ++
        (s.connections_.lookup (s.connname s.nxtConnId_)).toList } [] := by
    refine ⟨h.named.accept, ?_, h.once, ?_, h.elsewhere, ?_, h.erased⟩
    · apply (h.table.insert hfree _).congr
      intro name conn
      simp only [Entry, List.mem_append, List.mem_singleton]
      constructor
      · rintro (⟨hname, hmem, hlive⟩ | ⟨rfl, rfl⟩)
        · exact ⟨hname, .inl hmem, hlive⟩
        · refine ⟨rfl, .inr rfl, fun hremoved => ?_⟩
          exact h.named.fresh hfew (h.removed_accepted hremoved) rfl
      · rintro ⟨hname, hmem | rfl, hlive⟩
        · exact .inl ⟨hname, hmem, hlive⟩
        · exact .inr ⟨hname.symm, rfl⟩
    · exact ⟨h.closed.1, fun _ hmem => List.mem_append_left _ (h.closed.2 hmem)⟩
    · rw [h.kept, AList.lookup_eq_none.mpr (h.table.not_mem hfree)]
      rfl
  rw [TcpServer.newConnection, TcpServer.runInLoop]
  split_ifs
  · exact haccepted
  · exact haccepted.queueInLoop (by simp)

theorem Consistent.run (h : Consistent s []) (hfew : s.accepted.length < 2 ^ 31)
    {cb : Functor L} {queue : PendingQueue (Functor L)}
    (hpop : (s.queues loop).pop = some (cb, queue)) :
    Consistent ({ s with queues := Function.update s.queues loop queue }.runFunctor cb) [] := by
  have hlist := PendingQueue.toList_pop hpop
  have hmem : ∀ conn, .removeConnectionInLoop conn ∈ queue.toList →
      loop = s.loop_ ∨ .removeConnectionInLoop conn ∈ (s.queues loop).toList := by
    intro conn hqueued
    rw [hlist]
    exact .inr (List.mem_cons_of_mem _ hqueued)
  cases cb with
  | removeConnectionInLoop conn =>
      have hrunning :
          Consistent { s with queues := Function.update s.queues loop queue } [conn] := by
        apply h.requeue hmem
        intro other
        simp only [hlist, List.count_cons, List.count_nil, beq_iff_eq,
          Functor.removeConnectionInLoop.injEq]
        omega
      exact hrunning.removeConnectionInLoop hfew
  | connectEstablished | connectDestroyed =>
      apply h.requeue hmem
      intro other
      rw [hlist, List.count_cons_of_ne (by simp)]

theorem accepted_next_le {s' : TcpServer L} {a : Action L} (hnext : s.next a = some s') :
    s.accepted.length ≤ s'.accepted.length := by
  cases a with
  | newConnection ioloop =>
      cases hnext
      simp
  | close conn =>
      simp only [next, Option.ite_none_right_eq_some, Option.some.injEq] at hnext
      obtain ⟨_, rfl⟩ := hnext
      rw [removeConnection, accepted_runInLoop]
  | swap loop =>
      obtain ⟨queue, _, hresult⟩ := Option.bind_eq_some_iff.mp hnext
      cases hresult
      exact le_refl _
  | run loop =>
      obtain ⟨⟨cb, queue⟩, _, hresult⟩ := Option.bind_eq_some_iff.mp hnext
      cases hresult
      rw [accepted_runFunctor]

theorem consistent_step {s' : TcpServer L} {a : Action L} (h : Consistent s [])
    (hnext : s.next a = some s') (hfew : s'.accepted.length < 2 ^ 31) : Consistent s' [] := by
  have hfew' : s.accepted.length < 2 ^ 31 := Nat.lt_of_le_of_lt (accepted_next_le hnext) hfew
  cases a with
  | newConnection ioloop =>
      cases hnext
      rw [accepted_newConnection, List.length_append, List.length_singleton] at hfew
      exact h.newConnection hfew ioloop
  | close conn =>
      simp only [next, Option.ite_none_right_eq_some, Option.some.injEq] at hnext
      obtain ⟨⟨hmem, hopen⟩, rfl⟩ := hnext
      exact (h.close hmem hopen).removeConnection hfew'
  | swap loop =>
      obtain ⟨queue, hswap, hresult⟩ := Option.bind_eq_some_iff.mp hnext
      cases hresult
      have hlist := PendingQueue.toList_swap hswap
      apply h.requeue
      · intro conn hqueued
        exact .inr (hlist ▸ hqueued)
      · intro conn
        rw [hlist]
  | run loop =>
      obtain ⟨⟨cb, queue⟩, hpop, hresult⟩ := Option.bind_eq_some_iff.mp hnext
      cases hresult
      exact h.run hfew' hpop

/-- In every run of fewer than `2^31` connections the names are distinct, the table
lists the connections accepted and not yet removed, no entry is overwritten and
every removal erases one. -/
theorem tableCorrect {loop : L} {listenAddr : InetAddress} {namestring : List Char}
    (hip : listenAddr.ip.length ≤ 39)
    (h : (system loop listenAddr namestring).Reachable s) (hfew : s.accepted.length < 2 ^ 31) :
    TableCorrect s := by
  have hconsistent : s.accepted.length < 2 ^ 31 → Consistent s [] := by
    apply h.invariant (I := fun s => s.accepted.length < 2 ^ 31 → Consistent s [])
    · rintro _ rfl _
      exact consistent_new loop namestring hip
    · intro s a s' hi _ hnext hfew'
      exact consistent_step (hi (Nat.lt_of_le_of_lt (accepted_next_le hnext) hfew')) hnext hfew'
  obtain ⟨hnamed, htable, _, _, _, hkept, herased⟩ := hconsistent hfew
  exact ⟨hnamed.distinct hfew, htable, hkept, herased⟩

/-- Two connections on an io loop; the first is closed and removed. -/
theorem tableCorrect_removed : ∃ s, (system false ⟨.AF_INET6, "::1".toList, 0x901f⟩
      "EchoServer".toList).Reachable s ∧ s.accepted.length = 2 ∧ s.removals.length = 1 ∧
    TableCorrect s := by
  obtain ⟨s, hreach, haccepted, hremovals⟩ : ∃ s,
      (system false ⟨.AF_INET6, "::1".toList, 0x901f⟩ "EchoServer".toList).ReachableVia
        (fun _ _ => True) s ∧ s.accepted.length = 2 ∧ s.removals.length = 1 :=
    Transition.System.exists_of_exec (M := system false ⟨.AF_INET6, "::1".toList, 0x901f⟩
        "EchoServer".toList) _ (new false ⟨.AF_INET6, "::1".toList, 0x901f⟩ "EchoServer".toList)
      [.newConnection true, .newConnection true, .swap true, .run true, .run true,
        .close ⟨0, "EchoServer-[::1]:8080#1".toList, true⟩, .swap false, .run false]
      rfl (by decide)
  refine ⟨s, hreach, haccepted, hremovals, tableCorrect ?_ hreach ?_⟩
  · decide
  · rw [haccepted]
    decide

end MuduoRpc.TcpServer
