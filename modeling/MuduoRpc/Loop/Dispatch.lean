import MuduoRpc.Net.Bookkeeping

/-!
`EventLoop::loop` with its poller, as its comments lay it out: `poll` fills
`activeChannels_`, then each of them handles its events. A callback may change what is
registered, and `EventLoop::removeChannel` asserts that it removes no channel whose turn is
still to come.
-/

namespace MuduoRpc

namespace Poller

variable {ι : Type*} {p : Poller ι}

/-- What the kernel puts into the list for a ready descriptor. -/
def event (p : Poller ι) (entry : Nat × BitVec 32) : Option (BitVec 32 × ι) :=
  match p.epoll entry.1 with
  | some (mask, self) =>
      if reported mask entry.2 = 0 then none else some (reported mask entry.2, self)
  | none => none

/-- `epoll_wait` on the ready descriptors, in the order in which the kernel has them. A
timeout and an error leave the list of active channels empty too. -/
def epoll_wait (p : Poller ι) (ready : List (Nat × BitVec 32)) (maxevents : Nat) :
    List (BitVec 32 × ι) :=
  (ready.filterMap p.event).take maxevents

/-- Every descriptor in the epoll set carries the channel that is listed for it. -/
def Owned (p : Poller ι) : Prop :=
  ∀ fd mask c, p.epoll fd = some (mask, c) → p.channels_ fd = some c

theorem event_registered {entry : Nat × BitVec 32} {event : BitVec 32 × ι}
    (h : p.event entry = some event) : ∃ mask, p.epoll entry.1 = some (mask, event.2) := by
  rw [Poller.event] at h
  split at h
  case h_1 mask self hentry =>
    split_ifs at h
    cases h
    exact ⟨mask, hentry⟩
  case h_2 => cases h

theorem epoll_wait_registered {ready : List (Nat × BitVec 32)} {maxevents : Nat}
    {event : BitVec 32 × ι} (h : event ∈ p.epoll_wait ready maxevents) :
    ∃ fd mask, p.epoll fd = some (mask, event.2) := by
  obtain ⟨entry, _, hentry⟩ := List.mem_filterMap.mp (List.mem_of_mem_take h)
  exact ⟨entry.1, event_registered hentry⟩

/-- No channel is reported twice. -/
theorem epoll_wait_nodup {fd : ι → Nat} {ready : List (Nat × BitVec 32)} {maxevents : Nat}
    (hfd : ∀ fd' mask c, p.epoll fd' = some (mask, c) → fd c = fd')
    (h : (ready.map Prod.fst).Nodup) : ((p.epoll_wait ready maxevents).map Prod.snd).Nodup := by
  have happart : ready.Pairwise fun entry entry' => entry.1 ≠ entry'.1 := List.pairwise_map.mp h
  apply List.pairwise_map.mpr
  apply List.Pairwise.sublist (List.take_sublist _ _)
  refine List.Pairwise.filterMap p.event ?_ happart
  intro entry entry' hne event hevent event' hevent' hsame
  obtain ⟨mask, hmask⟩ := event_registered hevent
  obtain ⟨mask', hmask'⟩ := event_registered hevent'
  apply hne
  rw [← hfd _ _ _ hmask, ← hfd _ _ _ hmask', hsame]

theorem Registration.owned {self : ι} {channel : Channel} {mask : Option (BitVec 32)}
    (h : p.Registration self channel mask) {events : BitVec 32} {c : ι}
    (hentry : p.epoll channel.fd_ = some (events, c)) : p.channels_ channel.fd_ = some c := by
  cases h with
  | fresh _ _ hepoll | deleted _ _ hepoll =>
      rw [hepoll] at hentry
      cases hentry
  | added _ hchannel hepoll =>
      rw [hepoll] at hentry
      cases hentry
      exact hchannel

end Poller

namespace Bookkeeping

variable {ι : Type} {s s' : Bookkeeping ι}

/-- The invariant says nothing of the reported events. -/
theorem Invariant.congr (h : Invariant s) (hpoller : s'.poller = s.poller)
    (hlast : s'.lastUpdate = s.lastUpdate)
    (hchannels : ∀ c, (s'.channels c).fd_ = (s.channels c).fd_ ∧
      (s'.channels c).index_ = (s.channels c).index_) : Invariant s' := by
  constructor
  · intro c d hsame
    rw [(hchannels c).1, (hchannels d).1] at hsame
    exact h.distinct c d hsame
  · intro fd c hlisted
    rw [(hchannels c).1]
    exact h.listed fd c (hpoller ▸ hlisted)
  · intro c
    obtain ⟨mask, hregistration, hmask⟩ := h.registered c
    rw [hpoller, hlast]
    exact ⟨mask, hregistration.congr (hchannels c).1 (hchannels c).2, hmask⟩
  · intro c
    rw [(hchannels c).2, hlast]
    exact h.updated c

variable [DecidableEq ι]

def Action.channel : Action ι → ι
  | .setEvents self _ | .updateChannel self | .removeChannel self => self

/-- What a call for one channel leaves alone. -/
structure Apart (s s' : Bookkeeping ι) (changed : ι) : Prop where
  fd : ∀ c, (s'.channels c).fd_ = (s.channels c).fd_
  frame : ∀ fd, fd ≠ (s.channels changed).fd_ →
    s'.poller.channels_ fd = s.poller.channels_ fd ∧ s'.poller.epoll fd = s.poller.epoll fd

theorem fd_put {self : ι} {poller : Poller ι} {channel : Channel}
    {lastUpdate : Option (BitVec 32)} (h : channel.fd_ = (s.channels self).fd_) (c : ι) :
    ((s.put self poller channel lastUpdate).channels c).fd_ = (s.channels c).fd_ := by
  by_cases hc : c = self
  · subst hc
    exact (congrArg Channel.fd_ (Function.update_self ..)).trans h
  · exact congrArg Channel.fd_ (Function.update_of_ne hc ..)

theorem found_put {self : ι} {poller : Poller ι} {channel : Channel}
    {lastUpdate : Option (BitVec 32)} (h : channel.fd_ = (s.channels self).fd_)
    (hlisted : poller.channels_ (s.channels self).fd_ = some self) :
    (s.put self poller channel lastUpdate).Found self := by
  rw [ChannelSet.Found, fd_put h]
  exact hlisted

/-- A call keeps the invariant, and the entries of other descriptors; a channel that was
listed stays listed unless it is removed. -/
theorem next_spec (h : Invariant s) {action : Action ι} (hnext : s.next action = some s') :
    Invariant s' ∧ Apart s s' action.channel ∧
      (s.Found action.channel → action ≠ .removeChannel action.channel →
        s'.Found action.channel) := by
  cases action with
  | setEvents self events =>
      cases hnext
      refine ⟨setEvents_invariant h self events, ⟨fd_put rfl, fun _ _ => ⟨rfl, rfl⟩⟩, ?_⟩
      exact fun hfound _ => found_put rfl hfound
  | updateChannel self =>
      obtain ⟨⟨poller, channel⟩, hupdate, hstate⟩ := Option.bind_eq_some_iff.mp hnext
      cases hstate
      have hinvariant := updateChannel_invariant h hupdate
      obtain ⟨_, index, _, rfl⟩ := Poller.updateChannel_cases hupdate
      refine ⟨hinvariant, ⟨fd_put rfl, fun fd hfd => Poller.updateChannel_frame hupdate hfd⟩, ?_⟩
      exact fun _ _ => found_put rfl (Poller.updateChannel_listed hupdate)
  | removeChannel self =>
      simp only [next] at hnext
      split_ifs at hnext with hremovable
      obtain ⟨⟨poller, channel⟩, hremove, hstate⟩ := Option.bind_eq_some_iff.mp hnext
      cases hstate
      have hinvariant := removeChannel_invariant h hremovable hremove
      obtain ⟨rfl, _⟩ := Poller.removeChannel_cases hremove
      refine ⟨hinvariant, ⟨fd_put rfl, fun fd hfd => Poller.removeChannel_frame hremove hfd⟩, ?_⟩
      exact fun _ hkept => absurd rfl hkept

theorem owned_next (h : Invariant s) (howned : s.poller.Owned) {action : Action ι}
    (hnext : s.next action = some s') : s'.poller.Owned := by
  obtain ⟨hinvariant, happart, _⟩ := next_spec h hnext
  intro fd mask c hentry
  by_cases hfd : fd = (s.channels action.channel).fd_
  · obtain ⟨mask', hregistration, _⟩ := hinvariant.registered action.channel
    rw [hfd, ← happart.fd action.channel] at hentry ⊢
    exact hregistration.owned hentry
  · rw [(happart.frame fd hfd).2] at hentry
    rw [(happart.frame fd hfd).1]
    exact howned fd mask c hentry

theorem found_next (h : Invariant s) {action : Action ι} (hnext : s.next action = some s') {c : ι}
    (hkept : action ≠ .removeChannel c) (hfound : s.Found c) : s'.Found c := by
  obtain ⟨_, happart, hsame⟩ := next_spec h hnext
  by_cases hc : c = action.channel
  · subst hc
    exact hsame hfound hkept
  · have hfd : (s.channels c).fd_ ≠ (s.channels action.channel).fd_ :=
      fun hfds => hc (h.distinct _ _ hfds)
    rw [ChannelSet.Found, happart.fd c, (happart.frame _ hfd).1]
    exact hfound

end Bookkeeping

/-- The loop of one thread. `events_` is the size of the poller's event list. `pending` are
the active channels from the iterator on and `handled` those before it. `full` counts the
polls that have filled the list. -/
structure Dispatch (ι : Type) extends Bookkeeping ι where
  events_ : Nat
  activeChannels_ : List ι
  pending : List ι
  handled : List ι
  currentActiveChannel_ : Option ι
  eventHanding_ : Bool
  full : Nat

namespace Dispatch

variable {ι : Type}

/-- `call` is a call into the poller, by a callback or between two rounds. -/
inductive Action (ι : Type)
  | poll (ready : List (Nat × BitVec 32))
  | handleEvent
  | finish
  | call (action : Bookkeeping.Action ι)
deriving DecidableEq, Repr

def KInitEventListSize : Nat := 16

def new (fd : ι → Nat) : Dispatch ι :=
  { Bookkeeping.new fd with
    events_ := KInitEventListSize
    activeChannels_ := []
    pending := []
    handled := []
    currentActiveChannel_ := none
    eventHanding_ := false
    full := 0 }

/-- A descriptor is on the kernel's list of ready ones at most once. -/
def Distinct (ready : List (Nat × BitVec 32)) : Prop := (ready.map Prod.fst).Nodup

instance (ready : List (Nat × BitVec 32)) : Decidable (Distinct ready) :=
  inferInstanceAs (Decidable (List.Nodup _))

variable [DecidableEq ι]

/-- `Poller::poll`, with the size of the list and the timeout passed to `epoll_wait` as two
arguments, then the part of `loop` up to the iteration. `none` is a failed assertion. -/
def poll (s : Dispatch ι) (ready : List (Nat × BitVec 32)) : Option (Dispatch ι) :=
  let events := s.poller.epoll_wait ready s.events_
  if events.length ≤ s.events_ then do
    let (channels, activeChannels) ← s.toChannelSet.fillActiveChannels events
    let filled := events.length = s.events_
    some { s with
      toChannelSet := channels
      events_ := if filled then s.events_ * 2 else s.events_
      full := if filled then s.full + 1 else s.full
      activeChannels_ := activeChannels
      pending := activeChannels
      handled := []
      eventHanding_ := true }
  else none

/-- What `EventLoop::removeChannel` asserts. -/
def Asserted (s : Dispatch ι) : Bookkeeping.Action ι → Prop
  | .removeChannel self => s.eventHanding_ = true →
      s.currentActiveChannel_ = some self ∨ self ∉ s.activeChannels_
  | _ => True

instance (s : Dispatch ι) (action : Bookkeeping.Action ι) : Decidable (s.Asserted action) := by
  cases action <;> unfold Asserted <;> infer_instance

def next (s : Dispatch ι) : Action ι → Option (Dispatch ι)
  | .poll ready =>
      if s.eventHanding_ = false ∧ Distinct ready then s.poll ready else none
  | .handleEvent =>
      match s.pending with
      | self :: rest =>
          some { s with
            currentActiveChannel_ := some self
            pending := rest
            handled := s.handled ++ [self] }
      | [] => none
  | .finish =>
      if s.eventHanding_ = true ∧ s.pending = [] then
        some { s with currentActiveChannel_ := none, eventHanding_ := false }
      else none
  | .call action =>
      if s.Asserted action then
        (s.toBookkeeping.next action).map fun books => { s with toBookkeeping := books }
      else none

def system : Transition.System (Dispatch ι) (Action ι) where
  init s := ∃ fd, Function.Injective fd ∧ s = new fd
  next := next

/-- The channels still to be handled are registered, and the assertions of the next poll
hold. In a round each active channel has its turn once, in the order of the event list. -/
structure Sound (s : Dispatch ι) : Prop where
  registered : ∀ c ∈ s.pending, s.Found c
  polls : ∀ ready, (s.poll ready).isSome = true
  once : s.handled ++ s.pending = s.activeChannels_ ∧ s.activeChannels_.Nodup

structure Invariant (s : Dispatch ι) : Prop where
  books : Bookkeeping.Invariant s.toBookkeeping
  owned : s.poller.Owned
  registered : ∀ c ∈ s.pending, s.Found c
  once : s.handled ++ s.pending = s.activeChannels_ ∧ s.activeChannels_.Nodup
  current : ∀ c, s.currentActiveChannel_ = some c → c ∈ s.handled
  idle : s.eventHanding_ = false → s.pending = [] ∧ s.currentActiveChannel_ = none
  size : s.events_ = KInitEventListSize * 2 ^ s.full

omit [DecidableEq ι] in
theorem invariant_new {fd : ι → Nat} (h : Function.Injective fd) : Invariant (new fd) where
  books := Bookkeeping.invariant_new h
  owned _ _ _ hentry := by cases hentry
  registered _ hc := by cases hc
  once := ⟨rfl, List.nodup_nil⟩
  current _ hc := by cases hc
  idle _ := ⟨rfl, rfl⟩
  size := rfl

omit [DecidableEq ι] in
/-- The kernel reports registered channels only. -/
theorem found_of_reported {s : Dispatch ι} (h : Invariant s) {ready : List (Nat × BitVec 32)}
    {event : BitVec 32 × ι} (hevent : event ∈ s.poller.epoll_wait ready s.events_) :
    s.Found event.2 := by
  obtain ⟨fd, mask, hentry⟩ := Poller.epoll_wait_registered hevent
  have hlisted := h.owned fd mask event.2 hentry
  rw [ChannelSet.Found, h.books.listed fd event.2 hlisted]
  exact hlisted

/-- What a poll that returned `events` has done. -/
structure Polled (s s' : Dispatch ι) (events : List (BitVec 32 × ι)) : Prop where
  poller : s'.poller = s.poller
  lastUpdate : s'.lastUpdate = s.lastUpdate
  channels : ∀ c, (s'.channels c).fd_ = (s.channels c).fd_ ∧
    (s'.channels c).index_ = (s.channels c).index_
  active : s'.activeChannels_ = events.map Prod.snd
  pending : s'.pending = events.map Prod.snd
  handled : s'.handled = []
  current : s'.currentActiveChannel_ = s.currentActiveChannel_
  handing : s'.eventHanding_ = true
  size : s'.events_ = s.events_ * 2 ∧ s'.full = s.full + 1 ∧ events.length = s.events_ ∨
    s'.events_ = s.events_ ∧ s'.full = s.full

theorem poll_spec {s s' : Dispatch ι} {ready : List (Nat × BitVec 32)}
    (h : s.poll ready = some s') : Polled s s' (s.poller.epoll_wait ready s.events_) := by
  rw [poll] at h
  split_ifs at h
  obtain ⟨⟨channels, activeChannels⟩, hfill, hstate⟩ := Option.bind_eq_some_iff.mp h
  cases hstate
  obtain ⟨hpoller, rfl, hchannels⟩ := ChannelSet.fillActiveChannels_spec hfill
  refine ⟨hpoller, rfl, fun c => ?_, rfl, rfl, rfl, rfl, rfl, ?_⟩
  · rw [show channels.channels c = _ from hchannels c]
    exact ⟨rfl, rfl⟩
  · by_cases hfilled : (s.poller.epoll_wait ready s.events_).length = s.events_
    · exact .inl ⟨if_pos hfilled, if_pos hfilled, hfilled⟩
    · exact .inr ⟨if_neg hfilled, if_neg hfilled⟩

theorem poll_invariant {s s' : Dispatch ι} (h : Invariant s) (hidle : s.eventHanding_ = false)
    {ready : List (Nat × BitVec 32)} (hdistinct : Distinct ready) (hpoll : s.poll ready = some s') :
    Invariant s' := by
  have hpolled := poll_spec hpoll
  have hfd (fd : Nat) (mask : BitVec 32) (c : ι) (hentry : s.poller.epoll fd = some (mask, c)) :
      (s.channels c).fd_ = fd := h.books.listed fd c (h.owned fd mask c hentry)
  constructor
  · exact h.books.congr hpolled.poller hpolled.lastUpdate hpolled.channels
  · rw [hpolled.poller]
    exact h.owned
  · intro c hc
    rw [hpolled.pending] at hc
    obtain ⟨event, hevent, rfl⟩ := List.mem_map.mp hc
    rw [ChannelSet.Found, (hpolled.channels event.2).1, hpolled.poller]
    exact found_of_reported h hevent
  · rw [hpolled.handled, hpolled.pending, hpolled.active]
    exact ⟨rfl, Poller.epoll_wait_nodup hfd hdistinct⟩
  · intro c hc
    rw [hpolled.current, (h.idle hidle).2] at hc
    cases hc
  · intro hfalse
    rw [hpolled.handing] at hfalse
    cases hfalse
  · rcases hpolled.size with ⟨hevents, hfull, _⟩ | ⟨hevents, hfull⟩
    · rw [hevents, hfull, h.size, Nat.pow_succ, Nat.mul_assoc]
    · rw [hevents, hfull, h.size]

omit [DecidableEq ι] in
theorem handleEvent_invariant {s : Dispatch ι} (h : Invariant s) {self : ι} {rest : List ι}
    (hpending : s.pending = self :: rest) :
    Invariant { s with
      currentActiveChannel_ := some self
      pending := rest
      handled := s.handled ++ [self] } := by
  obtain ⟨honce, hnodup⟩ := h.once
  refine ⟨h.books, h.owned, ?_, ⟨?_, hnodup⟩, ?_, ?_, h.size⟩
  · intro c hc
    exact h.registered c (hpending ▸ List.mem_cons_of_mem self hc)
  · rw [← honce, hpending, List.append_assoc]
    rfl
  · rintro c hc
    cases hc
    exact List.mem_append_right _ (List.mem_singleton_self self)
  · intro hidle
    have hnone := (h.idle hidle).1
    rw [hpending] at hnone
    cases hnone

omit [DecidableEq ι] in
/-- No channel that is still to be handled is removed: the current one has been handled, and
the others are not active. -/
theorem not_removed {s : Dispatch ι} (h : Invariant s) {action : Bookkeeping.Action ι}
    (hasserted : s.Asserted action) {c : ι} (hc : c ∈ s.pending) : action ≠ .removeChannel c := by
  rintro rfl
  obtain ⟨honce, hnodup⟩ := h.once
  have hhanding : s.eventHanding_ = true := by
    apply Bool.eq_true_of_not_eq_false
    intro hidle
    rw [(h.idle hidle).1] at hc
    cases hc
  rcases hasserted hhanding with hcurrent | habsent
  · rw [← honce] at hnodup
    exact (List.nodup_append.mp hnodup).2.2 c (h.current c hcurrent) c hc rfl
  · exact habsent (honce ▸ List.mem_append_right _ hc)

theorem call_invariant {s : Dispatch ι} (h : Invariant s) {action : Bookkeeping.Action ι}
    (hasserted : s.Asserted action) {books : Bookkeeping ι}
    (hnext : s.toBookkeeping.next action = some books) :
    Invariant { s with toBookkeeping := books } where
  books := (Bookkeeping.next_spec h.books hnext).1
  owned := Bookkeeping.owned_next h.books h.owned hnext
  registered c hc :=
    Bookkeeping.found_next h.books hnext (not_removed h hasserted hc) (h.registered c hc)
  once := h.once
  current := h.current
  idle := h.idle
  size := h.size

theorem next_invariant {s s' : Dispatch ι} (h : Invariant s) {action : Action ι}
    (hnext : s.next action = some s') : Invariant s' := by
  cases action with
  | poll ready =>
      simp only [next] at hnext
      split_ifs at hnext with hready
      exact poll_invariant h hready.1 hready.2 hnext
  | handleEvent =>
      simp only [next] at hnext
      split at hnext
      case h_1 self rest hpending =>
        cases hnext
        exact handleEvent_invariant h hpending
      case h_2 => cases hnext
  | finish =>
      simp only [next] at hnext
      split_ifs at hnext with hfinished
      cases hnext
      refine ⟨h.books, h.owned, h.registered, h.once, ?_, fun _ => ⟨hfinished.2, rfl⟩, h.size⟩
      intro c hc
      cases hc
  | call action =>
      simp only [next] at hnext
      split_ifs at hnext with hasserted
      obtain ⟨books, hbooks, rfl⟩ := Option.map_eq_some_iff.mp hnext
      exact call_invariant h hasserted hbooks

theorem invariant {guard : Dispatch ι → Action ι → Prop} {s : Dispatch ι}
    (h : system.ReachableVia guard s) : Invariant s := by
  apply h.invariant (I := Invariant)
  · rintro _ ⟨fd, hfd, rfl⟩
    exact invariant_new hfd
  · exact fun s a s' hi _ hnext => next_invariant hi hnext

/-- At every poll at most `n` registered descriptors are ready. -/
def Ready (n : Nat) (s : Dispatch ι) : Action ι → Prop
  | .poll ready => (ready.filterMap s.poller.event).length ≤ n
  | _ => True

instance (n : Nat) (s : Dispatch ι) (action : Action ι) : Decidable (Ready n s action) := by
  cases action <;> unfold Ready <;> infer_instance

/-- The event list doubles with each poll that fills it, and such polls end once it has
room for twice the channels that are ever ready at once. -/
theorem events_bounded {n : Nat} {s : Dispatch ι} (h : system.ReachableVia (Ready n) s) :
    s.events_ = KInitEventListSize * 2 ^ s.full ∧ s.events_ ≤ max KInitEventListSize (2 * n) := by
  refine ⟨(invariant h).size, ?_⟩
  apply h.invariant (I := fun s => s.events_ ≤ max KInitEventListSize (2 * n))
  · rintro _ ⟨fd, _, rfl⟩
    exact Nat.le_max_left ..
  · intro s action s' hbound hready hnext
    cases action with
    | poll ready =>
        simp only [system, next] at hnext
        split_ifs at hnext
        rcases (poll_spec hnext).size with ⟨hevents, _, hfilled⟩ | ⟨hevents, _⟩
        · have htaken : s.events_ ≤ (ready.filterMap s.poller.event).length :=
            hfilled ▸ List.length_take_le' ..
          have hn : (ready.filterMap s.poller.event).length ≤ n := hready
          omega
        · rw [hevents]
          exact hbound
    | handleEvent =>
        simp only [system, next] at hnext
        split at hnext <;> cases hnext
        exact hbound
    | finish =>
        simp only [system, next] at hnext
        split_ifs at hnext
        cases hnext
        exact hbound
    | call action =>
        simp only [system, next] at hnext
        split_ifs at hnext
        obtain ⟨books, _, rfl⟩ := Option.map_eq_some_iff.mp hnext
        exact hbound

/-- Sixteen channels, all of them readable: one poll fills the list, the next does not. -/
theorem events_bounded_sixteen :
    ∃ s : Dispatch Nat, s.full = 1 ∧ s.events_ = KInitEventListSize * 2 ^ s.full ∧
      s.events_ ≤ max KInitEventListSize (2 * 16) := by
  let readable : List (Nat × BitVec 32) := (List.range 16).map (·, 1)
  let register (c : Nat) : List (Action Nat) :=
    [.call (.setEvents c 1), .call (.updateChannel c)]
  obtain ⟨s, hreach, hfull⟩ : ∃ s : Dispatch Nat, system.ReachableVia (Ready 16) s ∧ s.full = 1 :=
    Transition.System.exists_of_exec _ (new id)
      ((List.range 16).flatMap register ++ .poll readable :: List.replicate 16 .handleEvent ++
        [.finish, .poll readable])
      ⟨id, Function.injective_id, rfl⟩ (by decide +kernel)
  exact ⟨s, hfull, events_bounded hreach⟩

end Dispatch

end MuduoRpc
