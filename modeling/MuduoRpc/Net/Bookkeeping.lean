import MuduoRpc.Lib.Transition
import MuduoRpc.Net.ChannelSet

/-!
The three copies of a registration: the channel's index, `channels_` and the
epoll set. They agree after any calls of `updateChannel` and `removeChannel` on
channels with different descriptors.
-/

namespace MuduoRpc

/-- `lastUpdate` is the channel's events at its last `updateChannel`, and `none`
when it was not updated since it was constructed or removed. -/
structure Bookkeeping (ι : Type) extends ChannelSet ι where
  lastUpdate : ι → Option (BitVec 32)

namespace Bookkeeping

variable {ι : Type}

/-- `setEvents` stands for every change of `events_` between two calls. -/
inductive Action (ι : Type)
  | setEvents (self : ι) (events : BitVec 32)
  | updateChannel (self : ι)
  | removeChannel (self : ι)
deriving DecidableEq, Repr

def new (fd : ι → Nat) : Bookkeeping ι :=
  { ChannelSet.new fd with lastUpdate := fun _ => none }

/-- When `removeChannel` may be called. -/
def Removable (s : Bookkeeping ι) (self : ι) : Prop :=
  (s.channels self).isNoneEvent = true ∧ (s.lastUpdate self).isSome = true

instance (s : Bookkeeping ι) (self : ι) : Decidable (s.Removable self) :=
  inferInstanceAs (Decidable (_ ∧ _))

/-- What the index of each channel says about `channels_` and the epoll set. -/
structure Consistent (s : Bookkeeping ι) : Prop where
  new : ∀ c, (s.channels c).index_ = Kstate.KNew ↔ ∀ fd, s.poller.channels_ fd ≠ some c
  added : ∀ c, (s.channels c).index_ = Kstate.KAdded ↔
    s.poller.channels_ (s.channels c).fd_ = some c ∧
      ∃ events, s.lastUpdate c = some events ∧
        s.poller.epoll (s.channels c).fd_ = some (events, c)
  deleted : ∀ c, (s.channels c).index_ = Kstate.KDeleted ↔
    s.poller.channels_ (s.channels c).fd_ = some c ∧ s.poller.epoll (s.channels c).fd_ = none

/-- Every channel stands well with the poller, under the mask of its last update,
and is listed under its own descriptor only. -/
structure Invariant (s : Bookkeeping ι) : Prop where
  distinct : ∀ c d, (s.channels c).fd_ = (s.channels d).fd_ → c = d
  listed : ∀ fd c, s.poller.channels_ fd = some c → (s.channels c).fd_ = fd
  registered : ∀ c, ∃ mask, s.poller.Registration c (s.channels c) mask ∧
    ∀ events, mask = some events → s.lastUpdate c = some events
  updated : ∀ c, (s.channels c).index_ ≠ Kstate.KNew ↔ (s.lastUpdate c).isSome = true

theorem invariant_new {fd : ι → Nat} (h : Function.Injective fd) : Invariant (new fd) where
  distinct c d hsame := h hsame
  listed fd c hlisted := by cases hlisted
  registered c := ⟨none, .fresh rfl rfl rfl, fun events hmask => by cases hmask⟩
  updated c := by simp [new, ChannelSet.new, Channel.new, Kstate.KNew]

theorem Invariant.consistent {s : Bookkeeping ι} (h : Invariant s) : Consistent s := by
  constructor
  · intro c
    obtain ⟨mask, hregistration, _⟩ := h.registered c
    rw [hregistration.new_iff]
    constructor
    · intro habsent fd hlisted
      exact habsent (h.listed fd c hlisted ▸ hlisted)
    · intro hnowhere
      exact hnowhere _
  · intro c
    obtain ⟨mask, hregistration, hmask⟩ := h.registered c
    constructor
    · intro hadded
      obtain ⟨hlisted, events, hevents, hentry⟩ := hregistration.added_iff.mp hadded
      exact ⟨hlisted, events, hmask events hevents, hentry⟩
    · rintro ⟨hlisted, events, _, hentry⟩
      cases hregistration with
      | fresh _ hchannel _ =>
          rw [hchannel] at hlisted
          cases hlisted
      | added hadded _ _ => exact hadded
      | deleted _ _ hgone =>
          rw [hgone] at hentry
          cases hentry
  · intro c
    obtain ⟨mask, hregistration, _⟩ := h.registered c
    exact hregistration.deleted_iff

variable [DecidableEq ι]

/-- The state after a call for one channel. -/
def put (s : Bookkeeping ι) (self : ι) (poller : Poller ι) (channel : Channel)
    (lastUpdate : Option (BitVec 32)) : Bookkeeping ι where
  poller := poller
  channels := Function.update s.channels self channel
  lastUpdate := Function.update s.lastUpdate self lastUpdate

def next (s : Bookkeeping ι) : Action ι → Option (Bookkeeping ι)
  | .setEvents self events =>
      some (s.put self s.poller { s.channels self with events_ := events } (s.lastUpdate self))
  | .updateChannel self => do
      let (poller, channel) ← s.poller.updateChannel self (s.channels self)
      some (s.put self poller channel (some channel.events_))
  | .removeChannel self =>
      if s.Removable self then do
        let (poller, channel) ← s.poller.removeChannel self (s.channels self)
        some (s.put self poller channel none)
      else none

def system : Transition.System (Bookkeeping ι) (Action ι) where
  init s := ∃ fd, Function.Injective fd ∧ s = new fd
  next := next

/-- No assertion of the two functions fails, and the kernel accepts the calls they
make. -/
structure Accepted (s : Bookkeeping ι) (c : ι) : Prop where
  update : (s.poller.updateChannel c (s.channels c)).isSome = true ∧
    (s.poller.epoll_ctl (Poller.updateOperation (s.channels c)) (s.channels c).fd_
      ((s.channels c).events_, c)).isSome = true
  remove : s.Removable c → (s.poller.removeChannel c (s.channels c)).isSome = true ∧
    ∀ operation ∈ Poller.removeOperation (s.channels c),
      (s.poller.epoll_ctl operation (s.channels c).fd_ ((s.channels c).events_, c)).isSome = true

/-- A step on one channel keeps the invariant if it leaves the entries of other
descriptors alone. -/
theorem Invariant.put {s : Bookkeeping ι} (h : Invariant s) {self : ι} {poller : Poller ι}
    {channel : Channel} {lastUpdate : Option (BitVec 32)} {mask : Option (BitVec 32)}
    (hfd : channel.fd_ = (s.channels self).fd_)
    (hframe : ∀ fd, fd ≠ (s.channels self).fd_ →
      poller.channels_ fd = s.poller.channels_ fd ∧ poller.epoll fd = s.poller.epoll fd)
    (hregistration : poller.Registration self channel mask)
    (hmask : ∀ events, mask = some events → lastUpdate = some events)
    (hupdated : channel.index_ ≠ Kstate.KNew ↔ lastUpdate.isSome = true) :
    Invariant (s.put self poller channel lastUpdate) := by
  have hself : (s.put self poller channel lastUpdate).channels self = channel :=
    Function.update_self ..
  have hlast : (s.put self poller channel lastUpdate).lastUpdate self = lastUpdate :=
    Function.update_self ..
  have hother {c : ι} (hc : c ≠ self) :
      (s.put self poller channel lastUpdate).channels c = s.channels c ∧
        (s.put self poller channel lastUpdate).lastUpdate c = s.lastUpdate c :=
    ⟨Function.update_of_ne hc .., Function.update_of_ne hc ..⟩
  have hfds (c : ι) : ((s.put self poller channel lastUpdate).channels c).fd_ =
      (s.channels c).fd_ := by
    by_cases hc : c = self
    · rw [hc, hself, hfd]
    · rw [(hother hc).1]
  constructor
  · intro c d hsame
    rw [hfds c, hfds d] at hsame
    exact h.distinct c d hsame
  · intro fd c hlisted
    rw [hfds c]
    by_cases hfds' : fd = (s.channels self).fd_
    · rw [hfds', ← hfd] at hlisted
      rw [hregistration.listed_self hlisted, hfds']
    · exact h.listed fd c ((hframe fd hfds').1 ▸ hlisted)
  · intro c
    by_cases hc : c = self
    · rw [hc, hself, hlast]
      exact ⟨mask, hregistration, hmask⟩
    · obtain ⟨mask', hregistration', hmask'⟩ := h.registered c
      have hapart : (s.channels c).fd_ ≠ (s.channels self).fd_ :=
        fun hsame => hc (h.distinct c self hsame)
      rw [(hother hc).1, (hother hc).2]
      exact ⟨mask', hregistration'.frame (hframe _ hapart), hmask'⟩
  · intro c
    by_cases hc : c = self
    · rw [hc, hself, hlast]
      exact hupdated
    · rw [(hother hc).1, (hother hc).2]
      exact h.updated c

theorem setEvents_invariant {s : Bookkeeping ι} (h : Invariant s) (self : ι)
    (events : BitVec 32) : Invariant (s.put self s.poller
      { s.channels self with events_ := events } (s.lastUpdate self)) := by
  obtain ⟨mask, hregistration, hmask⟩ := h.registered self
  exact h.put rfl (fun _ _ => ⟨rfl, rfl⟩) (hregistration.congr rfl rfl) hmask (h.updated self)

/-- Afterwards the channel is in the epoll set with its events, or has been deleted
from it. -/
theorem updateChannel_invariant {s : Bookkeeping ι} (h : Invariant s) {self : ι}
    {poller : Poller ι} {channel : Channel}
    (hupdate : s.poller.updateChannel self (s.channels self) = some (poller, channel)) :
    Invariant (s.put self poller channel (some channel.events_)) := by
  obtain ⟨mask, hregistration, _⟩ := h.registered self
  obtain ⟨poller', index, hspec, hafter⟩ := Poller.updateChannel_spec hregistration
  obtain ⟨rfl, rfl⟩ := Prod.mk.inj (Option.some.inj (hupdate.symm.trans hspec))
  have hlisted := Poller.updateChannel_listed hupdate
  have hindex : ((s.channels self).setIndex index).index_ ≠ Kstate.KNew :=
    fun hnew => hafter.new_iff.mp hnew hlisted
  refine h.put rfl (fun fd hfd => Poller.updateChannel_frame hupdate hfd) hafter ?_ ?_
  · intro events hmask
    split_ifs at hmask
    exact hmask
  · simp [hindex]

theorem removeChannel_invariant {s : Bookkeeping ι} (h : Invariant s) {self : ι}
    (hremovable : s.Removable self) {poller : Poller ι} {channel : Channel}
    (hremove : s.poller.removeChannel self (s.channels self) = some (poller, channel)) :
    Invariant (s.put self poller channel none) := by
  obtain ⟨mask, hregistration, _⟩ := h.registered self
  have hindex := (h.updated self).mpr hremovable.2
  obtain ⟨poller', hspec, hafter⟩ :=
    Poller.removeChannel_spec hregistration hindex hremovable.1
  obtain ⟨rfl, rfl⟩ := Prod.mk.inj (Option.some.inj (hremove.symm.trans hspec))
  refine h.put rfl (fun fd hfd => Poller.removeChannel_frame hremove hfd) hafter ?_ ?_
  · intro events hmask
    cases hmask
  · simp [Channel.setIndex]

theorem invariant {s : Bookkeeping ι} (h : system.Reachable s) : Invariant s := by
  apply h.invariant (I := Invariant)
  · rintro _ ⟨fd, hfd, rfl⟩
    exact invariant_new hfd
  · intro s a s' hi _ hnext
    cases a with
    | setEvents self events =>
        cases hnext
        exact setEvents_invariant hi self events
    | updateChannel self =>
        obtain ⟨⟨poller, channel⟩, hupdate, hstate⟩ := Option.bind_eq_some_iff.mp hnext
        cases hstate
        exact updateChannel_invariant hi hupdate
    | removeChannel self =>
        simp only [system, next] at hnext
        split_ifs at hnext with hremovable
        obtain ⟨⟨poller, channel⟩, hremove, hstate⟩ := Option.bind_eq_some_iff.mp hnext
        cases hstate
        exact removeChannel_invariant hi hremovable hremove

theorem Invariant.accepted {s : Bookkeeping ι} (h : Invariant s) (c : ι) : s.Accepted c := by
  obtain ⟨mask, hregistration, _⟩ := h.registered c
  constructor
  · obtain ⟨poller, index, hupdate, _⟩ := Poller.updateChannel_spec hregistration
    rw [hupdate]
    exact ⟨rfl, hregistration.accepts_update _⟩
  · rintro ⟨hnone, hupdated⟩
    obtain ⟨poller, hremove, _⟩ :=
      Poller.removeChannel_spec hregistration ((h.updated c).mpr hupdated) hnone
    rw [hremove]
    exact ⟨rfl, hregistration.accepts_remove _⟩

/-- In every run the index of a channel tells whether it is listed and whether it
is in the epoll set, and every call that may be made next goes through. -/
theorem consistent_and_accepted {s : Bookkeeping ι} (h : system.Reachable s) :
    Consistent s ∧ ∀ c, s.Accepted c :=
  ⟨(invariant h).consistent, (invariant h).accepted⟩

/-- Two channels; one is removed and updated again. -/
theorem consistent_and_accepted_two_channels :
    ∃ s : Bookkeeping Bool, (s.channels true).index_ = Kstate.KDeleted ∧
      (s.channels false).index_ = Kstate.KAdded ∧ Consistent s ∧ ∀ c, s.Accepted c := by
  obtain ⟨s, hreach, hdeleted, hadded⟩ : ∃ s : Bookkeeping Bool, system.Reachable s ∧
      (s.channels true).index_ = Kstate.KDeleted ∧
      (s.channels false).index_ = Kstate.KAdded :=
    Transition.System.exists_of_exec _ (new fun c => if c then 4 else 5)
      [.setEvents true 1, .updateChannel true, .setEvents false 2, .updateChannel false,
        .setEvents false 0, .updateChannel false, .removeChannel false, .updateChannel false,
        .setEvents true 0, .updateChannel true]
      ⟨_, by decide, rfl⟩ (by decide)
  exact ⟨s, hdeleted, hadded, consistent_and_accepted hreach⟩

end Bookkeeping

end MuduoRpc
