import MuduoRpc.Lib.Transition
import MuduoRpc.Net.Poller

/-!
One channel over its poller: whether the interest its owner asked for is what
the kernel is told and what `handleEvent` acts on. Reading agrees. Writing does
not: `WriteEvernt` is 2, which to epoll is `EPOLLPRI`.
-/

namespace MuduoRpc

open Flags Poll

/-- A channel and the poller of its loop, which knows no other channel. -/
structure Watched where
  channel : Channel
  poller : Poller Unit

namespace Watched

inductive Action
  | setInterest (interest : Channel.Interest)
  | round (ready : BitVec 32)
deriving DecidableEq, Repr

def new (fd : Nat) : Watched where
  channel := { Channel.new fd with
    callbacks := [.closeCallback_, .readCallback_, .errorCallback_, .writeCallback_] }
  poller := .new

def next (s : Watched) : Action → Option Watched
  | .setInterest interest => do
      let (poller, channel) ← s.poller.setInterest () s.channel interest
      some ⟨channel, poller⟩
  | .round ready => do
      let (channel, _) ← s.poller.round () s.channel ready
      some { s with channel := channel }

def system : Transition.System Watched Action where
  init s := ∃ fd, s = new fd
  next := next

/-- Whether the mask in the epoll set has the flag. -/
def registered (s : Watched) (flag : BitVec 32) : Bool :=
  match s.poller.epoll s.channel.fd_ with
  | some (mask, _) => has mask flag
  | none => false

/-- A round with these ready events runs the callback. -/
def Runs (s : Watched) (ready : BitVec 32) (callback : Channel.Callback) : Prop :=
  ∃ channel callbacks, s.poller.round () s.channel ready = some (channel, callbacks) ∧
    callback ∈ callbacks

/-- The owner's view of the channel, the registered mask and the dispatch say
the same about reading and about writing. -/
structure InterestAgrees (s : Watched) : Prop where
  writing : s.channel.isWriting = true → s.registered POLLOUT = true ∧
    ∀ ready, has ready POLLOUT = true → s.Runs ready .writeCallback_
  reading : s.channel.isReading = true → s.registered POLLIN = true ∧
    ∀ ready, has ready POLLIN = true → s.Runs ready .readCallback_
  notWriting : s.channel.isWriting = false → s.registered POLLOUT = false
  notReading : s.channel.isReading = false → s.registered POLLIN = false

/-- The mask in the epoll set is the channel's `events_`; a descriptor that is
not in the set belongs to a channel without events. -/
structure Invariant (s : Watched) : Prop where
  low : Channel.LowBits s.channel.events_
  callbacks : ∀ callback, callback ∈ s.channel.callbacks
  registration : ∃ mask, s.poller.Registration () s.channel mask ∧
    (mask = some s.channel.events_ ∨ mask = none ∧ s.channel.events_ = 0)

theorem invariant_new (fd : Nat) : Invariant (new fd) where
  low := .inl rfl
  callbacks callback := by cases callback <;> simp [new]
  registration := ⟨none, .fresh rfl rfl rfl, .inr ⟨rfl, rfl⟩⟩

theorem setInterest_invariant {s : Watched} (h : Invariant s) {interest : Channel.Interest}
    {poller : Poller Unit} {channel : Channel}
    (hset : s.poller.setInterest () s.channel interest = some (poller, channel)) :
    Invariant ⟨channel, poller⟩ := by
  obtain ⟨mask, hregistration, _⟩ := h.registration
  obtain ⟨poller', index, hupdate, hafter⟩ := Poller.setInterest_spec hregistration interest
  obtain ⟨rfl, rfl⟩ := Prod.mk.inj (Option.some.inj (hset.symm.trans hupdate))
  refine ⟨Channel.lowBits_setInterest h.low interest, ?_, _, hafter, ?_⟩
  · cases interest <;> exact h.callbacks
  · split_ifs with hdeleted
    · exact .inr ⟨rfl, of_decide_eq_true hdeleted.2⟩
    · exact .inl rfl

theorem round_invariant {s : Watched} (h : Invariant s) {ready : BitVec 32}
    {channel : Channel} {callbacks : List Channel.Callback}
    (hround : s.poller.round () s.channel ready = some (channel, callbacks)) :
    Invariant { s with channel := channel } := by
  obtain ⟨revents, rfl⟩ := Poller.round_channel hround
  obtain ⟨mask, hregistration, hmask⟩ := h.registration
  exact ⟨h.low, h.callbacks, mask, hregistration.congr rfl rfl, hmask⟩

theorem invariant {s : Watched} (h : system.Reachable s) : Invariant s := by
  apply h.invariant (I := Invariant)
  · rintro _ ⟨fd, rfl⟩
    exact invariant_new fd
  · intro s a s' hi _ hnext
    cases a with
    | setInterest interest =>
        obtain ⟨⟨poller, channel⟩, hset, hstate⟩ := Option.bind_eq_some_iff.mp hnext
        cases hstate
        exact setInterest_invariant hi hset
    | round ready =>
        obtain ⟨⟨channel, callbacks⟩, hround, hstate⟩ := Option.bind_eq_some_iff.mp hnext
        cases hstate
        exact round_invariant hi hround

/-- A channel with events is in the epoll set, under its own mask. -/
theorem Invariant.epoll {s : Watched} (h : Invariant s) (hevents : s.channel.events_ ≠ 0) :
    s.poller.channels_ s.channel.fd_ = some () ∧
      s.poller.epoll s.channel.fd_ = some (s.channel.events_, ()) := by
  obtain ⟨mask, hregistration, hmask⟩ := h.registration
  rcases hmask with rfl | ⟨_, hzero⟩
  · cases hregistration with
    | added _ hchannel hepoll => exact ⟨hchannel, hepoll⟩
  · exact absurd hzero hevents

theorem registered_eq {s : Watched} (h : Invariant s) (flag : BitVec 32) :
    s.registered flag = has s.channel.events_ flag := by
  obtain ⟨mask, hregistration, hmask⟩ := h.registration
  rw [registered]
  cases hregistration with
  | added _ _ hepoll =>
      rcases hmask with hmask | ⟨hmask, _⟩ <;> cases hmask
      rw [hepoll]
  | fresh _ _ hepoll =>
      rcases hmask with hmask | ⟨_, hzero⟩
      · cases hmask
      · rw [hepoll, hzero, has_zero]
  | deleted _ _ hepoll =>
      rcases hmask with hmask | ⟨_, hzero⟩
      · cases hmask
      · rw [hepoll, hzero, has_zero]

theorem not_registered_out {s : Watched} (h : Invariant s) : s.registered POLLOUT = false := by
  rw [registered_eq h]
  rcases h.low with hevents | hevents | hevents | hevents <;> rw [hevents] <;> decide

theorem registered_in {s : Watched} (h : Invariant s) :
    s.registered POLLIN = s.channel.isReading :=
  registered_eq h _

/-- A readable descriptor of a reading channel gets its read callback run. -/
theorem runs_readCallback {s : Watched} (h : Invariant s) (hreading : s.channel.isReading = true)
    {ready : BitVec 32} (hready : has ready POLLIN = true) : s.Runs ready .readCallback_ := by
  have hevents : s.channel.events_ ≠ 0 := by
    intro hzero
    rw [Channel.isReading, hzero, has_zero] at hreading
    cases hreading
  have hkept : (s.channel.events_ ||| POLLERR ||| POLLHUP) &&& POLLIN = POLLIN := by
    rw [Channel.isReading] at hreading
    obtain hlow | hlow | hlow | hlow := h.low <;> rw [hlow] at hreading ⊢ <;> revert hreading <;>
      decide
  have hreported : has (Poller.reported s.channel.events_ ready) POLLIN = true :=
    (has_and_of_subset hkept).trans hready
  have hactive : Poller.reported s.channel.events_ ready ≠ 0 := by
    intro hzero
    rw [hzero, has_zero] at hreported
    cases hreported
  obtain ⟨hchannel, hepoll⟩ := h.epoll hevents
  have hround : s.poller.round () s.channel ready =
      some (s.channel.setRevent (Poller.reported s.channel.events_ ready),
        (s.channel.setRevent (Poller.reported s.channel.events_ ready)).handleEvent) := by
    simp only [Poller.round, hepoll, hchannel, if_neg hactive, and_self, if_true]
  refine ⟨_, _, hround, ?_⟩
  rw [Channel.mem_handleEvent]
  refine ⟨?_, h.callbacks _⟩
  simp only [Channel.wants, Channel.setRevent, has_or, has_flags_or, hreported, Bool.or_true,
    Bool.true_or]

/-- The layers agree in exactly the states in which the owner does not want to
write. -/
theorem interestAgrees_iff {s : Watched} (h : system.Reachable s) :
    s.InterestAgrees ↔ s.channel.isWriting = false := by
  have hi := invariant h
  constructor
  · intro hagrees
    by_contra hwriting
    have hout := (hagrees.writing (Bool.eq_true_of_not_eq_false hwriting)).1
    rw [not_registered_out hi] at hout
    cases hout
  · intro hquiet
    refine ⟨?_, ?_, fun _ => not_registered_out hi, ?_⟩
    · intro hwriting
      rw [hquiet] at hwriting
      cases hwriting
    · intro hreading
      refine ⟨(registered_in hi).trans hreading, fun ready hready => ?_⟩
      exact runs_readCallback hi hreading hready
    · exact (registered_in hi).trans

/-- A reading channel after a readable round. -/
theorem interestAgrees_iff_reading :
    ∃ s, system.Reachable s ∧ s.channel.isReading = true ∧ s.InterestAgrees := by
  obtain ⟨s, hreach, hreading, hwriting⟩ : ∃ s, system.Reachable s ∧
      s.channel.isReading = true ∧ s.channel.isWriting = false :=
    Transition.System.exists_of_exec _ (new 5)
      [.setInterest .enableReading, .setInterest .enableWriting, .round 5,
        .setInterest .disableWriting] ⟨5, rfl⟩ (by decide)
  exact ⟨s, hreach, hreading, (interestAgrees_iff hreach).mpr hwriting⟩

/-- After `enableWriting` the mask is `EPOLLPRI`, and a round in which the
descriptor is writable runs nothing. -/
theorem writable_round_runs_nothing :
    ∃ s, system.Reachable s ∧ ¬s.InterestAgrees ∧ s.channel.isWriting = true ∧
      s.registered POLLOUT = false ∧ s.registered POLLPRI = true ∧
      (s.poller.round () s.channel POLLOUT).map Prod.snd = some [] := by
  obtain ⟨s, hreach, hwriting, hout, hpri, hround⟩ : ∃ s, system.Reachable s ∧
      s.channel.isWriting = true ∧ s.registered POLLOUT = false ∧
      s.registered POLLPRI = true ∧
      (s.poller.round () s.channel POLLOUT).map Prod.snd = some [] :=
    Transition.System.exists_of_exec _ (new 5) [.setInterest .enableWriting] ⟨5, rfl⟩ (by decide)
  refine ⟨s, hreach, fun hagrees => ?_, hwriting, hout, hpri, hround⟩
  have hregistered := (hagrees.writing hwriting).1
  rw [hout] at hregistered
  cases hregistered

end Watched

end MuduoRpc
