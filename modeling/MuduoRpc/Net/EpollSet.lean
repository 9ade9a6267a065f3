import MuduoRpc.Net.Interest

/-!
Whether a channel without events stays out of the epoll set. `updateChannel`
looks at the empty event set only for a channel that is in the set: one that is
new or deleted is added whatever its events are, so a call that disables what is
disabled already puts the descriptor back.
-/

namespace MuduoRpc

namespace Poller

variable {ι : Type*}

/-- The descriptor is in the epoll set exactly if the channel has an event. -/
def PollsEvents (p : Poller ι) (channel : Channel) : Prop :=
  (p.epoll channel.fd_).isSome = true ↔ channel.isNoneEvent = false

instance (p : Poller ι) (channel : Channel) : Decidable (p.PollsEvents channel) :=
  inferInstanceAs (Decidable (_ ↔ _))

theorem Registration.epoll_isSome {p : Poller ι} {self : ι} {channel : Channel}
    {mask : Option (BitVec 32)} (h : p.Registration self channel mask) :
    (p.epoll channel.fd_).isSome = mask.isSome := by
  cases h with
  | fresh _ _ hepoll | added _ _ hepoll | deleted _ _ hepoll => rw [hepoll]; rfl

variable [DecidableEq ι]

/-- The poller agrees with the channel after each call on the channel's interest. -/
def PollsThroughout (p : Poller ι) (self : ι) (channel : Channel) :
    List Channel.Interest → Prop
  | [] => True
  | interest :: rest => ∃ p' channel', p.setInterest self channel interest = some (p', channel') ∧
      p'.PollsEvents channel' ∧ p'.PollsThroughout self channel' rest

end Poller

namespace Channel

/-- No call leaves the channel without events that had none before. -/
def NeverIdle : Channel → List Interest → Prop
  | _, [] => True
  | c, interest :: rest =>
      ¬(c.isNoneEvent = true ∧ (c.setInterest interest).isNoneEvent = true) ∧
        (c.setInterest interest).NeverIdle rest

instance decidableNeverIdle (c : Channel) (interests : List Interest) :
    Decidable (c.NeverIdle interests) :=
  match interests with
  | [] => inferInstanceAs (Decidable True)
  | interest :: rest =>
      have := decidableNeverIdle (c.setInterest interest) rest
      inferInstanceAs (Decidable (_ ∧ _))

theorem isNoneEvent_congr {c c' : Channel} (h : c'.events_ = c.events_) :
    c'.isNoneEvent = c.isNoneEvent := by
  rw [isNoneEvent, isNoneEvent, h]

theorem events_setInterest_congr {c c' : Channel} (h : c'.events_ = c.events_)
    (interest : Interest) :
    (c'.setInterest interest).events_ = (c.setInterest interest).events_ := by
  cases interest <;> simp only [setInterest, h]

/-- Only the events count. -/
theorem neverIdle_congr {c c' : Channel} (h : c'.events_ = c.events_) (interests : List Interest) :
    c'.NeverIdle interests ↔ c.NeverIdle interests := by
  induction interests generalizing c c' with
  | nil => rfl
  | cons interest rest ih =>
      have hnext := events_setInterest_congr h interest
      simp only [NeverIdle, isNoneEvent_congr h, isNoneEvent_congr hnext, ih hnext]

end Channel

namespace Poller

variable {ι : Type*} [DecidableEq ι]

/-- After a call the poller agrees with the channel as it did before, unless the call was
idle. -/
theorem setInterest_pollsEvents_iff {p : Poller ι} {self : ι} {channel : Channel}
    {mask : Option (BitVec 32)} (h : p.Registration self channel mask)
    (hpolls : p.PollsEvents channel) (interest : Channel.Interest) :
    ∃ p' channel' mask', p.setInterest self channel interest = some (p', channel') ∧
      channel'.events_ = (channel.setInterest interest).events_ ∧
      p'.Registration self channel' mask' ∧
      (p'.PollsEvents channel' ↔
        ¬(channel.isNoneEvent = true ∧ (channel.setInterest interest).isNoneEvent = true)) := by
  obtain ⟨p', index, hcall, hafter⟩ := setInterest_spec h interest
  generalize hchannel : Channel.setIndex _ index = channel' at hcall hafter
  have hevents : channel'.events_ = (channel.setInterest interest).events_ := by
    rw [← hchannel]
    rfl
  refine ⟨p', channel', _, hcall, hevents, hafter, ?_⟩
  rw [PollsEvents, h.epoll_isSome] at hpolls
  rw [PollsEvents, hafter.epoll_isSome, Channel.isNoneEvent_congr hevents]
  simp only [hpolls]
  cases channel.isNoneEvent <;> cases (channel.setInterest interest).isNoneEvent <;> simp

theorem pollsThroughout_iff_of_registration {p : Poller ι} {self : ι} {channel : Channel}
    {mask : Option (BitVec 32)} (h : p.Registration self channel mask)
    (hpolls : p.PollsEvents channel) (interests : List Channel.Interest) :
    p.PollsThroughout self channel interests ↔ channel.NeverIdle interests := by
  induction interests generalizing p channel mask with
  | nil => exact Iff.rfl
  | cons interest rest ih =>
      obtain ⟨p', channel', mask', hcall, hevents, hafter, hagree⟩ :=
        setInterest_pollsEvents_iff h hpolls interest
      constructor
      · rintro ⟨q, channel'', hcall', hpolls', hrest⟩
        obtain ⟨rfl, rfl⟩ := Prod.mk.inj (Option.some.inj (hcall'.symm.trans hcall))
        have hidle := (ih hafter hpolls').mp hrest
        exact ⟨hagree.mp hpolls', (Channel.neverIdle_congr hevents rest).mp hidle⟩
      · rintro ⟨hbusy, hrest⟩
        have hpolls' := hagree.mpr hbusy
        have hidle := (Channel.neverIdle_congr hevents rest).mpr hrest
        exact ⟨p', channel', hcall, hpolls', (ih hafter hpolls').mpr hidle⟩

/-- For a channel just built and a poller that does not know its descriptor, the poller
agrees with the channel after every call exactly if no call disables what is disabled
already. -/
theorem pollsThroughout_iff {p : Poller ι} (self : ι) {fd : Nat}
    (hchannels : p.channels_ fd = none) (hepoll : p.epoll fd = none)
    (interests : List Channel.Interest) :
    p.PollsThroughout self (Channel.new fd) interests ↔ (Channel.new fd).NeverIdle interests := by
  have hfresh : p.Registration self (Channel.new fd) none := .fresh rfl hchannels hepoll
  apply pollsThroughout_iff_of_registration hfresh
  rw [PollsEvents, hfresh.epoll_isSome]
  simp [Channel.isNoneEvent, Channel.new, Channel.NoneEvent]

/-- The poller has another channel; the last event goes once and comes back. -/
theorem pollsThroughout_iff_shared :
    let p : Poller Bool := (new.listed true (Channel.new 6)).setEntry 6 (some (1, true))
    p.PollsThroughout false (Channel.new 5)
      [.enableReading, .enableWriting, .disenableReading, .disableall, .enableWriting] := by
  intro p
  have hchannels : p.channels_ 5 = none := by decide
  have hepoll : p.epoll 5 = none := by decide
  exact (pollsThroughout_iff false hchannels hepoll _).mpr (by decide)

/-- `stopRead` and then the `disableall` of the closing connection: the descriptor is back
in the epoll set without events, and a hang-up runs the close callback. -/
theorem disabled_channel_polled :
    (∃ s, Watched.system.Reachable s ∧ s.channel.isNoneEvent = true ∧
      ¬s.poller.PollsEvents s.channel ∧
      (s.poller.round () s.channel Poll.POLLHUP).map Prod.snd = some [.closeCallback_]) ∧
    ¬(new : Poller Unit).PollsThroughout () (Channel.new 5)
      [.enableReading, .disenableReading, .disableall] := by
  have hfresh : (new : Poller Unit).Registration () (Channel.new 5) none := .fresh rfl rfl rfl
  constructor
  · exact Transition.System.exists_of_exec _ (Watched.new 5)
      [.setInterest .enableReading, .setInterest .disenableReading, .setInterest .disableall]
      ⟨5, rfl⟩ (by decide)
  · rw [pollsThroughout_iff_of_registration hfresh (by decide)]
    decide

end Poller

end MuduoRpc
