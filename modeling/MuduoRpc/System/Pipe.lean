import MuduoRpc.Tcp.HalfClosed
import MuduoRpc.Tcp.InputStream

/-!
Two connections that talk to each other. What one of them writes is in flight until the
other one reads it, in its order. Both ends run on their own loops and are used by any
number of threads.
-/

namespace MuduoRpc

open TcpConnection (written streamed)

/-- `wire b` is what the end `b` has written and the other one has not read yet, and
`consumed b` what the message callback of `b` has taken out of its input buffer. -/
structure Pipe (T : Type) where
  ends : Bool → TcpConnection T
  wire : Bool → List UInt8
  consumed : Bool → List UInt8

namespace Pipe

variable {T : Type} [DecidableEq T] (threadPid : Bool → T)

/-- A read at one end gets bytes from the front of what the other end has written. -/
def next (p : Pipe T) : Bool × TcpConnection.Action T → Option (Pipe T)
  | (b, a) =>
      let s := p.ends b
      if a.reads s <+: p.wire (!b) then do
        let s' ← s.next (threadPid b) a
        some
          { ends := Function.update p.ends b s'
            wire := fun c =>
              if c = b then p.wire c ++ (written s'.log).drop (written s.log).length
              else (p.wire c).drop (a.reads s).length
            consumed := Function.update p.consumed b (p.consumed b ++ a.consumes s) }
      else none

def system : Transition.System (Pipe T) (Bool × TcpConnection.Action T) where
  init p := (∀ b, (TcpConnection.system (threadPid b)).init (p.ends b)) ∧
    (∀ b, p.wire b = []) ∧ ∀ b, p.consumed b = []
  next := next threadPid

variable {threadPid} {p p' : Pipe T} {a : Bool × TcpConnection.Action T}

/-- The parts of a step at the end `b`. -/
theorem next_eq_some {b : Bool} {a : TcpConnection.Action T}
    (h : next threadPid p (b, a) = some p') : ∃ s' taken rest added,
      (p.ends b).next (threadPid b) a = some s' ∧ taken = a.reads (p.ends b) ∧
      p.wire (!b) = taken ++ rest ∧ written s'.log = written (p.ends b).log ++ added ∧
      p'.ends b = s' ∧ p'.ends (!b) = p.ends (!b) ∧
      p'.wire b = p.wire b ++ added ∧ p'.wire (!b) = rest ∧
      p'.consumed b = p.consumed b ++ a.consumes (p.ends b) ∧
      p'.consumed (!b) = p.consumed (!b) := by
  simp only [next] at h
  split_ifs at h with hreads
  obtain ⟨s', hnext, hp'⟩ := Option.bind_eq_some_iff.mp h
  cases hp'
  obtain ⟨rest, hrest⟩ := hreads
  obtain ⟨events, hlog, _⟩ := (TcpConnection.next_steps hnext).2.log
  have hwritten : written s'.log = written (p.ends b).log ++ written events := by
    rw [hlog, TcpConnection.written_append]
  refine ⟨s', _, rest, written events, hnext, rfl, hrest.symm, hwritten, ?_, ?_, ?_, ?_, ?_, ?_⟩
  · exact Function.update_self b s' p.ends
  · exact Function.update_of_ne (Bool.not_ne_self b) s' p.ends
  · simp only [if_true, hwritten, List.drop_left]
  · simp only [if_neg (Bool.not_ne_self b), ← hrest, List.drop_left]
  · exact Function.update_self b _ p.consumed
  · exact Function.update_of_ne (Bool.not_ne_self b) _ p.consumed

/-- What one end has written is consumed, in the input buffer, or in flight, in its
order. -/
def Fifo (p : Pipe T) : Prop :=
  ∀ b, p.consumed b ++ (p.ends b).inputbuffer_.bytes ++ p.wire (!b) =
    written (p.ends (!b)).log

theorem Fifo.step (h : Fifo p) {b : Bool} {a : TcpConnection.Action T}
    (hnext : next threadPid p (b, a) = some p') : Fifo p' := by
  obtain ⟨s', taken, rest, added, hstep, htaken, hwire, hwritten, hend, hother, hout, hin,
    hconsumed, hconsumed'⟩ := next_eq_some hnext
  have hinput := (TcpConnection.next_steps hstep).2.input
  have hhere : p'.consumed b ++ (p'.ends b).inputbuffer_.bytes ++ p'.wire (!b) =
      written (p'.ends (!b)).log := by
    rw [hconsumed, hend, hin, hother, ← h b, hwire, List.append_assoc (p.consumed b), ← hinput,
      htaken]
    simp only [List.append_assoc]
  have hthere : p'.consumed (!b) ++ (p'.ends (!b)).inputbuffer_.bytes ++ p'.wire b =
      written (p'.ends b).log := by
    have hold := h (!b)
    rw [Bool.not_not] at hold
    rw [hconsumed', hother, hout, hend, hwritten, ← hold, List.append_assoc _ _ added]
  intro c
  rcases Bool.eq_or_eq_not c b with rfl | rfl
  · exact hhere
  · rw [Bool.not_not]
    exact hthere

theorem fifo_of_reachable {guard : Pipe T → Bool × TcpConnection.Action T → Prop}
    (h : (system threadPid).ReachableVia guard p) : Fifo p := by
  apply h.invariant
  · rintro p ⟨hends, hwire, hconsumed⟩ b
    obtain ⟨_, _, _, hend⟩ := hends b
    obtain ⟨_, _, _, hother⟩ := hends (!b)
    rw [hwire, hconsumed, hend, hother]
    simp [TcpConnection.new, written]
  · rintro p ⟨b, a⟩ p' hp _ hnext
    exact hp.step hnext

/-- Each end makes the steps of a connection. -/
theorem end_reachable {guard : Pipe T → Bool × TcpConnection.Action T → Prop} {c : Bool}
    {guard' : TcpConnection T → TcpConnection.Action T → Prop}
    (hguard : ∀ p a, guard p (c, a) → guard' (p.ends c) a)
    (h : (system threadPid).ReachableVia guard p) :
    (TcpConnection.system (threadPid c)).ReachableVia guard' (p.ends c) := by
  apply h.project fun p => p.ends c
  · rintro p ⟨hends, _⟩
    exact hends c
  · rintro p ⟨b, a⟩ p' ha hnext
    obtain ⟨s', _, _, _, hstep, _, _, _, hend, hother, _⟩ := next_eq_some hnext
    rcases Bool.eq_or_eq_not c b with rfl | rfl
    · exact .inr ⟨a, hguard p a ha, hend ▸ hstep⟩
    · exact .inl hother

/-- In every run without a fault at the end `c`: what the other end has consumed and
buffered, what is in flight and what `c` has in its output buffer is the messages for which
`sendInLoop` ran, and those of one thread are in the order of its calls. -/
theorem conserved {c : Bool} (h : (system threadPid).ReachableVia
      (fun _ a => a.1 = c → TcpConnection.sendsWithoutFault a.2 = true) p) :
    p.consumed (!c) ++ (p.ends (!c)).inputbuffer_.bytes ++ p.wire c ++
        (p.ends c).outputbuffer_.bytes = streamed (p.ends c).log ∧
      ∀ t, (TcpConnection.streamedMessages t (p.ends c).log).Sublist
        (TcpConnection.sent t (p.ends c).log) := by
  have hend : (TcpConnection.system (threadPid c)).ReachableVia
      (fun _ a => TcpConnection.sendsWithoutFault a = true) (p.ends c) :=
    end_reachable (fun _ _ ha => ha rfl) h
  have hdelivered := TcpConnection.delivered_of_reachable (fun _ _ ha => ha) hend
  have hfifo := fifo_of_reachable h (!c)
  rw [Bool.not_not] at hfifo
  refine ⟨?_, fun t => ?_⟩
  · rw [hfifo]
    exact (List.append_nil _).symm.trans hdelivered.stream
  · rw [hdelivered.order t]
    exact (TcpConnection.streamedMessages_sublist_ran t _).trans (List.sublist_append_left _ _)

/-- A message on its way in both directions. -/
theorem conserved_two_ways : ∃ p : Pipe Bool,
    p.consumed true = [1] ∧ (p.ends true).inputbuffer_.bytes = [2] ∧ p.wire false = [3] ∧
      (p.ends false).outputbuffer_.bytes = [4] ∧ p.wire true = [9] ∧
      streamed (p.ends false).log = [1, 2, 3, 4] := by
  obtain ⟨p, hreach, hconsumed, hinput, hwire, houtput, hback⟩ : ∃ p,
      (system fun _ => true).ReachableVia
        (fun _ a => a.1 = false → TcpConnection.sendsWithoutFault a.2 = true) p ∧
      (p.consumed true = [1] ∧ (p.ends true).inputbuffer_.bytes = [2] ∧ p.wire false = [3] ∧
        (p.ends false).outputbuffer_.bytes = [4] ∧ p.wire true = [9]) :=
    Transition.System.exists_of_exec _
      ⟨fun _ => .new 5 8 false, fun _ => [], fun _ => []⟩
      [(false, .connectEstablished), (true, .connectEstablished),
        (false, .send true [1, 2, 3, 4] (.accepted 3)), (true, .send true [9] (.accepted 1)),
        (true, .dispatch 0x1), (true, .callback ⟨.accepted 0, .received [1, 2]⟩),
        (true, .consume 1)]
      ⟨fun _ => ⟨5, 8, false, rfl⟩, fun _ => rfl, fun _ => rfl⟩ (by decide)
  obtain ⟨hall, _⟩ := conserved (c := false) hreach
  refine ⟨p, hconsumed, hinput, hwire, houtput, hback, ?_⟩
  rw [← hall, houtput, hwire]
  simp [hconsumed, hinput]

/-- The end `c` stays open until it half-closes, and half-closes while no message is
outstanding. Behind its half-close it may be closed. -/
def Graceful (threadPid : Bool → T) (c : Bool) (p : Pipe T)
    (a : Bool × TcpConnection.Action T) : Prop :=
  a.1 = c → TcpConnection.staysUntilHalfClose (threadPid c) (p.ends c) a.2

instance [Fintype T] {c : Bool} (p : Pipe T) (a : Bool × TcpConnection.Action T) :
    Decidable (Graceful threadPid c p a) :=
  inferInstanceAs (Decidable (_ → _))

/-- Behind a graceful half-close the other end has got every message that was accepted, as
soon as nothing is in flight. -/
theorem received_of_half_close {c : Bool}
    (h : (system threadPid).ReachableVia (Graceful threadPid c) p)
    (hclosed : .ShutdownWrite ∈ (p.ends c).log) (harrived : p.wire c = []) :
    p.consumed (!c) ++ (p.ends (!c)).inputbuffer_.bytes = streamed (p.ends c).log ∧
      ∀ t, TcpConnection.streamedMessages t (p.ends c).log =
        TcpConnection.sent t (p.ends c).log := by
  have hend : (TcpConnection.system (threadPid c)).ReachableVia
      (TcpConnection.staysUntilHalfClose (threadPid c)) (p.ends c) :=
    end_reachable (fun _ _ ha => ha rfl) h
  obtain ⟨hwritten, hsent⟩ := TcpConnection.written_of_halfClose hend hclosed
  have hfifo := fifo_of_reachable h (!c)
  rw [Bool.not_not, harrived, List.append_nil] at hfifo
  exact ⟨hfifo.trans hwritten, hsent⟩

/-- A message that is written in two parts, the second one before the half-close, while the
other end answers; then the half-closed end is hung up. -/
theorem received_of_half_close_flushed : ∃ p : Pipe Bool,
    (p.ends false).state_ = .KDisconnected ∧ p.consumed true = [1] ∧
      (p.ends true).inputbuffer_.bytes = [2, 3] ∧ p.wire true = [9] ∧
      TcpConnection.streamedMessages false (p.ends false).log = [[1, 2, 3]] := by
  obtain ⟨p, hreach, hclosed, hwire, hstate, hconsumed, hinput, hback, hsent⟩ : ∃ p,
      (system fun _ => true).ReachableVia (Graceful (fun _ => true) false) p ∧
      (.ShutdownWrite ∈ (p.ends false).log ∧ p.wire false = [] ∧
        (p.ends false).state_ = .KDisconnected ∧ p.consumed true = [1] ∧
        (p.ends true).inputbuffer_.bytes = [2, 3] ∧ p.wire true = [9] ∧
        TcpConnection.sent false (p.ends false).log = [[1, 2, 3]]) :=
    Transition.System.exists_of_exec _
      ⟨fun _ => .new 5 8 false, fun _ => [], fun _ => []⟩
      [(false, .connectEstablished), (true, .connectEstablished),
        (false, .send false [1, 2, 3] (.accepted 0)), (false, .push false), (false, .swap),
        (false, .run ⟨.accepted 1, .received []⟩), (true, .dispatch 0x1),
        (true, .callback ⟨.accepted 0, .received [1]⟩), (true, .consume 1),
        (true, .send true [9] (.accepted 1)), (false, .shutdown true), (false, .assign true),
        (false, .dispatch 0x4), (false, .callback ⟨.accepted 2, .received []⟩),
        (true, .dispatch 0x1), (true, .callback ⟨.accepted 0, .received [2, 3]⟩),
        (false, .dispatch 0x10), (false, .callback ⟨.accepted 0, .received []⟩)]
      ⟨fun _ => ⟨5, 8, false, rfl⟩, fun _ => rfl, fun _ => rfl⟩ (by decide)
  obtain ⟨-, hall⟩ := received_of_half_close (c := false) hreach hclosed hwire
  exact ⟨p, hstate, hconsumed, hinput, hback, (hall false).trans hsent⟩

end Pipe

end MuduoRpc
