import Mathlib.Data.List.Basic

/-!
Incremental decoding of a stream of self-delimiting frames. `next` takes one
frame off the front of the bytes received so far, or says that no complete
good frame is there yet. Whatever `next` accepts it recognises from the frame
alone, so neither the bytes that follow nor the way the stream was cut can
change the decision.
-/

namespace Framing

variable {β α : Type*}

/-- `bytes` is a concatenation of frames that carry `items`, in order. -/
inductive Concat (isFrame : List β → α → Prop) : List β → List α → Prop
  | nil : Concat isFrame [] []
  | cons {frame : List β} {item : α} {bytes : List β} {items : List α} :
      isFrame frame item → Concat isFrame bytes items →
        Concat isFrame (frame ++ bytes) (item :: items)

/-- `items` are carried by the longest prefix of `stream` that is a
concatenation of frames, and `rest` is what follows that prefix. -/
structure Longest (isFrame : List β → α → Prop) (stream : List β)
    (items : List α) (rest : List β) : Prop where
  split : ∃ bytes, stream = bytes ++ rest ∧ Concat isFrame bytes items
  longest : ∀ bytes tail items', stream = bytes ++ tail →
    Concat isFrame bytes items' → rest.length ≤ tail.length

structure Framer (β α : Type*) where
  next : List β → Option (α × List β)
  selfDelimiting : ∀ {bytes item rest}, next bytes = some (item, rest) →
    ∃ frame, frame ≠ [] ∧ bytes = frame ++ rest ∧
      ∀ more, next (frame ++ more) = some (item, more)

namespace Framer

variable (F : Framer β α)

def IsFrame (frame : List β) (item : α) : Prop :=
  frame ≠ [] ∧ ∀ more, F.next (frame ++ more) = some (item, more)

variable {F}

theorem next_split {bytes rest : List β} {item : α}
    (h : F.next bytes = some (item, rest)) :
    ∃ frame, F.IsFrame frame item ∧ bytes = frame ++ rest := by
  obtain ⟨frame, hne, hsplit, hmore⟩ := F.selfDelimiting h
  exact ⟨frame, ⟨hne, hmore⟩, hsplit⟩

theorem next_length {bytes rest : List β} {item : α}
    (h : F.next bytes = some (item, rest)) : rest.length < bytes.length := by
  obtain ⟨frame, hframe, rfl⟩ := next_split h
  have hpos : 0 < frame.length := List.length_pos_iff.mpr hframe.1
  rw [List.length_append]
  omega

variable (F)

/-- Take frames off the front until `next` finds none. -/
def drain (bytes : List β) : List α × List β :=
  match _h : F.next bytes with
  | none => ([], bytes)
  | some (item, rest) =>
      let (items, final) := drain rest
      (item :: items, final)
  termination_by bytes.length
  decreasing_by exact next_length _h

variable {F}

theorem drain_of_none {bytes : List β} (h : F.next bytes = none) :
    F.drain bytes = ([], bytes) := by
  rw [drain]
  split
  · rfl
  · rename_i heq
    rw [h] at heq
    cases heq

theorem drain_of_some {bytes rest : List β} {item : α}
    (h : F.next bytes = some (item, rest)) :
    F.drain bytes = (item :: (F.drain rest).1, (F.drain rest).2) := by
  rw [drain]
  split
  · rename_i heq
    rw [h] at heq
    cases heq
  · rename_i heq
    rw [h] at heq
    obtain ⟨rfl, rfl⟩ : item = _ ∧ rest = _ := by simpa using heq
    rfl

/-- What is drained is a concatenation of frames, and it stops exactly where
no further frame can be taken. -/
theorem drain_split (bytes : List β) :
    (∃ front, bytes = front ++ (F.drain bytes).2 ∧
      Concat F.IsFrame front (F.drain bytes).1) ∧
    F.next (F.drain bytes).2 = none := by
  induction hlen : bytes.length using Nat.strongRecOn generalizing bytes with
  | _ n ih =>
      cases hnext : F.next bytes with
      | none =>
          rw [drain_of_none hnext]
          exact ⟨⟨[], rfl, .nil⟩, hnext⟩
      | some pair =>
          obtain ⟨item, rest⟩ := pair
          have hshort : rest.length < n := hlen ▸ next_length hnext
          obtain ⟨⟨front, hfront, hconcat⟩, hstop⟩ := ih rest.length hshort rest rfl
          obtain ⟨frame, hframe, hsplit⟩ := next_split hnext
          rw [drain_of_some hnext]
          refine ⟨⟨frame ++ front, ?_, .cons hframe hconcat⟩, hstop⟩
          rw [hsplit, List.append_assoc, ← hfront]

theorem drain_length (bytes : List β) : (F.drain bytes).2.length ≤ bytes.length := by
  obtain ⟨⟨front, hfront, _⟩, _⟩ := F.drain_split bytes
  have hlen := congrArg List.length hfront
  rw [List.length_append] at hlen
  omega

/-- Frames at the front of the stream are drained first, whatever follows. -/
theorem drain_concat {bytes : List β} {items : List α}
    (h : Concat F.IsFrame bytes items) (more : List β) :
    F.drain (bytes ++ more) =
      (items ++ (F.drain more).1, (F.drain more).2) := by
  induction h with
  | nil => rfl
  | cons hframe _ ih =>
      rw [List.append_assoc, drain_of_some (hframe.2 _), ih, List.cons_append]

/-- Draining a concatenation drains its first part and carries on from what
that left behind. -/
theorem drain_append (bytes more : List β) :
    F.drain (bytes ++ more) =
      ((F.drain bytes).1 ++ (F.drain ((F.drain bytes).2 ++ more)).1,
        (F.drain ((F.drain bytes).2 ++ more)).2) := by
  obtain ⟨⟨front, hfront, hconcat⟩, _⟩ := F.drain_split bytes
  conv_lhs => rw [hfront, List.append_assoc, drain_concat hconcat]

theorem drain_longest (stream : List β) :
    Longest F.IsFrame stream (F.drain stream).1 (F.drain stream).2 where
  split := (F.drain_split stream).1
  longest := by
    intro bytes tail items' hstream hconcat
    rw [hstream, drain_concat hconcat]
    exact drain_length tail

variable (F)

/-- Decode a stream that arrives in chunks: each chunk joins what was left
over, and the frames completed by it are taken. -/
def feed (chunks : List (List β)) (pending : List β) : List α × List β :=
  match chunks with
  | [] => ([], pending)
  | chunk :: rest =>
      let (items, left) := F.drain (pending ++ chunk)
      let (items', final) := feed rest left
      (items ++ items', final)

variable {F}

/-- The cutting into chunks is invisible: the same items and the same
remainder as decoding the whole stream at once. -/
theorem feed_eq_drain (chunks : List (List β)) {pending : List β}
    (h : F.next pending = none) :
    F.feed chunks pending = F.drain (pending ++ chunks.flatten) := by
  induction chunks generalizing pending with
  | nil => simpa [feed] using (drain_of_none h).symm
  | cons chunk rest ih =>
      have hleft := (F.drain_split (pending ++ chunk)).2
      have hstep := ih hleft
      rw [List.flatten_cons, ← List.append_assoc, drain_append]
      simp only [feed, hstep]

end Framer

end Framing
