import MuduoRpc.Lib.Framing
import MuduoRpc.Lib.Records

/-!
Frames with their length in front: a header of a fixed width that says how long the body
is, and a body that decodes to an item or is refused.
-/

namespace LengthPrefix

universe u

open Records Framing

structure Format (β α : Type u) where
  width : Nat
  positive : 0 < width
  length : List β → Nat
  decode : List β → Option α

namespace Format

variable {β α : Type u} (F : Format β α)

def read : Reader β α := do
  let header ← takeExactly F.width
  let body ← takeExactly (F.length header)
  match F.decode body with
  | some item => pure item
  | none => failure

variable {F}

theorem read_eq_some {bytes rest : List β} {item : α} :
    F.read.run bytes = some (item, rest) ↔ ∃ header body, header.length = F.width ∧
      body.length = F.length header ∧ F.decode body = some item ∧
        bytes = header ++ body ++ rest := by
  constructor
  · intro h
    obtain ⟨header, middle, hheader, hmiddle⟩ := run_bind_eq_some.mp h
    obtain ⟨body, rest', hbody, hitem⟩ := run_bind_eq_some.mp hmiddle
    obtain ⟨hwidth, rfl⟩ := takeExactly_eq_some.mp hheader
    obtain ⟨hlength, rfl⟩ := takeExactly_eq_some.mp hbody
    cases hdecode : F.decode body with
    | none =>
        rw [hdecode] at hitem
        cases hitem
    | some found =>
        rw [hdecode] at hitem
        cases hitem
        exact ⟨header, body, hwidth, hlength, hdecode, (List.append_assoc _ _ _).symm⟩
  · rintro ⟨header, body, hwidth, hlength, hdecode, rfl⟩
    refine run_bind_eq_some.mpr ⟨header, body ++ rest, ?_, ?_⟩
    · exact takeExactly_eq_some.mpr ⟨hwidth, List.append_assoc _ _ _⟩
    · refine run_bind_eq_some.mpr ⟨body, rest, takeExactly_eq_some.mpr ⟨hlength, rfl⟩, ?_⟩
      rw [hdecode]
      rfl

variable (F)

def framer : Framer β α where
  next := F.read.run
  selfDelimiting h := by
    obtain ⟨header, body, hwidth, hlength, hdecode, rfl⟩ := read_eq_some.mp h
    refine ⟨header ++ body, ?_, rfl, fun more => ?_⟩
    · apply List.append_ne_nil_of_left_ne_nil
      apply List.ne_nil_of_length_pos
      rw [hwidth]
      exact F.positive
    · exact read_eq_some.mpr ⟨header, body, hwidth, hlength, hdecode, rfl⟩

variable {F}

/-- A header with the length of a body that decodes, and the body. -/
theorem framer_isFrame {header body : List β} {item : α} (hwidth : header.length = F.width)
    (hlength : F.length header = body.length) (hdecode : F.decode body = some item) :
    F.framer.IsFrame (header ++ body) item := by
  refine ⟨?_, fun more => read_eq_some.mpr ⟨header, body, hwidth, hlength.symm, hdecode, rfl⟩⟩
  apply List.append_ne_nil_of_left_ne_nil
  apply List.ne_nil_of_length_pos
  rw [hwidth]
  exact F.positive

end Format

end LengthPrefix
