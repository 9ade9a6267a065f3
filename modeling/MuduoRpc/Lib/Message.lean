import Mathlib.Algebra.BigOperators.Group.List.Basic
import Mathlib.Algebra.GroupWithZero.Nat
import MuduoRpc.Lib.Records

/-!
Messages written field by field. A field with its default value is not written; every
other one is a record of its own, a tag and the value. The loop that reads a message looks
the tag up among the fields and keeps records that it does not know, so that they can be
written again. Reading what was written for a message merges that message into the one at
hand.
-/

namespace Message

open Records

/-- A field of a message: the case and the byte of its tag, the reader of its value, when
it is written and how, and its assignment from another message. -/
structure Field (M : Type) where
  number : BitVec 32
  tag : BitVec 8
  parse : M → Reader UInt8 M
  delimits : ∀ message, Delimits (parse message)
  present : M → Bool
  write : M → List UInt8
  size : M → Nat
  copy : (target source : M) → M

section Fields

variable {M : Type} (fields : List (Field M))

def writeFields (message : M) : List UInt8 :=
  fields.flatMap fun field => if field.present message then field.write message else []

def sizeFields (message : M) : Nat :=
  (fields.map fun field => if field.present message then field.size message else 0).sum

def mergeFields (target source : M) : M :=
  fields.foldl
    (fun target field => if field.present source then field.copy target source else target) target

variable {fields}

theorem sizeFields_eq {message : M} (h : ∀ field ∈ fields, field.present message = true →
    field.size message = (field.write message).length) :
    sizeFields fields message = (writeFields fields message).length := by
  rw [sizeFields, writeFields, List.length_flatMap]
  refine congrArg List.sum (List.map_congr_left fun field hfield => ?_)
  split_ifs with hpresent
  · exact h field hfield hpresent
  · rfl

theorem sizeFields_perm {fields' : List (Field M)} (h : fields.Perm fields') (message : M) :
    sizeFields fields message = sizeFields fields' message :=
  (h.map _).sum_eq

theorem writeFields_perm {fields' : List (Field M)} (h : fields.Perm fields') (message : M) :
    (writeFields fields message).Perm (writeFields fields' message) :=
  h.flatMap_right _

/-- Fields that assign independently of each other are merged in any order. -/
theorem mergeFields_perm {fields' : List (Field M)} (h : fields.Perm fields')
    (hcomm : ∀ field ∈ fields, ∀ field' ∈ fields, ∀ target source,
      field'.copy (field.copy target source) source = field.copy (field'.copy target source) source)
    (target source : M) :
    mergeFields fields target source = mergeFields fields' target source := by
  refine h.foldl_eq' (fun field hfield field' hfield' target => ?_) target
  have hswap := hcomm field hfield field' hfield' target source
  split_ifs
  · exact hswap
  all_goals rfl

end Fields

/-- The fields in the order in which they are written, the reader of tags, and the
records of other tags. -/
structure Format (M U : Type) where
  readTag : Reader UInt8 (BitVec 32)
  consumes : ∀ bytes tag rest, readTag.run bytes = some (tag, rest) →
    ∃ taken, taken ≠ [] ∧ bytes = taken ++ rest ∧
      ∀ more, readTag.run (taken ++ more) = some (tag, more)
  fields : List (Field M)
  readUnknown : BitVec 32 → Reader UInt8 U
  delimitsUnknown : ∀ tag, Delimits (readUnknown tag)
  writeUnknown : U → List UInt8
  unknownFields : M → List U
  addUnknown : M → U → M

namespace Format

variable {M U : Type} (F : Format M U)

/-- A `switch` on the number in the tag, with a test of the whole tag in each case. -/
def field? (tag : BitVec 32) : Option (Field M) :=
  (F.fields.find? fun field => field.number = tag >>> 3).filter fun field =>
    field.tag = tag.setWidth 8

/-- No field has this tag: it ends the message, or else its record is kept. -/
def EndsMessage (tag : BitVec 32) : Prop := tag = 0 ∨ tag &&& 7 = 4

instance (tag : BitVec 32) : Decidable (EndsMessage tag) :=
  inferInstanceAs (Decidable (_ ∨ _))

def turn (message : M) (bytes : List UInt8) : Turn UInt8 M (BitVec 32) :=
  match F.readTag.run bytes with
  | none => .fail
  | some (tag, rest) =>
      match F.field? tag with
      | some field =>
          match (field.parse message).run rest with
          | some (message, rest) => .next message rest
          | none => .fail
      | none =>
          if EndsMessage tag then .stop message tag rest
          else
            match (F.readUnknown tag).run rest with
            | some (unknown, rest) => .next (F.addUnknown message unknown) rest
            | none => .fail

variable {F} {message message' : M} {bytes rest : List UInt8}

/-- A record that has been read is one of a field, or one of an unknown tag. -/
theorem turn_eq_next : F.turn message bytes = .next message' rest ↔
    ∃ tag payload, F.readTag.run bytes = some (tag, payload) ∧
      ((∃ field, F.field? tag = some field ∧
          (field.parse message).run payload = some (message', rest)) ∨
        (F.field? tag = none ∧ ¬EndsMessage tag ∧ ∃ unknown,
          (F.readUnknown tag).run payload = some (unknown, rest) ∧
            message' = F.addUnknown message unknown)) := by
  constructor
  · intro h
    unfold turn at h
    split at h
    · cases h
    · rename_i tag payload htag
      refine ⟨tag, payload, htag, ?_⟩
      split at h
      · rename_i field hfield
        split at h
        · rename_i hparse
          cases h
          exact .inl ⟨field, hfield, hparse⟩
        · cases h
      · rename_i hfield
        split_ifs at h with hends
        split at h
        · rename_i unknown _ hunknown
          cases h
          exact .inr ⟨hfield, hends, unknown, hunknown, rfl⟩
        · cases h
  · rintro ⟨tag, payload, htag, ⟨field, hfield, hparse⟩ | ⟨hfield, hends, unknown, hunknown, rfl⟩⟩
    · simp only [turn, htag, hfield, hparse]
    · simp only [turn, htag, hfield, if_neg hends, hunknown]

variable (F)

def loop : Loop UInt8 M (BitVec 32) where
  turn := F.turn
  selfDelimiting h := by
    obtain ⟨tag, payload, htag, hrecord⟩ := turn_eq_next.mp h
    obtain ⟨taken, hfull, rfl, hmore⟩ := F.consumes _ _ _ htag
    have happend (value rest : List UInt8) : taken ++ value ++ rest = taken ++ (value ++ rest) :=
      List.append_assoc _ _ _
    rcases hrecord with ⟨field, hfield, hparse⟩ | ⟨hfield, hends, unknown, hunknown, rfl⟩
    · obtain ⟨value, rfl, hvalue⟩ := field.delimits _ _ _ _ hparse
      refine ⟨taken ++ value, by simp [hfull], (happend _ _).symm, fun more => ?_⟩
      rw [happend]
      exact turn_eq_next.mpr ⟨tag, _, hmore _, .inl ⟨field, hfield, hvalue more⟩⟩
    · obtain ⟨value, rfl, hvalue⟩ := F.delimitsUnknown _ _ _ _ hunknown
      refine ⟨taken ++ value, by simp [hfull], (happend _ _).symm, fun more => ?_⟩
      rw [happend]
      exact turn_eq_next.mpr
        ⟨tag, _, hmore _, .inr ⟨hfield, hends, unknown, hvalue more, rfl⟩⟩

def write (message : M) : List UInt8 :=
  writeFields F.fields message ++ (F.unknownFields message).flatMap F.writeUnknown

/-- Takes the written fields of `source`, and its unknown records behind those of `target`. -/
def merge (target source : M) : M :=
  (F.unknownFields source).foldl F.addUnknown (mergeFields F.fields target source)

/-- The field is read as it was written in a valid message, and a message stays valid when
the field is read into it. -/
structure LawfulField (Valid : M → Prop) (field : Field M) : Prop where
  reads : ∀ source, Valid source → field.present source = true → ∀ rest,
    ∃ tag payload, F.readTag.run (field.write source ++ rest) = some (tag, payload) ∧
      F.field? tag = some field ∧
      ∀ target, (field.parse target).run payload = some (field.copy target source, rest)
  keeps : ∀ message bytes message' rest, Valid message →
    (field.parse message).run bytes = some (message', rest) → Valid message'

/-- What the readers and writers of a format have to do with each other, for messages that
are valid. -/
structure Lawful (Valid : M → Prop) : Prop where
  fields : ∀ field ∈ F.fields, F.LawfulField Valid field
  readsUnknown : ∀ source, Valid source → ∀ unknown ∈ F.unknownFields source, ∀ rest,
    ∃ tag payload, F.readTag.run (F.writeUnknown unknown ++ rest) = some (tag, payload) ∧
      F.field? tag = none ∧ ¬EndsMessage tag ∧
      (F.readUnknown tag).run payload = some (unknown, rest)
  keepsUnknown : ∀ message tag bytes unknown rest, Valid message → F.field? tag = none →
    ¬EndsMessage tag → (F.readUnknown tag).run bytes = some (unknown, rest) →
    Valid (F.addUnknown message unknown)

variable {F} {Valid : M → Prop}

theorem mem_of_field? {tag : BitVec 32} {field : Field M} (h : F.field? tag = some field) :
    field ∈ F.fields := by
  obtain ⟨hfind, _⟩ := Option.filter_eq_some_iff.mp h
  exact List.mem_of_find?_eq_some hfind

theorem run_writeFields (h : F.Lawful Valid) {source : M} (hvalid : Valid source)
    {fields : List (Field M)} (hfields : fields ⊆ F.fields) (target : M) (rest : List UInt8) :
    F.loop.run target (writeFields fields source ++ rest) =
      F.loop.run (mergeFields fields target source) rest := by
  induction fields generalizing target with
  | nil => rfl
  | cons field fields ih =>
      have hrest := ih (List.subset_of_cons_subset hfields)
      rw [writeFields, List.flatMap_cons, mergeFields, List.foldl_cons]
      split_ifs with hpresent
      · obtain ⟨tag, payload, htag, hfield, hparse⟩ :=
          (h.fields field (hfields List.mem_cons_self)).reads source hvalid hpresent
            (writeFields fields source ++ rest)
        rw [List.append_assoc]
        refine (Loop.run_of_next (L := F.loop) ?_).trans (hrest (field.copy target source))
        exact turn_eq_next.mpr ⟨tag, payload, htag, .inl ⟨field, hfield, hparse target⟩⟩
      · exact hrest target

theorem run_writeUnknown (h : F.Lawful Valid) {source : M} (hvalid : Valid source)
    {unknowns : List U} (hunknowns : unknowns ⊆ F.unknownFields source) (target : M)
    (rest : List UInt8) :
    F.loop.run target (unknowns.flatMap F.writeUnknown ++ rest) =
      F.loop.run (unknowns.foldl F.addUnknown target) rest := by
  induction unknowns generalizing target with
  | nil => rfl
  | cons unknown unknowns ih =>
      obtain ⟨tag, payload, htag, hfield, hends, hread⟩ := h.readsUnknown source hvalid unknown
        (hunknowns List.mem_cons_self) (unknowns.flatMap F.writeUnknown ++ rest)
      rw [List.flatMap_cons, List.append_assoc, List.foldl_cons,
        ← ih (List.subset_of_cons_subset hunknowns)]
      refine Loop.run_of_next (L := F.loop) ?_
      exact turn_eq_next.mpr ⟨tag, payload, htag, .inr ⟨hfield, hends, unknown, hread, rfl⟩⟩

/-- Reading what is written for a message merges it into the message at hand. -/
theorem run_write (h : F.Lawful Valid) {source : M} (hvalid : Valid source) (target : M) :
    F.loop.run target (F.write source) = .ended (F.merge target source) := by
  have hunknown := run_writeUnknown h hvalid (List.Subset.refl _)
    (mergeFields F.fields target source) []
  rw [List.append_nil] at hunknown
  rw [write, run_writeFields h hvalid (List.Subset.refl _), hunknown, Loop.run_nil, merge]

/-- The same of a writer that puts the fields into another order. -/
theorem run_write_perm (h : F.Lawful Valid) {source : M} (hvalid : Valid source)
    {fields : List (Field M)} (hperm : F.fields.Perm fields)
    (hcomm : ∀ field ∈ F.fields, ∀ field' ∈ F.fields, ∀ target source,
      field'.copy (field.copy target source) source = field.copy (field'.copy target source) source)
    (target : M) :
    F.loop.run target (writeFields fields source ++
      (F.unknownFields source).flatMap F.writeUnknown) = .ended (F.merge target source) := by
  have hunknown := run_writeUnknown h hvalid (List.Subset.refl _)
    (mergeFields F.fields target source) []
  rw [List.append_nil] at hunknown
  rw [run_writeFields h hvalid hperm.symm.subset, ← mergeFields_perm hperm hcomm, hunknown,
    Loop.run_nil, merge]

theorem valid_of_turn (h : F.Lawful Valid) (hvalid : Valid message)
    (hturn : F.turn message bytes = .next message' rest) : Valid message' := by
  obtain ⟨tag, payload, _, hrecord⟩ := turn_eq_next.mp hturn
  rcases hrecord with ⟨field, hfield, hparse⟩ | ⟨hfield, hends, unknown, hunknown, rfl⟩
  · exact (h.fields field (mem_of_field? hfield)).keeps _ _ _ _ hvalid hparse
  · exact h.keepsUnknown _ _ _ _ _ hvalid hfield hends hunknown

theorem valid_of_ended (h : F.Lawful Valid) (hvalid : Valid message)
    (hrun : F.loop.run message bytes = .ended message') : Valid message' :=
  Loop.run_invariant hvalid (fun _ _ _ _ ht hturn => valid_of_turn h ht hturn) hrun

end Format

end Message
