import MuduoRpc.Rpc.WireFormat

/-!
The class that `protoc` generates for `RpcMessage`. Its parser and its serializer are a
format of seven fields; a message holds bytes that the parser accepts if its names are
UTF-8 and its unknown fields are records that the parser does not know.
-/

namespace MuduoRpc.Protobuf

open Records Message

/-- The members of `Impl_` and the unknown field set. -/
structure RpcMessage (U : Type) where
  service_ : List UInt8
  method_ : List UInt8
  request_ : List UInt8
  response_ : List UInt8
  id_ : BitVec 64
  type_ : BitVec 32
  error_ : BitVec 32
  unknown_fields : List U

namespace RpcMessage

variable {U : Type}

def new : RpcMessage U where
  service_ := []
  method_ := []
  request_ := []
  response_ := []
  id_ := 0
  type_ := 0
  error_ := 0
  unknown_fields := []

section Fields

variable (rt : Runtime U)

def type : Message.Field (RpcMessage U) :=
  (Kind.enum rt).field 1 8 type_ fun message val => { message with type_ := val }

def id : Message.Field (RpcMessage U) :=
  (Kind.int64 rt).field 2 16 id_ fun message val => { message with id_ := val }

def service : Message.Field (RpcMessage U) :=
  (Kind.string rt).field 3 26 service_ fun message str => { message with service_ := str }

def method : Message.Field (RpcMessage U) :=
  (Kind.string rt).field 4 34 method_ fun message str => { message with method_ := str }

def request : Message.Field (RpcMessage U) :=
  (Kind.bytes rt).field 5 42 request_ fun message str => { message with request_ := str }

def response : Message.Field (RpcMessage U) :=
  (Kind.bytes rt).field 6 50 response_ fun message str => { message with response_ := str }

def error : Message.Field (RpcMessage U) :=
  (Kind.enum rt).field 7 56 error_ fun message val => { message with error_ := val }

def format : Format (RpcMessage U) U where
  readTag := rt.ReadTag
  consumes := rt.consumesTag
  fields := [type rt, id rt, service rt, method rt, request rt, response rt, error rt]
  readUnknown := rt.UnknownFieldParse
  delimitsUnknown := rt.delimitsUnknown
  writeUnknown := rt.SerializeUnknownField
  unknownFields := unknown_fields
  addUnknown message unknown :=
    { message with unknown_fields := message.unknown_fields ++ [unknown] }

/-- The parser ends at the end of the array, at the tag that ends a message, or fails. -/
def InternalParse (message : RpcMessage U) (bytes : List UInt8) :
    Outcome UInt8 (RpcMessage U) (BitVec 32) :=
  (format rt).loop.run message bytes

def InternalSerialize (message : RpcMessage U) : List UInt8 := (format rt).write message

/-- The fields in the order of the source, which is not the one they are written in. -/
def ByteSizeLong (message : RpcMessage U) : Nat :=
  sizeFields [service rt, method rt, request rt, response rt, id rt, type rt, error rt]
      message +
    (message.unknown_fields.map rt.UnknownFieldSize).sum

end Fields

def MergeImpl (target source : RpcMessage U) : RpcMessage U where
  service_ := if !source.service_.isEmpty then source.service_ else target.service_
  method_ := if !source.method_.isEmpty then source.method_ else target.method_
  request_ := if !source.request_.isEmpty then source.request_ else target.request_
  response_ := if !source.response_.isEmpty then source.response_ else target.response_
  id_ := if source.id_ ≠ 0 then source.id_ else target.id_
  type_ := if source.type_ ≠ 0 then source.type_ else target.type_
  error_ := if source.error_ ≠ 0 then source.error_ else target.error_
  unknown_fields := target.unknown_fields ++ source.unknown_fields

def Clear (_message : RpcMessage U) : RpcMessage U where
  service_ := []
  method_ := []
  request_ := []
  response_ := []
  id_ := 0
  type_ := 0
  error_ := 0
  unknown_fields := []

/-- What the base class of the runtime makes of the generated functions: whether the parse
succeeds, and the message that it leaves. -/
structure MessageLite (U : Type) where
  ParseFromArray : RpcMessage U → List UInt8 → Int → Bool × RpcMessage U

section Fields

variable (rt : Runtime U)

/-- As documented, for the sizes that an `int` holds: the message is cleared, and the array
has to be used up by one message. -/
structure MessageLite.Lawful (lite : MessageLite U) : Prop where
  parses : ∀ (target message : RpcMessage U) (data : List UInt8) (size : Nat),
    size < 2 ^ 31 → size ≤ data.length →
    (lite.ParseFromArray target data size = (true, message) ↔
      InternalParse rt (Clear target) (data.take size) = .ended message)

/-- The strings are not too long to be read, and an unknown field was read under a tag that
is no field's and ends no message. -/
structure WellFormed (message : RpcMessage U) : Prop where
  service : message.service_.length ≤ rt.maxSize
  method : message.method_.length ≤ rt.maxSize
  request : message.request_.length ≤ rt.maxSize
  response : message.response_.length ≤ rt.maxSize
  unknown : ∀ unknown ∈ message.unknown_fields, ∃ tag bytes rest,
    (format rt).field? tag = none ∧ ¬Format.EndsMessage tag ∧
      (rt.UnknownFieldParse tag).run bytes = some (unknown, rest)

def NamesVerify (message : RpcMessage U) : Prop :=
  rt.VerifyUTF8 message.service_ = true ∧ rt.VerifyUTF8 message.method_ = true

/-- What the parser makes. -/
def Valid (message : RpcMessage U) : Prop := WellFormed rt message ∧ NamesVerify rt message

end Fields

variable {rt : Runtime U}

theorem foldl_addUnknown (unknowns : List U) (message : RpcMessage U) :
    unknowns.foldl (format rt).addUnknown message =
      { message with unknown_fields := message.unknown_fields ++ unknowns } := by
  induction unknowns generalizing message with
  | nil => rw [List.foldl_nil, List.append_nil]
  | cons unknown unknowns ih =>
      rw [List.foldl_cons, ih]
      change ({ message with
        unknown_fields := message.unknown_fields ++ [unknown] ++ unknowns } : RpcMessage U) = _
      rw [List.append_assoc, List.singleton_append]

/-- The merge of the generated class is the one that reading performs: the fields are
assigned in another order. -/
theorem merge_eq (target source : RpcMessage U) :
    (format rt).merge target source = MergeImpl target source := by
  have hfields : mergeFields (format rt).fields target source =
      { MergeImpl target source with unknown_fields := target.unknown_fields } := by
    have hlist : (format rt).fields =
        [type rt, id rt, service rt, method rt, request rt, response rt, error rt] := rfl
    simp only [mergeFields, hlist, List.foldl_cons, List.foldl_nil]
    rw [type, Kind.field_merge fun _ => rfl, id, Kind.field_merge fun _ => rfl, service,
      Kind.field_merge fun _ => rfl, method, Kind.field_merge fun _ => rfl, request,
      Kind.field_merge fun _ => rfl, response, Kind.field_merge fun _ => rfl, error,
      Kind.field_merge fun _ => rfl]
    simp [MergeImpl, Kind.enum, Kind.int64, Kind.string, Kind.bytes]
  rw [Format.merge, hfields]
  exact foldl_addUnknown source.unknown_fields _

theorem format_lawful (h : rt.Lawful) : (format rt).Lawful (Valid rt) where
  fields := by
    have hfields : (format rt).fields =
        [type rt, id rt, service rt, method rt, request rt, response rt, error rt] := rfl
    simp only [hfields, List.forall_mem_cons, List.not_mem_nil, false_implies, implies_true,
      and_true]
    have henum := Kind.enum_lawful h
    have hstring := Kind.string_lawful h
    have hbytes := Kind.bytes_lawful h
    refine ⟨?type, ?id, ?service, ?method, ?request, ?response, ?error⟩
    case type =>
      exact Kind.field_lawful rfl henum (by decide) (by decide) rfl (fun _ _ => trivial)
        fun _ _ hvalid _ => ⟨{ hvalid.1 with }, hvalid.2⟩
    case id =>
      exact Kind.field_lawful rfl (Kind.int64_lawful h) (by decide) (by decide) rfl
        (fun _ _ => trivial) fun _ _ hvalid _ => ⟨{ hvalid.1 with }, hvalid.2⟩
    case service =>
      exact Kind.field_lawful rfl hstring (by decide) (by decide) rfl
        (fun _ hvalid => ⟨hvalid.2.1, hvalid.1.service⟩)
        fun _ _ hvalid hstr => ⟨{ hvalid.1 with service := hstr.2 }, hstr.1, hvalid.2.2⟩
    case method =>
      exact Kind.field_lawful rfl hstring (by decide) (by decide) rfl
        (fun _ hvalid => ⟨hvalid.2.2, hvalid.1.method⟩)
        fun _ _ hvalid hstr => ⟨{ hvalid.1 with method := hstr.2 }, hvalid.2.1, hstr.1⟩
    case request =>
      exact Kind.field_lawful rfl hbytes (by decide) (by decide) rfl
        (fun _ hvalid => hvalid.1.request)
        fun _ _ hvalid hstr => ⟨{ hvalid.1 with request := hstr }, hvalid.2⟩
    case response =>
      exact Kind.field_lawful rfl hbytes (by decide) (by decide) rfl
        (fun _ hvalid => hvalid.1.response)
        fun _ _ hvalid hstr => ⟨{ hvalid.1 with response := hstr }, hvalid.2⟩
    case error =>
      exact Kind.field_lawful rfl henum (by decide) (by decide) rfl (fun _ _ => trivial)
        fun _ _ hvalid _ => ⟨{ hvalid.1 with }, hvalid.2⟩
  readsUnknown source hvalid unknown hunknown rest := by
    obtain ⟨tag, bytes, rest', hfield, hends, hread⟩ := hvalid.1.unknown unknown hunknown
    obtain ⟨payload, htag, hpayload⟩ := h.writesUnknown tag bytes unknown rest' hread rest
    exact ⟨tag, payload, htag, hfield, hends, hpayload⟩
  keepsUnknown message tag bytes unknown rest hvalid hfield hends hread := by
    refine ⟨{ hvalid.1 with unknown := fun found hfound => ?_ }, hvalid.2⟩
    rcases List.mem_append.mp hfound with hold | hnew
    · exact hvalid.1.unknown found hold
    · rw [List.mem_singleton.mp hnew]
      exact ⟨tag, bytes, rest, hfield, hends, hread⟩

/-- The size that is computed is the number of bytes that are written. -/
theorem byteSizeLong_eq (h : rt.Lawful) (message : RpcMessage U) :
    ByteSizeLong rt message = (InternalSerialize rt message).length := by
  have hsizes : ∀ field ∈ (format rt).fields, field.present message = true →
      field.size message = (field.write message).length := by
    have hlist : (format rt).fields =
        [type rt, id rt, service rt, method rt, request rt, response rt, error rt] := rfl
    have henum := (Kind.enum_lawful h).sizes
    have hstring := (Kind.string_lawful h).sizes
    have hbytes := (Kind.bytes_lawful h).sizes
    simp only [hlist, List.forall_mem_cons, List.not_mem_nil, false_implies, implies_true,
      and_true]
    exact ⟨fun _ => henum 1 _ (by decide) (by decide),
      fun _ => (Kind.int64_lawful h).sizes 2 _ (by decide) (by decide),
      fun _ => hstring 3 _ (by decide) (by decide), fun _ => hstring 4 _ (by decide) (by decide),
      fun _ => hbytes 5 _ (by decide) (by decide), fun _ => hbytes 6 _ (by decide) (by decide),
      fun _ => henum 7 _ (by decide) (by decide)⟩
  have horder : [service rt, method rt, request rt, response rt, id rt, type rt, error rt].Perm
      (format rt).fields := by
    have hfront : [service rt, method rt, request rt, response rt, id rt, type rt].Perm
        [type rt, id rt, service rt, method rt, request rt, response rt] :=
      (List.perm_append_comm : ([service rt, method rt, request rt, response rt] ++
        [id rt, type rt]).Perm _).trans (.swap _ _ _)
    exact hfront.append_right [error rt]
  have hunknown : (message.unknown_fields.map rt.UnknownFieldSize).sum =
      (message.unknown_fields.flatMap rt.SerializeUnknownField).length := by
    rw [List.length_flatMap]
    exact congrArg List.sum (List.map_congr_left fun unknown _ => h.sizesUnknown unknown)
  rw [ByteSizeLong, sizeFields_perm horder, sizeFields_eq hsizes, hunknown, InternalSerialize,
    Format.write, List.length_append]
  rfl

theorem mergeImpl_new (message : RpcMessage U) : MergeImpl new message = message := by
  have hstring (str : List UInt8) : (if !str.isEmpty then str else []) = str := by
    cases str <;> rfl
  have hnumber {w : Nat} (val : BitVec w) : (if val ≠ 0 then val else 0) = val := by
    split_ifs with h
    · rfl
    · exact (not_ne_iff.mp h).symm
  simp only [MergeImpl, new, hstring, hnumber, List.nil_append]

theorem new_valid (h : rt.Lawful) : Valid rt new := by
  have hempty := Runtime.verifies_nil h
  refine ⟨⟨Nat.zero_le _, Nat.zero_le _, Nat.zero_le _, Nat.zero_le _, ?_⟩, hempty, hempty⟩
  intro unknown hunknown
  cases hunknown

/-- What the parser accepts makes a valid message. -/
theorem valid_of_internalParse (h : rt.Lawful) {message : RpcMessage U} {bytes : List UInt8}
    (hparse : InternalParse rt new bytes = .ended message) : Valid rt message :=
  Format.valid_of_ended (format_lawful h) (new_valid h) hparse

/-- An encoding behind bytes that are accepted is merged into what those bytes make. -/
theorem internalParse_append (h : rt.Lawful) {first second : RpcMessage U} {bytes : List UInt8}
    (hfirst : InternalParse rt new bytes = .ended first) (hsecond : Valid rt second) :
    InternalParse rt new (bytes ++ InternalSerialize rt second) =
      .ended (MergeImpl first second) :=
  calc InternalParse rt new (bytes ++ InternalSerialize rt second)
      = InternalParse rt first (InternalSerialize rt second) :=
        Loop.run_append (L := (format rt).loop) hfirst _
    _ = .ended ((format rt).merge first second) :=
        Format.run_write (format_lawful h) hsecond first
    _ = .ended (MergeImpl first second) := by rw [merge_eq]

theorem internalParse_serialize (h : rt.Lawful) {message : RpcMessage U}
    (hmessage : Valid rt message) :
    InternalParse rt new (InternalSerialize rt message) = .ended message := by
  have hempty : InternalParse rt new [] = .ended new := Loop.run_nil (L := (format rt).loop)
  have happend := internalParse_append h hempty hmessage
  rwa [List.nil_append, mergeImpl_new] at happend

theorem internalParse_encodings (h : rt.Lawful) {first : RpcMessage U} {bytes : List UInt8}
    (hfirst : InternalParse rt new bytes = .ended first) {messages : List (RpcMessage U)}
    (hmessages : ∀ message ∈ messages, Valid rt message) :
    InternalParse rt new (bytes ++ messages.flatMap (InternalSerialize rt)) =
      .ended (messages.foldl MergeImpl first) := by
  induction messages generalizing bytes first with
  | nil => simpa using hfirst
  | cons message messages ih =>
      rw [List.forall_mem_cons] at hmessages
      have hrest := ih (internalParse_append h hfirst hmessages.1) hmessages.2
      rwa [List.append_assoc] at hrest

theorem length_encodings (h : rt.Lawful) (messages : List (RpcMessage U)) :
    (messages.flatMap (InternalSerialize rt)).length = (messages.map (ByteSizeLong rt)).sum := by
  rw [List.length_flatMap]
  exact congrArg List.sum (List.map_congr_left fun message _ => (byteSizeLong_eq h message).symm)

/-- The base class of a runtime, by its documentation. -/
def messageLite (rt : Runtime U) : MessageLite U where
  ParseFromArray message data size :=
    match InternalParse rt (Clear message) (data.take size.toNat) with
    | .ended message => (true, message)
    | _ => (false, Clear message)

theorem messageLite_lawful : (messageLite rt).Lawful rt where
  parses target message data size _ _ := by
    simp only [messageLite, Int.toNat_natCast]
    cases InternalParse rt (Clear target) (data.take size) <;> simp

/-- A request with an unknown field. -/
def echoCall : RpcMessage WireFormat.UnknownField :=
  { (new : RpcMessage WireFormat.UnknownField) with
    id_ := 7
    service_ := "EchoService".toUTF8.data.toList
    method_ := "Echo".toUTF8.data.toList
    request_ := [18, 1, 97]
    unknown_fields := [.varint 64 300] }

theorem echoCall_wellFormed : WellFormed WireFormat.runtime echoCall := by
  refine ⟨by decide, by decide, by decide, by decide, fun unknown hunknown => ?_⟩
  cases List.mem_singleton.mp hunknown
  exact ⟨64, [172, 2], [], rfl, by decide, rfl⟩

theorem echoCall_valid : Valid WireFormat.runtime echoCall :=
  ⟨echoCall_wellFormed, Runtime.verifies_string WireFormat.runtime_lawful _,
    Runtime.verifies_string WireFormat.runtime_lawful _⟩

variable {lite : MessageLite U}

/-- All of the array. -/
theorem parseFromArray_iff (hlite : lite.Lawful rt) {target message : RpcMessage U}
    {data : List UInt8} (hsize : data.length < 2 ^ 31) :
    lite.ParseFromArray target data data.length = (true, message) ↔
      InternalParse rt new data = .ended message := by
  have hparses := hlite.parses target message data data.length hsize (Nat.le_refl _)
  rwa [List.take_length] at hparses

theorem valid_of_parseFromArray (h : rt.Lawful) (hlite : lite.Lawful rt)
    {target message : RpcMessage U} {data : List UInt8} {size : Nat} (hsize : size < 2 ^ 31)
    (hcover : size ≤ data.length)
    (hparse : lite.ParseFromArray target data size = (true, message)) : Valid rt message :=
  valid_of_internalParse h ((hlite.parses target message data size hsize hcover).mp hparse)

theorem parseFromArray_serialize (h : rt.Lawful) (hlite : lite.Lawful rt)
    {message : RpcMessage U} (hmessage : Valid rt message)
    (hsize : ByteSizeLong rt message < 2 ^ 31) (target : RpcMessage U) (behind : List UInt8) :
    lite.ParseFromArray target (InternalSerialize rt message ++ behind)
      (ByteSizeLong rt message) = (true, message) := by
  have hlength := byteSizeLong_eq h message
  refine (hlite.parses _ _ _ _ hsize ?_).mpr ?_
  · rw [List.length_append, hlength]
    omega
  · rw [hlength, List.take_left]
    exact internalParse_serialize h hmessage

/-- The encodings of any number of messages behind bytes that are accepted are merged one
after the other into what those bytes make, as long as all of them fit into an array. -/
theorem parseFromArray_encodings (h : rt.Lawful) (hlite : lite.Lawful rt)
    {target first : RpcMessage U} {data : List UInt8}
    (hdata : lite.ParseFromArray target data data.length = (true, first))
    {messages : List (RpcMessage U)} (hmessages : ∀ message ∈ messages, Valid rt message)
    (hsize : data.length + (messages.map (ByteSizeLong rt)).sum < 2 ^ 31) :
    lite.ParseFromArray target (data ++ messages.flatMap (InternalSerialize rt))
      (data.length + (messages.map (ByteSizeLong rt)).sum : Nat) =
        (true, messages.foldl MergeImpl first) := by
  have hlength : data.length + (messages.map (ByteSizeLong rt)).sum =
      (data ++ messages.flatMap (InternalSerialize rt)).length := by
    rw [List.length_append, length_encodings h]
  have hfirst := (parseFromArray_iff hlite (by omega)).mp hdata
  rw [hlength] at hsize ⊢
  exact (parseFromArray_iff hlite hsize).mpr (internalParse_encodings h hfirst hmessages)

/-- The statement behind two records of one field. -/
theorem parseFromArray_encodings_twice :
    (messageLite WireFormat.runtime).ParseFromArray new
        ([16, 1, 16, 2] ++ [echoCall].flatMap (InternalSerialize WireFormat.runtime))
        (([16, 1, 16, 2] : List UInt8).length +
          ([echoCall].map (ByteSizeLong WireFormat.runtime)).sum : Nat) =
      (true, [echoCall].foldl MergeImpl { new with id_ := 2 }) := by
  have hfirst : InternalParse WireFormat.runtime new [16, 1, 16, 2] =
      .ended { new with id_ := 2 } :=
    (Loop.run_of_next (L := (format WireFormat.runtime).loop) rfl).trans <|
      (Loop.run_of_next (L := (format WireFormat.runtime).loop) rfl).trans <|
        Loop.run_nil (L := (format WireFormat.runtime).loop)
  refine parseFromArray_encodings WireFormat.runtime_lawful messageLite_lawful
    ((parseFromArray_iff messageLite_lawful (by decide)).mpr hfirst) ?_ (by decide)
  intro message hmessage
  cases List.mem_singleton.mp hmessage
  exact echoCall_valid

/-- A writer may put the fields into any order. -/
theorem parseFromArray_perm (h : rt.Lawful) (hlite : lite.Lawful rt) {message : RpcMessage U}
    (hmessage : Valid rt message) (hsize : ByteSizeLong rt message < 2 ^ 31)
    {fields : List (Message.Field (RpcMessage U))} (hfields : (format rt).fields.Perm fields)
    (target : RpcMessage U) :
    let data := writeFields fields message ++
      message.unknown_fields.flatMap rt.SerializeUnknownField
    lite.ParseFromArray target data data.length = (true, message) := by
  intro data
  have hcomm : ∀ field ∈ (format rt).fields, ∀ field' ∈ (format rt).fields, ∀ target source,
      field'.copy (field.copy target source) source =
        field.copy (field'.copy target source) source := by
    have hlist : (format rt).fields =
        [type rt, id rt, service rt, method rt, request rt, response rt, error rt] := rfl
    simp only [hlist, List.forall_mem_cons, List.not_mem_nil, false_implies, implies_true,
      and_true]
    and_intros <;> intros <;> trivial
  have hlength : data.length = ByteSizeLong rt message := by
    rw [byteSizeLong_eq h, List.length_append, ← (writeFields_perm hfields message).length_eq]
    exact List.length_append.symm
  refine (parseFromArray_iff hlite (hlength ▸ hsize)).mpr ?_
  calc InternalParse rt new data
      = .ended ((format rt).merge new message) :=
        Format.run_write_perm (format_lawful h) hmessage hfields hcomm new
    _ = .ended message := by rw [merge_eq, mergeImpl_new]

theorem parseFromArray_perm_reverse :
    let data := writeFields (format WireFormat.runtime).fields.reverse echoCall ++
      echoCall.unknown_fields.flatMap WireFormat.runtime.SerializeUnknownField
    (messageLite WireFormat.runtime).ParseFromArray new data data.length = (true, echoCall) :=
  parseFromArray_perm WireFormat.runtime_lawful messageLite_lawful echoCall_valid (by decide)
    (List.reverse_perm _).symm new

/-- An encoding that fits into an array is read back exactly if the names of the message are
UTF-8. -/
theorem parseFromArray_serialize_iff (h : rt.Lawful) (hlite : lite.Lawful rt)
    {message : RpcMessage U} (hmessage : WellFormed rt message)
    (hsize : ByteSizeLong rt message < 2 ^ 31) (target : RpcMessage U) (behind : List UInt8) :
    lite.ParseFromArray target (InternalSerialize rt message ++ behind)
      (ByteSizeLong rt message) = (true, message) ↔ NamesVerify rt message := by
  constructor
  · intro hparse
    refine (valid_of_parseFromArray h hlite hsize ?_ hparse).2
    rw [List.length_append, byteSizeLong_eq h]
    omega
  · intro hnames
    exact parseFromArray_serialize h hlite ⟨hmessage, hnames⟩ hsize target behind

/-- The statement at a name that is no UTF-8. -/
theorem parseFromArray_serialize_iff_255 :
    let message := { echoCall with service_ := [255] }
    (messageLite WireFormat.runtime).ParseFromArray new
        (InternalSerialize WireFormat.runtime message ++ [0])
        (ByteSizeLong WireFormat.runtime message) = (true, message) ↔
      NamesVerify WireFormat.runtime message := by
  have hmessage : WellFormed WireFormat.runtime { echoCall with service_ := [255] } :=
    { echoCall_wellFormed with service := by decide }
  exact parseFromArray_serialize_iff WireFormat.runtime_lawful messageLite_lawful hmessage
    (by decide) new [0]

/-- What is accepted can be encoded and read again, with its unknown fields, unless the
encoding is too long for an array. -/
theorem parseFromArray_reencode (h : rt.Lawful) (hlite : lite.Lawful rt)
    {target message : RpcMessage U} {data : List UInt8} {size : Nat} (hsize : size < 2 ^ 31)
    (hcover : size ≤ data.length)
    (hparse : lite.ParseFromArray target data size = (true, message))
    (hencoded : ByteSizeLong rt message < 2 ^ 31) (target' : RpcMessage U)
    (behind : List UInt8) :
    lite.ParseFromArray target' (InternalSerialize rt message ++ behind)
      (ByteSizeLong rt message) = (true, message) :=
  parseFromArray_serialize h hlite (valid_of_parseFromArray h hlite hsize hcover hparse) hencoded
    target' behind

theorem parseFromArray_reencode_echoCall :
    (messageLite WireFormat.runtime).ParseFromArray new
        (InternalSerialize WireFormat.runtime echoCall ++ [0])
        (ByteSizeLong WireFormat.runtime echoCall) = (true, echoCall) := by
  have hsize : ByteSizeLong WireFormat.runtime echoCall < 2 ^ 31 := by decide
  have hparse := parseFromArray_serialize WireFormat.runtime_lawful messageLite_lawful
    echoCall_valid hsize new []
  refine parseFromArray_reencode WireFormat.runtime_lawful messageLite_lawful hsize ?_ hparse
    hsize new [0]
  rw [List.append_nil, byteSizeLong_eq WireFormat.runtime_lawful]

end RpcMessage

end MuduoRpc.Protobuf
