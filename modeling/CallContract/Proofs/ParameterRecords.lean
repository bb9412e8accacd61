import CallContract.Proofs.Requests

/-!
# The schema of parameters and the node of their record

Parameters by position are encoded as the fields of a record, error for error, and their schema is
the node of that record without a list of required names that is empty. A node without such a list
requires all its properties, and one with an empty list none; but only properties without a default
are concerned, and a record that requires no names has none of these: the two are decoded alike.

* `Node.withoutEmptyRequired` leaves the list out.
* `decodeProperties_congr`: the list of required names matters only by the fields that it makes.
  `decodeField_of_default`: it makes no difference for a property with a default.
* `decode_withoutEmptyRequired` puts these together for the node of any record.
* `parametersSchema_of_positional` and `parametersSchema_of_variadic` are the cases for parameters.
-/

namespace CallContract

open Node (HasPlainType)

/-- A node but for a list of required names that is empty. -/
def Node.withoutEmptyRequired : Json → Json
  | .obj fields => .obj (fields.filter fun p => decide (p ≠ ("required", .arr [])))
  | other => other

theorem Node.withoutEmptyRequired_record (properties : List (String × Json))
    (required : List String) :
    withoutEmptyRequired (record properties required) =
      .obj (requestParts properties required) := by
  cases required <;> simp [withoutEmptyRequired, record, requestParts]

/-! ## Lists of required names -/

/-- A property with a default makes the same field whatever names are required. -/
theorem decodeField_of_default {node value : Json} (found : node.get? "default" = some value)
    (required required' : Option (List String)) (name : String) (t : Descriptor) :
    decodeField required name node t = decodeField required' name node t := by
  rw [decodeField, decodeField, found]
  cases value <;> rfl

/-- Properties are decoded alike by two lists of required names that make the same fields of
them. -/
theorem decodeProperties_congr {required required' : Option (List String)}
    {properties : List (String × Json)} (name : String) (place : Pointer)
    (same : ∀ p ∈ properties, ∀ t,
      decodeField required p.1 p.2 t = decodeField required' p.1 p.2 t) :
    decodeProperties name place required properties =
      decodeProperties name place required' properties := by
  induction properties with
  | nil => rw [decodeProperties, decodeProperties]
  | cons property rest ih =>
    rcases property with ⟨key, node⟩
    rcases List.forall_mem_cons.1 same with ⟨first, others⟩
    rw [decodeProperties, decodeProperties, ih others]
    simp only [first]

/-- If no field has to be given, each property has a default. -/
theorem exists_default_of_requiredNames {fields : List (Field Descriptor)}
    {properties : List (String × Json)}
    (related : List.Forall₂ Field.EncodesAs fields properties)
    (none : Field.requiredNames fields = []) :
    ∀ p ∈ Keyed.ofPairs properties, ∃ value, p.2.get? "default" = some value := by
  intro p member
  rcases related.exists_of_mem_right (Keyed.mem_ofPairs member) with
    ⟨f, there, _, node, encoded, value⟩
  have given : ¬ f.isRequired = true :=
    List.filter_eq_nil_iff.1 (List.map_eq_nil_iff.1 none) f there
  rw [Field.isRequired, Option.isNone_iff_eq_none] at given
  rw [value, Node.get?_withDefault_self (isUndefaulted_of_encode encoded)]
  exact Option.ne_none_iff_exists'.1 given

/-! ## Nodes of records -/

/-- A document that has properties is decoded by these and by the names that it requires. -/
theorem decode_of_properties {fields properties : List (String × Json)}
    {required : Option (List String)} (typed : HasPlainType "object" fields)
    (unmarked : Node.isMarked "is_file_data" fields = false)
    (properties_eq : Keyed.get? "properties" fields = some (.obj properties))
    (required_eq : Node.Requires fields properties required) (name : String) :
    decode (.obj fields) name =
      Descriptor.record name <$> decodeProperties name ["properties"] required properties := by
  rw [decode, typed.isNull]
  exact decodeNode_of_properties typed unmarked properties_eq required_eq name []

section Records

variable {typeName : String} {fields : List (Field Descriptor)} {s : Json}
  (encoded : encode (.record typeName fields) = .ok s)

include encoded

/-- The node of a record is decoded alike with and without a list of required names that is
empty. -/
theorem decode_withoutEmptyRequired (name : String) :
    decode (Node.withoutEmptyRequired s) name = decode s name := by
  rcases encode_record_iff.1 encoded with ⟨properties, related, rfl⟩
  rw [Node.withoutEmptyRequired_record]
  cases names : Field.requiredNames fields with
  | cons first rest => rfl
  | nil =>
    have lists := requires_record related
    rw [names] at lists
    have listsNone : Node.Requires (Node.requestParts (Keyed.ofPairs properties) [])
        (Keyed.ofPairs properties) none := ⟨get?_required_requestParts, nofun⟩
    -- Without the list all properties are required and with it none, but all have defaults.
    rw [decode_of_properties hasPlainType_requestParts not_isMarked_requestParts
      get?_properties_requestParts listsNone, Node.record,
      decode_of_properties ⟨⟨rfl, rfl⟩, rfl⟩ rfl rfl lists]
    apply congrArg
    apply decodeProperties_congr
    intro p member t
    rcases exists_default_of_requiredNames related names p member with ⟨value, found⟩
    exact decodeField_of_default found none (some []) p.1 t

/-- The node of a record is decoded. -/
theorem exists_decode_of_record (name : String) : ∃ t, decode s name = .ok t := by
  have notNull : s ≠ Node.null := by
    rcases encode_record_iff.1 encoded with ⟨properties, _, rfl⟩
    simp [Node.record, Node.null]
  rcases decode_of_encode encoded notNull name with ⟨t, decoded, _⟩
  exact ⟨t, decoded⟩

end Records

/-! ## Parameters -/

section Parameters

variable {params : List Parameter}

/-- Parameters by position are encoded as the fields of a record, if there are any. -/
theorem parametersSchema_of_positional (inhabited : params ≠ [])
    (positional : ∀ p ∈ params, p.kind.isVariadic = false) (typeName : String) :
    parametersSchema params = Node.withoutEmptyRequired <$>
      (encode (.record typeName (params.map Parameter.toField))).mapError .encode := by
  rw [parametersSchema, checkParameters_eq_ok_iff.2 positional, encode]
  dsimp only [bind, Except.bind]
  rw [if_neg (mt List.isEmpty_iff.1 inhabited)]
  cases encodeFields (params.map Parameter.toField) with
  | error e => rfl
  | ok properties => exact congrArg Except.ok (Node.withoutEmptyRequired_record _ _).symm

/-- A variadic parameter is an error before anything is encoded. -/
theorem parametersSchema_of_variadic (variadic : ∃ p ∈ params, p.kind.isVariadic = true) :
    parametersSchema params =
      .error (.variadic ((params.filter fun p => p.kind.isVariadic).map Parameter.shown)) := by
  have checked : checkParameters params =
      .error (.variadic ((params.filter fun p => p.kind.isVariadic).map Parameter.shown)) := by
    unfold checkParameters
    split
    · rename_i none
      rcases variadic with ⟨p, member, named⟩
      exact absurd named (List.filter_eq_nil_iff.1 none p member)
    · rfl
  rw [parametersSchema, checked]
  rfl

/-- The schema of parameters, of which there are some, is the node of the record that has them as
its fields, but for a list of required names that is empty, and decoding does not tell the two
apart; where the record has no node, the error is the same. Variadic parameters are an error that
lists them, whatever the types are. -/
theorem parametersSchema_eq_encode_record (inhabited : params ≠ []) (typeName : String) :
    ((∀ p ∈ params, p.kind.isVariadic = false) →
      parametersSchema params = Node.withoutEmptyRequired <$>
          (encode (.record typeName (params.map Parameter.toField))).mapError .encode ∧
        ∀ s, encode (.record typeName (params.map Parameter.toField)) = .ok s →
          ∀ name, ∃ t, decode s name = .ok t ∧
            decode (Node.withoutEmptyRequired s) name = .ok t) ∧
      ((∃ p ∈ params, p.kind.isVariadic = true) →
        parametersSchema params =
          .error (.variadic ((params.filter fun p => p.kind.isVariadic).map Parameter.shown))) := by
  refine ⟨?_, parametersSchema_of_variadic⟩
  intro positional
  refine ⟨parametersSchema_of_positional inhabited positional typeName, ?_⟩
  intro s encoded name
  rcases exists_decode_of_record encoded name with ⟨t, decoded⟩
  exact ⟨t, decoded, (decode_withoutEmptyRequired encoded name).trans decoded⟩

end Parameters

/-- Parameters that can all be left out. -/
def reminder : List Parameter := [
  { name := "note", type := .optional .string, default := some .null },
  { name := "urgent", type := .boolean, default := some (.bool false) }]

/-- The properties that the parameters of `reminder` have. -/
def reminderProperties : List (String × Json) :=
  [("note", Node.withDefault (Node.primitive .string) (some .null)),
    ("urgent", Node.withDefault (Node.primitive .boolean) (some (.bool false)))]

theorem encode_reminder :
    encode (.record "reminder" (reminder.map Parameter.toField)) =
      .ok (Node.record reminderProperties []) := by
  have note := encode_optional_primitive .string
  have urgent := encode_primitive .boolean
  exact encode_record_iff.2
    ⟨reminderProperties, .cons ⟨rfl, _, note, rfl⟩ (.cons ⟨rfl, _, urgent, rfl⟩ .nil), rfl⟩

theorem parametersSchema_eq_encode_record_reminder :
    (parametersSchema reminder =
        .ok (.obj [("type", .str "object"), ("properties", .obj reminderProperties)]) ∧
      ∃ t, decode (Node.record reminderProperties []) "reminder" = .ok t ∧
        decode (.obj [("type", .str "object"), ("properties", .obj reminderProperties)])
          "reminder" = .ok t) ∧
      parametersSchema filing.params = .error (.variadic ["**usage"]) := by
  have positional : ∀ p ∈ reminder, p.kind.isVariadic = false :=
    List.forall_mem_cons.2 ⟨rfl, List.forall_mem_singleton.2 rfl⟩
  have inhabited : reminder ≠ [] := List.cons_ne_nil _ _
  rcases (parametersSchema_eq_encode_record inhabited "reminder").1 positional with
    ⟨schema, alike⟩
  rcases alike _ encode_reminder "reminder" with ⟨t, decoded, decodedSchema⟩
  rw [encode_reminder] at schema
  rw [Node.withoutEmptyRequired_record] at decodedSchema
  refine ⟨⟨schema, t, decoded, decodedSchema⟩, ?_⟩
  exact (parametersSchema_eq_encode_record (List.cons_ne_nil _ _) "filing").2
    ⟨_, List.mem_cons_of_mem _ (List.mem_cons_of_mem _ List.mem_cons_self), rfl⟩

end CallContract
