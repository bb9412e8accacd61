import CallContract.Descriptor.Text
import CallContract.FileData.Fields
import CallContract.Json.Printer
import CallContract.Schema.Node

/-!
# Types as schema nodes

* `encode t` is the node of a type. The null of a union of one other alternative is dropped: it is
  the default of a field that tells whether the field may be left out.
* `encodeFields` encodes the fields of a record, each with its default.
* `EncodeError` says why a type has no node.
* `encode_union` is the rule for unions; `encodeFields_fileData` says that the node of file data is
  that of its fields.
-/

namespace CallContract

/-- Why a type has no schema node. -/
inductive EncodeError where
  | emptyUnion (type : Descriptor)
  | noMembers (enumeration : String)
  | memberNotScalar (enumeration label : String) (value : Json)
  | mixedMembers (enumeration : String) (kinds : List Primitive)
  | mappingKey (type : Descriptor)

/-- The text of an error. -/
def EncodeError.message : EncodeError → String
  | .emptyUnion t => "unsupported type: empty union: " ++ t.text
  | .noMembers name => "unsupported type: enum " ++ name ++ " has no members"
  | .memberNotScalar name label value =>
    "unsupported type: enum " ++ name ++ " member " ++ label ++ " has non-scalar value " ++
      value.compact
  | .mixedMembers name kinds =>
    "enum " ++ name ++ " must have consistent types, found mixes: " ++
      ", ".intercalate (kinds.map Primitive.name)
  | .mappingKey t => "unsupported type: mapping keys must be scalar, got " ++ t.text

/-- The kinds of the members of an enumeration, in the order in which they first come. -/
def memberKinds (name : String) : List EnumMember → List Primitive →
    Except EncodeError (List Primitive)
  | [], kinds => .ok kinds
  | m :: rest, kinds =>
    match Primitive.ofValue? m.value with
    | none => .error (.memberNotScalar name m.label m.value)
    | some kind => memberKinds name rest (if kind ∈ kinds then kinds else kinds ++ [kind])

/-- The node of an enumeration: its members are scalars of one kind. -/
def encodeEnum (name : String) (members : List EnumMember) : Except EncodeError Json :=
  match memberKinds name members [] with
  | .error e => .error e
  | .ok [] => .error (.noMembers name)
  | .ok [kind] => .ok (Node.enumeration kind (members.map EnumMember.value))
  | .ok kinds => .error (.mixedMembers name kinds)

/-- Whether a type can be the key of a mapping. -/
def Descriptor.isKey : Descriptor → Bool
  | .primitive _ | .enumeration .. | .path | .any => true
  | _ => false

/-- The names of the fields that have to be given. -/
def Field.requiredNames {τ : Type} (fields : List (Field τ)) : List String :=
  (fields.filter Field.isRequired).map Field.name

open Descriptor (sizeOf_lt_of_mem_alternatives)

mutual
/-- The node of a type. -/
def encode (t : Descriptor) : Except EncodeError Json :=
  match t with
  | .primitive kind => .ok (Node.primitive kind)
  | .none => .ok Node.null
  | .any => .ok Node.anything
  | .path => .ok Node.path
  | .fileData => .ok Node.fileData
  | .enumeration name members => encodeEnum name members
  | .list element => do
    let items ← encode element
    return Node.array items
  | .mapping key value =>
    if key.isKey then do
      let k ← encode key
      let v ← encode value
      return Node.mapping k v
    else .error (.mappingKey key)
  | .record _ fields => do
    let properties ← encodeFields fields
    return Node.record (Keyed.ofPairs properties) (Field.requiredNames fields)
  | .optional inner => encodeUnion (.optional inner) rfl
  | .union members => encodeUnion (.union members) rfl
termination_by (sizeOf t, 1)

/-- The node of a union. -/
def encodeUnion (t : Descriptor) (hu : t.isUnion = true) : Except EncodeError Json :=
  if t.alternatives.isEmpty then .error (.emptyUnion t)
  else
    match t.alternatives.attach.filter fun m => !m.val.isNone with
    | [] => .ok Node.null
    | [⟨only, h⟩] =>
      have := sizeOf_lt_of_mem_alternatives hu h
      encode only
    | _ => do
      let arms ← t.alternatives.attach.mapM fun ⟨m, h⟩ =>
        have := sizeOf_lt_of_mem_alternatives hu h
        encode m
      return Node.anyOf arms
termination_by (sizeOf t, 0)

/-- The nodes of fields under their names, each with its default. -/
def encodeFields (fields : List (Field Descriptor)) : Except EncodeError (List (String × Json)) :=
  match fields with
  | [] => .ok []
  | ⟨name, type, default⟩ :: rest => do
    let node ← encode type
    let others ← encodeFields rest
    return (name, Node.withDefault node default) :: others
termination_by (sizeOf fields, 0)
end

/-- A union is encoded as its one alternative beside null, or as all its alternatives. -/
theorem encode_union {t : Descriptor} (hu : t.isUnion = true) :
    encode t =
      if t.alternatives.isEmpty then .error (.emptyUnion t)
      else
        match t.alternatives.filter fun m => !m.isNone with
        | [] => .ok Node.null
        | [only] => encode only
        | _ => Node.anyOf <$> t.alternatives.mapM encode := by
  have h : encode t = encodeUnion t hu := by
    cases t with
    | optional inner => rw [encode]
    | union members => rw [encode]
    | _ => simp [Descriptor.isUnion] at hu
  rw [h, encodeUnion]
  split
  · rfl
  · have hmap : (t.alternatives.attach.mapM fun m => encode m.val) = t.alternatives.mapM encode := by
      conv => rhs; rw [← List.attach_map_subtype_val t.alternatives]
      rw [List.mapM_map]
      rfl
    have hval : (t.alternatives.attach.filter fun m => !m.val.isNone).map Subtype.val =
        t.alternatives.filter fun m => !m.isNone := by
      conv => rhs; rw [← List.attach_map_subtype_val t.alternatives]
      rw [List.filter_map]
      rfl
    rw [← hval]
    generalize (t.alternatives.attach.filter fun m => !m.val.isNone) = others
    rcases others with _ | ⟨a, _ | ⟨b, rest⟩⟩
    · rfl
    · rfl
    · simp only [List.map_cons]
      rw [← hmap]
      cases t.alternatives.attach.mapM fun m => encode m.val <;> rfl

/-- The null of an optional type is dropped. -/
theorem encode_optional {t : Descriptor} (hl : t.leaves = [t]) (hn : t.isNone = false) :
    encode (.optional t) = encode t := by
  have hnone : Descriptor.isNone .none = true := rfl
  have hs : Descriptor.alternatives (.optional t) = [t, .none] := by
    simp [Descriptor.alternatives, Descriptor.leaves, Descriptor.keepFirstNone, hl, hn, hnone]
  rw [encode_union rfl, hs]
  simp [hn, hnone]

theorem encode_primitive (kind : Primitive) :
    encode (.primitive kind) = .ok (Node.primitive kind) := by
  rw [encode]

theorem encode_optional_primitive (kind : Primitive) :
    encode (.optional (.primitive kind)) = .ok (Node.primitive kind) := by
  rw [encode_optional rfl rfl, encode_primitive]

/-- The properties of file data are its fields. -/
theorem encodeFields_fileData : encodeFields FileData.fields = .ok Node.fileDataProperties := by
  have anyMap : encode FileData.anyMap = .ok Node.anyMap := by
    simp [FileData.anyMap, encode, Descriptor.isKey, Node.anyMap]
    rfl
  have maybeString := encode_optional_primitive .string
  have maybeInteger := encode_optional_primitive .integer
  have maybeMap : encode (.optional FileData.anyMap) = .ok Node.anyMap := by
    rw [encode_optional rfl rfl, anyMap]
  have maybeMaps : encode (.optional (.list FileData.anyMap)) = .ok (Node.array Node.anyMap) := by
    rw [encode_optional rfl rfl, encode, anyMap]
    rfl
  have identifiers : encode (.optional FileData.sourceIdentifiersDescriptor) =
      .ok Node.sourceIdentifiers := by
    rw [encode_optional rfl rfl, FileData.sourceIdentifiersDescriptor, encode]
    simp only [encodeFields, maybeString]
    simp only [encode]
    rfl
  have metadata : encode FileData.metadataDescriptor = .ok Node.sourceMetadata := by
    rw [FileData.metadataDescriptor, encode]
    simp only [encodeFields, maybeString, maybeInteger, maybeMap, maybeMaps]
    rfl
  rw [FileData.fields]
  simp only [encodeFields, maybeString, identifiers, metadata, anyMap]
  simp only [encode]
  rfl

end CallContract
