import CallContract.Descriptor.Literal
import CallContract.Json.Equality
import CallContract.Json.Pointer

/-!
# Types of schema documents

* `decode schema name` is the type that a document describes; its records and enumerations are named
  after `name` and their place.
* A null among the arms of a union, and a field that may be left out for null, make the type optional.
* `DecodeError` says where a document is malformed, as a pointer into it, and why.
-/

namespace CallContract

/-! ## Faults -/

/-- What can be wrong with a node. -/
inductive SchemaFault where
  | notNode (found : Json.Kind)
  | noForm
  | typeNotString (found : Json)
  | unknownType (name : String)
  | noArms
  | typeNotScalar (name : String)
  | noValues
  | valueNotOfType (value : Json) (type : String)
  | objectWithoutParts
  | mappingWithoutParts
  | propertiesNotObject
  | requiredNotArray
  | requiredNotName
  | requiredUnknown (name : String)
  deriving DecidableEq

/-- The text of a fault. -/
def SchemaFault.message : SchemaFault → String
  | .notNode found => "expected a schema node, found " ++ found.name
  | .noForm => "node has neither `type` nor `anyOf`"
  | .typeNotString found => "`type` must be a string, found " ++ found.compact
  | .unknownType name => "unknown type `" ++ name ++ "`"
  | .noArms => "`anyOf` must be a non-empty array"
  | .typeNotScalar name => "enum node has non-primitive type `" ++ name ++ "`"
  | .noValues => "`enum` must be a non-empty array"
  | .valueNotOfType value type => value.compact ++ " is not a valid " ++ type
  | .objectWithoutParts => "object node has neither `properties` nor key/value `items`"
  | .mappingWithoutParts => "mapping items need both `key` and `value`"
  | .propertiesNotObject => "`properties` must be an object"
  | .requiredNotArray => "`required` must be an array"
  | .requiredNotName => "names must be strings"
  | .requiredUnknown name => "`" ++ name ++ "` is required but not a property"

/-- A fault of a document and its place. -/
structure DecodeError where
  place : Pointer
  fault : SchemaFault
  deriving DecidableEq

/-- The text of an error. -/
def DecodeError.message (e : DecodeError) : String :=
  "malformed schema at " ++ e.place.text ++ ": " ++ e.fault.message

/-! ## Parts of nodes -/

namespace Node

/-- Whether a marker of a node is set. -/
def isMarked (marker : String) (fields : List (String × Json)) : Bool :=
  match Keyed.get? marker fields with
  | some (.bool b) => b
  | _ => false

/-- Whether a node is that of null, whatever else it holds. -/
def isNull (node : Json) : Bool :=
  match node.get? "type", node.get? "anyOf" with
  | some (.str s), none => s = "null"
  | _, _ => false

/-- Whether a node holds nothing but perhaps a default. -/
def isBare (fields : List (String × Json)) : Bool :=
  fields.all fun (key, _) => key = "default"

end Node

/-- A type that admits null besides. -/
def Descriptor.widen (t : Descriptor) : Descriptor :=
  if t.isOptional then t else .optional t

/-- The first value of an array that a scalar type does not admit, and its position. -/
def Primitive.firstNotAdmitted? (kind : Primitive) (values : List Json) : Option (Json × Nat) :=
  values.zipIdx.find? fun (v, _) => !kind.admits v

/-- The type of an enumeration node. -/
def decodeEnum (type : String) (values : Json) (name : String) (place : Pointer) :
    Except DecodeError Descriptor :=
  match Primitive.ofName? type with
  | none => .error ⟨place, .typeNotScalar type⟩
  | some kind =>
    match values with
    | .arr (first :: rest) =>
      match kind.firstNotAdmitted? (first :: rest) with
      | some (bad, i) =>
        .error ⟨place ++ ["enum", Decimal.natText i], .valueNotOfType bad type⟩
      | none => .ok (.ofValues (name ++ "_enum") (first :: rest))
    | _ => .error ⟨place ++ ["enum"], .noValues⟩

/-- The names that a record node lists as required, if it lists any. -/
def requiredNames? (fields properties : List (String × Json)) (place : Pointer) :
    Except DecodeError (Option (List String)) :=
  match Keyed.get? "required" fields with
  | none => .ok none
  | some (.arr items) => do
    let names ← items.mapM fun item =>
      match item.text? with
      | some name => Except.ok name
      | none => .error ⟨place ++ ["required"], .requiredNotName⟩
    match names.find? fun name => !Keyed.contains name properties with
    | some name => throw ⟨place ++ ["required"], .requiredUnknown name⟩
    | none => return some names
  | some _ => .error ⟨place ++ ["required"], .requiredNotArray⟩

/-- The field that a property makes. A default of null, and leaving out a property that is not
required, make its type optional. -/
def decodeField (required : Option (List String)) (name : String) (node : Json) (type : Descriptor) :
    Field Descriptor :=
  match node.get? "default" with
  | some .null => { name := name, type := type.widen, default := some .null }
  | some value => { name := name, type := type, default := some value }
  | none =>
    if required.all fun names => names.contains name then { name := name, type := type }
    else { name := name, type := type.widen, default := some .null }

/-- The name of an arm of a union. -/
def armName (name : String) (alone : Bool) (index : Nat) : String :=
  if alone then name else name ++ "_" ++ Decimal.natText index

/-- The type of a union node from the types of its arms without null. -/
def decodedUnion (hadNull : Bool) : List Descriptor → Descriptor
  | [] => .none
  | [t] => if hadNull then .optional t else t
  | ts => .union (if hadNull then ts ++ [.none] else ts)

/-! ## Decoding -/

mutual
/-- The type of a node that stands in some place. -/
def decodeNode (name : String) (place : Pointer) (node : Json) : Except DecodeError Descriptor :=
  match node with
  | .obj fields =>
    match ha : Keyed.get? "anyOf" fields with
    | some (.arr arms) =>
      if arms.isEmpty then .error ⟨place ++ ["anyOf"], .noArms⟩
      else do
        have := Json.lt_of_keyed_get?_arr ha
        let alone := (arms.filter fun arm => !Node.isNull arm).length = 1
        let types ← decodeArms name alone (place ++ ["anyOf"]) 0 0 arms
        return decodedUnion (arms.any Node.isNull) types
    | some _ => .error ⟨place ++ ["anyOf"], .noArms⟩
    | none =>
      if Node.isBare fields then .ok .any
      else
        match Keyed.get? "type" fields with
        | none => .error ⟨place, .noForm⟩
        | some (.str type) =>
          match Keyed.get? "enum" fields with
          | some values => decodeEnum type values name place
          | none =>
            if type = "null" then .ok .none
            else if type = "object" then
              if Node.isMarked "is_file_data" fields then .ok .fileData
              else
                match hp : Keyed.get? "properties" fields with
                | some (.obj properties) => do
                  have := Json.lt_of_keyed_get?_obj hp
                  let required ← requiredNames? fields properties place
                  let types ← decodeProperties name (place ++ ["properties"]) required properties
                  return .record name types
                | some _ => .error ⟨place ++ ["properties"], .propertiesNotObject⟩
                | none =>
                  match hi : Keyed.get? "items" fields with
                  | some items =>
                    match hk : items.get? "key", hv : items.get? "value" with
                    | some key, some value => do
                      have := Json.lt_of_keyed_get? hi
                      have := Json.lt_of_get? hk
                      have := Json.lt_of_get? hv
                      let k ← decodeNode (name ++ "_key") (place ++ ["items", "key"]) key
                      let v ← decodeNode (name ++ "_value") (place ++ ["items", "value"]) value
                      return .mapping k v
                    | _, _ => .error ⟨place ++ ["items"], .mappingWithoutParts⟩
                  | none => .error ⟨place, .objectWithoutParts⟩
            else if type = "array" then
              match hi : Keyed.get? "items" fields with
              | some items => do
                have := Json.lt_of_keyed_get? hi
                let element ← decodeNode (name ++ "_type") (place ++ ["items"]) items
                return .list element
              | none => .ok (.list .any)
            else if type = "string" ∧ Node.isMarked "is_path" fields then .ok .path
            else
              match Primitive.ofName? type with
              | some kind => .ok (.primitive kind)
              | none => .error ⟨place ++ ["type"], .unknownType type⟩
        | some other => .error ⟨place, .typeNotString other⟩
  | _ => .error ⟨place, .notNode node.kind⟩
termination_by sizeOf node

/-- The types of the arms of a union without null. `position` counts all arms and `index` those
without null; an arm that is alone has the name of the union. -/
def decodeArms (name : String) (alone : Bool) (place : Pointer) (position index : Nat)
    (arms : List Json) : Except DecodeError (List Descriptor) :=
  match arms with
  | [] => .ok []
  | arm :: rest =>
    if Node.isNull arm then decodeArms name alone place (position + 1) index rest
    else do
      let t ← decodeNode (armName name alone index) (place ++ [Decimal.natText position]) arm
      let ts ← decodeArms name alone place (position + 1) (index + 1) rest
      return t :: ts
termination_by sizeOf arms

/-- The fields that the properties of a record node make. -/
def decodeProperties (name : String) (place : Pointer) (required : Option (List String))
    (properties : List (String × Json)) : Except DecodeError (List (Field Descriptor)) :=
  match properties with
  | [] => .ok []
  | (key, node) :: rest => do
    let t ← decodeNode (name ++ "_" ++ key) (place ++ [key]) node
    let fields ← decodeProperties name place required rest
    return decodeField required key node t :: fields
termination_by sizeOf properties
end

/-- The type that a schema document describes. A document of null alone describes a request that
holds nothing. -/
def decode (schema : Json) (name : String) : Except DecodeError Descriptor :=
  if Node.isNull schema then .ok (.record name []) else decodeNode name [] schema

/-- The name of a document that has none. -/
def defaultModelName : String :=
  "reconstructed_model"

end CallContract
