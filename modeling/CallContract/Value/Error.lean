import CallContract.Descriptor.Text
import CallContract.FileData.Basic
import CallContract.Json.Pointer

/-!
# Payloads that do not fit

* `ConstructionError` says why a payload is no value of a type; places are pointers into the payload.
* `ConstructionError.message` is its text. Tokens of pointers are shown as they are.
-/

namespace CallContract

/-- What a type wanted in a place of a payload. -/
inductive Expected where
  | null
  | array
  | object
  | path
  | primitive (kind : Primitive)
  | key (type : Descriptor)

/-- The words for what was wanted. -/
def Expected.phrase : Expected → String
  | .null => "null"
  | .array => "array"
  | .object => "object"
  | .path => "path string"
  | .primitive kind => kind.name
  | .key type => type.text ++ " key"

/-- Why a payload is no value of a type. -/
inductive ConstructionError where
  | missingField (record field : String)
  | unknownField (record field : String)
  | typeMismatch (place : Pointer) (expected : Expected) (found : Json.Kind)
  | invalidEnumValue (name : String) (value : Json)
  | noMatchingAlternative (place : Pointer)
  | fileData (fault : FileData.Fault)

/-- The text of an error. -/
def ConstructionError.message : ConstructionError → String
  | .missingField record field => record ++ ": missing required field `" ++ field ++ "`"
  | .unknownField record field => record ++ ": unexpected field `" ++ field ++ "`"
  | .typeMismatch place expected found =>
    "at " ++ place.plainText ++ ": expected " ++ expected.phrase ++ ", found " ++ found.name
  | .invalidEnumValue name value => value.compact ++ " is not a valid " ++ name
  | .noMatchingAlternative place =>
    "at " ++ place.plainText ++ ": value matches none of the union alternatives"
  | .fileData fault => "invalid file data: " ++ fault.message

end CallContract
