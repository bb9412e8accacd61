import CallContract.Descriptor.Basic
import CallContract.FileData.Basic

/-!
# Values

What a payload is once it has been checked against a type. Records and enumeration members know the
names of their types.

* `Value.toJson` is the payload that a value stands for, defaults filled in.
-/

namespace CallContract

/-- A payload that has been checked against a type; `raw` is JSON taken as it came. -/
inductive Value where
  | null
  | bool (value : Bool)
  | int (value : Int) (isWord : Json.IsWord value)
  | number (value : Binary64)
  | string (value : String)
  | path (value : String)
  | list (items : List Value)
  | map (entries : List (String × Value))
  | record (name : String) (fields : List (String × Value))
  | enumMember (name : String) (member : EnumMember)
  | fileData (data : FileData)
  | raw (value : Json)

namespace Value

instance : Inhabited Value := ⟨.null⟩

mutual
/-- The payload that a value stands for. -/
def toJson : Value → Json
  | .null => .null
  | .bool b => .bool b
  | .int i h => .num (.int i h)
  | .number x => .num (.float x)
  | .string s => .str s
  | .path s => .str s
  | .list items => .arr (itemsToJson items)
  | .map entries => .obj (fieldsToJson entries)
  | .record _ fields => .obj (fieldsToJson fields)
  | .enumMember _ member => member.value
  | .fileData data => data.toJson
  | .raw j => j

/-- The payloads that values stand for. -/
def itemsToJson : List Value → List Json
  | [] => []
  | item :: rest => toJson item :: itemsToJson rest

/-- The fields of a payload that values under names stand for. -/
def fieldsToJson : List (String × Value) → List (String × Json)
  | [] => []
  | (key, value) :: rest => (key, toJson value) :: fieldsToJson rest
end

theorem itemsToJson_eq_map (items : List Value) : itemsToJson items = items.map toJson := by
  induction items with
  | nil => rfl
  | cons item rest ih => simp [itemsToJson, ih]

theorem fieldsToJson_eq_map (fields : List (String × Value)) :
    fieldsToJson fields = fields.map fun (key, value) => (key, toJson value) := by
  induction fields with
  | nil => rfl
  | cons field rest ih =>
    obtain ⟨key, value⟩ := field
    simp [fieldsToJson, ih]

end Value

end CallContract
