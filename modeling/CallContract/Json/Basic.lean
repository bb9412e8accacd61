import CallContract.Decimal.Binary64
import CallContract.Keyed

/-!
# JSON values

* A number is an integer of at most 64 bits, or a finite binary64 number; the two never mix.
* An object is a keyed list: its keys keep the order in which they came.
* `Json.kind` names what a value is in messages; `Json.lt_of_get?` and its neighbours say that parts
  of a value are smaller than it, which is why functions that descend into documents end.
-/

namespace CallContract

/-- The integers that JSON numbers hold as integers: those of an unsigned or a signed 64-bit word. -/
def Json.IsWord (i : Int) : Prop :=
  -0x8000000000000000 ≤ i ∧ i < 0x10000000000000000

instance (i : Int) : Decidable (Json.IsWord i) := by
  unfold Json.IsWord
  infer_instance

/-- The integers of a signed 64-bit word. -/
def Json.IsSignedWord (i : Int) : Prop :=
  -0x8000000000000000 ≤ i ∧ i < 0x8000000000000000

instance (i : Int) : Decidable (Json.IsSignedWord i) := by
  unfold Json.IsSignedWord
  infer_instance

/-- An integer of a signed 64-bit word. -/
abbrev Json.SignedWord : Type :=
  { i : Int // Json.IsSignedWord i }

theorem Json.IsSignedWord.isWord {i : Int} (h : Json.IsSignedWord i) : Json.IsWord i :=
  ⟨h.1, Int.lt_trans h.2 (by decide)⟩

/-- A JSON number: an integer literal in range, or anything else that binary64 can hold. -/
inductive Json.Number where
  | int (value : Int) (isWord : Json.IsWord value)
  | float (value : Binary64)
  deriving DecidableEq

/-- A JSON value. -/
inductive Json where
  | null
  | bool (value : Bool)
  | num (value : Json.Number)
  | str (value : String)
  | arr (items : List Json)
  | obj (fields : List (String × Json))

namespace Json

instance : Inhabited Json := ⟨.null⟩

/-- The value of a signed word. -/
def ofSignedWord (i : SignedWord) : Json :=
  .num (.int i.val i.property.isWord)

/-- The value of something that may be absent: null if it is. -/
def orNull {α : Type} (write : α → Json) : Option α → Json
  | none => .null
  | some a => write a

/-- The value under a key of an object. -/
def get? (key : String) : Json → Option Json
  | .obj fields => Keyed.get? key fields
  | _ => none

/-- The kinds of JSON values; integers and other numbers are two kinds. -/
inductive Kind where
  | null
  | boolean
  | integer
  | number
  | string
  | array
  | object
  deriving DecidableEq

/-- The word for a kind in messages. -/
def Kind.name : Kind → String
  | .null => "null"
  | .boolean => "boolean"
  | .integer => "integer"
  | .number => "number"
  | .string => "string"
  | .array => "array"
  | .object => "object"

/-- What a value is. -/
def kind : Json → Kind
  | .null => .null
  | .bool _ => .boolean
  | .num (.int ..) => .integer
  | .num (.float _) => .number
  | .str _ => .string
  | .arr _ => .array
  | .obj _ => .object

/-- The text of a string. -/
def text? : Json → Option String
  | .str s => some s
  | _ => none

/-- The items of an array. -/
def items? : Json → Option (List Json)
  | .arr items => some items
  | _ => none

/-- The fields of an object. -/
def fields? : Json → Option (List (String × Json))
  | .obj fields => some fields
  | _ => none

/-- Whether a value is null. -/
def isNull : Json → Bool
  | .null => true
  | _ => false

theorem isNull_iff {v : Json} : v.isNull = true ↔ v = .null := by
  cases v <;> simp [isNull]

/-! ## Parts of a value are smaller -/

theorem lt_of_keyed_get? {key : String} {value : Json} {fields : List (String × Json)}
    (h : Keyed.get? key fields = some value) : sizeOf value < sizeOf fields := by
  induction fields with
  | nil => simp at h
  | cons pair rest ih =>
    obtain ⟨k, v⟩ := pair
    rw [Keyed.get?_cons] at h
    split at h
    · cases h
      simp
      omega
    · have := ih h
      simp
      omega

theorem lt_of_keyed_get?_arr {key : String} {items : List Json} {fields : List (String × Json)}
    (h : Keyed.get? key fields = some (.arr items)) : sizeOf items < sizeOf fields := by
  have := lt_of_keyed_get? h
  simp at this
  omega

theorem lt_of_keyed_get?_obj {key : String} {parts fields : List (String × Json)}
    (h : Keyed.get? key fields = some (.obj parts)) : sizeOf parts < sizeOf fields := by
  have := lt_of_keyed_get? h
  simp at this
  omega

theorem lt_of_get? {key : String} {value j : Json} (h : j.get? key = some value) :
    sizeOf value < sizeOf j := by
  cases j <;> simp [get?] at h
  have := lt_of_keyed_get? h
  simp
  omega

theorem lt_of_mem_items {value j : Json} {items : List Json} (hj : j.items? = some items)
    (h : value ∈ items) : sizeOf value < sizeOf j := by
  cases j <;> simp [items?] at hj
  subst hj
  have := List.sizeOf_lt_of_mem h
  simp
  omega

theorem lt_of_mem_fields {key : String} {value j : Json} {fields : List (String × Json)}
    (hj : j.fields? = some fields) (h : (key, value) ∈ fields) : sizeOf value < sizeOf j := by
  cases j <;> simp [fields?] at hj
  subst hj
  have := List.sizeOf_lt_of_mem h
  simp at this ⊢
  omega

end Json

end CallContract
