import CallContract.Json.Basic

/-!
# Descriptors of types

A descriptor is the resolved type of a parameter, a record field or a response.

* A `Field` is a name with a type and perhaps a default; only the absence of a default makes the
  field required, and a default of null is a default. What the type of a field is depends on the
  stage: annotation text, a descriptor, or a schema node.
* `Descriptor.leaves` and `Descriptor.alternatives` flatten nested unions, keeping the place of null;
  `Descriptor.splitNull` flattens them and sets null apart.
* `Descriptor.isOptional` tells types that admit null.
-/

namespace CallContract

/-- The scalar types. -/
inductive Primitive where
  | string
  | boolean
  | integer
  | number
  deriving DecidableEq

/-- The name of a scalar type in schema documents. -/
def Primitive.name : Primitive → String
  | .string => "string"
  | .boolean => "boolean"
  | .integer => "integer"
  | .number => "number"

/-- The scalar type with a given name in schema documents. -/
def Primitive.ofName? (name : String) : Option Primitive :=
  if name = "string" then some .string
  else if name = "boolean" then some .boolean
  else if name = "integer" then some .integer
  else if name = "number" then some .number
  else none

/-- The scalar type that a value is of, if it is a scalar. -/
def Primitive.ofValue? : Json → Option Primitive
  | .str _ => some .string
  | .bool _ => some .boolean
  | .num (.int ..) => some .integer
  | .num (.float _) => some .number
  | _ => none

/-- Whether a scalar type admits a value; integers are numbers too. -/
def Primitive.admits : Primitive → Json → Bool
  | .string, .str _ => true
  | .boolean, .bool _ => true
  | .integer, .num (.int ..) => true
  | .number, .num _ => true
  | _, _ => false

@[simp] theorem Primitive.ofName?_name (p : Primitive) : Primitive.ofName? p.name = some p := by
  cases p <;> decide

/-- A name with a type and perhaps a default. -/
structure Field (τ : Type) where
  name : String
  type : τ
  default : Option Json := none

namespace Field

variable {τ : Type}

/-- Whether a field has to be given. -/
def isRequired (f : Field τ) : Bool :=
  f.default.isNone

/-- The first field with a given name. -/
def find? (name : String) (fields : List (Field τ)) : Option (Field τ) :=
  fields.find? fun f => f.name = name

end Field

/-- A member of an enumeration. -/
structure EnumMember where
  label : String
  value : Json

/-- The type of a value. -/
inductive Descriptor where
  | primitive (kind : Primitive)
  | none
  | any
  | optional (inner : Descriptor)
  | union (members : List Descriptor)
  | list (element : Descriptor)
  | mapping (key value : Descriptor)
  | record (name : String) (fields : List (Field Descriptor))
  | enumeration (name : String) (members : List EnumMember)
  | path
  | fileData

namespace Descriptor

instance : Inhabited Descriptor := ⟨.any⟩

/-- The type of strings. -/
abbrev string : Descriptor := .primitive .string

/-- The type of booleans. -/
abbrev boolean : Descriptor := .primitive .boolean

/-- The type of integers. -/
abbrev integer : Descriptor := .primitive .integer

/-- The type of numbers. -/
abbrev number : Descriptor := .primitive .number

/-- Whether a descriptor is the type of null alone. -/
def isNone : Descriptor → Bool
  | .none => true
  | _ => false

/-- Whether a descriptor is made of alternatives. -/
def isUnion : Descriptor → Bool
  | .optional _ | .union _ => true
  | _ => false

/-! ## Flattening -/

mutual
/-- The alternatives of a type, those of nested unions in the place of the union. -/
def leaves : Descriptor → List Descriptor
  | .optional inner => leaves inner ++ [.none]
  | .union members => leavesOfAll members
  | .primitive kind => [.primitive kind]
  | .none => [.none]
  | .any => [.any]
  | .list element => [.list element]
  | .mapping key value => [.mapping key value]
  | .record name fields => [.record name fields]
  | .enumeration name members => [.enumeration name members]
  | .path => [.path]
  | .fileData => [.fileData]

/-- The alternatives of several types, one after the other. -/
def leavesOfAll : List Descriptor → List Descriptor
  | [] => []
  | member :: rest => leaves member ++ leavesOfAll rest
end

/-- A list with no null behind its first one. -/
def keepFirstNone : List Descriptor → List Descriptor
  | [] => []
  | t :: rest =>
    if t.isNone then t :: rest.filter (fun u => !u.isNone) else t :: keepFirstNone rest

/-- The alternatives of a type in order, null at most once, where it first comes. -/
def alternatives (t : Descriptor) : List Descriptor :=
  keepFirstNone t.leaves

mutual
/-- The alternatives of a type without null, and whether null was one of them. A type that is no
union is its only alternative. -/
def splitNull : Descriptor → List Descriptor × Bool
  | .optional inner => ((splitNull inner).1.filter (fun t => !t.isNone), true)
  | .union members => splitNullOfAll members
  | .primitive kind => ([.primitive kind], false)
  | .none => ([.none], false)
  | .any => ([.any], false)
  | .list element => ([.list element], false)
  | .mapping key value => ([.mapping key value], false)
  | .record name fields => ([.record name fields], false)
  | .enumeration name members => ([.enumeration name members], false)
  | .path => ([.path], false)
  | .fileData => ([.fileData], false)

/-- The alternatives of several types without null, and whether null was one of them. -/
def splitNullOfAll : List Descriptor → List Descriptor × Bool
  | [] => ([], false)
  | member :: rest =>
    let first := splitNull member
    let others := splitNullOfAll rest
    (first.1.filter (fun t => !t.isNone) ++ others.1, first.2 || member.isNone || others.2)
end

/-- Whether null is among the values of a type. -/
def isOptional : Descriptor → Bool
  | .none | .any | .optional _ => true
  | .union members => (splitNull (.union members)).2
  | _ => false

/-! ## Alternatives are smaller than their union -/

mutual
theorem sizeOf_le_of_mem_leaves : (t : Descriptor) → {m : Descriptor} → m ∈ leaves t →
    sizeOf m ≤ sizeOf t
  | .optional inner, m, h => by
    simp only [leaves, List.mem_append, List.mem_singleton] at h
    rcases h with h | rfl
    · have := sizeOf_le_of_mem_leaves inner h
      simp
      omega
    · simp
  | .union members, m, h => by
    simp only [leaves] at h
    have := sizeOf_lt_of_mem_leavesOfAll members h
    simp
    omega
  | .primitive _, _, h | .none, _, h | .any, _, h | .list _, _, h | .mapping _ _, _, h
  | .record _ _, _, h | .enumeration _ _, _, h | .path, _, h | .fileData, _, h => by
    simp only [leaves, List.mem_singleton] at h
    subst h
    exact Nat.le_refl _

theorem sizeOf_lt_of_mem_leavesOfAll : (ts : List Descriptor) → {m : Descriptor} →
    m ∈ leavesOfAll ts → sizeOf m < sizeOf ts
  | [], _, h => by simp [leavesOfAll] at h
  | t :: rest, m, h => by
    simp only [leavesOfAll, List.mem_append] at h
    rcases h with h | h
    · have := sizeOf_le_of_mem_leaves t h
      simp
      omega
    · have := sizeOf_lt_of_mem_leavesOfAll rest h
      simp
      omega
end

theorem sizeOf_lt_of_mem_leaves {t m : Descriptor} (hu : t.isUnion = true) (h : m ∈ leaves t) :
    sizeOf m < sizeOf t := by
  cases t with
  | optional inner =>
    simp only [leaves, List.mem_append, List.mem_singleton] at h
    rcases h with h | rfl
    · have := sizeOf_le_of_mem_leaves inner h
      simp
      omega
    · cases inner <;> simp +arith
  | union members =>
    simp only [leaves] at h
    have := sizeOf_lt_of_mem_leavesOfAll members h
    simp
    omega
  | _ => simp [isUnion] at hu

theorem mem_of_mem_keepFirstNone {m : Descriptor} {ts : List Descriptor}
    (h : m ∈ keepFirstNone ts) : m ∈ ts := by
  induction ts with
  | nil => simp [keepFirstNone] at h
  | cons t rest ih =>
    simp only [keepFirstNone] at h
    split at h
    · simp only [List.mem_cons, List.mem_filter] at h
      rcases h with rfl | ⟨h, _⟩
      · simp
      · simp [h]
    · simp only [List.mem_cons] at h
      rcases h with rfl | h
      · simp
      · simp [ih h]

/-- An alternative of a union is smaller than the union. -/
theorem sizeOf_lt_of_mem_alternatives {t m : Descriptor} (hu : t.isUnion = true)
    (h : m ∈ alternatives t) : sizeOf m < sizeOf t :=
  sizeOf_lt_of_mem_leaves hu (mem_of_mem_keepFirstNone h)

mutual
theorem mem_leaves_of_mem_splitNull : (t : Descriptor) → {m : Descriptor} →
    m ∈ (splitNull t).1 → m ∈ leaves t
  | .optional inner, m, h => by
    simp only [splitNull, List.mem_filter] at h
    simp [leaves, mem_leaves_of_mem_splitNull inner h.1]
  | .union members, m, h => by
    simp only [splitNull] at h
    simp only [leaves]
    exact mem_leavesOfAll_of_mem_splitNullOfAll members h
  | .primitive _, _, h | .none, _, h | .any, _, h | .list _, _, h | .mapping _ _, _, h
  | .record _ _, _, h | .enumeration _ _, _, h | .path, _, h | .fileData, _, h => by
    simpa only [splitNull, leaves] using h

theorem mem_leavesOfAll_of_mem_splitNullOfAll : (ts : List Descriptor) → {m : Descriptor} →
    m ∈ (splitNullOfAll ts).1 → m ∈ leavesOfAll ts
  | [], _, h => by simp [splitNullOfAll] at h
  | t :: rest, m, h => by
    simp only [splitNullOfAll, List.mem_append, List.mem_filter] at h
    simp only [leavesOfAll, List.mem_append]
    rcases h with h | h
    · exact Or.inl (mem_leaves_of_mem_splitNull t h.1)
    · exact Or.inr (mem_leavesOfAll_of_mem_splitNullOfAll rest h)
end

/-- A non-null alternative of a union is smaller than the union. -/
theorem sizeOf_lt_of_mem_splitNull {t m : Descriptor} (hu : t.isUnion = true)
    (h : m ∈ (splitNull t).1) : sizeOf m < sizeOf t :=
  sizeOf_lt_of_mem_leaves hu (mem_leaves_of_mem_splitNull t h)

/-- The type of a field of a record is smaller than the list of its fields. -/
theorem sizeOf_lt_of_mem_fields {f : Field Descriptor} {fields : List (Field Descriptor)}
    (h : f ∈ fields) : sizeOf f.type < sizeOf fields := by
  have := List.sizeOf_lt_of_mem h
  cases f
  simp at this ⊢
  omega

end Descriptor

end CallContract
