import CallContract.Descriptor.Basic
import CallContract.Document.Slots

/-!
# Types as documents

* `Descriptor.toJson` writes a type as an object whose `kind` tells its form.
* `Descriptor.ofJson?` reads a type. Apart from objects it reads arrays, which start with the form;
  inside another type the form may be given by its number.
-/

namespace CallContract

/-- A field of an object for a default, if there is one. -/
def defaultSlot : Option Json → List (String × Json)
  | none => []
  | some value => [("default", value)]

/-- A member of an enumeration as a document. -/
def EnumMember.toJson (m : EnumMember) : Json :=
  .obj [("label", .str m.label), ("value", m.value)]

/-- Reads a member of an enumeration. -/
def EnumMember.ofJson? (j : Json) : Option EnumMember :=
  match j.slots? ["label", "value"] with
  | some [some (.str label), some value] => some { label := label, value := value }
  | _ => none

/-- The forms of types. -/
inductive Form where
  | primitive
  | none
  | any
  | optional
  | union
  | list
  | mapping
  | record
  | enumeration
  | path
  | fileData
  deriving DecidableEq

namespace Form

/-- The word for a form. -/
def word : Form → String
  | .primitive => "primitive"
  | .none => "none"
  | .any => "any"
  | .optional => "optional"
  | .union => "union"
  | .list => "list"
  | .mapping => "mapping"
  | .record => "record"
  | .enumeration => "enumeration"
  | .path => "path"
  | .fileData => "file_data"

/-- All forms, in the order of their numbers. -/
def all : List Form :=
  [.primitive, .none, .any, .optional, .union, .list, .mapping, .record, .enumeration, .path,
    .fileData]

/-- The form that a word, or a number inside another type, denotes. -/
def ofJson? (nested : Bool) : Json → Option Form
  | .str s => all.find? fun form => form.word = s
  | .num (.int i _) => if nested ∧ 0 ≤ i then all[i.toNat]? else Option.none
  | _ => Option.none

@[simp] theorem ofJson?_word (nested : Bool) (form : Form) :
    ofJson? nested (.str form.word) = some form := by
  cases form <;> simp [ofJson?, all, word]

end Form

namespace Descriptor

/-! ## Writing -/

mutual
/-- A type as a document. -/
def toJson : Descriptor → Json
  | .primitive kind => .obj [("kind", .str Form.primitive.word), ("primitive", .str kind.name)]
  | .none => .obj [("kind", .str Form.none.word)]
  | .any => .obj [("kind", .str Form.any.word)]
  | .optional inner => .obj [("kind", .str Form.optional.word), ("inner", toJson inner)]
  | .union members => .obj [("kind", .str Form.union.word), ("members", .arr (allToJson members))]
  | .list element => .obj [("kind", .str Form.list.word), ("element", toJson element)]
  | .mapping key value =>
    .obj [("kind", .str Form.mapping.word), ("key", toJson key), ("value", toJson value)]
  | .record name fields =>
    .obj [("kind", .str Form.record.word), ("name", .str name),
      ("fields", .arr (fieldsToJson fields))]
  | .enumeration name members =>
    .obj [("kind", .str Form.enumeration.word), ("name", .str name),
      ("members", .arr (members.map EnumMember.toJson))]
  | .path => .obj [("kind", .str Form.path.word)]
  | .fileData => .obj [("kind", .str Form.fileData.word)]

/-- Types as documents. -/
def allToJson : List Descriptor → List Json
  | [] => []
  | t :: rest => toJson t :: allToJson rest

/-- Fields as documents. -/
def fieldsToJson : List (Field Descriptor) → List Json
  | [] => []
  | ⟨name, type, default⟩ :: rest =>
    .obj ([("name", .str name), ("type", toJson type)] ++ defaultSlot default) :: fieldsToJson rest
end

/-! ## Reading -/

/-- The scalar type that a word denotes, or an object of one word over null or nothing. -/
def primitiveOfJson? : Json → Option Primitive
  | .str name => Primitive.ofName? name
  | .obj [(name, .null)] => Primitive.ofName? name
  | .obj [(name, .obj [])] => Primitive.ofName? name
  | _ => Option.none

/-- The form of a document and what holds its parts: an object itself, or the rest of an array. -/
def formOf? (nested : Bool) : Json → Option (Form × Json)
  | .obj fields => do
    let form ← Form.ofJson? nested (← Keyed.get? "kind" fields)
    return (form, .obj fields)
  | .arr (head :: rest) => do
    let form ← Form.ofJson? nested head
    return (form, .arr rest)
  | _ => Option.none

/-- A form without parts: an object may hold anything, an array nothing. -/
def bare? (t : Descriptor) : Json → Option Descriptor
  | .obj _ | .arr [] => some t
  | _ => Option.none

theorem sizeOf_le_of_formOf? {nested : Bool} {j body : Json} {form : Form}
    (h : formOf? nested j = some (form, body)) : sizeOf body ≤ sizeOf j := by
  cases j with
  | obj fields =>
    simp only [formOf?, Option.bind_eq_bind, Option.bind_eq_some_iff] at h
    obtain ⟨_, _, _, _, h⟩ := h
    cases h
    exact Nat.le_refl _
  | arr items =>
    cases items with
    | nil => simp [formOf?] at h
    | cons head rest =>
      simp only [formOf?, Option.bind_eq_bind, Option.bind_eq_some_iff] at h
      obtain ⟨_, _, h⟩ := h
      cases h
      simp
  | _ => simp [formOf?] at h

theorem sizeOf_lt_of_formOf? {nested : Bool} {j body part : Json} {form : Form}
    {names : List String} {parts : List (Option Json)}
    (hf : formOf? nested j = some (form, body)) (hs : body.slots? names = some parts)
    (hp : some part ∈ parts) : sizeOf part < sizeOf j := by
  have := sizeOf_le_of_formOf? hf
  have := Json.lt_of_mem_slots? hs hp
  omega

theorem sizeOf_lt_of_formOf?_arr {nested : Bool} {j body : Json} {form : Form}
    {names : List String} {parts : List (Option Json)} {items : List Json}
    (hf : formOf? nested j = some (form, body)) (hs : body.slots? names = some parts)
    (hp : some (.arr items) ∈ parts) : sizeOf items < sizeOf j := by
  have := sizeOf_lt_of_formOf? hf hs hp
  simp at this
  omega

mutual
/-- Reads a type; `nested` tells whether it stands inside another. -/
def ofJson? (nested : Bool) (j : Json) : Option Descriptor :=
  match hf : formOf? nested j with
  | some (.primitive, body) =>
    match body.slots? ["primitive"] with
    | some [some kind] => (primitiveOfJson? kind).map .primitive
    | _ => Option.none
  | some (.none, body) => bare? .none body
  | some (.any, body) => bare? .any body
  | some (.path, body) => bare? .path body
  | some (.fileData, body) => bare? .fileData body
  | some (.optional, body) =>
    match hs : body.slots? ["inner"] with
    | some [some inner] =>
      have : sizeOf inner < sizeOf j := sizeOf_lt_of_formOf? hf hs (by simp)
      (ofJson? true inner).map .optional
    | _ => Option.none
  | some (.list, body) =>
    match hs : body.slots? ["element"] with
    | some [some element] =>
      have : sizeOf element < sizeOf j := sizeOf_lt_of_formOf? hf hs (by simp)
      (ofJson? true element).map .list
    | _ => Option.none
  | some (.mapping, body) =>
    match hs : body.slots? ["key", "value"] with
    | some [some key, some value] =>
      have : sizeOf key < sizeOf j := sizeOf_lt_of_formOf? hf hs (by simp)
      have : sizeOf value < sizeOf j := sizeOf_lt_of_formOf? hf hs (by simp)
      do return .mapping (← ofJson? true key) (← ofJson? true value)
    | _ => Option.none
  | some (.union, body) =>
    match hs : body.slots? ["members"] with
    | some [some (.arr members)] =>
      have : sizeOf members < sizeOf j := sizeOf_lt_of_formOf?_arr hf hs (by simp)
      (allOfJson? members).map .union
    | _ => Option.none
  | some (.record, body) =>
    match hs : body.slots? ["name", "fields"] with
    | some [some (.str name), some (.arr fields)] =>
      have : sizeOf fields < sizeOf j := sizeOf_lt_of_formOf?_arr hf hs (by simp)
      (fieldsOfJson? fields).map (.record name)
    | _ => Option.none
  | some (.enumeration, body) =>
    match body.slots? ["name", "members"] with
    | some [some (.str name), some (.arr members)] =>
      (members.mapM EnumMember.ofJson?).map (.enumeration name)
    | _ => Option.none
  | Option.none => Option.none
termination_by sizeOf j

/-- Reads types that stand inside another. -/
def allOfJson? (js : List Json) : Option (List Descriptor) :=
  match js with
  | [] => some []
  | j :: rest => do return (← ofJson? true j) :: (← allOfJson? rest)
termination_by sizeOf js

/-- Reads fields of a record. -/
def fieldsOfJson? (js : List Json) : Option (List (Field Descriptor)) :=
  match js with
  | [] => some []
  | j :: rest =>
    match hs : j.slots? ["name", "type", "default"] with
    | some [some (.str name), some type, default] =>
      have : sizeOf type < sizeOf j := Json.lt_of_mem_slots? hs (by simp)
      do return { name := name, type := ← ofJson? true type, default := default } ::
        (← fieldsOfJson? rest)
    | _ => Option.none
termination_by sizeOf js
decreasing_by
  · rw [List.cons.sizeOf_spec]
    omega
  · rw [List.cons.sizeOf_spec]
    omega
end

end Descriptor

end CallContract
