import CallContract.Proofs.Normal
import CallContract.Proofs.Traversal

/-!
# What is decoded, and as what

* `Node.Reads`: a node is decoded as a type, up to names and labels, under whatever name and at
  whatever place.
* `NodeRule` lists the forms of nodes in the order in which they are tried, with the type of each;
  `DecodeRule` does so with the names, and `decodeInduction` is induction along it.
* `reads_of_decodeNode`: a node that is decoded at all is decoded so everywhere; `reads_iff`: by one
  of the rules.
-/

namespace CallContract

open Descriptor (unnamed respectsUnions_unnamed widen_unnamed)

/-! ## The rules -/

namespace Node

/-- A node is read as a type, names and labels apart. -/
def Reads (node : Json) (t : Descriptor) : Prop :=
  ∀ name place, ∃ u, decodeNode name place node = .ok u ∧ u.unnamed = t

/-- Whether a node has some type. -/
def typeIs (type : String) (fields : List (String × Json)) : Bool :=
  match Keyed.get? "type" fields with
  | some (.str found) => found = type
  | _ => false

/-- The fields of a node that goes by its type. -/
structure HasType (type : String) (fields : List (String × Json)) : Prop where
  noArms : Keyed.get? "anyOf" fields = none
  type : Keyed.get? "type" fields = some (.str type)

/-- The fields of a node that goes by its type and lists no values. -/
structure HasPlainType (type : String) (fields : List (String × Json)) : Prop
    extends HasType type fields where
  noValues : Keyed.get? "enum" fields = none

/-- The names that a record node lists as required are properties of it. -/
def Requires (fields properties : List (String × Json)) (required : Option (List String)) : Prop :=
  Keyed.get? "required" fields = required.map (fun names => Json.arr (names.map Json.str)) ∧
    ∀ names, required = some names → ∀ name ∈ names, Keyed.contains name properties = true

/-- The arms of a union that are not null. -/
def otherArms (arms : List Json) : List Json :=
  arms.filter fun arm => !isNull arm

end Node

/-- A property of a record node and the field that it makes. -/
def Field.ReadFrom (required : Option (List String)) (property : String × Json)
    (f : Field Descriptor) : Prop :=
  ∃ t, Node.Reads property.2 t ∧ f = decodeField required property.1 property.2 t

open Node (Reads HasType HasPlainType)

/-- The forms of a node with the type that each is read as. -/
inductive NodeRule (fields : List (String × Json)) : Descriptor → Prop where
  | anyOf {arms : List Json} {types : List Descriptor}
      (arms_eq : Keyed.get? "anyOf" fields = some (.arr arms)) (inhabited : arms ≠ [])
      (types_eq : List.Forall₂ Reads (Node.otherArms arms) types) :
      NodeRule fields (decodedUnion (arms.any Node.isNull) types)
  | bare (noArms : Keyed.get? "anyOf" fields = none) (bare : Node.isBare fields = true) :
      NodeRule fields .any
  | enumeration {type : String} {kind : Primitive} {values : List Json}
      (typed : HasType type fields) (values_eq : Keyed.get? "enum" fields = some (.arr values))
      (kind_eq : Primitive.ofName? type = some kind) (inhabited : values ≠ [])
      (admitted : ∀ value ∈ values, kind.admits value = true) :
      NodeRule fields (.enumeration "" (values.map fun v => { label := "", value := v }))
  | null (typed : HasPlainType "null" fields) : NodeRule fields .none
  | fileData (typed : HasPlainType "object" fields)
      (marked : Node.isMarked "is_file_data" fields = true) : NodeRule fields .fileData
  | record {properties : List (String × Json)} {required : Option (List String)}
      {parts : List (Field Descriptor)}
      (typed : HasPlainType "object" fields)
      (unmarked : Node.isMarked "is_file_data" fields = false)
      (properties_eq : Keyed.get? "properties" fields = some (.obj properties))
      (required_eq : Node.Requires fields properties required)
      (parts_eq : List.Forall₂ (Field.ReadFrom required) properties parts) :
      NodeRule fields (.record "" parts)
  | mapping {items key value : Json} {k v : Descriptor}
      (typed : HasPlainType "object" fields)
      (unmarked : Node.isMarked "is_file_data" fields = false)
      (noProperties : Keyed.get? "properties" fields = none)
      (items_eq : Keyed.get? "items" fields = some items)
      (key_eq : items.get? "key" = some key) (value_eq : items.get? "value" = some value)
      (keyReads : Reads key k) (valueReads : Reads value v) :
      NodeRule fields (.mapping k v)
  | anyList (typed : HasPlainType "array" fields) (noItems : Keyed.get? "items" fields = none) :
      NodeRule fields (.list .any)
  | list {items : Json} {element : Descriptor} (typed : HasPlainType "array" fields)
      (items_eq : Keyed.get? "items" fields = some items) (itemsRead : Reads items element) :
      NodeRule fields (.list element)
  | path (typed : HasPlainType "string" fields) (marked : Node.isMarked "is_path" fields = true) :
      NodeRule fields .path
  | primitive {type : String} {kind : Primitive} (typed : HasPlainType type fields)
      (unmarked : type = "string" → Node.isMarked "is_path" fields = false)
      (kind_eq : Primitive.ofName? type = some kind) :
      NodeRule fields (.primitive kind)

/-- The forms of a node with what each is decoded to under a name, given what its parts are decoded
to under theirs. -/
inductive DecodeRule (R : String → Json → Descriptor → Prop) (name : String)
    (fields : List (String × Json)) : Descriptor → Prop where
  | anyOf {arms : List Json} {types : List Descriptor}
      (arms_eq : Keyed.get? "anyOf" fields = some (.arr arms)) (inhabited : arms ≠ [])
      (types_eq : List.Forall₂ (fun arm => R (armName name (types.length = 1) arm.2) arm.1)
        (Node.otherArms arms).zipIdx types) :
      DecodeRule R name fields (decodedUnion (arms.any Node.isNull) types)
  | bare (noArms : Keyed.get? "anyOf" fields = none) (bare : Node.isBare fields = true) :
      DecodeRule R name fields .any
  | enumeration {type : String} {kind : Primitive} {values : List Json}
      (typed : HasType type fields) (values_eq : Keyed.get? "enum" fields = some (.arr values))
      (kind_eq : Primitive.ofName? type = some kind) (inhabited : values ≠ [])
      (admitted : ∀ value ∈ values, kind.admits value = true) :
      DecodeRule R name fields (.ofValues (name ++ "_enum") values)
  | null (typed : HasPlainType "null" fields) : DecodeRule R name fields .none
  | fileData (typed : HasPlainType "object" fields)
      (marked : Node.isMarked "is_file_data" fields = true) : DecodeRule R name fields .fileData
  | record {properties : List (String × Json)} {required : Option (List String)}
      {parts : List (Field Descriptor)}
      (typed : HasPlainType "object" fields)
      (unmarked : Node.isMarked "is_file_data" fields = false)
      (properties_eq : Keyed.get? "properties" fields = some (.obj properties))
      (required_eq : Node.Requires fields properties required)
      (parts_eq : List.Forall₂ (fun property f => ∃ t, R (name ++ "_" ++ property.1) property.2 t ∧
        f = decodeField required property.1 property.2 t) properties parts) :
      DecodeRule R name fields (.record name parts)
  | mapping {items key value : Json} {k v : Descriptor}
      (typed : HasPlainType "object" fields)
      (unmarked : Node.isMarked "is_file_data" fields = false)
      (noProperties : Keyed.get? "properties" fields = none)
      (items_eq : Keyed.get? "items" fields = some items)
      (key_eq : items.get? "key" = some key) (value_eq : items.get? "value" = some value)
      (keyRel : R (name ++ "_key") key k) (valueRel : R (name ++ "_value") value v) :
      DecodeRule R name fields (.mapping k v)
  | anyList (typed : HasPlainType "array" fields) (noItems : Keyed.get? "items" fields = none) :
      DecodeRule R name fields (.list .any)
  | list {items : Json} {element : Descriptor} (typed : HasPlainType "array" fields)
      (items_eq : Keyed.get? "items" fields = some items)
      (itemsRel : R (name ++ "_type") items element) : DecodeRule R name fields (.list element)
  | path (typed : HasPlainType "string" fields) (marked : Node.isMarked "is_path" fields = true) :
      DecodeRule R name fields .path
  | primitive {type : String} {kind : Primitive} (typed : HasPlainType type fields)
      (unmarked : type = "string" → Node.isMarked "is_path" fields = false)
      (kind_eq : Primitive.ofName? type = some kind) :
      DecodeRule R name fields (.primitive kind)

/-! ## Names of scalar types -/

theorem Primitive.name_of_ofName? {type : String} {kind : Primitive}
    (found : Primitive.ofName? type = some kind) : type = kind.name := by
  unfold Primitive.ofName? at found
  split at found
  · cases found
    assumption
  split at found
  · cases found
    assumption
  split at found
  · cases found
    assumption
  split at found
  · cases found
    assumption
  cases found

theorem Primitive.name_ne (kind : Primitive) :
    kind.name ≠ "null" ∧ kind.name ≠ "object" ∧ kind.name ≠ "array" := by
  cases kind <;> decide

/-! ## Parts of nodes -/

namespace Node

theorem typeIs_iff {type : String} {fields : List (String × Json)} :
    typeIs type fields = true ↔ Keyed.get? "type" fields = some (.str type) := by
  rw [typeIs]
  split
  · rename_i found
    rw [found]
    simp
  · rename_i other
    exact iff_of_false Bool.false_ne_true (other type)

theorem HasType.typeIs {type : String} {fields : List (String × Json)} (typed : HasType type fields)
    (other : String) : Node.typeIs other fields = decide (type = other) := by
  rw [Node.typeIs, typed.type]

end Node

theorem isBare_of_hasType {type : String} {fields : List (String × Json)}
    (typed : HasType type fields) : Node.isBare fields = false := by
  have member := Keyed.mem_of_get? typed.type
  rw [Node.isBare, List.all_eq_false]
  exact ⟨_, member, by simp⟩

theorem Node.HasType.isNull {type : String} {fields : List (String × Json)}
    (typed : HasType type fields) : Node.isNull (.obj fields) = decide (type = "null") := by
  have noArms : (Json.obj fields).get? "anyOf" = none := typed.noArms
  have type_eq : (Json.obj fields).get? "type" = some (.str type) := typed.type
  rw [Node.isNull, type_eq, noArms]

/-- A node that is null among the arms of a union goes by its type. -/
theorem exists_hasType_of_isNull {node : Json} (null : Node.isNull node = true) :
    ∃ fields, node = .obj fields ∧ HasType "null" fields := by
  rw [Node.isNull] at null
  split at null
  · rename_i type type_eq noArms
    cases node with
    | obj fields =>
      rw [decide_eq_true_iff] at null
      subst null
      exact ⟨fields, rfl, noArms, type_eq⟩
    | _ => cases type_eq
  · cases null

theorem contains_of_eq {key : String} {value : Json} {fields : List (String × Json)}
    (there : Keyed.get? key fields = some value) : Keyed.contains key fields = true := by
  rw [Keyed.contains, there]
  rfl

theorem not_contains_of_eq {key : String} {fields : List (String × Json)}
    (absent : Keyed.get? key fields = none) : Keyed.contains key fields = false := by
  rw [Keyed.contains, absent]
  rfl

theorem not_isMarked_of_eq {marker : String} {fields : List (String × Json)}
    (absent : Keyed.get? marker fields = none) : Node.isMarked marker fields = false := by
  rw [Node.isMarked, absent]

theorem sizeOf_lt_of_part {key : String} {node : Json} {fields : List (String × Json)}
    (there : Keyed.get? key fields = some node) : sizeOf node < sizeOf (Json.obj fields) :=
  Json.lt_of_get? there

theorem sizeOf_lt_of_arm {key : String} {arm : Json} {arms : List Json}
    {fields : List (String × Json)} (there : Keyed.get? key fields = some (.arr arms))
    (member : arm ∈ arms) : sizeOf arm < sizeOf (Json.obj fields) := by
  have inside : sizeOf arm < sizeOf (Json.arr arms) := Json.lt_of_mem_items rfl member
  exact Nat.lt_trans inside (sizeOf_lt_of_part there)

theorem sizeOf_lt_of_property {key name : String} {node : Json}
    {properties fields : List (String × Json)}
    (there : Keyed.get? key fields = some (.obj properties)) (member : (name, node) ∈ properties) :
    sizeOf node < sizeOf (Json.obj fields) := by
  have inside : sizeOf node < sizeOf (Json.obj properties) := Json.lt_of_mem_fields rfl member
  exact Nat.lt_trans inside (sizeOf_lt_of_part there)

/-- The names that are read as required are those that the node lists. -/
theorem requiredNames?_eq_ok_iff {fields properties : List (String × Json)} {place : Pointer}
    {required : Option (List String)} :
    requiredNames? fields properties place = .ok required ↔
      Node.Requires fields properties required := by
  rw [requiredNames?, Node.Requires]
  split
  · rename_i absent
    rw [absent]
    constructor
    · intro none
      cases none
      exact ⟨rfl, fun _ h => by cases h⟩
    · intro given
      rcases given with ⟨listed, _⟩
      cases required with
      | none => rfl
      | some names => cases listed
  · rename_i items there
    rw [there, Except.bind_eq_ok]
    refine (exists_congr fun names => and_congr_left fun _ =>
      List.mapM_eq_ok_iff_map (g := Json.str) fun item name => ?_).trans ?_
    · cases item <;> simp [Json.text?]
    constructor
    · intro given
      rcases given with ⟨names, rfl, checked⟩
      split at checked
      · cases checked
      · rename_i known
        cases checked
        rw [List.find?_eq_none] at known
        exact ⟨rfl, fun _ same => by cases same; simpa using known⟩
    · intro given
      rcases given with ⟨listed, known⟩
      cases required with
      | none => cases listed
      | some names =>
        cases listed
        refine ⟨names, rfl, ?_⟩
        have all := known names rfl
        have none : (names.find? fun name => !Keyed.contains name properties) = Option.none := by
          refine List.find?_eq_none.2 fun name member => ?_
          rw [all name member]
          exact Bool.false_ne_true
        rw [none]
        rfl
  · rename_i other notArr there
    rw [there]
    constructor
    · intro h
      cases h
    · intro given
      rcases given with ⟨listed, _⟩
      cases required with
      | none => cases listed
      | some names => exact absurd (Option.some.inj listed) (notArr _)

theorem firstNotAdmitted?_eq_none_iff {kind : Primitive} {values : List Json} :
    kind.firstNotAdmitted? values = none ↔ ∀ value ∈ values, kind.admits value = true := by
  rw [Primitive.firstNotAdmitted?, List.find?_eq_none]
  constructor
  · intro none value member
    obtain ⟨i, bound, rfl⟩ := List.mem_iff_getElem.1 member
    simpa using none (values[i], i) (List.mk_mem_zipIdx_iff_getElem?.2 (by simp [bound]))
  · intro all place member
    dsimp only
    rw [all place.1 (List.fst_mem_of_mem_zipIdx member)]
    exact Bool.false_ne_true

/-- An enumeration node lists values of its type, at least one. -/
theorem decodeEnum_eq_ok_iff {type name : String} {values : Json} {place : Pointer}
    {t : Descriptor} :
    decodeEnum type values name place = .ok t ↔
      ∃ kind items, Primitive.ofName? type = some kind ∧ values = .arr items ∧ items ≠ [] ∧
        (∀ value ∈ items, kind.admits value = true) ∧
        t = .ofValues (name ++ "_enum") items := by
  rw [decodeEnum]
  constructor
  · intro decoded
    split at decoded
    · cases decoded
    · rename_i kind ofName
      split at decoded
      · rename_i first rest
        split at decoded
        · cases decoded
        · rename_i admitted
          cases decoded
          exact ⟨kind, _, ofName, rfl, List.cons_ne_nil _ _,
            firstNotAdmitted?_eq_none_iff.1 admitted, rfl⟩
      · cases decoded
  · intro given
    rcases given with ⟨kind, items, ofName, rfl, inhabited, admitted, rfl⟩
    obtain ⟨first, rest, rfl⟩ := List.exists_cons_of_ne_nil inhabited
    rw [ofName]
    dsimp only
    rw [firstNotAdmitted?_eq_none_iff.2 admitted]

theorem unnamed_ofValues (name : String) (values : List Json) :
    unnamed (.ofValues name values) =
      .enumeration "" (values.map fun v => { label := "", value := v }) := by
  rw [Descriptor.ofValues, Descriptor.unnamed_enumeration, List.map_map]
  rfl

theorem unnamed_decodedUnion (hadNull : Bool) (types : List Descriptor) :
    (decodedUnion hadNull types).unnamed = decodedUnion hadNull (types.map unnamed) := by
  rcases types with _ | ⟨t, _ | ⟨u, rest⟩⟩
  · rfl
  · cases hadNull <;> rfl
  · have union := respectsUnions_unnamed.union
    cases hadNull with
    | false => exact union _
    | true =>
      refine (union (t :: u :: rest ++ [.none])).trans ?_
      rw [List.map_append]
      rfl

theorem decodeField_name (required : Option (List String)) (name : String) (node : Json)
    (t : Descriptor) : (decodeField required name node t).name = name := by
  rw [decodeField]
  split
  · rfl
  · rfl
  · split <;> rfl

theorem decodeField_unnamed (required : Option (List String)) (name : String) (node : Json)
    (t : Descriptor) :
    (decodeField required name node t).mapType unnamed =
      decodeField required name node t.unnamed := by
  rw [decodeField, decodeField]
  split
  · rw [Field.mapType, widen_unnamed]
  · rfl
  · split
    · rfl
    · rw [Field.mapType, widen_unnamed]

/-! ## Decoding in stages -/

/-- The type of a node of objects. -/
def decodeObject (name : String) (place : Pointer) (fields : List (String × Json)) :
    Except DecodeError Descriptor :=
  if Node.isMarked "is_file_data" fields then .ok .fileData
  else
    match Keyed.get? "properties" fields with
    | some (.obj properties) => do
      let required ← requiredNames? fields properties place
      let types ← decodeProperties name (place ++ ["properties"]) required properties
      return .record name types
    | some _ => .error ⟨place ++ ["properties"], .propertiesNotObject⟩
    | none =>
      match Keyed.get? "items" fields with
      | none => .error ⟨place, .objectWithoutParts⟩
      | some items =>
        match items.get? "key", items.get? "value" with
        | some key, some value => do
          let k ← decodeNode (name ++ "_key") (place ++ ["items", "key"]) key
          let v ← decodeNode (name ++ "_value") (place ++ ["items", "value"]) value
          return .mapping k v
        | _, _ => .error ⟨place ++ ["items"], .mappingWithoutParts⟩

/-- The type of a node of arrays. -/
def decodeArray (name : String) (place : Pointer) (fields : List (String × Json)) :
    Except DecodeError Descriptor :=
  match Keyed.get? "items" fields with
  | none => .ok (.list .any)
  | some items => do
    let element ← decodeNode (name ++ "_type") (place ++ ["items"]) items
    return .list element

/-- The type of a node that goes by its type and lists no values. -/
def decodePlainType (type name : String) (place : Pointer) (fields : List (String × Json)) :
    Except DecodeError Descriptor :=
  if type = "null" then .ok .none
  else if type = "object" then decodeObject name place fields
  else if type = "array" then decodeArray name place fields
  else if type = "string" ∧ Node.isMarked "is_path" fields then .ok .path
  else
    match Primitive.ofName? type with
    | some kind => .ok (.primitive kind)
    | none => .error ⟨place ++ ["type"], .unknownType type⟩

theorem decodeNode_obj (name : String) (place : Pointer) (fields : List (String × Json)) :
    decodeNode name place (.obj fields) =
      match Keyed.get? "anyOf" fields with
      | some (.arr arms) =>
        if arms.isEmpty then .error ⟨place ++ ["anyOf"], .noArms⟩
        else do
          let types ←
            decodeArms name ((Node.otherArms arms).length = 1) (place ++ ["anyOf"]) 0 0 arms
          return decodedUnion (arms.any Node.isNull) types
      | some _ => .error ⟨place ++ ["anyOf"], .noArms⟩
      | none =>
        if Node.isBare fields then .ok .any
        else
          match Keyed.get? "type" fields with
          | none => .error ⟨place, .noForm⟩
          | some (.str type) =>
            match Keyed.get? "enum" fields with
            | some values => decodeEnum type values name place
            | none => decodePlainType type name place fields
          | some other => .error ⟨place, .typeNotString other⟩ := by
  rw [decodeNode]
  split
  · rename_i arms found
    dsimp only
    rw [found]
    rfl
  · rename_i other notArr found
    rw [found]
    cases other with
    | arr arms => exact absurd rfl (notArr arms)
    | _ => rfl
  · rename_i found
    rw [found]
    dsimp only
    congr 1
    cases Keyed.get? "type" fields with
    | none => rfl
    | some value =>
      cases value with
      | str type =>
        dsimp only
        cases Keyed.get? "enum" fields with
        | some values => rfl
        | none =>
          dsimp only
          unfold decodePlainType decodeObject decodeArray
          congr 2
          · congr 1
            split
            · rename_i properties found
              rw [found]
            · rename_i other notObj found
              rw [found]
              cases other with
              | obj properties => exact absurd rfl (notObj properties)
              | _ => rfl
            · rename_i found
              rw [found]
              dsimp only
              split
              · rename_i items found
                rw [found]
                dsimp only
                split
                · rename_i keyFound valueFound
                  rw [keyFound, valueFound]
                · rename_i missing
                  split
                  · rename_i keyFound valueFound
                    exact absurd valueFound (missing _ _ keyFound)
                  · rfl
              · rename_i found
                rw [found]
          · congr 1
            split
            · rename_i found
              rw [found]
            · rename_i found
              rw [found]
      | _ => rfl


/-! ## Nodes that are read -/

theorem Node.Reads.arms {arms : List Json} {types : List Descriptor}
    (reads : List.Forall₂ Reads (Node.otherArms arms) types) (name : String) (alone : Bool)
    (place : Pointer) : ∀ position index, ∃ ts,
      decodeArms name alone place position index arms = .ok ts ∧ ts.map unnamed = types := by
  induction arms generalizing types with
  | nil =>
    intro position index
    cases reads
    exact ⟨[], by rw [decodeArms], rfl⟩
  | cons arm rest ih =>
    intro position index
    rw [decodeArms]
    rw [Node.otherArms, List.filter_cons] at reads
    cases null : Node.isNull arm with
    | true =>
      rw [null] at reads
      exact ih reads (position + 1) index
    | false =>
      rw [null] at reads
      obtain ⟨t, types', head, tail, rfl⟩ := List.forall₂_cons_left_iff.1 reads
      obtain ⟨u, decoded, rfl⟩ :=
        head (armName name alone index) (place ++ [Decimal.natText position])
      obtain ⟨us, others, rfl⟩ := ih tail (position + 1) (index + 1)
      exact ⟨u :: us, by rw [decoded, others]; rfl, rfl⟩

theorem Node.Reads.properties {properties : List (String × Json)}
    {required : Option (List String)} {parts : List (Field Descriptor)}
    (reads : List.Forall₂ (Field.ReadFrom required) properties parts) (name : String)
    (place : Pointer) : ∃ fields,
      decodeProperties name place required properties = .ok fields ∧
        fields.map (Field.mapType unnamed) = parts := by
  induction reads with
  | nil => exact ⟨[], by rw [decodeProperties], rfl⟩
  | @cons property part properties parts head _ ih =>
    obtain ⟨key, node⟩ := property
    obtain ⟨t, read, rfl⟩ := head
    obtain ⟨u, decoded, rfl⟩ := read (name ++ "_" ++ key) (place ++ [key])
    obtain ⟨fields, others, rfl⟩ := ih
    refine ⟨decodeField required key node u :: fields, ?_, ?_⟩
    · rw [decodeProperties, decoded, others]
      rfl
    · rw [List.map_cons, decodeField_unnamed]

/-- A node that goes by its type and lists no values is decoded by that type. -/
theorem decodeNode_of_hasPlainType {type : String} {fields : List (String × Json)}
    (typed : HasPlainType type fields) (name : String) (place : Pointer) :
    decodeNode name place (.obj fields) = decodePlainType type name place fields := by
  rw [decodeNode_obj, typed.noArms, typed.type, typed.noValues, isBare_of_hasType typed.toHasType]
  rfl

/-- A node that has properties is decoded by these and by the names that it requires. -/
theorem decodeNode_of_properties {fields properties : List (String × Json)}
    {required : Option (List String)} (typed : HasPlainType "object" fields)
    (unmarked : Node.isMarked "is_file_data" fields = false)
    (properties_eq : Keyed.get? "properties" fields = some (.obj properties))
    (required_eq : Node.Requires fields properties required) (name : String) (place : Pointer) :
    decodeNode name place (.obj fields) =
      Descriptor.record name <$>
        decodeProperties name (place ++ ["properties"]) required properties := by
  rw [decodeNode_of_hasPlainType typed]
  change decodeObject name place fields = _
  rw [decodeObject, unmarked, properties_eq]
  dsimp only
  rw [requiredNames?_eq_ok_iff.2 required_eq]
  rfl

/-- A node is read by the rule for its form. -/
theorem NodeRule.reads {fields : List (String × Json)} {t : Descriptor} (rule : NodeRule fields t) :
    Reads (.obj fields) t := by
  intro name place
  cases rule with
  | @anyOf arms types arms_eq inhabited types_eq =>
    obtain ⟨ts, decoded, rfl⟩ := Reads.arms types_eq name ((Node.otherArms arms).length = 1)
      (place ++ ["anyOf"]) 0 0
    refine ⟨decodedUnion (arms.any Node.isNull) ts, ?_, unnamed_decodedUnion _ ts⟩
    rw [decodeNode_obj, arms_eq]
    dsimp only
    rw [if_neg (mt List.isEmpty_iff.1 inhabited), decoded]
    rfl
  | bare noArms bare =>
    refine ⟨.any, ?_, rfl⟩
    rw [decodeNode_obj, noArms]
    exact if_pos bare
  | enumeration typed values_eq kind_eq inhabited admitted =>
    refine ⟨_, ?_, unnamed_ofValues (name ++ "_enum") _⟩
    rw [decodeNode_obj, typed.noArms, typed.type, values_eq, isBare_of_hasType typed]
    exact decodeEnum_eq_ok_iff.2 ⟨_, _, kind_eq, rfl, inhabited, admitted, rfl⟩
  | null typed =>
    refine ⟨.none, ?_, rfl⟩
    rw [decodeNode_of_hasPlainType typed]
    rfl
  | fileData typed marked =>
    refine ⟨.fileData, ?_, rfl⟩
    rw [decodeNode_of_hasPlainType typed]
    exact if_pos marked
  | record typed unmarked properties_eq required_eq parts_eq =>
    obtain ⟨fs, decoded, rfl⟩ := Reads.properties parts_eq name (place ++ ["properties"])
    refine ⟨.record name fs, ?_, Descriptor.unnamed_record name fs⟩
    rw [decodeNode_of_properties typed unmarked properties_eq required_eq, decoded]
    rfl
  | mapping typed unmarked noProperties items_eq key_eq value_eq keyReads valueReads =>
    obtain ⟨k, keyDecoded, rfl⟩ := keyReads (name ++ "_key") (place ++ ["items", "key"])
    obtain ⟨v, valueDecoded, rfl⟩ := valueReads (name ++ "_value") (place ++ ["items", "value"])
    refine ⟨.mapping k v, ?_, rfl⟩
    rw [decodeNode_of_hasPlainType typed]
    change decodeObject name place fields = _
    rw [decodeObject, unmarked, noProperties, items_eq]
    dsimp only
    rw [key_eq, value_eq]
    exact Except.bind_eq_ok.2 ⟨_, keyDecoded, Except.bind_eq_ok.2 ⟨_, valueDecoded, rfl⟩⟩
  | anyList typed noItems =>
    refine ⟨.list .any, ?_, rfl⟩
    rw [decodeNode_of_hasPlainType typed]
    change decodeArray name place fields = _
    rw [decodeArray, noItems]
  | list typed items_eq itemsRead =>
    obtain ⟨u, decoded, rfl⟩ := itemsRead (name ++ "_type") (place ++ ["items"])
    refine ⟨.list u, ?_, rfl⟩
    rw [decodeNode_of_hasPlainType typed]
    change decodeArray name place fields = _
    rw [decodeArray, items_eq]
    exact Except.bind_eq_ok.2 ⟨_, decoded, rfl⟩
  | path typed marked =>
    refine ⟨.path, ?_, rfl⟩
    rw [decodeNode_of_hasPlainType typed, decodePlainType, if_neg (by decide), if_neg (by decide),
      if_neg (by decide), if_pos ⟨rfl, marked⟩]
  | @primitive type kind typed unmarked kind_eq =>
    refine ⟨.primitive kind, ?_, rfl⟩
    obtain rfl := Primitive.name_of_ofName? kind_eq
    have marked : ¬ (kind.name = "string" ∧ Node.isMarked "is_path" fields = true) := by
      intro given
      rcases given with ⟨string, marked⟩
      rw [unmarked string] at marked
      cases marked
    obtain ⟨notNull, notObject, notArray⟩ := Primitive.name_ne kind
    rw [decodeNode_of_hasPlainType typed, decodePlainType, if_neg notNull, if_neg notObject,
      if_neg notArray, if_neg marked, kind_eq]

/-- The arms are decoded under the names of their indices. -/
theorem forall₂_of_decodeArms {name : String} {alone : Bool} {place : Pointer} {arms : List Json}
    {types : List Descriptor} : ∀ {position index : Nat},
    decodeArms name alone place position index arms = .ok types →
      List.Forall₂ (fun arm t => ∃ place, decodeNode (armName name alone arm.2) place arm.1 = .ok t)
        ((Node.otherArms arms).zipIdx index) types := by
  induction arms generalizing types with
  | nil =>
    intro position index decoded
    rw [decodeArms] at decoded
    cases decoded
    exact .nil
  | cons arm rest ih =>
    intro position index decoded
    rw [decodeArms] at decoded
    rw [Node.otherArms, List.filter_cons]
    cases null : Node.isNull arm with
    | true =>
      rw [null] at decoded
      exact ih decoded
    | false =>
      rw [null] at decoded
      obtain ⟨t, first, others⟩ := Except.bind_eq_ok.1 decoded
      obtain ⟨ts, tail, result⟩ := Except.bind_eq_ok.1 others
      cases result
      exact .cons ⟨_, first⟩ (ih tail)

/-- The properties are decoded under names that theirs are put behind. -/
theorem forall₂_of_decodeProperties {name : String} {place : Pointer}
    {required : Option (List String)} {properties : List (String × Json)}
    {fields : List (Field Descriptor)}
    (decoded : decodeProperties name place required properties = .ok fields) :
    List.Forall₂ (fun p f => ∃ place t, decodeNode (name ++ "_" ++ p.1) place p.2 = .ok t ∧
      f = decodeField required p.1 p.2 t) properties fields := by
  induction properties generalizing fields with
  | nil =>
    rw [decodeProperties] at decoded
    cases decoded
    exact .nil
  | cons property rest ih =>
    obtain ⟨key, node⟩ := property
    rw [decodeProperties] at decoded
    obtain ⟨t, first, others⟩ := Except.bind_eq_ok.1 decoded
    obtain ⟨ts, tail, result⟩ := Except.bind_eq_ok.1 others
    cases result
    exact .cons ⟨_, t, first, rfl⟩ (ih tail)

section Parts

variable {R : String → Json → Descriptor → Prop}

/-- Wherever the parts of a node are decoded, a relation holds of them. -/
def Node.PartsRelated (R : String → Json → Descriptor → Prop) (fields : List (String × Json)) :
    Prop :=
  ∀ part, sizeOf part < sizeOf (Json.obj fields) → ∀ name place t,
    decodeNode name place part = .ok t → R name part t

variable {fields : List (String × Json)} {name : String} {place : Pointer} {t : Descriptor}

theorem decodeRule_of_decodeObject (parts : Node.PartsRelated R fields)
    (typed : HasPlainType "object" fields) (decoded : decodeObject name place fields = .ok t) :
    DecodeRule R name fields t := by
  rw [decodeObject] at decoded
  split at decoded
  · rename_i marked
    cases decoded
    exact .fileData typed marked
  · rename_i unmarked
    have unmarked' := eq_false_of_ne_true unmarked
    split at decoded
    · rename_i properties properties_eq
      obtain ⟨required, required_eq, rest⟩ := Except.bind_eq_ok.1 decoded
      obtain ⟨types, typesDecoded, result⟩ := Except.bind_eq_ok.1 rest
      cases result
      refine .record typed unmarked' properties_eq (requiredNames?_eq_ok_iff.1 required_eq) ?_
      refine (forall₂_of_decodeProperties typesDecoded).imp_of_mem ?_
      intro pair member f _ given
      rcases pair with ⟨key, node⟩
      rcases given with ⟨place', u, nodeDecoded, rfl⟩
      have smaller := sizeOf_lt_of_property properties_eq member
      exact ⟨u, parts node smaller _ place' u nodeDecoded, rfl⟩
    · cases decoded
    · rename_i noProperties
      split at decoded
      · cases decoded
      · rename_i items items_eq
        split at decoded
        · rename_i key value key_eq value_eq
          obtain ⟨k, keyDecoded, rest⟩ := Except.bind_eq_ok.1 decoded
          obtain ⟨v, valueDecoded, result⟩ := Except.bind_eq_ok.1 rest
          cases result
          have inside := sizeOf_lt_of_part items_eq
          have keySmaller := Nat.lt_trans (Json.lt_of_get? key_eq) inside
          have valueSmaller := Nat.lt_trans (Json.lt_of_get? value_eq) inside
          exact .mapping typed unmarked' noProperties items_eq key_eq value_eq
            (parts key keySmaller _ _ k keyDecoded) (parts value valueSmaller _ _ v valueDecoded)
        · cases decoded

theorem decodeRule_of_decodeArray (parts : Node.PartsRelated R fields)
    (typed : HasPlainType "array" fields) (decoded : decodeArray name place fields = .ok t) :
    DecodeRule R name fields t := by
  rw [decodeArray] at decoded
  split at decoded
  · rename_i noItems
    cases decoded
    exact .anyList typed noItems
  · rename_i items items_eq
    obtain ⟨element, itemsDecoded, result⟩ := Except.bind_eq_ok.1 decoded
    cases result
    have smaller := sizeOf_lt_of_part items_eq
    exact .list typed items_eq (parts items smaller _ _ element itemsDecoded)

theorem decodeRule_of_decodePlainType {type : String} (parts : Node.PartsRelated R fields)
    (typed : HasPlainType type fields) (decoded : decodePlainType type name place fields = .ok t) :
    DecodeRule R name fields t := by
  rw [decodePlainType] at decoded
  split at decoded
  · rename_i null
    subst null
    cases decoded
    exact .null typed
  split at decoded
  · rename_i object
    subst object
    exact decodeRule_of_decodeObject parts typed decoded
  split at decoded
  · rename_i array
    subst array
    exact decodeRule_of_decodeArray parts typed decoded
  split at decoded
  · rename_i string
    obtain ⟨rfl, marked⟩ := string
    cases decoded
    exact .path typed marked
  · rename_i notPath
    split at decoded
    · rename_i kind kind_eq
      cases decoded
      refine .primitive typed (fun string => ?_) kind_eq
      exact eq_false_of_ne_true fun marked => notPath ⟨string, marked⟩
    · cases decoded

/-- A node is decoded by the rule for its form. -/
theorem decodeRule_of_decodeNode (parts : Node.PartsRelated R fields)
    (decoded : decodeNode name place (.obj fields) = .ok t) : DecodeRule R name fields t := by
  rw [decodeNode_obj] at decoded
  split at decoded
  · rename_i arms arms_eq
    split at decoded
    · cases decoded
    · rename_i inhabited
      obtain ⟨types, armsDecoded, result⟩ := Except.bind_eq_ok.1 decoded
      cases result
      have related := forall₂_of_decodeArms armsDecoded
      have length : (Node.otherArms arms).length = types.length :=
        List.length_zipIdx.symm.trans related.length_eq
      rw [length] at related
      refine .anyOf arms_eq (mt List.isEmpty_iff.2 inhabited) (related.imp_of_mem ?_)
      intro arm member u _ given
      rcases given with ⟨place', armDecoded⟩
      have among := List.mem_of_mem_filter (List.fst_mem_of_mem_zipIdx member)
      exact parts arm.1 (sizeOf_lt_of_arm arms_eq among) _ place' u armDecoded
  · cases decoded
  · rename_i noArms
    split at decoded
    · rename_i bare
      cases decoded
      exact .bare noArms bare
    · split at decoded
      · cases decoded
      · rename_i type type_eq
        split at decoded
        · rename_i values values_eq
          obtain ⟨kind, items, kind_eq, rfl, inhabited, admitted, rfl⟩ :=
            decodeEnum_eq_ok_iff.1 decoded
          exact .enumeration ⟨noArms, type_eq⟩ values_eq kind_eq inhabited admitted
        · rename_i noValues
          exact decodeRule_of_decodePlainType parts ⟨⟨noArms, type_eq⟩, noValues⟩ decoded
      · cases decoded

/-- What the rules carry from the parts of a node to the node holds of all nodes that are decoded. -/
theorem decodeInduction
    (rule : ∀ name fields t, DecodeRule R name fields t → R name (.obj fields) t) {node : Json} :
    ∀ {name : String} {place : Pointer} {t : Descriptor},
      decodeNode name place node = .ok t → R name node t := by
  induction size : sizeOf node using Nat.strongRecOn generalizing node with
  | _ n ih =>
    subst size
    intro name place t decoded
    cases node with
    | obj fields =>
      refine rule name fields t (decodeRule_of_decodeNode ?_ decoded)
      intro part smaller name' place' u partDecoded
      exact ih (sizeOf part) smaller rfl partDecoded
    | _ =>
      rw [decodeNode] at decoded
      · cases decoded
      · intro fields same
        cases same

end Parts

/-- A node whose parts are read as what they are decoded to is read by the rule for its form. -/
theorem DecodeRule.nodeRule {name : String} {fields : List (String × Json)} {t : Descriptor}
    (rule : DecodeRule (fun _ part u => Reads part u.unnamed) name fields t) :
    NodeRule fields t.unnamed := by
  cases rule with
  | @anyOf arms types arms_eq inhabited types_eq =>
    rw [unnamed_decodedUnion]
    refine .anyOf arms_eq inhabited ?_
    rwa [List.forall₂_map_right_iff, ← List.zipIdx_map_fst 0 (Node.otherArms arms),
      List.forall₂_map_left_iff]
  | bare noArms bare => exact .bare noArms bare
  | enumeration typed values_eq kind_eq inhabited admitted =>
    rw [unnamed_ofValues]
    exact .enumeration typed values_eq kind_eq inhabited admitted
  | null typed => exact .null typed
  | fileData typed marked => exact .fileData typed marked
  | record typed unmarked properties_eq required_eq parts_eq =>
    rw [Descriptor.unnamed_record]
    refine .record typed unmarked properties_eq required_eq ?_
    rw [List.forall₂_map_right_iff]
    refine parts_eq.imp ?_
    rintro property _ ⟨u, reads, rfl⟩
    exact ⟨u.unnamed, reads, decodeField_unnamed _ _ _ u⟩
  | mapping typed unmarked noProperties items_eq key_eq value_eq keyReads valueReads =>
    exact .mapping typed unmarked noProperties items_eq key_eq value_eq keyReads valueReads
  | anyList typed noItems => exact .anyList typed noItems
  | list typed items_eq itemsRead => exact .list typed items_eq itemsRead
  | path typed marked => exact .path typed marked
  | primitive typed unmarked kind_eq => exact .primitive typed unmarked kind_eq

/-- A node that is decoded is read so everywhere. -/
theorem reads_of_decodeNode {node : Json} {name : String} {place : Pointer} {t : Descriptor}
    (decoded : decodeNode name place node = .ok t) : Reads node t.unnamed :=
  decodeInduction (R := fun _ part u => Reads part u.unnamed)
    (fun _ _ _ rule => rule.nodeRule.reads) decoded

/-- A node is read by the rule for its form and not otherwise. -/
theorem reads_iff {fields : List (String × Json)} {t : Descriptor} :
    Reads (.obj fields) t ↔ NodeRule fields t := by
  refine ⟨fun reads => ?_, NodeRule.reads⟩
  obtain ⟨u, decoded, rfl⟩ := reads "" []
  exact (decodeRule_of_decodeNode (fun _ _ _ _ _ => reads_of_decodeNode) decoded).nodeRule

theorem Node.Reads.exists_fields {node : Json} {t : Descriptor} (reads : Reads node t) :
    ∃ fields, node = .obj fields := by
  obtain ⟨u, decoded, _⟩ := reads "" []
  cases node with
  | obj fields => exact ⟨fields, rfl⟩
  | _ =>
    rw [decodeNode] at decoded
    · cases decoded
    · intro fields same
      cases same

end CallContract
