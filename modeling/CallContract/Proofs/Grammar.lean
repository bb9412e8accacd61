import CallContract.Proofs.Decoding
import CallContract.Schema.Grammar
import CallContract.Schema.Node

/-!
# The grammar, form by form

* `isNode_obj` and the equations of the forms say what the grammar looks at.
* `isNode_array` and its neighbours say which of the nodes that types are encoded as belong to the
  grammar, and with which default beside the form.
* `NodeForm` lists the forms of the nodes of the grammar with their parts; `nodeForm_of_isNode`:
  there is no other. `isInputSchema_iff` says which of them the schema of a request can be.
-/

namespace CallContract

open Node (HasType HasPlainType withDefault)

/-! ## Lists of nodes -/

theorem areNodes_eq_all (docs : List Json) : areNodes docs = docs.all isNode := by
  induction docs with
  | nil => rw [areNodes, List.all_nil]
  | cons doc rest ih => rw [areNodes, List.all_cons, ih]

theorem areProperties_eq_all (properties : List (String × Json)) :
    areProperties properties = properties.all fun property => isNode property.2 := by
  induction properties with
  | nil => rw [areProperties, List.all_nil]
  | cons property rest ih =>
    rcases property with ⟨key, doc⟩
    rw [areProperties, List.all_cons, ih]

/-! ## What each form looks at -/

section Forms

variable (fields : List (String × Json))

theorem isUnionForm_eq :
    isUnionForm fields =
      (onlyKeys ["anyOf", "default"] fields &&
        match Keyed.get? "anyOf" fields with
        | some (.arr arms) => !arms.isEmpty && arms.all isNode
        | _ => false) := by
  rw [isUnionForm]
  congr 1
  split
  · rename_i arms there
    simp only [there, areNodes_eq_all]
  · rename_i other
    split
    · rename_i arms there
      exact absurd there (other arms)
    · rfl

theorem isArrayForm_eq :
    isArrayForm fields =
      (onlyKeys ["type", "items", "default"] fields &&
        (Keyed.get? "items" fields).all isNode) := by
  rw [isArrayForm]
  congr 1
  split
  · rename_i absent
    simp only [absent, Option.all_none]
  · rename_i items there
    simp only [there, Option.all_some]

theorem isMappingForm_eq :
    isMappingForm fields =
      (onlyKeys ["type", "items", "default"] fields &&
        match Keyed.get? "items" fields with
        | some (.obj items) =>
          items.length = 2 && (Keyed.get? "key" items).any isNode &&
            (Keyed.get? "value" items).any isNode
        | _ => false) := by
  rw [isMappingForm]
  congr 1
  split
  · rename_i items there
    simp only [there]
    congr 2
    · split <;> simp only [*, Option.any_some, Option.any_none]
    · split <;> simp only [*, Option.any_some, Option.any_none]
  · rename_i other
    split
    · rename_i items there
      exact absurd there (other items)
    · rfl

theorem isRecordForm_eq :
    isRecordForm fields =
      (onlyKeys ["type", "properties", "required", "is_file_data", "default"] fields &&
        absentOr "is_file_data" fields (fun flag => flag.equal (.bool true)) &&
        match Keyed.get? "properties" fields with
        | none => absentOr "required" fields (isRequiredList none)
        | some (.obj properties) =>
          properties.all (fun property => isNode property.2) &&
            absentOr "required" fields (isRequiredList (some properties))
        | some _ => false) := by
  rw [isRecordForm]
  congr 1
  split
  · rename_i absent
    rw [absent]
  · rename_i properties there
    simp only [there, areProperties_eq_all]
  · rename_i notObject there
    rw [there]
    split
    · rename_i absent
      cases absent
    · rename_i properties found
      exact absurd (Option.some.inj found) (notObject properties)
    · rfl

theorem isNode_obj :
    isNode (.obj fields) =
      if Node.isBare fields then true
      else if Keyed.contains "anyOf" fields then isUnionForm fields
      else
        match typeName? fields with
        | none => false
        | some type =>
          if type = "null" then isNullForm fields
          else if type = "array" then isArrayForm fields
          else if type = "object" then
            if Keyed.contains "items" fields then isMappingForm fields else isRecordForm fields
          else isPrimitiveForm fields :=
  isNode.eq_def (.obj fields)

end Forms

/-! ## The rules -/

/-- A value that can be the default of a scalar node: null, or one that the scalar type admits. -/
def Primitive.admitsDefault (kind : Primitive) (value : Json) : Bool :=
  value.isNull || kind.admits value

section Rules

variable {fields : List (String × Json)}

theorem typeName?_eq_some_iff {type : String} :
    typeName? fields = some type ↔ Keyed.get? "type" fields = some (.str type) := by
  rw [typeName?, Option.bind_eq_some_iff]
  constructor
  · intro given
    rcases given with ⟨value, there, text⟩
    cases value with
    | str found =>
      cases text
      exact there
    | _ => cases text
  · intro there
    exact ⟨_, there, rfl⟩

/-- A node that goes by its type is one of the form of that type. -/
theorem isNode_of_hasType {type : String} (typed : HasType type fields) :
    isNode (.obj fields) =
      if type = "null" then isNullForm fields
      else if type = "array" then isArrayForm fields
      else if type = "object" then
        if Keyed.contains "items" fields then isMappingForm fields else isRecordForm fields
      else isPrimitiveForm fields := by
  have name := typeName?_eq_some_iff.2 typed.type
  rw [isNode_obj, isBare_of_hasType typed, not_contains_of_eq typed.noArms, name]
  rfl

theorem isNode_eq_isNullForm (typed : HasType "null" fields) :
    isNode (.obj fields) = isNullForm fields :=
  isNode_of_hasType typed

theorem isNode_eq_isArrayForm (typed : HasType "array" fields) :
    isNode (.obj fields) = isArrayForm fields :=
  isNode_of_hasType typed

theorem isNode_eq_isMappingForm (typed : HasType "object" fields)
    (items : Keyed.contains "items" fields = true) :
    isNode (.obj fields) = isMappingForm fields :=
  (isNode_of_hasType typed).trans (if_pos items)

theorem isNode_eq_isRecordForm (typed : HasType "object" fields)
    (noItems : Keyed.contains "items" fields = false) :
    isNode (.obj fields) = isRecordForm fields := by
  rw [isNode_of_hasType typed, noItems]
  rfl

/-- A record node that has properties is judged by them and by the names that it requires. -/
theorem isRecordForm_of_properties {properties : List (String × Json)}
    (keys : onlyKeys ["type", "properties", "required", "is_file_data", "default"] fields = true)
    (marker : absentOr "is_file_data" fields (fun flag => flag.equal (.bool true)) = true)
    (there : Keyed.get? "properties" fields = some (.obj properties)) :
    isRecordForm fields =
      (properties.all (fun property => isNode property.2) &&
        absentOr "required" fields (isRequiredList (some properties))) := by
  rw [isRecordForm_eq, keys, marker, there]
  rfl

theorem isNode_eq_isPrimitiveForm {kind : Primitive} (typed : HasType kind.name fields) :
    isNode (.obj fields) =
      (onlyKeys ["type", "default", "is_path", "enum"] fields &&
        absentOr "is_path" fields (fun flag => kind = .string && flag.equal (.bool true)) &&
        absentOr "enum" fields (fun values =>
          match values with
          | .arr items => !items.isEmpty && items.all kind.admits
          | _ => false) &&
        absentOr "default" fields kind.admitsDefault) := by
  rcases Primitive.name_ne kind with ⟨notNull, notObject, notArray⟩
  have kind_eq : (typeName? fields).bind Primitive.ofName? = some kind := by
    rw [typeName?_eq_some_iff.2 typed.type]
    exact Primitive.ofName?_name kind
  rw [isNode_of_hasType typed, if_neg notNull, if_neg notArray, if_neg notObject,
    isPrimitiveForm, kind_eq]
  rfl

theorem isNode_eq_isUnionForm {arms : Json} (there : Keyed.get? "anyOf" fields = some arms) :
    isNode (.obj fields) = isUnionForm fields := by
  have notBare : Node.isBare fields = false := by
    have member := Keyed.mem_of_get? there
    rw [Node.isBare, List.all_eq_false]
    exact ⟨_, member, by simp⟩
  rw [isNode_obj, notBare, contains_of_eq there]
  rfl

theorem isRequiredList_names (names : List String) (properties : List (String × Json)) :
    isRequiredList (some properties) (.arr (names.map .str)) =
      names.all fun name => Keyed.contains name properties := by
  cases names with
  | nil => rfl
  | cons name rest =>
    rw [List.map_cons, isRequiredList]
    · simp [Json.text?, Function.comp_def]
    · intro same
      cases same

end Rules

/-! ## The nodes of types, with a default or without -/

section Encoded

variable (default : Option Json)

theorem isNode_null : isNode (withDefault Node.null default) = default.all Json.isNull := by
  cases default <;> exact isNode_eq_isNullForm ⟨rfl, rfl⟩

theorem isNode_anything : isNode (withDefault Node.anything default) = true := by
  cases default <;> exact isNode_obj _

theorem isNode_primitive (kind : Primitive) :
    isNode (withDefault (Node.primitive kind) default) = default.all kind.admitsDefault := by
  cases default <;> exact isNode_eq_isPrimitiveForm ⟨rfl, rfl⟩

theorem isNode_path :
    isNode (withDefault Node.path default) = default.all Primitive.string.admitsDefault := by
  have rule {fields : List (String × Json)} (typed : HasType Primitive.string.name fields) :=
    isNode_eq_isPrimitiveForm typed
  cases default <;> exact rule ⟨rfl, rfl⟩

theorem isNode_enumeration (kind : Primitive) (values : List Json) :
    isNode (withDefault (Node.enumeration kind values) default) =
      ((!values.isEmpty && values.all kind.admits) && default.all kind.admitsDefault) := by
  cases default <;> exact isNode_eq_isPrimitiveForm ⟨rfl, rfl⟩

theorem isNode_array (items : Json) :
    isNode (withDefault (Node.array items) default) = isNode items := by
  cases default <;> exact (isNode_eq_isArrayForm ⟨rfl, rfl⟩).trans (isArrayForm_eq _)

theorem isNode_mapping (key value : Json) :
    isNode (withDefault (Node.mapping key value) default) = (isNode key && isNode value) := by
  cases default <;> exact (isNode_eq_isMappingForm ⟨rfl, rfl⟩ rfl).trans (isMappingForm_eq _)

theorem isNode_anyOf (arms : List Json) :
    isNode (withDefault (Node.anyOf arms) default) = (!arms.isEmpty && arms.all isNode) := by
  cases default <;> exact (isNode_eq_isUnionForm rfl).trans (isUnionForm_eq _)

theorem isNode_record (properties : List (String × Json)) (required : List String) :
    isNode (withDefault (Node.record properties required) default) =
      (properties.all (fun property => isNode property.2) &&
        required.all fun name => Keyed.contains name properties) := by
  have form {fields : List (String × Json)} (typed : HasType "object" fields)
      (noItems : Keyed.contains "items" fields = false) :
      isNode (.obj fields) = isRecordForm fields := isNode_eq_isRecordForm typed noItems
  rw [← isRequiredList_names]
  cases default <;> exact (form ⟨rfl, rfl⟩ rfl).trans (isRecordForm_of_properties rfl rfl rfl)

/-- The properties of file data are nodes. -/
theorem isNode_fileDataProperties :
    Node.fileDataProperties.all (fun property => isNode property.2) = true := by
  have scalar (kind : Primitive) : isNode (Node.primitive kind) = true :=
    isNode_primitive none kind
  have scalarOrNull (kind : Primitive) : isNode (Node.orNull (Node.primitive kind)) = true :=
    isNode_primitive (some .null) kind
  have anything : isNode Node.anything = true := isNode_anything none
  have anyMap (default : Option Json) : isNode (withDefault Node.anyMap default) = true := by
    rw [Node.anyMap, isNode_mapping, scalar, anything]
    rfl
  have anyMaps : isNode (Node.orNull (Node.array Node.anyMap)) = true := by
    rw [Node.orNull, isNode_array]
    exact anyMap none
  have identifiers : isNode (Node.orNull Node.sourceIdentifiers) = true := by
    rw [Node.orNull, Node.sourceIdentifiers, isNode_record]
    simp [scalar, scalarOrNull, Keyed.contains, Keyed.get?]
  have metadata (value : Json) :
      isNode (withDefault Node.sourceMetadata (some value)) = true := by
    have mapOrNull : isNode (Node.orNull Node.anyMap) = true := anyMap (some .null)
    rw [Node.sourceMetadata, isNode_record]
    simp [scalarOrNull, mapOrNull, anyMaps]
  have docType : isNode (withDefault (Node.primitive .string) (some (.str "file"))) = true :=
    isNode_primitive _ .string
  have reprocess : isNode (withDefault (Node.primitive .boolean) (some (.bool false))) = true :=
    isNode_primitive _ .boolean
  simp [Node.fileDataProperties, scalar, scalarOrNull, identifiers, metadata, anyMap, docType,
    reprocess]

theorem isNode_fileData : isNode (withDefault Node.fileData default) = true := by
  have form {fields : List (String × Json)} (typed : HasType "object" fields)
      (noItems : Keyed.contains "items" fields = false) :
      isNode (.obj fields) = isRecordForm fields := isNode_eq_isRecordForm typed noItems
  have judged : (Node.fileDataProperties.all (fun property => isNode property.2) &&
      isRequiredList (some Node.fileDataProperties)
        (.arr [.str "identifier", .str "connector_type"])) = true := by
    rw [isNode_fileDataProperties]
    rfl
  rw [← judged]
  cases default <;> exact (form ⟨rfl, rfl⟩ rfl).trans (isRecordForm_of_properties rfl rfl rfl)

end Encoded

/-! ## The forms of nodes -/

/-- The forms of the nodes of the grammar with their parts. -/
inductive NodeForm (fields : List (String × Json)) : Prop where
  | bare (noArms : Keyed.get? "anyOf" fields = none) (noType : Keyed.get? "type" fields = none)
      (bare : Node.isBare fields = true)
  | anyOf {arms : List Json} (noType : Keyed.get? "type" fields = none)
      (unmarked : Keyed.get? "is_file_data" fields = none)
      (arms_eq : Keyed.get? "anyOf" fields = some (.arr arms)) (inhabited : arms ≠ [])
      (nodes : ∀ arm ∈ arms, isNode arm = true)
  | null (typed : HasPlainType "null" fields)
  | anyList (typed : HasPlainType "array" fields)
      (unmarked : Keyed.get? "is_file_data" fields = none)
      (noItems : Keyed.get? "items" fields = none)
  | list {items : Json} (typed : HasPlainType "array" fields)
      (unmarked : Keyed.get? "is_file_data" fields = none)
      (items_eq : Keyed.get? "items" fields = some items) (node : isNode items = true)
  | mapping {items key value : Json} (typed : HasPlainType "object" fields)
      (unmarked : Keyed.get? "is_file_data" fields = none)
      (noProperties : Keyed.get? "properties" fields = none)
      (items_eq : Keyed.get? "items" fields = some items)
      (key_eq : items.get? "key" = some key) (value_eq : items.get? "value" = some value)
      (keyNode : isNode key = true) (valueNode : isNode value = true)
  | fileData (typed : HasPlainType "object" fields) (noItems : Keyed.get? "items" fields = none)
      (marked : Keyed.get? "is_file_data" fields = some (.bool true))
  | record {properties : List (String × Json)} {required : Option (List String)}
      (typed : HasPlainType "object" fields) (noItems : Keyed.get? "items" fields = none)
      (unmarked : Keyed.get? "is_file_data" fields = none)
      (properties_eq : Keyed.get? "properties" fields = some (.obj properties))
      (required_eq : Node.Requires fields properties required)
      (nodes : ∀ property ∈ properties, isNode property.2 = true)
  | object (typed : HasPlainType "object" fields) (noItems : Keyed.get? "items" fields = none)
      (unmarked : Keyed.get? "is_file_data" fields = none)
      (noProperties : Keyed.get? "properties" fields = none)
  | enumeration {kind : Primitive} {values : List Json} (typed : HasType kind.name fields)
      (values_eq : Keyed.get? "enum" fields = some (.arr values)) (inhabited : values ≠ [])
      (admitted : ∀ value ∈ values, kind.admits value = true)
  | scalar {kind : Primitive} (typed : HasPlainType kind.name fields)

section Inversion

variable {fields : List (String × Json)}

/-- A key that a form does not have is not there. -/
theorem get?_of_onlyKeys {allowed : List String} (keys : onlyKeys allowed fields = true)
    {key : String} (other : key ∉ allowed) : Keyed.get? key fields = none := by
  rw [onlyKeys, List.all_eq_true] at keys
  cases there : Keyed.get? key fields with
  | none => rfl
  | some value =>
    have listed := keys _ (Keyed.mem_of_get? there)
    exact absurd (List.contains_iff_mem.1 listed) other

theorem get?_eq_none_of_not_contains {key : String} (absent : Keyed.contains key fields = false) :
    Keyed.get? key fields = none := by
  rwa [Keyed.contains, Option.isSome_eq_false_iff, Option.isNone_iff_eq_none] at absent

theorem eq_true_of_equal {flag : Json} (same : flag.equal (.bool true) = true) :
    flag = .bool true := by
  rw [Json.equal_iff] at same
  cases flag with
  | bool b => rwa [Json.canonical, Json.canonical] at same
  | _ => simp [Json.canonical] at same

/-- Items that are all texts that pass a test are names that pass it. -/
theorem exists_names {p : String → Bool} {items : List Json}
    (texts : items.all (fun item => item.text?.any p) = true) :
    ∃ names : List String, items = names.map .str ∧ ∀ name ∈ names, p name = true := by
  induction items with
  | nil => exact ⟨[], rfl, List.forall_mem_nil _⟩
  | cons item rest ih =>
    rw [List.all_cons, Bool.and_eq_true] at texts
    rcases texts with ⟨text, others⟩
    rcases ih others with ⟨names, rfl, passed⟩
    cases item with
    | str name =>
      have first : p name = true := text
      exact ⟨name :: names, rfl, List.forall_mem_cons.2 ⟨first, passed⟩⟩
    | _ => cases text

/-- The names that the grammar lets a record node list are properties of it. -/
theorem requires_of_isRequiredList {properties : List (String × Json)}
    (listed : absentOr "required" fields (isRequiredList (some properties)) = true) :
    ∃ required, Node.Requires fields properties required := by
  rw [absentOr] at listed
  cases there : Keyed.get? "required" fields with
  | none => exact ⟨none, there, fun _ same => by cases same⟩
  | some value =>
    rw [there, Option.all_some] at listed
    have names : ∃ names : List String, value = .arr (names.map .str) ∧
        ∀ name ∈ names, Keyed.contains name properties = true := by
      cases value with
      | arr items =>
        have texts : items.all (fun item =>
            item.text?.any fun name => Keyed.contains name properties) = true := by
          cases items with
          | nil => rfl
          | cons item rest => exact listed
        rcases exists_names texts with ⟨names, rfl, known⟩
        exact ⟨names, rfl, known⟩
      | _ => cases listed
    rcases names with ⟨names, rfl, known⟩
    exact ⟨some names, there, fun _ same => by cases same; exact known⟩

theorem nodeForm_of_isUnionForm (node : isUnionForm fields = true) : NodeForm fields := by
  rw [isUnionForm_eq, Bool.and_eq_true] at node
  rcases node with ⟨keys, judged⟩
  have noType : Keyed.get? "type" fields = none := get?_of_onlyKeys keys (by decide)
  have unmarked : Keyed.get? "is_file_data" fields = none := get?_of_onlyKeys keys (by decide)
  split at judged
  · rename_i arms there
    rw [Bool.and_eq_true, List.all_eq_true] at judged
    rcases judged with ⟨inhabited, nodes⟩
    refine .anyOf noType unmarked there ?_ nodes
    intro same
    subst same
    cases inhabited
  · cases judged

theorem nodeForm_of_isArrayForm (typed : HasType "array" fields)
    (node : isArrayForm fields = true) : NodeForm fields := by
  rw [isArrayForm_eq, Bool.and_eq_true] at node
  rcases node with ⟨keys, judged⟩
  have noValues : Keyed.get? "enum" fields = none := get?_of_onlyKeys keys (by decide)
  have unmarked : Keyed.get? "is_file_data" fields = none := get?_of_onlyKeys keys (by decide)
  cases there : Keyed.get? "items" fields with
  | none => exact .anyList ⟨typed, noValues⟩ unmarked there
  | some items =>
    rw [there] at judged
    exact .list ⟨typed, noValues⟩ unmarked there judged

theorem nodeForm_of_isMappingForm (typed : HasType "object" fields)
    (node : isMappingForm fields = true) : NodeForm fields := by
  rw [isMappingForm_eq, Bool.and_eq_true] at node
  rcases node with ⟨keys, judged⟩
  have noValues : Keyed.get? "enum" fields = none := get?_of_onlyKeys keys (by decide)
  have unmarked : Keyed.get? "is_file_data" fields = none := get?_of_onlyKeys keys (by decide)
  have noProperties : Keyed.get? "properties" fields = none := get?_of_onlyKeys keys (by decide)
  split at judged
  · rename_i items there
    rw [Bool.and_eq_true, Bool.and_eq_true, Option.any_eq_true, Option.any_eq_true] at judged
    rcases judged with ⟨⟨_, key, key_eq, keyNode⟩, value, value_eq, valueNode⟩
    exact .mapping ⟨typed, noValues⟩ unmarked noProperties there key_eq value_eq keyNode valueNode
  · cases judged

theorem nodeForm_of_isRecordForm (typed : HasType "object" fields)
    (noItems : Keyed.get? "items" fields = none) (node : isRecordForm fields = true) :
    NodeForm fields := by
  rw [isRecordForm_eq, Bool.and_eq_true, Bool.and_eq_true] at node
  rcases node with ⟨⟨keys, marker⟩, judged⟩
  have noValues : Keyed.get? "enum" fields = none := get?_of_onlyKeys keys (by decide)
  rw [absentOr] at marker
  cases marked : Keyed.get? "is_file_data" fields with
  | some flag =>
    rw [marked, Option.all_some] at marker
    rw [eq_true_of_equal marker] at marked
    exact .fileData ⟨typed, noValues⟩ noItems marked
  | none =>
    split at judged
    · rename_i noProperties
      exact .object ⟨typed, noValues⟩ noItems marked noProperties
    · rename_i properties there
      rw [Bool.and_eq_true, List.all_eq_true] at judged
      rcases judged with ⟨nodes, listed⟩
      rcases requires_of_isRequiredList listed with ⟨required, required_eq⟩
      exact .record ⟨typed, noValues⟩ noItems marked there required_eq nodes
    · cases judged

theorem nodeForm_of_hasType_name {kind : Primitive} (typed : HasType kind.name fields)
    (node : isNode (.obj fields) = true) : NodeForm fields := by
  rw [isNode_eq_isPrimitiveForm typed, Bool.and_eq_true, Bool.and_eq_true] at node
  rcases node with ⟨⟨_, values⟩, _⟩
  rw [absentOr] at values
  cases there : Keyed.get? "enum" fields with
  | none => exact .scalar ⟨typed, there⟩
  | some listed =>
    rw [there, Option.all_some] at values
    cases listed with
    | arr items =>
      dsimp only at values
      rw [Bool.and_eq_true, List.all_eq_true] at values
      rcases values with ⟨inhabited, admitted⟩
      refine .enumeration typed there ?_ admitted
      intro same
      subst same
      cases inhabited
    | _ => cases values

/-- A node that goes by its type has one of the types of the grammar. -/
theorem nodeForm_of_hasType {type : String} (typed : HasType type fields)
    (node : isNode (.obj fields) = true) : NodeForm fields := by
  have formed := node
  rw [isNode_of_hasType typed] at formed
  split at formed
  · rename_i null
    subst null
    rw [isNullForm, Bool.and_eq_true] at formed
    have noValues : Keyed.get? "enum" fields = none := get?_of_onlyKeys formed.1 (by decide)
    exact .null ⟨typed, noValues⟩
  split at formed
  · rename_i array
    subst array
    exact nodeForm_of_isArrayForm typed formed
  split at formed
  · rename_i object
    subst object
    split at formed
    · exact nodeForm_of_isMappingForm typed formed
    · rename_i noItems
      have absent := get?_eq_none_of_not_contains (eq_false_of_ne_true noItems)
      exact nodeForm_of_isRecordForm typed absent formed
  · rw [isPrimitiveForm, typeName?_eq_some_iff.2 typed.type] at formed
    split at formed
    · cases formed
    · rename_i kind kind_eq
      have named : type = kind.name := Primitive.name_of_ofName? kind_eq
      subst named
      exact nodeForm_of_hasType_name typed node

/-- A node of the grammar is of one of the forms. -/
theorem nodeForm_of_isNode (node : isNode (.obj fields) = true) : NodeForm fields := by
  cases arms : Keyed.get? "anyOf" fields with
  | some value =>
    rw [isNode_eq_isUnionForm arms] at node
    exact nodeForm_of_isUnionForm node
  | none =>
    cases bare : Node.isBare fields with
    | true =>
      have keys : onlyKeys ["default"] fields = true := by
        simpa [Node.isBare, onlyKeys] using bare
      exact .bare arms (get?_of_onlyKeys keys (by decide)) bare
    | false =>
      have formed := node
      rw [isNode_obj, bare, not_contains_of_eq arms] at formed
      cases named : typeName? fields with
      | none =>
        rw [named] at formed
        cases formed
      | some type => exact nodeForm_of_hasType ⟨arms, typeName?_eq_some_iff.1 named⟩ node

theorem isRecordForm_keys (form : isRecordForm fields = true) :
    onlyKeys ["type", "properties", "required", "is_file_data", "default"] fields = true := by
  rw [isRecordForm_eq, Bool.and_eq_true, Bool.and_eq_true] at form
  exact form.1.1

/-- The schema of a request is a node of null or of objects, not of mappings. -/
theorem isInputSchema_iff :
    isInputSchema (.obj fields) = true ↔
      (HasType "null" fields ∧ isNullForm fields = true) ∨
        (HasPlainType "object" fields ∧ Keyed.get? "items" fields = none ∧
          isRecordForm fields = true) := by
  rw [isInputSchema]
  constructor
  · intro input
    split at input
    · rename_i type named
      have type_eq := typeName?_eq_some_iff.1 named
      split at input
      · rename_i null
        subst null
        have keys := input
        rw [isNullForm, Bool.and_eq_true] at keys
        exact .inl ⟨⟨get?_of_onlyKeys keys.1 (by decide), type_eq⟩, input⟩
      split at input
      · rename_i object
        subst object
        rw [isRootRecord, Bool.and_eq_true] at input
        rcases input with ⟨_, form⟩
        have keys := isRecordForm_keys form
        have typed : HasType "object" fields := ⟨get?_of_onlyKeys keys (by decide), type_eq⟩
        exact .inr ⟨⟨typed, get?_of_onlyKeys keys (by decide)⟩,
          get?_of_onlyKeys keys (by decide), form⟩
      · cases input
    · cases input
  · intro given
    rcases given with ⟨typed, form⟩ | ⟨typed, noItems, form⟩
    · rw [typeName?_eq_some_iff.2 typed.type]
      exact form
    · rw [typeName?_eq_some_iff.2 typed.type]
      have root : isRootRecord fields = true := by
        rw [isRootRecord, not_contains_of_eq noItems]
        exact form
      exact root

end Inversion

end CallContract
