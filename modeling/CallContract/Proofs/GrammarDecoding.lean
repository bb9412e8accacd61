import CallContract.Proofs.Grammar
import CallContract.Proofs.Reading

/-!
# Which nodes of the grammar are decoded

The grammar has object nodes that say nothing of the objects; they are all that decoding refuses.

* `Node.Descends` is one step from a node to a part of it, `Node.Reaches` its closure. There is no
  step from a node of file data: decoding does not look below its marker.
* `hasPart_anyOf`, `hasPart_array`, `hasPart_mapping` and `hasPart_record` list the parts of each form.
* `Node.IsWhole`: if the node is one of objects, it says of which.
* `DecodedIff`: a result is given under a condition, and without it an object node is at fault.
  `isDecided_of_isNode`: for the nodes of the grammar the condition is that all nodes reached are
  whole. Each form has it from its parts.
-/

namespace CallContract

open Node (HasType HasPlainType otherArms)

/-! ## Nodes reached from a node -/

namespace Node

/-- One node is a part of another. -/
inductive HasPart (node : Json) : Json → Prop
  | property {properties : List (String × Json)} {name : String} {part : Json}
      (type : node.get? "type" = some (.str "object"))
      (there : node.get? "properties" = some (.obj properties))
      (member : (name, part) ∈ properties) : HasPart node part
  | item {part : Json} (type : node.get? "type" = some (.str "array"))
      (there : node.get? "items" = some part) : HasPart node part
  | key {items part : Json} (type : node.get? "type" = some (.str "object"))
      (items_eq : node.get? "items" = some items) (there : items.get? "key" = some part) :
      HasPart node part
  | value {items part : Json} (type : node.get? "type" = some (.str "object"))
      (items_eq : node.get? "items" = some items) (there : items.get? "value" = some part) :
      HasPart node part
  | arm {arms : List Json} {part : Json} (there : node.get? "anyOf" = some (.arr arms))
      (member : part ∈ arms) : HasPart node part

/-- One node is a part of another, which is not one of file data. -/
def Descends (node part : Json) : Prop :=
  node.get? "is_file_data" ≠ some (.bool true) ∧ HasPart node part

/-- Nodes reached from a node without going below file data. -/
abbrev Reaches : Json → Json → Prop :=
  Relation.ReflTransGen Descends

/-- A node of objects, unless it is one of mappings, has properties or is marked as file data. -/
def IsWhole (node : Json) : Prop :=
  node.get? "type" = some (.str "object") → node.get? "items" = none →
    (node.get? "properties").isSome = true ∨ (node.get? "is_file_data").isSome = true

/-- All nodes reached from a node are whole. -/
def IsComplete (node : Json) : Prop :=
  ∀ part, Reaches node part → IsWhole part

/-- A node is complete if it is whole and its parts are complete. -/
theorem isComplete_iff {node : Json} :
    IsComplete node ↔ IsWhole node ∧ ∀ part, Descends node part → IsComplete part :=
  Relation.forall_reflTransGen_iff

end Node

open Node (HasPart Descends Reaches IsWhole IsComplete isComplete_iff)

section Parts

variable {fields : List (String × Json)} {part : Json}

theorem Node.HasType.eq_of_get? {type other : String} (typed : HasType type fields)
    (there : (Json.obj fields).get? "type" = some (.str other)) : type = other := by
  cases typed.type.symm.trans there
  rfl

/-! ### The parts of each form -/

/-- A node without arms that is neither one of objects nor one of arrays has no parts. -/
theorem not_hasPart (noArms : Keyed.get? "anyOf" fields = none)
    (notObject : Keyed.get? "type" fields ≠ some (.str "object"))
    (notArray : Keyed.get? "type" fields ≠ some (.str "array")) : ¬HasPart (.obj fields) part := by
  intro step
  cases step with
  | property object => exact notObject object
  | item array => exact notArray array
  | key object => exact notObject object
  | value object => exact notObject object
  | arm there => cases noArms.symm.trans there

theorem hasPart_anyOf {arms : List Json} (noType : Keyed.get? "type" fields = none)
    (arms_eq : Keyed.get? "anyOf" fields = some (.arr arms)) :
    HasPart (.obj fields) part ↔ part ∈ arms := by
  constructor
  · intro step
    cases step with
    | arm there member =>
      cases arms_eq.symm.trans there
      exact member
    | property type => cases noType.symm.trans type
    | item type => cases noType.symm.trans type
    | key type => cases noType.symm.trans type
    | value type => cases noType.symm.trans type
  · exact .arm arms_eq

/-- An array node has one part at most, the node of its items. -/
theorem hasPart_array (typed : HasType "array" fields) :
    HasPart (.obj fields) part ↔ Keyed.get? "items" fields = some part := by
  constructor
  · intro step
    cases step with
    | item _ there => exact there
    | property object => exact absurd (typed.eq_of_get? object) (by decide)
    | key object => exact absurd (typed.eq_of_get? object) (by decide)
    | value object => exact absurd (typed.eq_of_get? object) (by decide)
    | arm there => cases typed.noArms.symm.trans there
  · exact fun there => .item typed.type there

theorem hasPart_mapping {items key value : Json} (typed : HasType "object" fields)
    (noProperties : Keyed.get? "properties" fields = none)
    (items_eq : Keyed.get? "items" fields = some items)
    (key_eq : items.get? "key" = some key) (value_eq : items.get? "value" = some value) :
    HasPart (.obj fields) part ↔ part = key ∨ part = value := by
  constructor
  · intro step
    cases step with
    | key _ found there =>
      cases items_eq.symm.trans found
      exact .inl (Option.some.inj (there.symm.trans key_eq))
    | value _ found there =>
      cases items_eq.symm.trans found
      exact .inr (Option.some.inj (there.symm.trans value_eq))
    | property _ there => cases noProperties.symm.trans there
    | item array => exact absurd (typed.eq_of_get? array) (by decide)
    | arm there => cases typed.noArms.symm.trans there
  · rintro (rfl | rfl)
    · exact .key typed.type items_eq key_eq
    · exact .value typed.type items_eq value_eq

theorem hasPart_record {properties : List (String × Json)} (typed : HasType "object" fields)
    (noItems : Keyed.get? "items" fields = none)
    (properties_eq : Keyed.get? "properties" fields = some (.obj properties)) :
    HasPart (.obj fields) part ↔ ∃ property ∈ properties, property.2 = part := by
  constructor
  · intro step
    cases step with
    | property _ there member =>
      cases properties_eq.symm.trans there
      exact ⟨_, member, rfl⟩
    | item array => exact absurd (typed.eq_of_get? array) (by decide)
    | key _ found => cases noItems.symm.trans found
    | value _ found => cases noItems.symm.trans found
    | arm there => cases typed.noArms.symm.trans there
  · rintro ⟨property, member, rfl⟩
    exact .property typed.type properties_eq member

/-! ### Complete nodes of each form -/

theorem descends_iff (unmarked : Keyed.get? "is_file_data" fields = none) :
    Descends (.obj fields) part ↔ HasPart (.obj fields) part := by
  refine and_iff_right fun marked => ?_
  cases unmarked.symm.trans marked

/-- A node of file data is complete whatever its properties are. -/
theorem isComplete_of_marked (marked : Keyed.get? "is_file_data" fields = some (.bool true)) :
    IsComplete (.obj fields) := by
  refine isComplete_iff.2 ⟨fun _ _ => .inr (contains_of_eq marked), ?_⟩
  intro part step
  exact absurd marked step.1

/-- A node without arms that is neither one of objects nor one of arrays is complete. -/
theorem isComplete_of_type_ne (noArms : Keyed.get? "anyOf" fields = none)
    (notObject : Keyed.get? "type" fields ≠ some (.str "object"))
    (notArray : Keyed.get? "type" fields ≠ some (.str "array")) : IsComplete (.obj fields) := by
  refine isComplete_iff.2 ⟨fun object => absurd object notObject, ?_⟩
  intro part step
  exact absurd step.2 (not_hasPart noArms notObject notArray)

theorem isComplete_of_hasType {type : String} (typed : HasType type fields)
    (notObject : type ≠ "object") (notArray : type ≠ "array") : IsComplete (.obj fields) :=
  isComplete_of_type_ne typed.noArms (mt typed.eq_of_get? notObject) (mt typed.eq_of_get? notArray)

theorem isComplete_anyOf {arms : List Json} (noType : Keyed.get? "type" fields = none)
    (unmarked : Keyed.get? "is_file_data" fields = none)
    (arms_eq : Keyed.get? "anyOf" fields = some (.arr arms)) :
    IsComplete (.obj fields) ↔ ∀ arm ∈ arms, IsComplete arm := by
  rw [isComplete_iff]
  simp only [descends_iff unmarked, hasPart_anyOf noType arms_eq]
  exact and_iff_right fun object => absurd (noType.symm.trans object) nofun

theorem isComplete_array (typed : HasType "array" fields)
    (unmarked : Keyed.get? "is_file_data" fields = none) :
    IsComplete (.obj fields) ↔
      ∀ items, Keyed.get? "items" fields = some items → IsComplete items := by
  rw [isComplete_iff]
  simp only [descends_iff unmarked, hasPart_array typed]
  exact and_iff_right fun object => absurd (typed.eq_of_get? object) (by decide)

theorem isComplete_bare (noArms : Keyed.get? "anyOf" fields = none)
    (noType : Keyed.get? "type" fields = none) : IsComplete (.obj fields) := by
  refine isComplete_of_type_ne noArms ?_ ?_
  · rw [noType]
    exact nofun
  · rw [noType]
    exact nofun

theorem isComplete_mapping {items key value : Json} (typed : HasType "object" fields)
    (unmarked : Keyed.get? "is_file_data" fields = none)
    (noProperties : Keyed.get? "properties" fields = none)
    (items_eq : Keyed.get? "items" fields = some items)
    (key_eq : items.get? "key" = some key) (value_eq : items.get? "value" = some value) :
    IsComplete (.obj fields) ↔ IsComplete key ∧ IsComplete value := by
  rw [isComplete_iff]
  simp only [descends_iff unmarked, hasPart_mapping typed noProperties items_eq key_eq value_eq,
    forall_eq_or_imp, forall_eq]
  exact and_iff_right fun _ noItems => absurd (items_eq.symm.trans noItems) nofun

theorem isComplete_record {properties : List (String × Json)} (typed : HasType "object" fields)
    (noItems : Keyed.get? "items" fields = none)
    (unmarked : Keyed.get? "is_file_data" fields = none)
    (properties_eq : Keyed.get? "properties" fields = some (.obj properties)) :
    IsComplete (.obj fields) ↔ ∀ property ∈ properties, IsComplete property.2 := by
  have parts : ∀ part, Descends (.obj fields) part ↔ ∃ property ∈ properties, property.2 = part :=
    fun _ => (descends_iff unmarked).trans (hasPart_record typed noItems properties_eq)
  rw [isComplete_iff]
  simp only [parts, forall_exists_index, and_imp, forall_apply_eq_imp_iff₂]
  exact and_iff_right fun _ _ => .inl (contains_of_eq properties_eq)

/-- A node of objects that says nothing of them is not complete. -/
theorem not_isComplete_object (typed : HasType "object" fields)
    (noItems : Keyed.get? "items" fields = none)
    (unmarked : Keyed.get? "is_file_data" fields = none)
    (noProperties : Keyed.get? "properties" fields = none) : ¬ IsComplete (.obj fields) := by
  intro complete
  have whole : IsWhole (.obj fields) := (isComplete_iff.1 complete).1
  rcases whole typed.type noItems with properties | marker
  · exact absurd (properties.symm.trans (not_contains_of_eq noProperties)) nofun
  · exact absurd (marker.symm.trans (not_contains_of_eq unmarked)) nofun

end Parts

/-! ## Results under a condition -/

/-- Under a condition there is a result, and without it an object node is at fault that says nothing
of the objects. -/
structure DecodedIff {α : Type} (condition : Prop) (result : Except DecodeError α) : Prop where
  given : condition → ∃ a, result = .ok a
  refused : ¬ condition → ∃ place, result = .error ⟨place, .objectWithoutParts⟩

namespace DecodedIff

variable {α β : Type} {p q : Prop} {first : Except DecodeError α}

theorem ok (holds : p) (a : α) : DecodedIff p (.ok a) :=
  ⟨fun _ => ⟨a, rfl⟩, fun fails => absurd holds fails⟩

theorem congr (same : p ↔ q) (decided : DecodedIff p first) : DecodedIff q first :=
  ⟨fun holds => decided.given (same.2 holds), fun fails => decided.refused (mt same.1 fails)⟩

/-- Of two steps, the second is decided whatever the first gives. -/
theorem bind {next : α → Except DecodeError β} (decided : DecodedIff p first)
    (others : ∀ a, DecodedIff q (next a)) : DecodedIff (p ∧ q) (first >>= next) := by
  by_cases holds : p
  · rcases decided.given holds with ⟨a, rfl⟩
    refine ⟨fun both => (others a).given both.2, ?_⟩
    intro fails
    exact (others a).refused fun rest => fails ⟨holds, rest⟩
  · rcases decided.refused holds with ⟨place, rfl⟩
    exact ⟨fun both => absurd both.1 holds, fun _ => ⟨place, rfl⟩⟩

theorem map {f : α → β} (decided : DecodedIff p first) :
    DecodedIff p (first >>= fun a => .ok (f a)) :=
  (decided.bind fun a => ok trivial (f a)).congr (and_iff_left trivial)

theorem exists_ok_iff (decided : DecodedIff p first) : (∃ a, first = .ok a) ↔ p := by
  refine ⟨fun found => ?_, decided.given⟩
  rcases found with ⟨a, rfl⟩
  by_contra fails
  rcases decided.refused fails with ⟨place, same⟩
  cases same

end DecodedIff

/-! ## Decoding under the grammar -/

/-- A node is decoded if it is complete, under whatever name and at whatever place. -/
def Node.IsDecided (node : Json) : Prop :=
  ∀ name place, DecodedIff (IsComplete node) (decodeNode name place node)

open Node (IsDecided)

theorem isComplete_of_isNull {node : Json} (null : Node.isNull node = true) : IsComplete node := by
  rcases exists_hasType_of_isNull null with ⟨fields, rfl, typed⟩
  exact isComplete_of_hasType typed (by decide) (by decide)

theorem decodedIff_decodeArms {arms : List Json} (decided : ∀ arm ∈ arms, IsDecided arm)
    (name : String) (alone : Bool) (place : Pointer) : ∀ position index,
    DecodedIff (∀ arm ∈ arms, IsComplete arm)
      (decodeArms name alone place position index arms) := by
  induction arms with
  | nil =>
    intro position index
    rw [decodeArms]
    exact .ok (List.forall_mem_nil _) []
  | cons arm rest ih =>
    rw [List.forall_mem_cons] at decided
    rcases decided with ⟨head, others⟩
    intro position index
    rw [decodeArms, List.forall_mem_cons]
    -- A null arm is passed over, and nothing is asked of it: it has no parts.
    cases null : Node.isNull arm with
    | true =>
      have complete := isComplete_of_isNull null
      exact (ih others (position + 1) index).congr (and_iff_right complete).symm
    | false => exact (head _ _).bind fun t => (ih others (position + 1) (index + 1)).map

theorem decodedIff_decodeProperties {properties : List (String × Json)}
    (decided : ∀ property ∈ properties, IsDecided property.2) (name : String) (place : Pointer)
    (required : Option (List String)) :
    DecodedIff (∀ property ∈ properties, IsComplete property.2)
      (decodeProperties name place required properties) := by
  induction properties with
  | nil =>
    rw [decodeProperties]
    exact .ok (List.forall_mem_nil _) []
  | cons property rest ih =>
    rcases property with ⟨key, node⟩
    rw [List.forall_mem_cons] at decided
    rcases decided with ⟨head, others⟩
    rw [decodeProperties, List.forall_mem_cons]
    exact (head _ _).bind fun t => (ih others).map

section Forms

variable {fields : List (String × Json)}

theorem isDecided_anyOf {arms : List Json} (noType : Keyed.get? "type" fields = none)
    (unmarked : Keyed.get? "is_file_data" fields = none)
    (arms_eq : Keyed.get? "anyOf" fields = some (.arr arms)) (inhabited : arms ≠ [])
    (decided : ∀ arm ∈ arms, IsDecided arm) : IsDecided (.obj fields) := by
  intro name place
  rw [decodeNode_obj, arms_eq]
  dsimp only
  rw [if_neg (mt List.isEmpty_iff.1 inhabited)]
  have types := decodedIff_decodeArms decided name ((otherArms arms).length = 1)
    (place ++ ["anyOf"]) 0 0
  exact types.map.congr (isComplete_anyOf noType unmarked arms_eq).symm

theorem isDecided_list {items : Json} (typed : HasPlainType "array" fields)
    (unmarked : Keyed.get? "is_file_data" fields = none)
    (items_eq : Keyed.get? "items" fields = some items) (decided : IsDecided items) :
    IsDecided (.obj fields) := by
  intro name place
  have same : IsComplete items ↔ IsComplete (.obj fields) := by
    rw [isComplete_array typed.toHasType unmarked, items_eq]
    simp
  rw [decodeNode_of_hasPlainType typed]
  change DecodedIff _ (decodeArray name place fields)
  rw [decodeArray, items_eq]
  exact (decided _ _).map.congr same

theorem isDecided_mapping {items key value : Json} (typed : HasPlainType "object" fields)
    (unmarked : Keyed.get? "is_file_data" fields = none)
    (noProperties : Keyed.get? "properties" fields = none)
    (items_eq : Keyed.get? "items" fields = some items)
    (key_eq : items.get? "key" = some key) (value_eq : items.get? "value" = some value)
    (keyDecided : IsDecided key) (valueDecided : IsDecided value) : IsDecided (.obj fields) := by
  intro name place
  have same := isComplete_mapping typed.toHasType unmarked noProperties items_eq key_eq value_eq
  rw [decodeNode_of_hasPlainType typed]
  change DecodedIff _ (decodeObject name place fields)
  rw [decodeObject, not_isMarked_of_eq unmarked, noProperties, items_eq]
  dsimp only
  rw [key_eq, value_eq]
  exact ((keyDecided _ _).bind fun k => (valueDecided _ _).map).congr same.symm

theorem isDecided_record {properties : List (String × Json)} {required : Option (List String)}
    (typed : HasPlainType "object" fields) (noItems : Keyed.get? "items" fields = none)
    (unmarked : Keyed.get? "is_file_data" fields = none)
    (properties_eq : Keyed.get? "properties" fields = some (.obj properties))
    (required_eq : Node.Requires fields properties required)
    (decided : ∀ property ∈ properties, IsDecided property.2) : IsDecided (.obj fields) := by
  intro name place
  have same := isComplete_record typed.toHasType noItems unmarked properties_eq
  have names : requiredNames? fields properties place = .ok required :=
    requiredNames?_eq_ok_iff.2 required_eq
  have types := decodedIff_decodeProperties decided name (place ++ ["properties"]) required
  rw [decodeNode_of_hasPlainType typed]
  change DecodedIff _ (decodeObject name place fields)
  rw [decodeObject, not_isMarked_of_eq unmarked, properties_eq]
  dsimp only
  rw [names]
  exact types.map.congr same.symm

/-- The one form of the grammar that is not decoded. -/
theorem isDecided_object (typed : HasPlainType "object" fields)
    (noItems : Keyed.get? "items" fields = none)
    (unmarked : Keyed.get? "is_file_data" fields = none)
    (noProperties : Keyed.get? "properties" fields = none) : IsDecided (.obj fields) := by
  intro name place
  have incomplete := not_isComplete_object typed.toHasType noItems unmarked noProperties
  refine ⟨fun complete => absurd complete incomplete, fun _ => ⟨place, ?_⟩⟩
  rw [decodeNode_of_hasPlainType typed]
  change decodeObject name place fields = _
  rw [decodeObject, not_isMarked_of_eq unmarked, noProperties, noItems]
  rfl

/-- A complete node that is read by a rule is decided. -/
theorem isDecided_of_rule {t : Descriptor} (complete : IsComplete (.obj fields))
    (rule : NodeRule fields t) : IsDecided (.obj fields) := by
  intro name place
  rcases rule.reads name place with ⟨u, decoded, _⟩
  rw [decoded]
  exact .ok complete u

end Forms

theorem isDecided_of_hasType_name {kind : Primitive} {fields : List (String × Json)}
    {t : Descriptor} (typed : HasType kind.name fields) (rule : NodeRule fields t) :
    IsDecided (.obj fields) := by
  rcases Primitive.name_ne kind with ⟨_, notObject, notArray⟩
  exact isDecided_of_rule (isComplete_of_hasType typed notObject notArray) rule

/-- A scalar node is one of paths if it is marked as such. -/
theorem exists_rule_of_hasPlainType_name {kind : Primitive} {fields : List (String × Json)}
    (typed : HasPlainType kind.name fields) : ∃ t, NodeRule fields t := by
  by_cases path : kind.name = "string" ∧ Node.isMarked "is_path" fields = true
  · rcases path with ⟨string, marked⟩
    rw [string] at typed
    exact ⟨.path, .path typed marked⟩
  · have unmarked (string : kind.name = "string") : Node.isMarked "is_path" fields = false :=
      eq_false_of_ne_true fun marked => path ⟨string, marked⟩
    exact ⟨.primitive kind, .primitive typed unmarked (Primitive.ofName?_name kind)⟩

/-- A node of the grammar is decoded if all nodes reached from it are whole. -/
theorem isDecided_of_isNode {node : Json} (valid : isNode node = true) : IsDecided node := by
  induction size : sizeOf node using Nat.strongRecOn generalizing node with
  | _ n ih =>
    subst size
    cases node with
    | obj fields =>
      -- The parts of the node are smaller, so they are decided; the form tells which there are.
      have part {node : Json} (smaller : sizeOf node < sizeOf (Json.obj fields))
          (valid : isNode node = true) : IsDecided node := ih _ smaller valid rfl
      cases nodeForm_of_isNode valid with
      | bare noArms noType bare =>
        exact isDecided_of_rule (isComplete_bare noArms noType) (.bare noArms bare)
      | anyOf noType unmarked arms_eq inhabited nodes =>
        refine isDecided_anyOf noType unmarked arms_eq inhabited fun arm member => ?_
        exact part (sizeOf_lt_of_arm arms_eq member) (nodes arm member)
      | null typed =>
        have complete := isComplete_of_hasType typed.toHasType (by decide) (by decide)
        exact isDecided_of_rule complete (.null typed)
      | anyList typed unmarked noItems =>
        have complete : IsComplete (.obj fields) := by
          refine (isComplete_array typed.toHasType unmarked).2 ?_
          intro items items_eq
          cases noItems.symm.trans items_eq
        exact isDecided_of_rule complete (.anyList typed noItems)
      | list typed unmarked items_eq node =>
        exact isDecided_list typed unmarked items_eq (part (sizeOf_lt_of_part items_eq) node)
      | mapping typed unmarked noProperties items_eq key_eq value_eq keyNode valueNode =>
        have inside := sizeOf_lt_of_part items_eq
        have key := part (Nat.lt_trans (Json.lt_of_get? key_eq) inside) keyNode
        have value := part (Nat.lt_trans (Json.lt_of_get? value_eq) inside) valueNode
        exact isDecided_mapping typed unmarked noProperties items_eq key_eq value_eq key value
      | fileData typed noItems marked =>
        have isMarked : Node.isMarked "is_file_data" fields = true := by rw [Node.isMarked, marked]
        exact isDecided_of_rule (isComplete_of_marked marked) (.fileData typed isMarked)
      | record typed noItems unmarked properties_eq required_eq nodes =>
        refine isDecided_record typed noItems unmarked properties_eq required_eq ?_
        intro property member
        exact part (sizeOf_lt_of_property properties_eq member) (nodes property member)
      | object typed noItems unmarked noProperties =>
        exact isDecided_object typed noItems unmarked noProperties
      | @enumeration kind values typed values_eq inhabited admitted =>
        have name := Primitive.ofName?_name kind
        exact isDecided_of_hasType_name typed
          (.enumeration typed values_eq name inhabited admitted)
      | @scalar kind typed =>
        rcases exists_rule_of_hasPlainType_name typed with ⟨t, rule⟩
        exact isDecided_of_hasType_name typed.toHasType rule
    | _ =>
      rw [isNode] at valid
      · cases valid
      · intro fields same
        cases same

/-! ## Documents -/

theorem decodedIff_decode {doc : Json} (valid : isNode doc = true) (name : String) :
    DecodedIff (IsComplete doc) (decode doc name) := by
  rw [decode]
  split
  · rename_i null
    exact .ok (isComplete_of_isNull null) _
  · exact isDecided_of_isNode valid name []

/-- A node of objects that is not one of mappings is decoded as a record or as file data. -/
theorem record_or_fileData_of_decodeObject {name : String} {place : Pointer}
    {fields : List (String × Json)} {t : Descriptor} (noItems : Keyed.get? "items" fields = none)
    (decoded : decodeObject name place fields = .ok t) :
    (∃ parts, t = .record name parts) ∨ t = .fileData := by
  rw [decodeObject] at decoded
  split at decoded
  · cases decoded
    exact .inr rfl
  split at decoded
  · rcases Except.bind_eq_ok.1 decoded with ⟨required, _, rest⟩
    rcases Except.bind_eq_ok.1 rest with ⟨parts, _, result⟩
    cases result
    exact .inl ⟨parts, rfl⟩
  · cases decoded
  · rw [noItems] at decoded
    cases decoded

/-- The schema of a request is decoded as a record or as file data. -/
theorem record_or_fileData_of_isInputSchema {doc : Json} {name : String} {t : Descriptor}
    (input : isInputSchema doc = true) (decoded : decode doc name = .ok t) :
    (∃ parts, t = .record name parts) ∨ t = .fileData := by
  rw [decode] at decoded
  split at decoded
  · cases decoded
    exact .inl ⟨[], rfl⟩
  rename_i notNull
  cases doc with
  | obj fields =>
    rcases isInputSchema_iff.1 input with ⟨typed, _⟩ | ⟨typed, noItems, _⟩
    · exact absurd typed.isNull notNull
    · rw [decodeNode_of_hasPlainType typed] at decoded
      exact record_or_fileData_of_decodeObject noItems decoded
  | _ => cases input

/-- The node of objects of which nothing is said. -/
def Node.object : Json :=
  .obj [("type", .str "object")]

/-- A document of the grammar is decoded if all object nodes reached from its root, none of them
below file data, are those of mappings, have properties or are marked as file data; otherwise such a
node is at fault. The schema of a request is decoded as a record or as file data. -/
theorem decode_iff_of_isNode {doc : Json} (valid : isNode doc = true) (name : String) :
    ((∃ t, decode doc name = .ok t) ↔ ∀ node, Reaches doc node → IsWhole node) ∧
      ((¬ ∀ node, Reaches doc node → IsWhole node) →
        ∃ place, decode doc name = .error ⟨place, .objectWithoutParts⟩) ∧
      (isInputSchema doc = true → ∀ t, decode doc name = .ok t →
        (∃ parts, t = .record name parts) ∨ t = .fileData) := by
  have decided := decodedIff_decode valid name
  refine ⟨decided.exists_ok_iff, decided.refused, ?_⟩
  intro input t decoded
  exact record_or_fileData_of_isInputSchema input decoded

/-- All nodes of the document of memos are whole; lists of objects of which nothing is said have a
node in the grammar that is not decoded. -/
theorem decode_iff_of_isNode_memo :
    (isNode memoNode = true ∧ isInputSchema memoNode = true ∧
      (∃ t, decode memoNode "memo" = .ok t) ∧ ∀ node, Reaches memoNode node → IsWhole node) ∧
    (isNode (Node.array Node.object) = true ∧ ¬ IsComplete (Node.array Node.object) ∧
      ∃ place, decode (Node.array Node.object) "memos" = .error ⟨place, .objectWithoutParts⟩) := by
  have note : isNode (Node.primitive .string) = true := isNode_primitive none .string
  have memo : isNode memoNode = true := by
    refine (isNode_record none _ _).trans ?_
    simp [note]
  have form : isInputSchema memoNode = true := by
    have node : isRecordForm _ = true := (isNode_eq_isRecordForm ⟨rfl, rfl⟩ rfl).symm.trans memo
    exact isInputSchema_iff.2 (.inr ⟨⟨⟨rfl, rfl⟩, rfl⟩, rfl, node⟩)
  have decoded : ∃ t, decode memoNode "memo" = .ok t := ⟨_, decode_memoNode⟩
  have object : isNode Node.object = true := by
    refine (isNode_eq_isRecordForm ⟨rfl, rfl⟩ rfl).trans ?_
    rw [isRecordForm_eq]
    rfl
  have objects : isNode (Node.array Node.object) = true :=
    (isNode_array none Node.object).trans object
  have incomplete : ¬ IsComplete (Node.array Node.object) := by
    intro complete
    have part := (isComplete_array ⟨rfl, rfl⟩ rfl).1 complete Node.object rfl
    exact not_isComplete_object ⟨rfl, rfl⟩ rfl rfl rfl part
  exact ⟨⟨memo, form, decoded, (decode_iff_of_isNode memo "memo").1.1 decoded⟩,
    objects, incomplete, (decode_iff_of_isNode objects "memos").2.1 incomplete⟩

end CallContract
