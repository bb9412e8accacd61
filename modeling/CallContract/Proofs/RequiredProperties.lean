import CallContract.Proofs.Defaults
import CallContract.Proofs.GrammarDecoding
import CallContract.Proofs.Requests

/-!
# Which properties are required

A record node is meant to list the properties that have no default. It lists the fields that have
none, which is another thing where fields of one name do not agree: of those the last makes the
property, but each is listed if it has no default.

* `Node.ListsRequired` is what a record node is meant to do, `Node.AllListRequired` the same of all
  record nodes inside a node. `Node.allListRequired_iff` goes one step down; each form of node has its
  rule from that.
* `Descriptor.RequiredKept`: in the records of a type, fields that give way to later ones of their
  name leave the required names as they are.
* `allListRequired_iff_of_encode`, by induction on the type, says that its node does what it is meant
  to exactly under that condition; `allListRequired_iff_of_fields` is the step for records.
* `repeated` is a record that does not meet the condition.
-/

namespace CallContract

open Node (HasType HasPart)

/-! ## Record nodes and their lists -/

namespace Node

/-- The node of a record: one of objects without items. -/
def IsRecordNode (node : Json) : Prop :=
  node.get? "type" = some (.str "object") ∧ node.get? "items" = none

/-- A node lists as required, in the order of its properties and each once, the names of the
properties that have no default. No list is an empty one. -/
def ListsRequired (node : Json) : Prop :=
  ∃ properties, node.get? "properties" = some (.obj properties) ∧
    (properties.map Prod.fst).Nodup ∧
    (node.get? "required").getD (.arr []) =
      .arr ((properties.filter fun p => (p.2.get? "default").isNone).map fun p => .str p.1)

/-- All record nodes inside a node, the node itself included, list the properties without defaults. -/
def AllListRequired (node : Json) : Prop :=
  ∀ part, Relation.ReflTransGen HasPart node part → IsRecordNode part → ListsRequired part

theorem allListRequired_iff {node : Json} :
    AllListRequired node ↔
      (IsRecordNode node → ListsRequired node) ∧ ∀ part, HasPart node part → AllListRequired part :=
  Relation.forall_reflTransGen_iff

section Forms

variable {fields : List (String × Json)}

/-- A node without arms that is neither one of objects nor one of arrays has nothing to list. -/
theorem allListRequired_of_type_ne (noArms : Keyed.get? "anyOf" fields = none)
    (notObject : Keyed.get? "type" fields ≠ some (.str "object"))
    (notArray : Keyed.get? "type" fields ≠ some (.str "array")) :
    AllListRequired (.obj fields) := by
  refine allListRequired_iff.2 ⟨fun record => absurd record.1 notObject, ?_⟩
  intro part step
  exact absurd step (not_hasPart noArms notObject notArray)

theorem allListRequired_of_hasType {type : String} (typed : HasType type fields)
    (notObject : type ≠ "object") (notArray : type ≠ "array") : AllListRequired (.obj fields) :=
  allListRequired_of_type_ne typed.noArms (mt typed.eq_of_get? notObject)
    (mt typed.eq_of_get? notArray)

theorem allListRequired_of_kind (kind : Primitive) (typed : HasType kind.name fields) :
    AllListRequired (.obj fields) := by
  rcases Primitive.name_ne kind with ⟨_, notObject, notArray⟩
  exact allListRequired_of_hasType typed notObject notArray

theorem allListRequired_null : AllListRequired null :=
  allListRequired_of_hasType ⟨rfl, rfl⟩ (by decide) (by decide)

theorem allListRequired_anything : AllListRequired anything :=
  allListRequired_of_type_ne rfl nofun nofun

theorem allListRequired_anyOf (arms : List Json) :
    AllListRequired (anyOf arms) ↔ ∀ arm ∈ arms, AllListRequired arm := by
  have parts : ∀ part, HasPart (anyOf arms) part ↔ part ∈ arms :=
    fun _ => hasPart_anyOf rfl rfl
  rw [allListRequired_iff]
  simp only [parts]
  exact and_iff_right fun record => absurd record.1 nofun

theorem allListRequired_array (items : Json) :
    AllListRequired (array items) ↔ AllListRequired items := by
  have typed : HasType "array" [("type", .str "array"), ("items", items)] := ⟨rfl, rfl⟩
  have parts : ∀ part, HasPart (array items) part ↔ items = part :=
    fun part => (hasPart_array typed).trans (Option.some.injEq items part ▸ Iff.rfl)
  rw [allListRequired_iff]
  simp only [parts, forall_eq']
  exact and_iff_right fun record => absurd (typed.eq_of_get? record.1) (by decide)

theorem allListRequired_mapping (key value : Json) :
    AllListRequired (mapping key value) ↔ AllListRequired key ∧ AllListRequired value := by
  have typed : HasType "object"
      [("type", .str "object"), ("items", .obj [("key", key), ("value", value)])] := ⟨rfl, rfl⟩
  have parts : ∀ part, HasPart (mapping key value) part ↔ part = key ∨ part = value :=
    fun _ => hasPart_mapping typed rfl rfl rfl rfl
  rw [allListRequired_iff]
  simp only [parts, forall_eq_or_imp, forall_eq]
  exact and_iff_right fun record => absurd record.2 nofun

/-- A record node is the only form that lists names itself. -/
theorem allListRequired_record {properties : List (String × Json)}
    (typed : HasType "object" fields) (noItems : Keyed.get? "items" fields = none)
    (properties_eq : Keyed.get? "properties" fields = some (.obj properties)) :
    AllListRequired (.obj fields) ↔
      ListsRequired (.obj fields) ∧ ∀ property ∈ properties, AllListRequired property.2 := by
  rw [allListRequired_iff]
  simp only [hasPart_record typed noItems properties_eq, forall_exists_index, and_imp,
    forall_apply_eq_imp_iff₂]
  exact and_congr_left fun _ => forall_prop_of_true ⟨typed.type, noItems⟩

end Forms

/-! ### Defaults -/

theorem get?_withDefault_of_ne {key : String} (other : key ≠ "default") (node : Json)
    (default : Option Json) : (withDefault node default).get? key = node.get? key := by
  unfold withDefault
  cases default with
  | none => rfl
  | some value =>
    cases node with
    | obj fields => exact Keyed.get?_put_of_ne other value fields
    | _ => rfl

section Alike

variable {node node' : Json}
  (same : ∀ key, key ≠ "default" → node.get? key = node'.get? key)

include same

theorem HasPart.of_same {part : Json} (step : HasPart node part) : HasPart node' part := by
  have type := same "type" (by decide)
  have items := same "items" (by decide)
  cases step with
  | property object there member =>
    exact .property (type ▸ object) (same "properties" (by decide) ▸ there) member
  | item array there => exact .item (type ▸ array) (items ▸ there)
  | key object found there => exact .key (type ▸ object) (items ▸ found) there
  | value object found there => exact .value (type ▸ object) (items ▸ found) there
  | arm there member => exact .arm (same "anyOf" (by decide) ▸ there) member

theorem AllListRequired.of_same (all : AllListRequired node) : AllListRequired node' := by
  rcases allListRequired_iff.1 all with ⟨own, parts⟩
  have back : ∀ key, key ≠ "default" → node'.get? key = node.get? key :=
    fun key other => (same key other).symm
  refine allListRequired_iff.2 ⟨?_, fun part step => parts part (step.of_same back)⟩
  unfold IsRecordNode ListsRequired at own ⊢
  rwa [back "type" (by decide), back "items" (by decide), back "properties" (by decide),
    back "required" (by decide)]

end Alike

/-- A default has nothing to do with what is listed. -/
theorem allListRequired_withDefault (node : Json) (default : Option Json) :
    AllListRequired (withDefault node default) ↔ AllListRequired node := by
  have same : ∀ key, key ≠ "default" → (withDefault node default).get? key = node.get? key :=
    fun key other => get?_withDefault_of_ne other node default
  exact ⟨.of_same same, .of_same fun key other => (same key other).symm⟩

/-! ### File data -/

/-- The node of file data, and the nodes inside it, list the properties without defaults. -/
theorem allListRequired_fileData : AllListRequired fileData := by
  have plain {node : Json} (default : Option Json) (all : AllListRequired node) :
      AllListRequired (withDefault node default) := (allListRequired_withDefault node default).2 all
  have string : AllListRequired (primitive .string) := allListRequired_of_kind .string ⟨rfl, rfl⟩
  have boolean : AllListRequired (primitive .boolean) := allListRequired_of_kind .boolean ⟨rfl, rfl⟩
  have integer : AllListRequired (primitive .integer) := allListRequired_of_kind .integer ⟨rfl, rfl⟩
  have map : AllListRequired anyMap :=
    (allListRequired_mapping _ _).2 ⟨string, allListRequired_anything⟩
  have maps : AllListRequired (array anyMap) := (allListRequired_array _).2 map
  have identifiers : AllListRequired sourceIdentifiers := by
    refine (allListRequired_record ⟨rfl, rfl⟩ rfl rfl).2 ⟨⟨_, rfl, by decide, rfl⟩, ?_⟩
    simp only [List.forall_mem_cons]
    exact ⟨string, string, plain _ string, List.forall_mem_nil _⟩
  have metadata : AllListRequired sourceMetadata := by
    refine (allListRequired_record ⟨rfl, rfl⟩ rfl rfl).2 ⟨⟨_, rfl, by decide, rfl⟩, ?_⟩
    simp only [List.forall_mem_cons]
    exact ⟨plain _ string, plain _ string, plain _ map, plain _ string, plain _ string,
      plain _ string, plain _ maps, plain _ integer, List.forall_mem_nil _⟩
  refine (allListRequired_record ⟨rfl, rfl⟩ rfl rfl).2 ⟨⟨_, rfl, by decide, rfl⟩, ?_⟩
  simp only [fileDataProperties, List.forall_mem_cons]
  exact ⟨string, string, plain _ identifiers, plain _ string, plain _ metadata, plain _ map,
    plain _ boolean, plain _ string, List.forall_mem_nil _⟩

end Node

/-! ## Types whose nodes list the right names -/

namespace Descriptor

/-- In the records of a type, fields that give way to later ones of their name do not change which
names are required. -/
def RequiredKept (t : Descriptor) : Prop :=
  ∀ name fields, t.Contains (.record name fields) →
    Field.requiredNames (Field.merge fields) = Field.requiredNames fields

theorem requiredKept_iff {t : Descriptor} :
    t.RequiredKept ↔
      (∀ name fields, t = .record name fields →
        Field.requiredNames (Field.merge fields) = Field.requiredNames fields) ∧
      ∀ part, t.HasPart part → part.RequiredKept := by
  constructor
  · intro kept
    refine ⟨?_, fun part step name fields inside => kept name fields (.head step inside)⟩
    rintro name fields rfl
    exact kept name fields .refl
  · rintro ⟨own, parts⟩ name fields inside
    rcases contains_iff.1 inside with same | ⟨part, step, further⟩
    · exact own name fields same
    · exact parts part step name fields further

/-- Whether a type is made without other types. -/
def isBare : Descriptor → Bool
  | .list _ | .mapping _ _ | .record _ _ | .optional _ | .union _ => false
  | _ => true

theorem requiredKept_of_bare {t : Descriptor} (bare : t.isBare = true) : t.RequiredKept := by
  refine requiredKept_iff.2 ⟨?_, ?_⟩
  · rintro name fields rfl
    cases bare
  · intro part step
    cases step <;> cases bare

theorem requiredKept_none : RequiredKept .none :=
  requiredKept_of_bare rfl

theorem requiredKept_iff_others (t : Descriptor) :
    t.RequiredKept ↔ ∀ m ∈ t.others, m.RequiredKept := by
  rw [others, forall_mem_filter_isNone requiredKept_none]
  have leaves (name : String) (fields : List (Field Descriptor)) :
      t.Contains (.record name fields) ↔ ∃ m ∈ t.leaves, m.Contains (.record name fields) := by
    refine contains_iff_leaves rfl ?_ t
    rintro ⟨⟩
  constructor
  · intro kept m member name fields inside
    exact kept name fields ((leaves name fields).2 ⟨m, member, inside⟩)
  · intro kept name fields inside
    rcases (leaves name fields).1 inside with ⟨m, member, inside⟩
    exact kept m member name fields inside

theorem requiredKept_list (element : Descriptor) :
    (list element).RequiredKept ↔ element.RequiredKept := by
  rw [requiredKept_iff]
  constructor
  · intro given
    exact given.2 element .element
  · intro kept
    refine ⟨nofun, ?_⟩
    rintro part ⟨⟩
    exact kept

theorem requiredKept_mapping (key value : Descriptor) :
    (mapping key value).RequiredKept ↔ key.RequiredKept ∧ value.RequiredKept := by
  rw [requiredKept_iff]
  constructor
  · intro given
    exact ⟨given.2 key .key, given.2 value .value⟩
  · rintro ⟨keyKept, valueKept⟩
    refine ⟨nofun, ?_⟩
    rintro part ⟨⟩
    · exact keyKept
    · exact valueKept

theorem requiredKept_record (name : String) (fields : List (Field Descriptor)) :
    (record name fields).RequiredKept ↔
      Field.requiredNames (Field.merge fields) = Field.requiredNames fields ∧
        ∀ f ∈ Field.merge fields, f.type.RequiredKept := by
  rw [requiredKept_iff]
  constructor
  · intro given
    exact ⟨given.1 name fields rfl, fun f member => given.2 f.type (.field member)⟩
  · rintro ⟨own, parts⟩
    refine ⟨?_, ?_⟩
    · rintro _ _ ⟨⟩
      exact own
    · rintro part ⟨⟩
      exact parts _ (by assumption)

/-- Where the fields of each record have names of their own, none gives way to another. -/
theorem requiredKept_of_distinctFields {t : Descriptor} (distinct : t.DistinctFields) :
    t.RequiredKept := by
  intro name fields inside
  rw [Field.merge_of_nodup (everyRecord_record.1 (distinct.of_contains inside)).1]

end Descriptor

section Encoded

variable {fields : List (Field Descriptor)} {properties : List (String × Json)}
  (related : List.Forall₂ Field.EncodesAs fields properties)

include related

/-- The properties without a default are the required ones among the fields that count. -/
theorem undefaulted_eq_requiredNames :
    ((Keyed.ofPairs properties).filter fun p => (p.2.get? "default").isNone).map Prod.fst =
      Field.requiredNames (Field.merge fields) := by
  have merged := Field.forall₂_merge (fun _ _ encodes => encodes.1) related
  have same : ∀ f ∈ Field.merge fields, ∀ p, Field.EncodesAs f p →
      f.isRequired = (p.2.get? "default").isNone := by
    rintro f _ p ⟨_, node, encoded, value⟩
    rw [value, Node.get?_withDefault_self (isUndefaulted_of_encode encoded)]
    rfl
  have names := (merged.filter same).imp fun _ _ encodes => encodes.1
  exact (List.map_eq_map_iff_forall₂.2 names).symm

/-- A node whose properties are those of some fields and which lists the names of the required ones,
none being as good as an empty list, lists the properties without a default if merging the fields
keeps the names. -/
theorem listsRequired_iff {parts : List (String × Json)}
    (properties_eq : Keyed.get? "properties" parts = some (.obj (Keyed.ofPairs properties)))
    (required_eq : (Keyed.get? "required" parts).getD (.arr []) =
      .arr ((Field.requiredNames fields).map .str)) :
    Node.ListsRequired (.obj parts) ↔
      Field.requiredNames (Field.merge fields) = Field.requiredNames fields := by
  have listed : ((Keyed.ofPairs properties).filter fun p => (p.2.get? "default").isNone).map
      (fun p => Json.str p.1) = (Field.requiredNames (Field.merge fields)).map .str := by
    rw [← undefaulted_eq_requiredNames related, List.map_map]
    rfl
  have injective : Function.Injective Json.str := fun _ _ => Json.str.inj
  constructor
  · rintro ⟨properties', there, _, names⟩
    cases properties_eq.symm.trans there
    have lists := required_eq.symm.trans names
    rw [listed] at lists
    exact (injective.list_map (Json.arr.inj lists)).symm
  · intro kept
    refine ⟨_, properties_eq, Keyed.nodup_keys_ofPairs properties, required_eq.trans ?_⟩
    rw [listed, kept]

/-- A record node made of fields, and all nodes inside it. -/
theorem allListRequired_iff_of_fields {parts : List (String × Json)}
    (typed : HasType "object" parts) (noItems : Keyed.get? "items" parts = none)
    (properties_eq : Keyed.get? "properties" parts = some (.obj (Keyed.ofPairs properties)))
    (required_eq : (Keyed.get? "required" parts).getD (.arr []) =
      .arr ((Field.requiredNames fields).map .str))
    (types : ∀ f ∈ fields, ∀ s, encode f.type = .ok s →
      (Node.AllListRequired s ↔ f.type.RequiredKept)) (name : String) :
    Node.AllListRequired (.obj parts) ↔ (Descriptor.record name fields).RequiredKept := by
  have merged := Field.forall₂_merge (fun _ _ encodes => encodes.1) related
  have same : ∀ f ∈ Field.merge fields, ∀ p, Field.EncodesAs f p →
      (f.type.RequiredKept ↔ Node.AllListRequired p.2) := by
    rintro f member p ⟨_, node, encoded, value⟩
    rw [value, Node.allListRequired_withDefault]
    exact (types f (Field.mem_of_mem_merge member) node encoded).symm
  rw [Node.allListRequired_record typed noItems properties_eq,
    listsRequired_iff related properties_eq required_eq, Descriptor.requiredKept_record,
    merged.forall_mem_iff same]

end Encoded

/-- The record nodes inside the node of a type list the properties without defaults exactly if
merging the fields of the records of the type keeps the required names. -/
theorem allListRequired_iff_of_encode {t : Descriptor} : ∀ {s : Json}, encode t = .ok s →
    (Node.AllListRequired s ↔ t.RequiredKept) := by
  induction t using Descriptor.leafInduction with
  | list element ih =>
    intro s encoded
    rcases encode_list_iff.1 encoded with ⟨items, itemsEncoded, rfl⟩
    rw [Node.allListRequired_array, Descriptor.requiredKept_list]
    exact ih itemsEncoded
  | mapping key value ihk ihv =>
    intro s encoded
    rcases encode_mapping_iff.1 encoded with ⟨_, k, v, keyEncoded, valueEncoded, rfl⟩
    rw [Node.allListRequired_mapping, Descriptor.requiredKept_mapping]
    exact and_congr (ihk keyEncoded) (ihv valueEncoded)
  | record name fields ih =>
    intro s encoded
    rcases encode_record_iff.1 encoded with ⟨properties, related, rfl⟩
    exact allListRequired_iff_of_fields related ⟨rfl, rfl⟩ rfl rfl rfl
      (fun f member _ => ih f member) name
  | union t hu ih =>
    intro s encoded
    rw [Descriptor.requiredKept_iff_others]
    rcases encode_cases encoded with
      ⟨noOthers, rfl⟩ | ⟨only, alone, _, onlyEncoded⟩ | ⟨several, arms, related, rfl⟩
    · rw [noOthers]
      exact iff_of_true Node.allListRequired_null (List.forall_mem_nil _)
    · have leaf := Descriptor.mem_leaves_of_mem_others (Descriptor.mem_others_of_eq alone)
      rw [alone, List.forall_mem_singleton]
      exact ih only leaf onlyEncoded
    · have parts := related.forall_mem_iff fun m member arm armEncoded =>
        (ih m (Descriptor.mem_leaves_of_mem_alternatives member) armEncoded).symm
      rw [Node.allListRequired_anyOf, ← parts]
      exact Descriptor.forall_mem_alternatives_iff Descriptor.requiredKept_none
  | enumeration name members =>
    intro s encoded
    rcases encode_enumeration_iff.1 encoded with ⟨kind, _, _, rfl⟩
    exact iff_of_true (Node.allListRequired_of_kind kind ⟨rfl, rfl⟩)
      (Descriptor.requiredKept_of_bare rfl)
  | primitive kind =>
    intro s encoded
    rw [encode] at encoded
    cases encoded
    exact iff_of_true (Node.allListRequired_of_kind kind ⟨rfl, rfl⟩)
      (Descriptor.requiredKept_of_bare rfl)
  | none =>
    intro s encoded
    rw [encode] at encoded
    cases encoded
    exact iff_of_true Node.allListRequired_null Descriptor.requiredKept_none
  | any =>
    intro s encoded
    rw [encode] at encoded
    cases encoded
    exact iff_of_true Node.allListRequired_anything (Descriptor.requiredKept_of_bare rfl)
  | path =>
    intro s encoded
    rw [encode] at encoded
    cases encoded
    exact iff_of_true (Node.allListRequired_of_kind .string ⟨rfl, rfl⟩)
      (Descriptor.requiredKept_of_bare rfl)
  | fileData =>
    intro s encoded
    rw [encode] at encoded
    cases encoded
    exact iff_of_true Node.allListRequired_fileData (Descriptor.requiredKept_of_bare rfl)

/-! ## Schemas -/

/-- The record nodes of the document of a type list the properties without defaults exactly if
merging the fields of the records of the type keeps the required names, and those of a schema of
requests exactly if that is so of the record of the parameters. Fields that have names of their own
are kept. -/
theorem allListRequired_iff_requiredKept (t : Descriptor) (params : List Parameter) (s : Json) :
    (encode t = .ok s → (Node.AllListRequired s ↔ t.RequiredKept)) ∧
      (parametersSchema params = .ok s →
        (Node.AllListRequired s ↔ (requestType params).RequiredKept)) ∧
      (t.DistinctFields → t.RequiredKept) := by
  refine ⟨allListRequired_iff_of_encode, ?_, Descriptor.requiredKept_of_distinctFields⟩
  intro built
  rcases (parametersSchema_eq_ok_iff.1 built).2 with ⟨rfl, rfl⟩ | ⟨_, properties, related, rfl⟩
  · refine iff_of_true Node.allListRequired_null ?_
    exact (Descriptor.requiredKept_record _ _).2 ⟨rfl, nofun⟩
  · refine allListRequired_iff_of_fields related hasPlainType_requestParts.toHasType
      (get?_requestParts (by decide)) get?_properties_requestParts ?_
      (fun _ _ _ => allListRequired_iff_of_encode) "request"
    rw [get?_required_requestParts]
    split
    · rename_i empty
      rw [List.isEmpty_iff.1 empty]
      rfl
    · rfl

/-- The fields of `ticket` and the parameters of `filing` have names of their own, so the document of
the one and the schema of requests to the other list what they are meant to. -/
theorem allListRequired_iff_requiredKept_ticket :
    (encode ticket = .ok ticketNode ∧ ticket.DistinctFields ∧
      parametersSchema (filing.shownParams {}) = .ok filingInputs ∧
      (requestType (filing.shownParams {})).DistinctFields) ∧
      (ticket.RequiredKept ∧ Node.AllListRequired ticketNode) ∧
      (requestType (filing.shownParams {})).RequiredKept ∧ Node.AllListRequired filingInputs := by
  have names := distinctFields_requestType_filing
  rcases allListRequired_iff_requiredKept ticket [] ticketNode with ⟨ofType, _, ofNames⟩
  rcases allListRequired_iff_requiredKept (requestType (filing.shownParams {}))
    (filing.shownParams {}) filingInputs with ⟨_, ofParams, ofParamNames⟩
  have kept := ofNames distinctFields_ticket
  have keptParams := ofParamNames names
  exact ⟨⟨encode_ticket, distinctFields_ticket, inputSchema_filing, names⟩,
    ⟨kept, (ofType encode_ticket).2 kept⟩,
    keptParams, (ofParams inputSchema_filing).2 keptParams⟩

/-- A record with two fields of one name, of which the last may be left out. -/
def repeated : Descriptor :=
  .record "Repeated" [
    { name := "a", type := .integer },
    { name := "a", type := .integer, default := some (.num (.int 1 (by decide))) }]

/-- The document of `repeated`: its one property has a default, and it is required. -/
def repeatedNode : Json :=
  Node.record
    [("a", Node.withDefault (Node.primitive .integer) (some (.num (.int 1 (by decide)))))] ["a"]

/-- The record node of `repeated` does not list just the properties without defaults. -/
theorem not_allListRequired_repeated :
    encode repeated = .ok repeatedNode ∧ ¬Node.AllListRequired repeatedNode := by
  constructor
  · rw [repeated, encode]
    simp only [encodeFields, encode]
    rfl
  · intro all
    rcases all repeatedNode .refl ⟨rfl, rfl⟩ with ⟨properties, there, _, names⟩
    cases there
    exact absurd names (by decide)

end CallContract
