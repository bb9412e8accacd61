import CallContract.Proofs.Decoding
import CallContract.Proofs.Fitting
import CallContract.Schema.Node

/-!
# Documents read directly

What a document says of payloads, without the type that it is decoded as.

* `Node.Satisfies`: a payload satisfies a node. The forms are tried in the order in which they
  stand.
* `Node.SatisfiesDocument` adds that a document of null alone is that of an empty request.
* `Node.isFaithful`: a payload fits the type that a node is read as if it satisfies the node. Each
  form of node that has parts has a lemma of its own, from the same for the parts.
-/

namespace CallContract

open Node (Reads HasType HasPlainType typeIs isMarked isBare isNull)

/-! ## Documents and payloads -/

namespace Node

/-- A record node lists names as required, and this is not one of them. -/
def LeavesOut (fields : List (String × Json)) (name : String) : Prop :=
  ∃ names, Keyed.get? "required" fields = some (.arr names) ∧ Json.str name ∉ names

/-- A property of a record node that payloads need not have. -/
def MayBeAbsent (fields : List (String × Json)) (property : String × Json) : Prop :=
  (property.2.get? "default").isSome = true ∨ LeavesOut fields property.1

/-- A property of a record node that may be null whatever its node says. -/
def MayBeNull (fields : List (String × Json)) (property : String × Json) : Prop :=
  property.2.get? "default" = some .null ∨
    (property.2.get? "default" = none ∧ LeavesOut fields property.1)

/-- A key fits the type that the node of the keys of a mapping is decoded as. -/
def AdmitsKey (node : Json) (key : String) : Prop :=
  ∃ name place t, decodeNode name place node = .ok t ∧ t.admitsKey key = true

/-- A payload satisfies a node. -/
def Satisfies (node v : Json) : Prop :=
  match node with
  | .obj fields =>
    if Keyed.contains "anyOf" fields then
      ∃ arms, ∃ there : Keyed.get? "anyOf" fields = some (.arr arms),
        ∃ arm, ∃ member : arm ∈ arms,
          have := sizeOf_lt_of_arm there member
          Satisfies arm v
    else if isBare fields then True
    else if typeIs "null" fields then v = .null
    else if Keyed.contains "enum" fields then
      ∃ values, Keyed.get? "enum" fields = some (.arr values) ∧
        ∃ value ∈ values, value.equal v = true
    else if typeIs "object" fields && isMarked "is_file_data" fields then
      ∃ data, FileData.ofJson v = .ok data
    else if typeIs "string" fields && isMarked "is_path" fields then
      ∃ text, v = .str text
    else if typeIs "object" fields && Keyed.contains "properties" fields then
      ∃ properties, ∃ there : Keyed.get? "properties" fields = some (.obj properties),
        ∃ payload, v = .obj payload ∧
          (∀ entry ∈ payload, Keyed.contains entry.1 properties = true) ∧
          ∀ property, ∀ member : property ∈ properties,
            have := sizeOf_lt_of_property there member
            match Keyed.get? property.1 payload with
            | some item => Satisfies property.2 item ∨ (item = .null ∧ MayBeNull fields property)
            | none => MayBeAbsent fields property
    else if typeIs "object" fields then
      ∃ items key value, ∃ there : Keyed.get? "items" fields = some items,
        ∃ valueThere : items.get? "value" = some value,
          have := Nat.lt_trans (Json.lt_of_get? valueThere) (sizeOf_lt_of_part there)
          items.get? "key" = some key ∧
            ∃ entries, v = .obj entries ∧
              ∀ entry ∈ entries, Satisfies value entry.2 ∧ AdmitsKey key entry.1
    else if typeIs "array" fields then
      ∃ list, v = .arr list ∧
        ∀ items, ∀ there : Keyed.get? "items" fields = some items,
          have := sizeOf_lt_of_part there
          ∀ item ∈ list, Satisfies items item
    else ∃ kind : Primitive, typeIs kind.name fields = true ∧ kind.Takes v
  | _ => False
termination_by sizeOf node
decreasing_by all_goals assumption

/-- A payload satisfies a document. -/
def SatisfiesDocument (schema v : Json) : Prop :=
  if isNull schema then v = .obj [] else Satisfies schema v

end Node

/-! ## The rules -/

section Rules

open Node

variable {fields : List (String × Json)} {v : Json}

theorem satisfies_anyOf {arms : List Json}
    (arms_eq : Keyed.get? "anyOf" fields = some (.arr arms)) :
    Satisfies (.obj fields) v ↔ ∃ arm ∈ arms, Satisfies arm v := by
  rw [Satisfies, if_pos (contains_of_eq arms_eq)]
  constructor
  · intro given
    rcases given with ⟨found, there, arm, member, satisfied⟩
    cases arms_eq.symm.trans there
    exact ⟨arm, member, satisfied⟩
  · intro given
    rcases given with ⟨arm, member, satisfied⟩
    exact ⟨arms, arms_eq, arm, member, satisfied⟩

theorem satisfies_bare (noArms : Keyed.get? "anyOf" fields = none) (bare : isBare fields = true) :
    Satisfies (.obj fields) v := by
  rw [Satisfies, not_contains_of_eq noArms, bare]
  trivial

theorem satisfies_null (typed : HasType "null" fields) :
    Satisfies (.obj fields) v ↔ v = .null := by
  rw [Satisfies, not_contains_of_eq typed.noArms, isBare_of_hasType typed, typed.typeIs]
  exact Iff.rfl

theorem satisfies_enumeration {type : String} {values : List Json} (typed : HasType type fields)
    (notNull : type ≠ "null") (values_eq : Keyed.get? "enum" fields = some (.arr values)) :
    Satisfies (.obj fields) v ↔ ∃ value ∈ values, value.equal v = true := by
  rw [Satisfies, not_contains_of_eq typed.noArms, isBare_of_hasType typed, typed.typeIs,
    decide_eq_false notNull, contains_of_eq values_eq]
  constructor
  · intro given
    rcases given with ⟨found, there, listed⟩
    cases values_eq.symm.trans there
    exact listed
  · exact fun listed => ⟨values, values_eq, listed⟩

theorem satisfies_fileData (typed : HasPlainType "object" fields)
    (marked : isMarked "is_file_data" fields = true) :
    Satisfies (.obj fields) v ↔ ∃ data, FileData.ofJson v = .ok data := by
  rw [Satisfies, not_contains_of_eq typed.noArms, isBare_of_hasType typed.toHasType,
    not_contains_of_eq typed.noValues, typed.typeIs "null", typed.typeIs "object", marked]
  exact Iff.rfl

theorem satisfies_path (typed : HasPlainType "string" fields)
    (marked : isMarked "is_path" fields = true) :
    Satisfies (.obj fields) v ↔ ∃ text, v = .str text := by
  rw [Satisfies, not_contains_of_eq typed.noArms, isBare_of_hasType typed.toHasType,
    not_contains_of_eq typed.noValues, typed.typeIs "null", typed.typeIs "object",
    typed.typeIs "string", marked]
  exact Iff.rfl

theorem satisfies_record {properties : List (String × Json)} (typed : HasPlainType "object" fields)
    (unmarked : isMarked "is_file_data" fields = false)
    (properties_eq : Keyed.get? "properties" fields = some (.obj properties)) :
    Satisfies (.obj fields) v ↔
      ∃ payload, v = .obj payload ∧
        (∀ entry ∈ payload, Keyed.contains entry.1 properties = true) ∧
        ∀ property ∈ properties,
          match Keyed.get? property.1 payload with
          | some item => Satisfies property.2 item ∨ (item = .null ∧ MayBeNull fields property)
          | none => MayBeAbsent fields property := by
  rw [Satisfies, not_contains_of_eq typed.noArms, isBare_of_hasType typed.toHasType,
    not_contains_of_eq typed.noValues, typed.typeIs "null", typed.typeIs "object",
    typed.typeIs "string", unmarked, contains_of_eq properties_eq]
  constructor
  · intro given
    rcases given with ⟨found, there, satisfied⟩
    cases properties_eq.symm.trans there
    exact satisfied
  · exact fun satisfied => ⟨properties, properties_eq, satisfied⟩

theorem satisfies_mapping {items key value : Json} (typed : HasPlainType "object" fields)
    (unmarked : isMarked "is_file_data" fields = false)
    (noProperties : Keyed.get? "properties" fields = none)
    (items_eq : Keyed.get? "items" fields = some items) (key_eq : items.get? "key" = some key)
    (value_eq : items.get? "value" = some value) :
    Satisfies (.obj fields) v ↔
      ∃ entries, v = .obj entries ∧
        ∀ entry ∈ entries, Satisfies value entry.2 ∧ AdmitsKey key entry.1 := by
  rw [Satisfies, not_contains_of_eq typed.noArms, isBare_of_hasType typed.toHasType,
    not_contains_of_eq typed.noValues, typed.typeIs "null", typed.typeIs "object",
    typed.typeIs "string", unmarked, not_contains_of_eq noProperties]
  constructor
  · intro given
    rcases given with ⟨found, key', value', there, valueThere, keyThere, satisfied⟩
    cases items_eq.symm.trans there
    cases value_eq.symm.trans valueThere
    cases key_eq.symm.trans keyThere
    exact satisfied
  · exact fun satisfied => ⟨items, key, value, items_eq, value_eq, key_eq, satisfied⟩

theorem satisfies_array (typed : HasPlainType "array" fields) :
    Satisfies (.obj fields) v ↔
      ∃ list, v = .arr list ∧
        ∀ items, Keyed.get? "items" fields = some items → ∀ item ∈ list, Satisfies items item := by
  rw [Satisfies, not_contains_of_eq typed.noArms, isBare_of_hasType typed.toHasType,
    not_contains_of_eq typed.noValues, typed.typeIs "null", typed.typeIs "object",
    typed.typeIs "string", typed.typeIs "array"]
  exact Iff.rfl

theorem satisfies_primitive {kind : Primitive} (typed : HasPlainType kind.name fields)
    (unmarked : kind.name = "string" → isMarked "is_path" fields = false) :
    Satisfies (.obj fields) v ↔ kind.Takes v := by
  have others := Primitive.name_ne kind
  have notPath : (decide (kind.name = "string") && isMarked "is_path" fields) = false := by
    cases marked : isMarked "is_path" fields with
    | false => exact Bool.and_false _
    | true =>
      rw [Bool.and_true, decide_eq_false]
      intro string
      rw [unmarked string] at marked
      cases marked
  rw [Satisfies, not_contains_of_eq typed.noArms, isBare_of_hasType typed.toHasType,
    not_contains_of_eq typed.noValues, typed.typeIs "null", typed.typeIs "object",
    typed.typeIs "string", typed.typeIs "array", notPath, decide_eq_false others.1,
    decide_eq_false others.2.1, decide_eq_false others.2.2]
  constructor
  · intro given
    rcases given with ⟨found, same, takes⟩
    rw [typed.typeIs, decide_eq_true_iff] at same
    have ofName := congrArg Primitive.ofName? same
    rw [Primitive.ofName?_name, Primitive.ofName?_name] at ofName
    cases ofName
    exact takes
  · exact fun takes => ⟨kind, typeIs_iff.2 typed.type, takes⟩

/-- A node that is read as null among the arms of a union takes null alone. -/
theorem satisfies_of_isNull {node : Json} (null : isNull node = true) :
    Satisfies node v ↔ v = .null := by
  rcases exists_hasType_of_isNull null with ⟨fields, rfl, typed⟩
  exact satisfies_null typed

/-- An arm of a union that is satisfied is null or one of the other arms. -/
theorem exists_arm_iff {arms : List Json} :
    (∃ arm ∈ arms, Satisfies arm v) ↔
      (v = .null ∧ arms.any isNull = true) ∨ ∃ arm ∈ otherArms arms, Satisfies arm v := by
  rw [List.any_eq_true]
  constructor
  · intro given
    rcases given with ⟨arm, member, satisfied⟩
    cases null : isNull arm with
    | true => exact Or.inl ⟨(satisfies_of_isNull null).1 satisfied, arm, member, null⟩
    | false => exact Or.inr ⟨arm, List.mem_filter.2 ⟨member, by rw [null]; rfl⟩, satisfied⟩
  · intro given
    rcases given with ⟨rfl, arm, member, null⟩ | ⟨arm, member, satisfied⟩
    · exact ⟨arm, member, (satisfies_of_isNull null).2 rfl⟩
    · exact ⟨arm, List.mem_of_mem_filter member, satisfied⟩

end Rules

/-! ## What is decoded, rule by rule -/

section Decoded

variable {v : Json}

theorem fits_decodedUnion {hadNull : Bool} {types : List Descriptor}
    (inhabited : types ≠ [] ∨ hadNull = true) :
    (decodedUnion hadNull types).Fits v ↔ (v = .null ∧ hadNull = true) ∨ ∃ t ∈ types, t.Fits v := by
  rcases types with _ | ⟨t, _ | ⟨u, rest⟩⟩
  · have null := inhabited.resolve_left fun none => none rfl
    rw [decodedUnion, Descriptor.fits_none, null]
    simp
  · rw [decodedUnion]
    cases hadNull with
    | false => simp
    | true => simp [Descriptor.fits_optional]
  · rw [decodedUnion]
    · rw [Descriptor.fits_unionOf]
      cases hadNull with
      | false => simp
      | true =>
        simp only [if_true, List.mem_append, List.mem_singleton, or_and_right, exists_or,
          exists_eq_left, Descriptor.fits_none, and_true]
        exact or_comm
    · intro same
      cases same
    · intro only same
      cases same

section Properties

variable {fields properties : List (String × Json)} {required : Option (List String)}
  (requires : Node.Requires fields properties required) (property : String × Json) (t : Descriptor)

include requires

theorem leavesOut_iff (name : String) :
    Node.LeavesOut fields name ↔ (required.all fun names => names.contains name) = false := by
  rw [Node.LeavesOut, requires.1]
  cases required with
  | none => simp
  | some names => simp

theorem isSome_default_decodeField :
    (decodeField required property.1 property.2 t).default.isSome = true ↔
      Node.MayBeAbsent fields property := by
  rw [Node.MayBeAbsent, leavesOut_iff requires, decodeField]
  generalize (required.all fun names => names.contains property.1) = listed
  split
  · rename_i default
    simp [default]
  · rename_i default
    simp [default]
  · rename_i default
    cases listed <;> simp [default]

theorem fits_type_decodeField :
    (decodeField required property.1 property.2 t).type.Fits v ↔
      t.Fits v ∨ (v = .null ∧ Node.MayBeNull fields property) := by
  rw [Node.MayBeNull, leavesOut_iff requires, decodeField]
  generalize (required.all fun names => names.contains property.1) = listed
  split
  · rename_i default
    simp [default, Descriptor.fits_widen, or_comm]
  · rename_i value other default
    have notNull : value ≠ .null := other
    simp [default, notNull]
  · rename_i default
    cases listed with
    | true => simp [default]
    | false => simp [default, Descriptor.fits_widen, or_comm]

/-- A field that a property makes is fitted by what the property says. -/
theorem fitsIn_decodeField {payload : List (String × Json)} :
    (decodeField required property.1 property.2 t).FitsIn payload ↔
      match Keyed.get? property.1 payload with
      | some item => t.Fits item ∨ (item = .null ∧ Node.MayBeNull fields property)
      | none => Node.MayBeAbsent fields property := by
  rw [Field.FitsIn, decodeField_name]
  cases Keyed.get? property.1 payload with
  | some item => exact fits_type_decodeField requires property t
  | none => exact isSome_default_decodeField requires property t

end Properties

theorem admitsKey_iff {key : Json} {k : Descriptor} (reads : Reads key k) (text : String) :
    Node.AdmitsKey key text ↔ k.admitsKey text = true := by
  constructor
  · intro given
    rcases given with ⟨name, place, t, decoded, admitted⟩
    obtain ⟨u, again, rfl⟩ := reads name place
    cases decoded.symm.trans again
    rwa [Descriptor.admitsKey_unnamed]
  · intro admitted
    obtain ⟨u, decoded, rfl⟩ := reads defaultModelName []
    exact ⟨_, _, u, decoded, by rwa [Descriptor.admitsKey_unnamed] at admitted⟩

end Decoded

/-! ## Documents -/

/-- Whatever type a node is read as, what fits the type is what satisfies the node. -/
def Node.IsFaithful (node : Json) : Prop :=
  ∀ (t : Descriptor) (v : Json), Reads node t → (t.Fits v ↔ Node.Satisfies node v)

section Faithful

open Node (IsFaithful)

variable {fields : List (String × Json)} {v : Json}

/-- A union that is read from arms has null or another alternative. -/
theorem ne_nil_or_isNull {arms : List Json} {types : List Descriptor} (inhabited : arms ≠ [])
    (types_eq : List.Forall₂ Reads (Node.otherArms arms) types) :
    types ≠ [] ∨ arms.any isNull = true := by
  rw [or_iff_not_imp_left, not_not]
  intro same
  subst same
  have none := List.forall₂_nil_right_iff.1 types_eq
  obtain ⟨arm, member⟩ := List.exists_mem_of_ne_nil arms inhabited
  refine List.any_eq_true.2 ⟨arm, member, ?_⟩
  by_contra other
  have kept : arm ∈ Node.otherArms arms := List.mem_filter.2 ⟨member, by simp [other]⟩
  rw [none] at kept
  cases kept

theorem fits_decodedUnion_iff_satisfies {arms : List Json} {types : List Descriptor}
    (arms_eq : Keyed.get? "anyOf" fields = some (.arr arms)) (inhabited : arms ≠ [])
    (types_eq : List.Forall₂ Reads (Node.otherArms arms) types)
    (faithful : ∀ arm ∈ arms, IsFaithful arm) :
    (decodedUnion (arms.any isNull) types).Fits v ↔ Node.Satisfies (.obj fields) v := by
  have others : (∃ arm ∈ Node.otherArms arms, Node.Satisfies arm v) ↔ ∃ u ∈ types, u.Fits v := by
    refine types_eq.exists_mem_iff fun arm member u armReads => ?_
    have armFaithful := faithful arm (List.mem_of_mem_filter member)
    exact (armFaithful u v armReads).symm
  have either := fits_decodedUnion (v := v) (ne_nil_or_isNull inhabited types_eq)
  rw [satisfies_anyOf arms_eq, exists_arm_iff, either, others]

theorem fits_record_iff_satisfies {properties : List (String × Json)}
    {required : Option (List String)} {parts : List (Field Descriptor)}
    (typed : HasPlainType "object" fields) (unmarked : isMarked "is_file_data" fields = false)
    (properties_eq : Keyed.get? "properties" fields = some (.obj properties))
    (required_eq : Node.Requires fields properties required)
    (parts_eq : List.Forall₂ (Field.ReadFrom required) properties parts)
    (faithful : ∀ property ∈ properties, IsFaithful property.2) :
    (Descriptor.record "" parts).Fits v ↔ Node.Satisfies (.obj fields) v := by
  have named (entry : String × Json) : (∃ f ∈ parts, f.name = entry.1) ↔
      Keyed.contains entry.1 properties = true := by
    rw [Keyed.contains_iff, List.mem_map, ← parts_eq.exists_mem_iff]
    intro property _ f given
    rcases given with ⟨u, _, rfl⟩
    rw [decodeField_name]
  rw [satisfies_record typed unmarked properties_eq, Descriptor.fits_record]
  refine exists_congr fun payload => and_congr_right fun _ => and_congr ?_ ?_
  · exact forall₂_congr fun entry _ => named entry
  · refine (parts_eq.forall_mem_iff ?_).symm
    intro property member f given
    rcases given with ⟨u, propertyReads, rfl⟩
    rw [fitsIn_decodeField required_eq]
    cases Keyed.get? property.1 payload with
    | none => exact Iff.rfl
    | some item =>
      have propertyFaithful := faithful property member u item propertyReads
      exact or_congr_left propertyFaithful.symm

theorem fits_mapping_iff_satisfies {items key value : Json} {k u : Descriptor}
    (typed : HasPlainType "object" fields) (unmarked : isMarked "is_file_data" fields = false)
    (noProperties : Keyed.get? "properties" fields = none)
    (items_eq : Keyed.get? "items" fields = some items) (key_eq : items.get? "key" = some key)
    (value_eq : items.get? "value" = some value) (keyReads : Reads key k)
    (valueReads : Reads value u) (faithful : IsFaithful value) :
    (Descriptor.mapping k u).Fits v ↔ Node.Satisfies (.obj fields) v := by
  have satisfied := satisfies_mapping (v := v) typed unmarked noProperties items_eq key_eq value_eq
  rw [satisfied, Descriptor.fits_mapping]
  refine exists_congr fun entries => and_congr_right fun _ => forall₂_congr fun entry _ => ?_
  rw [admitsKey_iff keyReads, faithful u entry.2 valueReads, and_comm]

theorem fits_anyList_iff_satisfies (typed : HasPlainType "array" fields)
    (noItems : Keyed.get? "items" fields = none) :
    (Descriptor.list .any).Fits v ↔ Node.Satisfies (.obj fields) v := by
  rw [satisfies_array typed, Descriptor.fits_list]
  refine exists_congr fun list => and_congr_right fun _ => iff_of_true ?_ ?_
  · exact fun _ _ => Descriptor.fits_any
  · intro items there
    cases noItems.symm.trans there

theorem fits_list_iff_satisfies {items : Json} {element : Descriptor}
    (typed : HasPlainType "array" fields) (items_eq : Keyed.get? "items" fields = some items)
    (itemsRead : Reads items element) (faithful : IsFaithful items) :
    (Descriptor.list element).Fits v ↔ Node.Satisfies (.obj fields) v := by
  rw [satisfies_array typed, Descriptor.fits_list]
  refine exists_congr fun list => and_congr_right fun _ => ?_
  constructor
  · intro fits found there item member
    cases items_eq.symm.trans there
    have itemFits := fits item member
    exact (faithful element item itemsRead).1 itemFits
  · intro satisfied item member
    have itemSatisfied := satisfied items items_eq item member
    exact (faithful element item itemsRead).2 itemSatisfied

end Faithful

/-- What fits the type of a node satisfies the node, and nothing else does. -/
theorem Node.isFaithful (node : Json) : Node.IsFaithful node := by
  induction size : sizeOf node using Nat.strongRecOn generalizing node with
  | _ n ih =>
    subst size
    intro t v reads
    obtain ⟨fields, rfl⟩ := reads.exists_fields
    have part : ∀ inner : Json, sizeOf inner < sizeOf (Json.obj fields) → Node.IsFaithful inner :=
      fun inner smaller => ih _ smaller inner rfl
    cases reads_iff.1 reads with
    | anyOf arms_eq inhabited types_eq =>
      refine fits_decodedUnion_iff_satisfies arms_eq inhabited types_eq fun arm member => ?_
      exact part arm (sizeOf_lt_of_arm arms_eq member)
    | bare noArms bare => exact iff_of_true Descriptor.fits_any (satisfies_bare noArms bare)
    | @enumeration type _ _ typed values_eq kind_eq _ _ =>
      have notNull : type ≠ "null" := by
        intro same
        subst same
        cases kind_eq
      rw [satisfies_enumeration typed notNull values_eq, Descriptor.fits_enumeration]
      simp only [List.mem_map, exists_exists_and_eq_and]
    | null typed => rw [satisfies_null typed.toHasType, Descriptor.fits_none]
    | fileData typed marked => rw [satisfies_fileData typed marked, Descriptor.fits_fileData]
    | record typed unmarked properties_eq required_eq parts_eq =>
      refine fits_record_iff_satisfies typed unmarked properties_eq required_eq parts_eq ?_
      intro property member
      exact part property.2 (sizeOf_lt_of_property properties_eq member)
    | @mapping items key value _ _ typed unmarked noProperties items_eq key_eq value_eq keyReads
        valueReads =>
      have smaller := Nat.lt_trans (Json.lt_of_get? value_eq) (sizeOf_lt_of_part items_eq)
      exact fits_mapping_iff_satisfies typed unmarked noProperties items_eq key_eq value_eq keyReads
        valueReads (part value smaller)
    | anyList typed noItems => exact fits_anyList_iff_satisfies typed noItems
    | @list items _ typed items_eq itemsRead =>
      have smaller := sizeOf_lt_of_part items_eq
      exact fits_list_iff_satisfies typed items_eq itemsRead (part items smaller)
    | path typed marked => rw [satisfies_path typed marked, Descriptor.fits_path]
    | primitive typed unmarked kind_eq =>
      obtain rfl := Primitive.name_of_ofName? kind_eq
      rw [satisfies_primitive typed unmarked, Descriptor.fits_primitive]

/-- A request fits the type that a document is decoded as if it satisfies the document, and not
otherwise. -/
theorem validate_decoded_iff {schema : Json} {name : String} {t : Descriptor}
    (decoded : decode schema name = .ok t) (v : Json) :
    (∃ x, validate t v = .ok x) ↔ Node.SatisfiesDocument schema v := by
  change t.Fits v ↔ _
  rw [decode] at decoded
  rw [Node.SatisfiesDocument]
  split at decoded
  · rename_i null
    cases decoded
    rw [if_pos null, Descriptor.fits_record]
    constructor
    · intro given
      rcases given with ⟨payload, rfl, known, _⟩
      cases payload with
      | nil => rfl
      | cons entry rest =>
        obtain ⟨f, member, _⟩ := known entry List.mem_cons_self
        cases member
    · intro same
      subst same
      exact ⟨[], rfl, List.forall_mem_nil _, List.forall_mem_nil _⟩
  · rename_i other
    rw [if_neg other, ← Descriptor.fits_unnamed]
    have reads := reads_of_decodeNode decoded
    exact Node.isFaithful schema _ v reads

/-- The document of a record with one property, which is left out of the names that are required. -/
def memoNode : Json :=
  Node.record [("note", Node.primitive .string)] []

theorem decode_memoNode : decode memoNode "memo" =
    .ok (.record "memo"
      [{ name := "note", type := .optional (.primitive .string), default := some .null }]) := by
  have note (name : String) (place : Pointer) :
      decodeNode name place (Node.primitive .string) = .ok (.primitive .string) := by
    rw [Node.primitive, decodeNode_obj]
    rfl
  have properties : decodeProperties "memo" ([] ++ ["properties"]) (some [])
      [("note", Node.primitive .string)] =
        .ok [{
          name := "note"
          type := .optional (.primitive .string)
          default := some .null }] := by
    rw [decodeProperties, note, decodeProperties]
    rfl
  rw [decode, if_neg (by decide), memoNode, Node.record, decodeNode_obj]
  exact Except.bind_eq_ok.2 ⟨some [], rfl, Except.bind_eq_ok.2 ⟨_, properties, rfl⟩⟩

/-- The document of memos says of each payload whether it is one. -/
theorem validate_decoded_iff_memo :
    ∃ t, decode memoNode "memo" = .ok t ∧
      ∀ v, (∃ x, validate t v = .ok x) ↔ Node.SatisfiesDocument memoNode v :=
  ⟨_, decode_memoNode, validate_decoded_iff decode_memoNode⟩

end CallContract
