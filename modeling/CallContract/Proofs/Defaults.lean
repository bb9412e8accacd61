import CallContract.Proofs.Grammar
import CallContract.Proofs.RoundTrip

/-!
# Which types are encoded into the grammar

A default stands beside the node of the type of its field, and the grammar asks of it what it asks
of a default of such a node.

* `Descriptor.AdmitsDefault`: a value can be the default of a field of a type. What null adds to the
  type does not matter; a type of one scalar takes null and what the scalar admits.
* `isNode_withDefault_iff`: so it is with the node of the type.
* `isNode_iff_of_encode`: the node of a type belongs to the grammar if all defaults inside the type
  are admitted where they stand.
-/

namespace CallContract

open Node (withDefault)

namespace Descriptor

/-! ## Alternatives without null -/

/-- The alternatives of a type, null apart. -/
def others (t : Descriptor) : List Descriptor :=
  t.leaves.filter fun m => !m.isNone

theorem mem_leaves_of_mem_others {t m : Descriptor} (member : m ∈ t.others) : m ∈ t.leaves :=
  List.mem_of_mem_filter member

theorem isNone_of_mem_others {t m : Descriptor} (member : m ∈ t.others) : m.isNone = false := by
  have kept := List.of_mem_filter member
  simpa using kept

theorem mem_others_of_eq {t only : Descriptor} (alone : t.others = [only]) : only ∈ t.others := by
  rw [alone]
  exact List.mem_singleton_self only

theorem others_eq_splitNull {t : Descriptor} (hu : t.isUnion = true) :
    t.others = t.splitNull.1 :=
  (splitNull_fst hu).symm

theorem filter_alternatives_eq_others (t : Descriptor) :
    (t.alternatives.filter fun u => !u.isNone) = t.others :=
  filter_keepFirstNone t.leaves

theorem others_of_not_isUnion {t : Descriptor} (single : t.isUnion = false)
    (notNone : t.isNone = false) : t.others = [t] := by
  rw [others, leaves_of_not_isUnion single, List.filter_singleton, notNone]
  rfl

theorem RespectsUnions.others_map {f : Descriptor → Descriptor} (respects : RespectsUnions f)
    (t : Descriptor) : (f t).others = t.others.map f := by
  rw [others, respects.leaves_map, respects.filter_map]
  rfl

/-- What holds of null holds of all of some types if it holds of those that are not null. -/
theorem forall_mem_filter_isNone {P : Descriptor → Prop} (null : P .none) {ts : List Descriptor} :
    (∀ m ∈ ts.filter (fun u => !u.isNone), P m) ↔ ∀ m ∈ ts, P m := by
  constructor
  · intro given m member
    cases none : m.isNone with
    | true => rwa [eq_none_of_isNone none]
    | false => exact given m (List.mem_filter.2 ⟨member, by rw [none]; rfl⟩)
  · intro given m member
    exact given m (List.mem_of_mem_filter member)

theorem forall_mem_alternatives_iff {P : Descriptor → Prop} (null : P .none) {t : Descriptor} :
    (∀ m ∈ t.alternatives, P m) ↔ ∀ m ∈ t.others, P m := by
  rw [← filter_alternatives_eq_others, forall_mem_filter_isNone null]

/-- The records of a type are those of its alternatives. -/
theorem everyRecord_iff_others {p : List (Field Descriptor) → Prop} (t : Descriptor) :
    EveryRecord p t ↔ ∀ m ∈ t.others, EveryRecord p m := by
  have null : EveryRecord p .none := trivial
  rw [everyRecord_iff_leaves, others, forall_mem_filter_isNone null]

/-! ## Defaults that types admit -/

/-- Whether a value can be the default of a field of a type that is no union: a scalar type takes
null and what it admits, any other type all values. -/
def TakesDefault (value : Json) : Descriptor → Prop
  | .primitive kind => kind.admitsDefault value = true
  | .path => Primitive.string.admitsDefault value = true
  | .enumeration _ members =>
    ∃ kind : Primitive, (∀ m ∈ members, Primitive.ofValue? m.value = some kind) ∧
      kind.admitsDefault value = true
  | _ => True

/-- Whether a value can be the default of a field of a type. Null is dropped from the type: where
nothing is left the default is null, one alternative takes the default or not, and several take
any. -/
def AdmitsDefault (t : Descriptor) (value : Json) : Prop :=
  match t.others with
  | [] => value = .null
  | [only] => only.TakesDefault value
  | _ => True

end Descriptor

/-- The default of a field, if it has one, is one that its type admits. -/
def Field.Admissible (f : Field Descriptor) : Prop :=
  ∀ value, f.default = some value → f.type.AdmitsDefault value

namespace Descriptor

/-- All fields of the records inside a type are admissible. -/
def DefaultsAdmissible : Descriptor → Prop :=
  EveryRecord fun fields => ∀ f ∈ fields, f.Admissible

theorem takesDefault_rewrite {r : Rewriting} (members : r.members = id) {value : Json}
    {t : Descriptor} : (rewrite r t).TakesDefault value ↔ t.TakesDefault value := by
  cases t with
  | enumeration name listed =>
    rw [rewrite, members]
    rfl
  | _ => rfl

/-- Types that differ in the fields of records only admit the same defaults. -/
theorem admitsDefault_merged {t : Descriptor} {value : Json} :
    t.merged.AdmitsDefault value ↔ t.AdmitsDefault value := by
  rw [AdmitsDefault, AdmitsDefault, respectsUnions_merged.others_map]
  rcases t.others with _ | ⟨only, _ | ⟨next, rest⟩⟩
  · rfl
  · exact takesDefault_rewrite rfl
  · rfl

theorem defaultsAdmissible_merged_iff {t : Descriptor} :
    t.merged.DefaultsAdmissible ↔ ∀ m ∈ t.others, m.merged.DefaultsAdmissible := by
  rw [DefaultsAdmissible, everyRecord_iff_others, respectsUnions_merged.others_map,
    List.forall_mem_map]

end Descriptor

theorem Field.admissible_mapType_merged {f : Field Descriptor} :
    (f.mapType Descriptor.merged).Admissible ↔ f.Admissible :=
  forall₂_congr fun _ _ => Descriptor.admitsDefault_merged

/-- Fields that share a name are merged into some of them. -/
theorem Descriptor.DefaultsAdmissible.merged {t : Descriptor} (admissible : t.DefaultsAdmissible) :
    t.merged.DefaultsAdmissible := by
  refine EveryRecord.rewrite (fun _ _ => Field.mem_of_mem_merge) ?_ admissible
  intro fields given f member
  have there := Field.mem_of_mem_merge member
  rcases List.mem_map.1 there with ⟨g, listed, rfl⟩
  exact Field.admissible_mapType_merged.2 (given g listed)

/-! ## The node of a type and a default -/

section Nodes

variable {t : Descriptor} {s : Json}

/-- The node of a type, by its alternatives: that of null, that of the one alternative, or a
union. -/
theorem encode_cases (encoded : encode t = .ok s) :
    (t.others = [] ∧ s = Node.null) ∨
    (∃ only, t.others = [only] ∧ only.isUnion = false ∧ encode only = .ok s) ∨
    (2 ≤ t.others.length ∧
      ∃ arms, List.Forall₂ (fun m arm => encode m = .ok arm) t.alternatives arms ∧
        s = Node.anyOf arms) := by
  cases hu : t.isUnion with
  | true =>
    have rule := (encode_union_iff hu).1 encoded
    rw [← Descriptor.others_eq_splitNull hu] at rule
    rcases rule with ⟨none, _, rfl⟩ | ⟨only, alone, onlyEncoded⟩ | several
    · exact .inl ⟨none, rfl⟩
    · have leaf := Descriptor.mem_leaves_of_mem_others (Descriptor.mem_others_of_eq alone)
      exact .inr (.inl ⟨only, alone, Descriptor.isUnion_of_mem_leaves t leaf, onlyEncoded⟩)
    · exact .inr (.inr several)
  | false =>
    cases none : t.isNone with
    | true =>
      rw [Descriptor.eq_none_of_isNone none] at encoded ⊢
      rw [encode] at encoded
      exact .inl ⟨rfl, (Except.ok.inj encoded).symm⟩
    | false => exact .inr (.inl ⟨t, Descriptor.others_of_not_isUnion hu none, hu, encoded⟩)

/-- The node of a scalar asks of a default what the scalar asks of it. -/
theorem isNode_withDefault_iff_of_scalar {kind : Primitive}
    (rule : ∀ default, isNode (withDefault s default) = default.all kind.admitsDefault)
    (takes : ∀ value, t.TakesDefault value ↔ kind.admitsDefault value = true)
    (default : Option Json) :
    isNode (withDefault s default) = true ↔
      isNode s = true ∧ ∀ value, default = some value → t.TakesDefault value := by
  have plain : isNode s = true := rule none
  rw [rule, Option.all_eq_true, and_iff_right plain]
  exact forall₂_congr fun value _ => (takes value).symm

/-- The node of a type that takes any default asks nothing of it. -/
theorem isNode_withDefault_iff_of_any {valid : Bool}
    (rule : ∀ default, isNode (withDefault s default) = valid)
    (takes : ∀ value, t.TakesDefault value) (default : Option Json) :
    isNode (withDefault s default) = true ↔
      isNode s = true ∧ ∀ value, default = some value → t.TakesDefault value := by
  have plain : isNode s = valid := rule none
  rw [rule, plain]
  exact (and_iff_left fun value _ => takes value).symm

theorem isNode_enumeration_of_kind {kind : Primitive} {members : List EnumMember}
    (inhabited : members ≠ []) (ofKind : ∀ m ∈ members, Primitive.ofValue? m.value = some kind)
    (default : Option Json) :
    isNode (withDefault (Node.enumeration kind (members.map EnumMember.value)) default) =
      default.all kind.admitsDefault := by
  have values : (!(members.map EnumMember.value).isEmpty &&
      (members.map EnumMember.value).all kind.admits) = true := by
    rw [Bool.and_eq_true, List.all_eq_true, List.forall_mem_map]
    refine ⟨?_, fun m member => admits_of_ofValue? (ofKind m member)⟩
    cases members with
    | nil => exact absurd rfl inhabited
    | cons m rest => rfl
  rw [isNode_enumeration, values, Bool.true_and]

/-- Members of an enumeration are of one kind at most, if there are some. -/
theorem takesDefault_enumeration {kind : Primitive} {name : String} {members : List EnumMember}
    (inhabited : members ≠ []) (ofKind : ∀ m ∈ members, Primitive.ofValue? m.value = some kind)
    (value : Json) : Descriptor.TakesDefault value (.enumeration name members) ↔
      kind.admitsDefault value = true := by
  constructor
  · intro taken
    rcases taken with ⟨other, ofOther, admitted⟩
    rcases List.exists_mem_of_ne_nil members inhabited with ⟨m, member⟩
    have same : some other = some kind := (ofOther m member).symm.trans (ofKind m member)
    rwa [Option.some.inj same] at admitted
  · intro admitted
    exact ⟨kind, ofKind, admitted⟩

/-- What the grammar asks of a default beside the node of a type that is neither null nor a
union. -/
theorem isNode_withDefault_iff_of_single (single : t.isUnion = false) (notNone : t.isNone = false)
    (encoded : encode t = .ok s) (default : Option Json) :
    isNode (withDefault s default) = true ↔
      isNode s = true ∧ ∀ value, default = some value → t.TakesDefault value := by
  cases t with
  | none => cases notNone
  | optional inner => cases single
  | union members => cases single
  | primitive kind =>
    rw [encode] at encoded
    cases encoded
    have rule (default : Option Json) := isNode_primitive default kind
    exact isNode_withDefault_iff_of_scalar rule (fun _ => Iff.rfl) default
  | path =>
    rw [encode] at encoded
    cases encoded
    exact isNode_withDefault_iff_of_scalar isNode_path (fun _ => Iff.rfl) default
  | enumeration name members =>
    rcases encode_enumeration_iff.1 encoded with ⟨kind, inhabited, ofKind, rfl⟩
    have rule := isNode_enumeration_of_kind inhabited ofKind
    have takes (value : Json) :
        Descriptor.TakesDefault value (.enumeration name members) ↔ _ :=
      takesDefault_enumeration inhabited ofKind value
    exact isNode_withDefault_iff_of_scalar rule takes default
  | any =>
    rw [encode] at encoded
    cases encoded
    refine isNode_withDefault_iff_of_any isNode_anything ?_ default
    exact fun _ => trivial
  | fileData =>
    rw [encode] at encoded
    cases encoded
    refine isNode_withDefault_iff_of_any isNode_fileData ?_ default
    exact fun _ => trivial
  | list element =>
    rcases encode_list_iff.1 encoded with ⟨items, _, rfl⟩
    have rule (default : Option Json) := isNode_array default items
    refine isNode_withDefault_iff_of_any rule ?_ default
    exact fun _ => trivial
  | mapping key value =>
    rcases encode_mapping_iff.1 encoded with ⟨_, k, v, _, _, rfl⟩
    have rule (default : Option Json) := isNode_mapping default k v
    refine isNode_withDefault_iff_of_any rule ?_ default
    exact fun _ => trivial
  | record name fields =>
    rcases encode_record_iff.1 encoded with ⟨properties, _, rfl⟩
    have rule (default : Option Json) :=
      isNode_record default (Keyed.ofPairs properties) (Field.requiredNames fields)
    refine isNode_withDefault_iff_of_any rule ?_ default
    exact fun _ => trivial

/-- A default beside the node of a type belongs there if the type admits it. -/
theorem isNode_withDefault_iff (encoded : encode t = .ok s) (default : Option Json) :
    isNode (withDefault s default) = true ↔
      isNode s = true ∧ ∀ value, default = some value → t.AdmitsDefault value := by
  unfold Descriptor.AdmitsDefault
  rcases encode_cases encoded with
    ⟨noOthers, rfl⟩ | ⟨only, alone, single, onlyEncoded⟩ | ⟨several, arms, _, rfl⟩
  · have plain : isNode Node.null = true := isNode_null none
    rw [noOthers, isNode_null, plain, Option.all_eq_true, and_iff_right rfl]
    exact forall₂_congr fun _ _ => Json.isNull_iff
  · have notNone := Descriptor.isNone_of_mem_others (Descriptor.mem_others_of_eq alone)
    rw [alone]
    exact isNode_withDefault_iff_of_single single notNone onlyEncoded default
  · rcases others : t.others with _ | ⟨first, _ | ⟨second, rest⟩⟩
    · rw [others] at several
      cases several
    · rw [others] at several
      exact absurd several (by simp)
    · rw [isNode_anyOf, ← isNode_anyOf none arms]
      exact (and_iff_left fun _ _ => trivial).symm

end Nodes

/-! ## The nodes of types -/

/-- The property of a field belongs to the grammar if the node of its type does and its default is
admissible. -/
theorem isNode_property_iff {f : Field Descriptor} {property : String × Json}
    (encoded : f.EncodesAs property)
    (part : ∀ s, encode f.type = .ok s → (isNode s = true ↔ f.type.merged.DefaultsAdmissible)) :
    isNode property.2 = true ↔ f.type.merged.DefaultsAdmissible ∧ f.Admissible := by
  rcases encoded with ⟨_, node, nodeEncoded, defaulted⟩
  rw [defaulted, isNode_withDefault_iff nodeEncoded, part node nodeEncoded]
  rfl

/-- The properties of a record are nodes if the defaults inside the record are admissible. -/
theorem isNode_properties_iff {name : String} {fields : List (Field Descriptor)}
    {properties : List (String × Json)} (related : List.Forall₂ Field.EncodesAs fields properties)
    (part : ∀ f ∈ fields, ∀ s, encode f.type = .ok s →
      (isNode s = true ↔ f.type.merged.DefaultsAdmissible)) :
    (∀ property ∈ Keyed.ofPairs properties, isNode property.2 = true) ↔
      (Descriptor.record name fields).merged.DefaultsAdmissible := by
  have mergedRelated := Field.forall₂_merge (fun _ _ rel => rel.1) related
  have parts := mergedRelated.forall_mem_iff fun f member property rel =>
    (isNode_property_iff rel (part f (Field.mem_of_mem_merge member))).symm
  rw [← parts, Descriptor.merged_record, Descriptor.DefaultsAdmissible,
    Descriptor.everyRecord_record, List.forall_mem_map, List.forall_mem_map, ← forall₂_and]
  refine forall₂_congr fun f _ => ?_
  rw [Field.admissible_mapType_merged, and_comm]
  rfl

/-- The node of a type belongs to the grammar if its defaults are admissible. Of the fields of one
name in a record, it is the last that counts. -/
theorem isNode_iff_of_encode {t : Descriptor} : ∀ {s : Json}, encode t = .ok s →
    (isNode s = true ↔ t.merged.DefaultsAdmissible) := by
  induction t using Descriptor.leafInduction with
  | list element ih =>
    intro s encoded
    rcases encode_list_iff.1 encoded with ⟨items, itemsEncoded, rfl⟩
    have node : isNode (Node.array items) = isNode items := isNode_array none items
    rw [node, Descriptor.merged_list]
    exact ih itemsEncoded
  | mapping key value ihk ihv =>
    intro s encoded
    rcases encode_mapping_iff.1 encoded with ⟨_, k, v, keyEncoded, valueEncoded, rfl⟩
    have node : isNode (Node.mapping k v) = (isNode k && isNode v) := isNode_mapping none k v
    rw [node, Descriptor.merged_mapping, Bool.and_eq_true]
    exact and_congr (ihk keyEncoded) (ihv valueEncoded)
  | record name fields ih =>
    intro s encoded
    rcases encode_record_iff.1 encoded with ⟨properties, related, rfl⟩
    have node : isNode (Node.record (Keyed.ofPairs properties) (Field.requiredNames fields)) = _ :=
      isNode_record none (Keyed.ofPairs properties) (Field.requiredNames fields)
    have known := List.all_eq_true.2 ((requires_record related).2 _ rfl)
    rw [node, known, Bool.and_true, List.all_eq_true]
    exact isNode_properties_iff related fun f member _ => ih f member
  | union t hu ih =>
    intro s encoded
    rw [Descriptor.defaultsAdmissible_merged_iff]
    rcases encode_cases encoded with
      ⟨noOthers, rfl⟩ | ⟨only, alone, _, onlyEncoded⟩ | ⟨several, arms, related, rfl⟩
    · rw [noOthers]
      exact iff_of_true (isNode_null none) (List.forall_mem_nil _)
    · have leaf := Descriptor.mem_leaves_of_mem_others (Descriptor.mem_others_of_eq alone)
      rw [alone, List.forall_mem_singleton]
      exact ih only leaf onlyEncoded
    · have inhabited : arms ≠ [] := by
        intro same
        subst same
        have empty := List.forall₂_nil_right_iff.1 related
        rw [← Descriptor.filter_alternatives_eq_others, empty] at several
        cases several
      have node : isNode (Node.anyOf arms) = (!arms.isEmpty && arms.all isNode) :=
        isNode_anyOf none arms
      -- Null is an arm of the union, but nothing is asked of it.
      have parts := related.forall_mem_iff fun m member arm armEncoded =>
        (ih m (Descriptor.mem_leaves_of_mem_alternatives member) armEncoded).symm
      have some : (!arms.isEmpty) = true := by simpa using inhabited
      rw [node, some, Bool.true_and, List.all_eq_true, ← parts]
      exact Descriptor.forall_mem_alternatives_iff trivial
  | enumeration name members =>
    intro s encoded
    rcases encode_enumeration_iff.1 encoded with ⟨kind, inhabited, ofKind, rfl⟩
    exact iff_of_true (isNode_enumeration_of_kind inhabited ofKind none) trivial
  | primitive kind =>
    intro s encoded
    rw [encode] at encoded
    cases encoded
    exact iff_of_true (isNode_primitive none kind) trivial
  | none =>
    intro s encoded
    rw [encode] at encoded
    cases encoded
    exact iff_of_true (isNode_null none) trivial
  | any =>
    intro s encoded
    rw [encode] at encoded
    cases encoded
    exact iff_of_true (isNode_anything none) trivial
  | path =>
    intro s encoded
    rw [encode] at encoded
    cases encoded
    exact iff_of_true (isNode_path none) trivial
  | fileData =>
    intro s encoded
    rw [encode] at encoded
    cases encoded
    exact iff_of_true (isNode_fileData none) trivial

/-! ## Types and their nodes -/

theorem defaultsAdmissible_ticket : ticket.DefaultsAdmissible := by
  simp [ticket, Descriptor.DefaultsAdmissible, Descriptor.EveryRecord,
    Descriptor.EveryRecordOfFields, Descriptor.EveryRecordOfAll, Field.Admissible,
    Descriptor.AdmitsDefault, Descriptor.others, Descriptor.leaves, Descriptor.isNone,
    Descriptor.TakesDefault, Primitive.admitsDefault, Json.isNull]

/-- The document of a type belongs to the grammar if and only if the defaults of all fields inside
the type are admissible. -/
theorem isNode_encode_iff {t : Descriptor} {s : Json} (distinct : t.DistinctFields)
    (encoded : encode t = .ok s) : isNode s = true ↔ t.DefaultsAdmissible := by
  have node := isNode_iff_of_encode encoded
  rwa [Descriptor.merged_of_distinctFields t distinct] at node

theorem isNode_encode_iff_ticket :
    (ticket.DistinctFields ∧ encode ticket = .ok ticketNode) ∧ isNode ticketNode = true :=
  ⟨⟨distinctFields_ticket, encode_ticket⟩,
    (isNode_encode_iff distinctFields_ticket encode_ticket).2 defaultsAdmissible_ticket⟩

end CallContract
