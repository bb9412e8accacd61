import CallContract.Proofs.Records
import CallContract.Schema.Decode
import CallContract.Schema.Encode

/-!
# What is encoded, and as what

* `encode_list_iff`, `encode_mapping_iff`, `encode_record_iff`, `encode_enumeration_iff` and
  `encode_union_iff` say, form by form, which types have a node and which node it is.
* `isUndefaulted_of_encode` and `isNull_of_encode`: the node of a type has no default of its own,
  and it is read as null only where the type is null.
* `encode_unnamed`: names and labels do not matter.
-/

namespace CallContract

open Descriptor (respectsUnions_unnamed)

/-- A field and the property that it is encoded as. -/
def Field.EncodesAs (f : Field Descriptor) (property : String × Json) : Prop :=
  f.name = property.1 ∧
    ∃ node, encode f.type = .ok node ∧ property.2 = Node.withDefault node f.default

variable {s : Json}

/-! ## The rules -/

theorem encode_list_iff {element : Descriptor} :
    encode (.list element) = .ok s ↔
      ∃ items, encode element = .ok items ∧ s = Node.array items := by
  rw [encode, Except.bind_eq_ok]
  exact exists_congr fun items => and_congr_right fun _ =>
    ⟨fun h => (Except.ok.inj h).symm, fun h => congrArg Except.ok h.symm⟩

theorem encode_mapping_iff {key value : Descriptor} :
    encode (.mapping key value) = .ok s ↔
      key.isKey = true ∧
        ∃ k v, encode key = .ok k ∧ encode value = .ok v ∧ s = Node.mapping k v := by
  rw [encode]
  split
  · rename_i scalar
    rw [and_iff_right scalar, Except.bind_eq_ok]
    refine exists_congr fun k => ?_
    rw [exists_and_left]
    refine and_congr_right fun _ => ?_
    rw [Except.bind_eq_ok]
    exact exists_congr fun v => and_congr_right fun _ =>
      ⟨fun h => (Except.ok.inj h).symm, fun h => congrArg Except.ok h.symm⟩
  · rename_i other
    constructor
    · intro encoded
      cases encoded
    · intro given
      rcases given with ⟨scalar, _⟩
      exact absurd scalar other

theorem encodeFields_iff {fields : List (Field Descriptor)} {properties : List (String × Json)} :
    encodeFields fields = .ok properties ↔ List.Forall₂ Field.EncodesAs fields properties := by
  induction fields generalizing properties with
  | nil =>
    rw [encodeFields, List.forall₂_nil_left_iff]
    exact ⟨fun h => (Except.ok.inj h).symm, fun h => by rw [h]⟩
  | cons f rest ih =>
    obtain ⟨name, type, default⟩ := f
    rw [encodeFields, Except.bind_eq_ok, List.forall₂_cons_left_iff]
    constructor
    · intro given
      rcases given with ⟨node, encoded, others⟩
      obtain ⟨properties', tail, result⟩ := Except.bind_eq_ok.1 others
      cases result
      exact ⟨_, _, ⟨rfl, node, encoded, rfl⟩, ih.1 tail, rfl⟩
    · intro given
      rcases given with ⟨⟨key, value⟩, properties', ⟨same, node, encoded, defaulted⟩, tail, rfl⟩
      cases same
      cases defaulted
      exact ⟨node, encoded, Except.bind_eq_ok.2 ⟨properties', ih.2 tail, rfl⟩⟩

theorem encode_record_iff {name : String} {fields : List (Field Descriptor)} :
    encode (.record name fields) = .ok s ↔
      ∃ properties, List.Forall₂ Field.EncodesAs fields properties ∧
        s = Node.record (Keyed.ofPairs properties) (Field.requiredNames fields) := by
  rw [encode, Except.bind_eq_ok]
  simp only [encodeFields_iff]
  exact exists_congr fun properties => and_congr_right fun _ =>
    ⟨fun h => (Except.ok.inj h).symm, fun h => congrArg Except.ok h.symm⟩

/-- The kinds of members are those that were known and those of the members. -/
theorem memberKinds_eq_ok {name : String} {members : List EnumMember} {known kinds : List Primitive}
    (found : memberKinds name members known = .ok kinds) :
    (∀ k ∈ known, k ∈ kinds) ∧
      ∀ m ∈ members, ∃ k ∈ kinds, Primitive.ofValue? m.value = some k := by
  induction members generalizing known with
  | nil =>
    cases found
    exact ⟨fun _ member => member, fun _ member => by cases member⟩
  | cons m rest ih =>
    rw [memberKinds] at found
    split at found
    · cases found
    · rename_i kind ofKind
      obtain ⟨kept, others⟩ := ih found
      have there : kind ∈ if kind ∈ known then known else known ++ [kind] := by
        split
        · assumption
        · exact List.mem_append_right _ (List.mem_singleton_self _)
      refine ⟨fun k member => kept k ?_, fun n member => ?_⟩
      · split
        · exact member
        · exact List.mem_append_left _ member
      · rcases List.mem_cons.1 member with rfl | member
        · exact ⟨kind, kept kind there, ofKind⟩
        · exact others n member

theorem memberKinds_of_kind {name : String} {members : List EnumMember} {kind : Primitive}
    (ofKind : ∀ m ∈ members, Primitive.ofValue? m.value = some kind) :
    memberKinds name members [kind] = .ok [kind] := by
  induction members with
  | nil => rfl
  | cons m rest ih =>
    rw [memberKinds, ofKind m List.mem_cons_self]
    dsimp only
    rw [if_pos (List.mem_singleton_self kind)]
    exact ih fun n member => ofKind n (List.mem_cons_of_mem m member)

/-- An enumeration has a node if its members are scalars of one kind, and there are some. -/
theorem encode_enumeration_iff {name : String} {members : List EnumMember} :
    encode (.enumeration name members) = .ok s ↔
      ∃ kind, members ≠ [] ∧ (∀ m ∈ members, Primitive.ofValue? m.value = some kind) ∧
        s = Node.enumeration kind (members.map EnumMember.value) := by
  rw [encode, encodeEnum]
  constructor
  · intro encoded
    split at encoded
    · cases encoded
    · cases encoded
    · rename_i kind found
      cases encoded
      refine ⟨kind, ?_, fun m member => ?_, rfl⟩
      · intro same
        subst same
        cases found
      · obtain ⟨k, inside, ofKind⟩ := (memberKinds_eq_ok found).2 m member
        rw [ofKind, List.mem_singleton.1 inside]
    · cases encoded
  · intro given
    rcases given with ⟨kind, some, ofKind, rfl⟩
    cases members with
    | nil => exact absurd rfl some
    | cons m rest =>
      have found : memberKinds name (m :: rest) [] = .ok [kind] := by
        rw [memberKinds, ofKind m List.mem_cons_self]
        exact memberKinds_of_kind fun n member => ofKind n (List.mem_cons_of_mem m member)
      rw [found]

/-- The node of a union: that of null, that of its one other alternative, or the nodes of all its
alternatives. -/
theorem encode_union_iff {t : Descriptor} (hu : t.isUnion = true) :
    encode t = .ok s ↔
      (t.splitNull.1 = [] ∧ t.splitNull.2 = true ∧ s = Node.null) ∨
      (∃ only, t.splitNull.1 = [only] ∧ encode only = .ok s) ∨
      (2 ≤ t.splitNull.1.length ∧
        ∃ arms, List.Forall₂ (fun m arm => encode m = .ok arm) t.alternatives arms ∧
          s = Node.anyOf arms) := by
  have hadNull := Descriptor.any_alternatives hu
  have arms := Descriptor.filter_alternatives hu
  rw [encode_union hu, arms]
  split
  · rename_i empty
    rw [List.isEmpty_iff.1 empty] at arms hadNull
    constructor
    · intro encoded
      cases encoded
    · intro given
      rcases given with ⟨_, null, _⟩ | ⟨only, single, _⟩ | ⟨several, _⟩
      · rw [← hadNull] at null
        cases null
      · rw [← arms] at single
        cases single
      · rw [← arms] at several
        cases several
  · rename_i inhabited
    rcases split : t.splitNull.1 with _ | ⟨only, _ | ⟨next, rest⟩⟩
    · have null : t.splitNull.2 = true := by
        obtain ⟨m, member⟩ := List.exists_mem_of_ne_nil _ (mt List.isEmpty_iff.2 inhabited)
        rw [← hadNull, List.any_eq_true]
        refine ⟨m, member, ?_⟩
        by_contra other
        have kept : m ∈ t.alternatives.filter fun u => !u.isNone :=
          List.mem_filter.2 ⟨member, by simp [other]⟩
        rw [arms, split] at kept
        cases kept
      constructor
      · intro encoded
        exact Or.inl ⟨rfl, null, (Except.ok.inj encoded).symm⟩
      · intro given
        rcases given with ⟨_, _, rfl⟩ | ⟨only, single, _⟩ | ⟨several, _⟩
        · rfl
        · cases single
        · cases several
    · constructor
      · intro encoded
        exact Or.inr (Or.inl ⟨only, rfl, encoded⟩)
      · intro given
        rcases given with ⟨none, _⟩ | ⟨m, single, encoded⟩ | ⟨several, _⟩
        · cases none
        · cases single
          exact encoded
        · exact absurd several (by simp)
    · have several : 2 ≤ (only :: next :: rest).length := by simp
      dsimp only
      rw [Except.map_eq_ok]
      simp only [List.mapM_eq_ok]
      constructor
      · intro given
        rcases given with ⟨nodes, encoded, rfl⟩
        exact Or.inr (Or.inr ⟨several, nodes, encoded, rfl⟩)
      · intro given
        rcases given with ⟨none, _⟩ | ⟨m, single, _⟩ | ⟨_, nodes, encoded, rfl⟩
        · cases none
        · cases single
        · exact ⟨nodes, encoded, rfl⟩

/-! ## Parts of what is encoded -/

theorem encode_field {name : String} {fields : List (Field Descriptor)}
    (encoded : encode (.record name fields) = .ok s) :
    ∀ f ∈ fields, ∃ node, encode f.type = .ok node := by
  intro f member
  obtain ⟨properties, related, _⟩ := encode_record_iff.1 encoded
  obtain ⟨_, _, _, node, fieldEncoded, _⟩ := related.exists_of_mem_left member
  exact ⟨node, fieldEncoded⟩

/-- Each alternative of a union that has a node has one. -/
theorem encode_alternative {t : Descriptor} (hu : t.isUnion = true) (encoded : encode t = .ok s) :
    ∀ m ∈ t.splitNull.1, ∃ node, encode m = .ok node := by
  intro m member
  rcases (encode_union_iff hu).1 encoded with
    ⟨none, _, _⟩ | ⟨only, alone, onlyEncoded⟩ | ⟨_, arms, related, _⟩
  · rw [none] at member
    cases member
  · rw [alone] at member
    rw [List.mem_singleton.1 member]
    exact ⟨s, onlyEncoded⟩
  · rw [← Descriptor.filter_alternatives hu] at member
    obtain ⟨node, _, armEncoded⟩ := related.exists_of_mem_left (List.mem_of_mem_filter member)
    exact ⟨node, armEncoded⟩

/-- A union that has a node has null or another alternative. -/
theorem hasNull_of_encode {t : Descriptor} (hu : t.isUnion = true) (encoded : encode t = .ok s)
    (none : t.splitNull.1 = []) : t.splitNull.2 = true := by
  rcases (encode_union_iff hu).1 encoded with ⟨_, null, _⟩ | ⟨only, alone, _⟩ | ⟨several, _⟩
  · exact null
  · rw [none] at alone
    cases alone
  · rw [none] at several
    cases several

/-! ## The nodes that come out -/

/-- A node is an object that has no default. -/
def Node.IsUndefaulted (node : Json) : Prop :=
  ∃ fields, node = .obj fields ∧ Keyed.get? "default" fields = none

theorem isUndefaulted_of_encode {t : Descriptor} : ∀ {s : Json}, encode t = .ok s →
    Node.IsUndefaulted s := by
  induction t using Descriptor.leafInduction with
  | list element _ =>
    intro s encoded
    obtain ⟨items, _, rfl⟩ := encode_list_iff.1 encoded
    exact ⟨_, rfl, rfl⟩
  | mapping key value _ _ =>
    intro s encoded
    obtain ⟨_, k, v, _, _, rfl⟩ := encode_mapping_iff.1 encoded
    exact ⟨_, rfl, rfl⟩
  | record name fields _ =>
    intro s encoded
    obtain ⟨properties, _, rfl⟩ := encode_record_iff.1 encoded
    exact ⟨_, rfl, rfl⟩
  | enumeration name members =>
    intro s encoded
    obtain ⟨kind, _, _, rfl⟩ := encode_enumeration_iff.1 encoded
    exact ⟨_, rfl, rfl⟩
  | union t hu ih =>
    intro s encoded
    rcases (encode_union_iff hu).1 encoded with
      ⟨_, _, rfl⟩ | ⟨only, single, encoded⟩ | ⟨_, arms, _, rfl⟩
    · exact ⟨_, rfl, rfl⟩
    · exact ih only (Descriptor.mem_leaves_of_splitNull_eq single) encoded
    · exact ⟨_, rfl, rfl⟩
  | _ =>
    intro s encoded
    rw [encode] at encoded
    cases encoded
    exact ⟨_, rfl, rfl⟩

/-- Only null is encoded as a node that is read as null, unions apart. -/
theorem isNull_of_encode {t : Descriptor} (single : t.isUnion = false)
    (encoded : encode t = .ok s) : Node.isNull s = t.isNone := by
  cases t with
  | optional inner => cases single
  | union members => cases single
  | primitive kind =>
    rw [encode] at encoded
    cases encoded
    cases kind <;> decide
  | enumeration name members =>
    obtain ⟨kind, _, _, rfl⟩ := encode_enumeration_iff.1 encoded
    cases kind <;> rfl
  | list element =>
    obtain ⟨items, _, rfl⟩ := encode_list_iff.1 encoded
    rfl
  | mapping key value =>
    obtain ⟨_, k, v, _, _, rfl⟩ := encode_mapping_iff.1 encoded
    rfl
  | record name fields =>
    obtain ⟨properties, _, rfl⟩ := encode_record_iff.1 encoded
    rfl
  | _ =>
    rw [encode] at encoded
    cases encoded
    rfl

theorem eq_null_of_isNull {t : Descriptor} : ∀ {s : Json}, encode t = .ok s →
    Node.isNull s = true → s = Node.null := by
  have single : ∀ {u : Descriptor} {s : Json}, u.isUnion = false → encode u = .ok s →
      Node.isNull s = true → s = Node.null := by
    intro u s hu encoded null
    rw [isNull_of_encode hu encoded] at null
    rw [Descriptor.eq_none_of_isNone null, encode] at encoded
    exact (Except.ok.inj encoded).symm
  intro s encoded null
  cases hu : t.isUnion with
  | false => exact single hu encoded null
  | true =>
    rcases (encode_union_iff hu).1 encoded with
      ⟨_, _, rfl⟩ | ⟨only, alone, encoded⟩ | ⟨_, arms, _, rfl⟩
    · rfl
    · have leaf := Descriptor.mem_leaves_of_splitNull_eq alone
      exact single (Descriptor.isUnion_of_mem_leaves t leaf) encoded null
    · cases null

/-! ## Defaults -/

namespace Node

theorem get?_withDefault_self {node : Json} (plain : IsUndefaulted node) (default : Option Json) :
    (withDefault node default).get? "default" = default := by
  obtain ⟨fields, rfl, absent⟩ := plain
  cases default with
  | none => exact absent
  | some value => exact Keyed.get?_put_self "default" value fields

end Node

/-! ## Names and labels -/

theorem isKey_rewrite (r : Descriptor.Rewriting) (t : Descriptor) :
    (Descriptor.rewrite r t).isKey = t.isKey := by
  cases t <;> rfl

/-- The names of the fields that have to be given have nothing to do with types. -/
theorem requiredNames_map {σ τ : Type} {g : Field σ → Field τ} (names : ∀ f, (g f).name = f.name)
    (defaults : ∀ f, (g f).default = f.default) (fields : List (Field σ)) :
    Field.requiredNames (fields.map g) = Field.requiredNames fields := by
  have required : Field.isRequired ∘ g = Field.isRequired := by
    funext f
    rw [Function.comp_apply, Field.isRequired, Field.isRequired, defaults]
  rw [Field.requiredNames, Field.requiredNames, List.filter_map, required, List.map_map]
  exact List.map_congr_left fun f _ => names f

theorem encode_unnamed {t : Descriptor} : ∀ {s : Json},
    encode t.unnamed = .ok s ↔ encode t = .ok s := by
  induction t using Descriptor.leafInduction with
  | list element ih =>
    intro s
    rw [Descriptor.unnamed_list, encode_list_iff, encode_list_iff]
    simp only [ih]
  | mapping key value ihk ihv =>
    intro s
    rw [Descriptor.unnamed_mapping, encode_mapping_iff, encode_mapping_iff,
      show key.unnamed.isKey = key.isKey from isKey_rewrite _ key]
    simp only [ihk, ihv]
  | enumeration name members =>
    intro s
    rw [Descriptor.unnamed_enumeration, encode_enumeration_iff, encode_enumeration_iff]
    simp only [ne_eq, List.map_eq_nil_iff, List.forall_mem_map, List.map_map, Function.comp_def]
  | record name fields ih =>
    intro s
    rw [Descriptor.unnamed_record, encode_record_iff, encode_record_iff,
      requiredNames_map (Field.mapType_name Descriptor.unnamed) (Field.mapType_default _)]
    refine exists_congr fun properties => and_congr_left fun _ => ?_
    rw [List.forall₂_map_left_iff]
    constructor
    · exact fun related => related.imp_of_mem fun f member _ _ =>
        And.imp_right (Exists.imp fun _ => And.imp_left (ih f member).1)
    · exact fun related => related.imp_of_mem fun f member _ _ =>
        And.imp_right (Exists.imp fun _ => And.imp_left (ih f member).2)
  | union t hu ih =>
    intro s
    have hu' : t.unnamed.isUnion = true := by rw [respectsUnions_unnamed.isUnion, hu]
    rw [encode_union_iff hu, encode_union_iff hu', respectsUnions_unnamed.splitNull_map,
      respectsUnions_unnamed.alternatives_map, List.map_eq_nil_iff, List.length_map]
    refine or_congr Iff.rfl (or_congr ?_ (and_congr_right fun _ => ?_))
    · constructor
      · intro given
        rcases given with ⟨_, single, encoded⟩
        obtain ⟨only, alone, rfl⟩ := List.map_eq_singleton_iff.1 single
        have leaf := Descriptor.mem_leaves_of_splitNull_eq alone
        exact ⟨only, alone, (ih only leaf).1 encoded⟩
      · intro given
        rcases given with ⟨only, alone, encoded⟩
        have leaf := Descriptor.mem_leaves_of_splitNull_eq alone
        exact ⟨only.unnamed, by rw [alone]; rfl, (ih only leaf).2 encoded⟩
    · refine exists_congr fun arms => and_congr_left fun _ => ?_
      rw [List.forall₂_map_left_iff]
      constructor
      · exact fun related => related.imp_of_mem fun m member _ _ =>
          (ih m (Descriptor.mem_leaves_of_mem_alternatives member)).1
      · exact fun related => related.imp_of_mem fun m member _ _ =>
          (ih m (Descriptor.mem_leaves_of_mem_alternatives member)).2
  | _ => exact Iff.rfl

end CallContract
