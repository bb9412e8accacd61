import CallContract.Proofs.ArmOrder
import CallContract.Proofs.RoundTrip

/-!
# Encoding what was decoded

The document of a type, decoded and encoded again.

* `encode_normal`: where a default of null stands only where the type has null, the normal form has
  the document of the type, with null behind the other arms of each union.
* `encode_merged_normal`: whatever the type, its normal form has a document, and one in which null
  stands behind the other arms.
* `encode_decoded`: so a second cycle changes nothing any more.
-/

namespace CallContract

open Descriptor (AreArms normal merged nullArm foldedUnion areArms_splitNull
  mem_leaves_of_mem_splitNull mem_leaves_of_splitNull_eq)
open Node (nullArmsLast)

variable {s : Json}

/-! ## Unions in normal form -/

/-- The node of the null that stands behind the arms of a union, if there is one. -/
def Node.nullArm (hadNull : Bool) : List Json :=
  if hadNull then [Node.null] else []

theorem encode_foldedUnion {ts : List Descriptor} (arms : AreArms ts) (several : 2 ≤ ts.length)
    {nodes : List Json} (encoded : List.Forall₂ (fun m node => encode m = .ok node) ts nodes)
    (hadNull : Bool) :
    encode (foldedUnion hadNull ts) = .ok (Node.anyOf (nodes ++ Node.nullArm hadNull)) := by
  have behind : List.Forall₂ (fun m node => encode m = .ok node) (nullArm hadNull)
      (Node.nullArm hadNull) := by
    cases hadNull with
    | false => exact .nil
    | true => exact .cons (by rw [encode]) .nil
  rw [Descriptor.foldedUnion_of_length several, encode_union_iff rfl, arms.splitNull_union,
    arms.alternatives_union]
  have all := List.rel_append encoded behind
  exact Or.inr (Or.inr ⟨several, _, all, rfl⟩)

/-- The null arms of a union are the one of its null. -/
theorem filter_isNull_arms {t : Descriptor} (hu : t.isUnion = true) {arms : List Json}
    (related : List.Forall₂ (fun m arm => encode m = .ok arm) t.alternatives arms) :
    arms.filter Node.isNull = Node.nullArm t.splitNull.2 := by
  have nulls := related.filter isNull_eq_isNone
  rw [Descriptor.filter_isNone_alternatives hu] at nulls
  cases hadNull : t.splitNull.2 with
  | false =>
    rw [hadNull] at nulls
    exact List.forall₂_nil_left_iff.1 nulls
  | true =>
    rw [hadNull] at nulls
    obtain ⟨arm, rest, encoded, tail, same⟩ := List.forall₂_cons_left_iff.1 nulls
    rw [encode] at encoded
    cases encoded
    cases tail
    exact same

theorem filter_map_nullArmsLast (p : Bool → Bool) (arms : List Json) :
    (arms.map nullArmsLast).filter (fun arm => p (Node.isNull arm)) =
      (arms.filter fun arm => p (Node.isNull arm)).map nullArmsLast := by
  rw [List.filter_map]
  congr 1
  exact List.filter_congr fun arm _ => by rw [Function.comp_apply, Node.isNull_nullArmsLast]

/-- Put in order, the arms of a union are those of its other alternatives and null. -/
theorem nullArmsLast_arms {t : Descriptor} (hu : t.isUnion = true) {arms : List Json}
    (related : List.Forall₂ (fun m arm => encode m = .ok arm) t.alternatives arms) :
    nullArmsLast (Node.anyOf arms) =
      Node.anyOf ((Node.otherArms arms).map nullArmsLast ++ Node.nullArm t.splitNull.2) := by
  have others := filter_map_nullArmsLast not arms
  have nulls : (arms.map nullArmsLast).filter Node.isNull = Node.nullArm t.splitNull.2 := by
    have kept := filter_map_nullArmsLast id arms
    dsimp only [id] at kept
    rw [kept, filter_isNull_arms hu related]
    cases t.splitNull.2 <;> rfl
  rw [Node.nullArmsLast_anyOf, Node.nullLast, nulls]
  exact congrArg (fun xs => Node.anyOf (xs ++ _)) others

/-- A union whose arms are in order and whose null stands behind them is in order. -/
theorem nullArmsLast_anyOf_append {nodes : List Json}
    (fixed : ∀ node ∈ nodes, nullArmsLast node = node)
    (notNull : ∀ node ∈ nodes, Node.isNull node = false) (hadNull : Bool) :
    nullArmsLast (Node.anyOf (nodes ++ Node.nullArm hadNull)) =
      Node.anyOf (nodes ++ Node.nullArm hadNull) := by
  have same : (nodes ++ Node.nullArm hadNull).map nullArmsLast = nodes ++ Node.nullArm hadNull := by
    refine (List.map_congr_left fun node member => ?_).trans (List.map_id _)
    rcases List.mem_append.1 member with member | member
    · exact fixed node member
    · cases hadNull with
      | false => cases member
      | true =>
        rw [List.mem_singleton.1 member]
        rfl
  have ordered : (nodes ++ Node.nullArm hadNull).Pairwise fun arm _ => Node.isNull arm = false := by
    refine List.pairwise_append.2 ⟨?_, ?_, fun arm member _ _ => notNull arm member⟩
    · exact List.pairwise_of_forall_mem_list fun arm member _ _ => notNull arm member
    · cases hadNull with
      | false => exact .nil
      | true => exact List.pairwise_singleton _ _
  rw [Node.nullArmsLast_anyOf, same, Node.nullLast_of_pairwise ordered]

/-! ## Types that have null -/

/-- The normal form of a type that has null has it too, or is no union: then null was dropped. -/
theorem isOptional_normal {t : Descriptor} (optional : t.isOptional = true) :
    t.normal.isOptional = true ∨ (t.normal.isUnion = false ∧ t.normal.isNone = false) := by
  cases hu : t.isUnion with
  | false =>
    cases t with
    | none => exact Or.inl (by rw [normal]; rfl)
    | any => exact Or.inl (by rw [normal]; rfl)
    | optional inner => cases hu
    | union members => cases hu
    | _ => cases optional
  | true =>
    have hadNull : t.splitNull.2 = true := by
      cases t with
      | optional inner => rfl
      | union members => exact optional
      | _ => cases hu
    have arms := (areArms_splitNull hu).map_normal
    rw [Descriptor.normal_union hu, hadNull]
    rcases split : t.splitNull.1.map normal with _ | ⟨only, _ | ⟨next, rest⟩⟩
    · exact Or.inl rfl
    · rw [split] at arms
      exact Or.inr (arms only (List.mem_singleton_self only))
    · rw [split] at arms
      refine Or.inl ?_
      rw [Descriptor.foldedUnion_of_length (by simp), Descriptor.isOptional, arms.splitNull_union]

/-- Null that was dropped is not missed: widening changes nothing of the node. -/
theorem encode_widen_normal {t : Descriptor} (optional : t.isOptional = true) :
    encode t.normal.widen = encode t.normal := by
  rw [Descriptor.widen]
  split
  · rfl
  · rename_i missing
    obtain ⟨single, notNone⟩ := (isOptional_normal optional).resolve_left missing
    exact encode_optional (Descriptor.leaves_of_not_isUnion single) notNone

/-! ## Null defaults where there is null -/

theorem encodesAs_normal {f : Field Descriptor} {p : String × Json}
    (nullDefault : f.default = some .null → f.type.isOptional = true)
    (part : ∀ {node}, encode f.type = .ok node → encode f.type.normal = .ok (nullArmsLast node))
    (encodes : f.EncodesAs p) :
    (f.mapType normal).admitDefault.EncodesAs (p.1, nullArmsLast p.2) := by
  obtain ⟨named, node, encoded, value⟩ := encodes
  refine ⟨by rw [Field.admitDefault_name, Field.mapType_name, named], nullArmsLast node, ?_, ?_⟩
  · rw [Field.admitDefault_type]
    split
    · rename_i null
      rw [Field.mapType_type, encode_widen_normal (nullDefault null), part encoded]
    · exact part encoded
  · rw [Field.admitDefault_default, value, Node.nullArmsLast_withDefault]
    rfl

theorem requiredNames_normal (fields : List (Field Descriptor)) :
    Field.requiredNames (fields.map fun f => (f.mapType normal).admitDefault) =
      Field.requiredNames fields :=
  requiredNames_map (fun f => Field.admitDefault_name (f.mapType normal))
    (fun f => Field.admitDefault_default (f.mapType normal)) fields

/-- The node of the normal form is the node of the type with its null arms behind the others. -/
theorem encode_normal {t : Descriptor} : ∀ {s : Json}, encode t = .ok s →
    t.NullDefaultsOptional → encode t.normal = .ok (nullArmsLast s) := by
  induction t using Descriptor.leafInduction with
  | primitive kind =>
    intro s encoded _
    rw [encode] at encoded
    cases encoded
    rw [normal, encode]
    rfl
  | fileData =>
    intro s encoded _
    rw [encode] at encoded
    cases encoded
    rw [normal, encode, Node.nullArmsLast_fileData]
  | enumeration name members =>
    intro s encoded _
    obtain ⟨kind, _, _, rfl⟩ := encode_enumeration_iff.1 encoded
    rw [normal, encoded, Node.nullArmsLast_enumeration]
  | list element ih =>
    intro s encoded defaults
    obtain ⟨items, elementEncoded, rfl⟩ := encode_list_iff.1 encoded
    have elementNormal := ih elementEncoded defaults
    rw [normal, Node.nullArmsLast_array]
    exact encode_list_iff.2 ⟨_, elementNormal, rfl⟩
  | mapping key value ihk ihv =>
    intro s encoded defaults
    obtain ⟨scalar, k, v, keyEncoded, valueEncoded, rfl⟩ := encode_mapping_iff.1 encoded
    have keyNormal := ihk keyEncoded defaults.1
    have valueNormal := ihv valueEncoded defaults.2
    rw [normal, Node.nullArmsLast_mapping, Descriptor.normal_of_isKey scalar]
    rw [Descriptor.normal_of_isKey scalar] at keyNormal
    exact encode_mapping_iff.2 ⟨scalar, _, _, keyNormal, valueNormal, rfl⟩
  | record name fields ih =>
    intro s encoded defaults
    obtain ⟨nullDefaults, parts⟩ := Descriptor.everyRecord_record.1 defaults
    obtain ⟨properties, related, rfl⟩ := encode_record_iff.1 encoded
    rw [Descriptor.normal_record, Node.nullArmsLast_record, ← Keyed.ofPairs_map,
      ← requiredNames_normal]
    refine encode_record_iff.2 ⟨_, ?_, rfl⟩
    rw [List.forall₂_map_left_iff, List.forall₂_map_right_iff]
    refine related.imp_of_mem fun f member p _ encodes => ?_
    have part {node : Json} (typeEncoded : encode f.type = .ok node) :
        encode f.type.normal = .ok (nullArmsLast node) := ih f member typeEncoded (parts f member)
    exact encodesAs_normal (nullDefaults f member) part encodes
  | union t hu ih =>
    intro s encoded defaults
    rw [Descriptor.normal_union hu]
    rcases (encode_union_iff hu).1 encoded with
      ⟨none, _, rfl⟩ | ⟨only, alone, onlyEncoded⟩ | ⟨several, arms, related, rfl⟩
    · rw [none, List.map_nil, foldedUnion, encode]
      rfl
    · have leaf := mem_leaves_of_splitNull_eq alone
      rw [alone]
      exact ih only leaf onlyEncoded (defaults.leaf leaf)
    · have arms := (areArms_splitNull hu).map_normal
      have others := forall₂_otherArms related hu
      rw [nullArmsLast_arms hu related]
      refine encode_foldedUnion arms (by rwa [List.length_map]) ?_ _
      rw [List.forall₂_map_left_iff, List.forall₂_map_right_iff]
      refine others.imp_of_mem fun m member arm _ armEncoded => ?_
      have leaf := mem_leaves_of_mem_splitNull t member
      exact ih m leaf armEncoded (defaults.leaf leaf)
  | _ =>
    intro s encoded _
    rw [encode] at encoded
    cases encoded
    rw [normal, encode]
    rfl

/-! ## Types without null that are widened -/

theorem splitNull_optional {t : Descriptor} (hu : t.isUnion = true) :
    (Descriptor.optional t).splitNull = (t.splitNull.1, true) := by
  rw [Descriptor.splitNull, (areArms_splitNull hu).filter]

section Widened

variable {t : Descriptor} (hu : t.isUnion = true) (noNull : t.splitNull.2 = false)

include hu noNull

theorem alternatives_optional :
    (Descriptor.optional t).alternatives = t.alternatives ++ [.none] := by
  have free : ∀ m ∈ t.leaves, m.isNone = false := by
    rw [Descriptor.splitNull_snd hu, List.any_eq_false] at noNull
    exact fun m member => eq_false_of_ne_true (noNull m member)
  rw [Descriptor.alternatives, Descriptor.alternatives, Descriptor.leaves,
    Descriptor.keepFirstNone_append_none free, Descriptor.keepFirstNone_of_not_any free]

/-- The arms of a union without null are in order if its node is. -/
theorem nullArmsLast_arm {arms : List Json}
    (related : List.Forall₂ (fun m arm => encode m = .ok arm) t.alternatives arms)
    (ordered : nullArmsLast (Node.anyOf arms) = Node.anyOf arms) :
    ∀ arm ∈ arms, nullArmsLast arm = arm ∧ Node.isNull arm = false := by
  have notNull : ∀ arm ∈ arms, Node.isNull arm = false := by
    have none := any_isNull_arms related hu
    rw [noNull, List.any_eq_false] at none
    exact fun arm member => eq_false_of_ne_true (none arm member)
  have others : Node.otherArms arms = arms :=
    List.filter_eq_self.2 fun arm member => by rw [notNull arm member]; rfl
  rw [nullArmsLast_arms hu related, noNull, others] at ordered
  have same : arms.map nullArmsLast = arms.map id := by
    simpa [Node.anyOf, Node.nullArm] using ordered
  exact fun arm member => ⟨List.map_eq_map_iff.1 same arm member, notNull arm member⟩

end Widened

/-- A type that has a document in order has one if null is admitted besides. -/
theorem encode_widen {t : Descriptor} (encoded : encode t = .ok s) (ordered : nullArmsLast s = s) :
    ∃ s', encode t.widen = .ok s' ∧ nullArmsLast s' = s' := by
  rw [Descriptor.widen]
  split
  · exact ⟨s, encoded, ordered⟩
  rename_i missing
  cases hu : t.isUnion with
  | false =>
    have notNone : t.isNone = false := by
      refine eq_false_of_ne_true fun none => ?_
      rw [Descriptor.eq_none_of_isNone none] at missing
      exact missing rfl
    rw [encode_optional (Descriptor.leaves_of_not_isUnion hu) notNone]
    exact ⟨s, encoded, ordered⟩
  | true =>
    have noNull : t.splitNull.2 = false := by
      cases t with
      | optional inner => exact absurd rfl missing
      | union members => exact eq_false_of_ne_true missing
      | _ => cases hu
    rcases (encode_union_iff hu).1 encoded with
      ⟨_, null, _⟩ | ⟨only, alone, onlyEncoded⟩ | ⟨several, arms, related, rfl⟩
    · rw [noNull] at null
      cases null
    · have alone' : (Descriptor.optional t).splitNull.1 = [only] := by
        rw [splitNull_optional hu, alone]
      have encoded' := (encode_union_iff rfl).2 (Or.inr (Or.inl ⟨only, alone', onlyEncoded⟩))
      exact ⟨s, encoded', ordered⟩
    · have parts := nullArmsLast_arm hu noNull related ordered
      refine ⟨Node.anyOf (arms ++ Node.nullArm true), ?_, ?_⟩
      · rw [encode_union_iff rfl, splitNull_optional hu, alternatives_optional hu noNull]
        have null : encode .none = .ok Node.null := by rw [encode]
        have all := List.rel_append related (.cons null .nil)
        exact Or.inr (Or.inr ⟨several, _, all, rfl⟩)
      · exact nullArmsLast_anyOf_append (fun arm member => (parts arm member).1)
          (fun arm member => (parts arm member).2) true

/-! ## Any type -/

theorem exists_encodesAs {f : Field Descriptor} {node : Json} (encoded : encode f.type = .ok node)
    (ordered : nullArmsLast node = node) :
    ∃ p, f.admitDefault.EncodesAs p ∧ nullArmsLast p.2 = p.2 := by
  have typed : ∃ node', encode f.admitDefault.type = .ok node' ∧ nullArmsLast node' = node' := by
    rw [Field.admitDefault_type]
    split
    · exact encode_widen encoded ordered
    · exact ⟨node, encoded, ordered⟩
  obtain ⟨node', encoded', ordered'⟩ := typed
  refine ⟨(f.name, Node.withDefault node' f.default), ⟨?_, node', encoded', ?_⟩, ?_⟩
  · rw [Field.admitDefault_name]
  · rw [Field.admitDefault_default]
  · rw [Node.nullArmsLast_withDefault, ordered']

theorem encode_merged_normal_record {name : String} {fields : List (Field Descriptor)}
    {properties : List (String × Json)}
    (related : List.Forall₂ Field.EncodesAs fields properties)
    (part : ∀ f ∈ fields, ∀ {node : Json}, encode f.type = .ok node →
      ∃ node', encode f.type.merged.normal = .ok node' ∧ nullArmsLast node' = node') :
    ∃ s', encode (merged (.record name fields)).normal = .ok s' ∧ nullArmsLast s' = s' ∧
      Node.isNull s' = false := by
  rw [Descriptor.merged_record, Descriptor.normal_record]
  have partner : ∀ f ∈ ((Field.merge fields).map (Field.mapType merged)).map fun f =>
      (f.mapType normal).admitDefault, ∃ p, f.EncodesAs p ∧ nullArmsLast p.2 = p.2 := by
    rw [List.forall_mem_map, List.forall_mem_map]
    intro f member
    have there := Field.mem_of_mem_merge member
    obtain ⟨_, _, _, node, fieldEncoded, _⟩ := related.exists_of_mem_left there
    obtain ⟨node', encoded', ordered⟩ := part f there fieldEncoded
    exact exists_encodesAs encoded' ordered
  obtain ⟨properties', related'⟩ := List.exists_forall₂ partner
  have inOrder : (Keyed.ofPairs properties').map (fun p => (p.1, nullArmsLast p.2)) =
      Keyed.ofPairs properties' := by
    refine (List.map_congr_left fun p member => ?_).trans (List.map_id _)
    obtain ⟨_, _, _, ordered⟩ := related'.exists_of_mem_right (Keyed.mem_ofPairs member)
    exact Prod.ext rfl ordered
  have encodes := related'.imp fun _ _ both => both.1
  refine ⟨_, encode_record_iff.2 ⟨properties', encodes, rfl⟩, ?_, rfl⟩
  rw [Node.nullArmsLast_record, inOrder]

theorem encode_merged_normal_union {t : Descriptor} (hu : t.isUnion = true)
    (several : 2 ≤ t.splitNull.1.length)
    (part : ∀ m ∈ t.splitNull.1, ∃ node, encode m.merged.normal = .ok node ∧
      nullArmsLast node = node ∧ Node.isNull node = false) :
    ∃ s', encode t.merged.normal = .ok s' ∧ nullArmsLast s' = s' ∧ Node.isNull s' = false := by
  have hu' : t.merged.isUnion = true := by rw [respectsUnions_merged.isUnion, hu]
  have arms := (areArms_splitNull hu').map_normal
  rw [respectsUnions_merged.splitNull_map] at arms
  rw [Descriptor.normal_union hu', respectsUnions_merged.splitNull_map]
  have partner : ∀ m ∈ (t.splitNull.1.map merged).map normal, ∃ node, encode m = .ok node ∧
      nullArmsLast node = node ∧ Node.isNull node = false := by
    rw [List.forall_mem_map, List.forall_mem_map]
    exact part
  obtain ⟨nodes, related⟩ := List.exists_forall₂ partner
  have each : ∀ node ∈ nodes, nullArmsLast node = node ∧ Node.isNull node = false := by
    intro node member
    obtain ⟨_, _, _, rest⟩ := related.exists_of_mem_right member
    exact rest
  have encodes := related.imp fun _ _ given => given.1
  refine ⟨_, encode_foldedUnion arms ?_ encodes _, ?_, rfl⟩
  · rwa [List.length_map, List.length_map]
  · exact nullArmsLast_anyOf_append (fun node member => (each node member).1)
      (fun node member => (each node member).2) _

/-- The normal form of a type that has a document has one in which null stands behind the other
arms. -/
theorem encode_merged_normal {t : Descriptor} : ∀ {s : Json}, encode t = .ok s →
    ∃ s', encode t.merged.normal = .ok s' ∧ nullArmsLast s' = s' ∧
      Node.isNull s' = Node.isNull s := by
  induction t using Descriptor.leafInduction with
  | primitive kind =>
    intro s encoded
    rw [merged, Descriptor.rewrite, normal]
    rw [encode] at encoded ⊢
    cases encoded
    exact ⟨_, rfl, rfl, rfl⟩
  | fileData =>
    intro s encoded
    rw [merged, Descriptor.rewrite, normal]
    rw [encode] at encoded ⊢
    cases encoded
    exact ⟨_, rfl, Node.nullArmsLast_fileData, rfl⟩
  | enumeration name members =>
    intro s encoded
    rw [merged, Descriptor.rewrite, normal]
    obtain ⟨kind, _, _, rfl⟩ := encode_enumeration_iff.1 encoded
    exact ⟨_, encoded, Node.nullArmsLast_enumeration kind _, rfl⟩
  | list element ih =>
    intro s encoded
    rw [Descriptor.merged_list, normal]
    obtain ⟨items, elementEncoded, rfl⟩ := encode_list_iff.1 encoded
    obtain ⟨items', encoded', ordered, _⟩ := ih elementEncoded
    refine ⟨_, encode_list_iff.2 ⟨items', encoded', rfl⟩, ?_, rfl⟩
    rw [Node.nullArmsLast_array, ordered]
  | mapping key value ihk ihv =>
    intro s encoded
    rw [Descriptor.merged_mapping, normal]
    obtain ⟨scalar, k, v, keyEncoded, valueEncoded, rfl⟩ := encode_mapping_iff.1 encoded
    obtain ⟨k', keyEncoded', keyOrdered, _⟩ := ihk keyEncoded
    obtain ⟨v', valueEncoded', valueOrdered, _⟩ := ihv valueEncoded
    have kept : key.merged.normal = key := by
      rw [Descriptor.merged_of_isKey scalar, Descriptor.normal_of_isKey scalar]
    rw [kept] at keyEncoded' ⊢
    refine ⟨_, encode_mapping_iff.2 ⟨scalar, k', v', keyEncoded', valueEncoded', rfl⟩, ?_, rfl⟩
    rw [Node.nullArmsLast_mapping, keyOrdered, valueOrdered]
  | record name fields ih =>
    intro s encoded
    obtain ⟨properties, related, rfl⟩ := encode_record_iff.1 encoded
    refine encode_merged_normal_record related fun f member node fieldEncoded => ?_
    obtain ⟨node', encoded', ordered, _⟩ := ih f member fieldEncoded
    exact ⟨node', encoded', ordered⟩
  | union t hu ih =>
    intro s encoded
    have hu' : t.merged.isUnion = true := by rw [respectsUnions_merged.isUnion, hu]
    have folded := Descriptor.normal_union hu'
    rw [respectsUnions_merged.splitNull_map] at folded
    rcases (encode_union_iff hu).1 encoded with
      ⟨none, _, rfl⟩ | ⟨only, alone, onlyEncoded⟩ | ⟨several, nodes, related, rfl⟩
    · rw [none] at folded
      rw [folded]
      exact ⟨Node.null, by rw [List.map_nil, List.map_nil, foldedUnion, encode], rfl, rfl⟩
    · rw [alone] at folded
      rw [folded]
      exact ih only (mem_leaves_of_splitNull_eq alone) onlyEncoded
    · refine encode_merged_normal_union hu several fun m member => ?_
      obtain ⟨arm, _, armEncoded⟩ := (forall₂_otherArms related hu).exists_of_mem_left member
      have leaf := mem_leaves_of_mem_splitNull t member
      obtain ⟨arm', encoded', ordered, same⟩ := ih m leaf armEncoded
      refine ⟨arm', encoded', ordered, ?_⟩
      rw [same, isNull_of_encode (Descriptor.isUnion_of_mem_leaves t leaf) armEncoded]
      exact Descriptor.isNone_of_mem_splitNull hu member
  | _ =>
    intro s encoded
    rw [merged, Descriptor.rewrite, normal]
    rw [encode] at encoded ⊢
    cases encoded
    exact ⟨_, rfl, rfl, rfl⟩

/-! ## The second cycle -/

/-- The type that a document is decoded as has that document, with null behind the other arms. -/
theorem encode_decoded {t : Descriptor} (distinct : t.DistinctFields)
    (defaults : t.NullDefaultsOptional) (encoded : encode t = .ok s) (notNull : s ≠ Node.null)
    (name : String) : ∃ u, decode s name = .ok u ∧ encode u = .ok (nullArmsLast s) := by
  obtain ⟨u, decoded, same⟩ := decode_of_encode encoded notNull name
  rw [Descriptor.merged_of_distinctFields t distinct] at same
  refine ⟨u, decoded, ?_⟩
  rw [← encode_unnamed, same, encode_unnamed]
  exact encode_normal encoded defaults

/-- The document of a type can be decoded and encoded again, and after that nothing changes any
more. If the fields of each record have names of their own and a default of null stands only where
the type has null, the first cycle moves the null arm of each union behind the others and does
nothing else. -/
theorem decode_encode_cycle {t : Descriptor} (encoded : encode t = .ok s) (notNull : s ≠ Node.null)
    (name : String) :
    ∃ t₁ s₁, decode s name = .ok t₁ ∧ encode t₁ = .ok s₁ ∧
      (∃ t₂, decode s₁ name = .ok t₂ ∧ encode t₂ = .ok s₁) ∧
      (t.DistinctFields → t.NullDefaultsOptional →
        s₁ = nullArmsLast s ∧
          ((∀ arms, Node.HasArms .node s arms →
              arms.Pairwise fun arm _ => Node.isNull arm = false) →
            s₁ = s)) := by
  obtain ⟨t₁, decoded, same⟩ := decode_of_encode encoded notNull name
  obtain ⟨s₁, normalEncoded, ordered, null⟩ := encode_merged_normal encoded
  have encoded₁ : encode t₁ = .ok s₁ := by
    rw [← encode_unnamed, same, encode_unnamed]
    exact normalEncoded
  refine ⟨t₁, s₁, decoded, encoded₁, ?_, fun distinct defaults => ?_⟩
  · have distinct₁ : t₁.DistinctFields := by
      rw [← Descriptor.distinctFields_unnamed, same, Descriptor.distinctFields_unnamed]
      exact Descriptor.distinctFields_normal (Descriptor.distinctFields_merged t)
    have defaults₁ : t₁.NullDefaultsOptional := by
      rw [← Descriptor.nullDefaultsOptional_unnamed, same, Descriptor.nullDefaultsOptional_unnamed]
      exact Descriptor.nullDefaultsOptional_normal t.merged
    have notNull₁ : s₁ ≠ Node.null := by
      intro same
      subst same
      exact notNull (eq_null_of_isNull encoded null.symm)
    obtain ⟨t₂, decoded₂, encoded₂⟩ := encode_decoded distinct₁ defaults₁ encoded₁ notNull₁ name
    rw [ordered] at encoded₂
    exact ⟨t₂, decoded₂, encoded₂⟩
  · obtain ⟨u, decodedAgain, encodedAgain⟩ := encode_decoded distinct defaults encoded notNull name
    rw [decoded] at decodedAgain
    cases decodedAgain
    rw [encoded₁] at encodedAgain
    cases encodedAgain
    exact ⟨rfl, Node.nullArmsLast_eq_self⟩

/-- The null of the tags of `ticket` moves, and then its document stays as it is. -/
theorem decode_encode_cycle_ticket :
    ∃ t₁, decode ticketNode "ticket" = .ok t₁ ∧ encode t₁ = .ok (nullArmsLast ticketNode) ∧
      ∃ t₂, decode (nullArmsLast ticketNode) "ticket" = .ok t₂ ∧
        encode t₂ = .ok (nullArmsLast ticketNode) := by
  obtain ⟨t₁, s₁, decoded, encoded, ⟨t₂, decoded₂, encoded₂⟩, moved⟩ :=
    decode_encode_cycle encode_ticket ticketNode_ne_null "ticket"
  obtain ⟨rfl, _⟩ := moved distinctFields_ticket nullDefaultsOptional_ticket
  exact ⟨t₁, decoded, encoded, t₂, decoded₂, encoded₂⟩

end CallContract
