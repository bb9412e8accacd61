import CallContract.Proofs.Decoding
import CallContract.Proofs.Encoding
import CallContract.Proofs.StructuralEquality

/-!
# Encoding and decoding again

The node of a type is read as the normal form of the type, names and labels apart.

* `reads_withDefault`: a default beside the form of a node does not change how it is read.
* `reads_of_encode` is the round trip for any node of a type, and `decode_of_encode` for a document.
* Where the fields of a record share a name, the last of them is what the node holds: hence
  `Descriptor.merged`.
-/

namespace CallContract

open Descriptor (normal merged unnamed foldedUnion respectsUnions_unnamed RespectsUnions)
open Node (Reads HasType HasPlainType)

/-! ## Defaults beside a form -/

section Default

variable {fields : List (String × Json)} {value : Json}

theorem isBare_put_default :
    Node.isBare (Keyed.put "default" value fields) = Node.isBare fields := by
  induction fields with
  | nil => rfl
  | cons pair rest ih =>
    obtain ⟨key, v⟩ := pair
    rw [Keyed.put]
    split
    · rfl
    · rw [Node.isBare, List.all_cons]
      rw [Node.isBare] at ih
      rw [ih]
      rfl

theorem isMarked_put_default {marker : String} (other : marker ≠ "default") :
    Node.isMarked marker (Keyed.put "default" value fields) = Node.isMarked marker fields := by
  rw [Node.isMarked, Node.isMarked, Keyed.get?_put_of_ne other]

theorem Node.HasType.put_default {type : String} (typed : HasType type fields) :
    HasType type (Keyed.put "default" value fields) where
  noArms := by rw [Keyed.get?_put_of_ne (by decide), typed.noArms]
  type := by rw [Keyed.get?_put_of_ne (by decide), typed.type]

theorem Node.HasPlainType.put_default {type : String} (typed : HasPlainType type fields) :
    HasPlainType type (Keyed.put "default" value fields) where
  toHasType := typed.toHasType.put_default
  noValues := by rw [Keyed.get?_put_of_ne (by decide), typed.noValues]

theorem NodeRule.put_default {t : Descriptor} (rule : NodeRule fields t) :
    NodeRule (Keyed.put "default" value fields) t := by
  have look : ∀ {key : String}, key ≠ "default" →
      Keyed.get? key (Keyed.put "default" value fields) = Keyed.get? key fields :=
    fun other => Keyed.get?_put_of_ne other value fields
  cases rule with
  | anyOf arms_eq inhabited types_eq =>
    exact .anyOf ((look (by decide)).trans arms_eq) inhabited types_eq
  | bare noArms bare =>
    exact .bare ((look (by decide)).trans noArms) (isBare_put_default.trans bare)
  | enumeration typed values_eq kind_eq inhabited admitted =>
    exact .enumeration typed.put_default ((look (by decide)).trans values_eq) kind_eq inhabited
      admitted
  | null typed => exact .null typed.put_default
  | fileData typed marked =>
    exact .fileData typed.put_default ((isMarked_put_default (by decide)).trans marked)
  | record typed unmarked properties_eq required_eq parts_eq =>
    refine .record typed.put_default ((isMarked_put_default (by decide)).trans unmarked)
      ((look (by decide)).trans properties_eq) ?_ parts_eq
    exact ⟨(look (by decide)).trans required_eq.1, required_eq.2⟩
  | mapping typed unmarked noProperties items_eq key_eq value_eq keyReads valueReads =>
    exact .mapping typed.put_default ((isMarked_put_default (by decide)).trans unmarked)
      ((look (by decide)).trans noProperties) ((look (by decide)).trans items_eq) key_eq value_eq
      keyReads valueReads
  | anyList typed noItems =>
    exact .anyList typed.put_default ((look (by decide)).trans noItems)
  | list typed items_eq itemsRead =>
    exact .list typed.put_default ((look (by decide)).trans items_eq) itemsRead
  | path typed marked =>
    exact .path typed.put_default ((isMarked_put_default (by decide)).trans marked)
  | primitive typed unmarked kind_eq =>
    refine .primitive typed.put_default (fun string => ?_) kind_eq
    exact (isMarked_put_default (by decide)).trans (unmarked string)

end Default

/-- A default does not change what a node is read as. -/
theorem reads_withDefault {node : Json} {t : Descriptor} (reads : Reads node t)
    (default : Option Json) : Reads (Node.withDefault node default) t := by
  cases default with
  | none => exact reads
  | some value =>
    obtain ⟨fields, rfl⟩ := reads.exists_fields
    exact (reads_iff.1 reads).put_default.reads

/-! ## Parts of the round trip -/

theorem admits_of_ofValue? {kind : Primitive} {value : Json}
    (found : Primitive.ofValue? value = some kind) : kind.admits value = true := by
  cases value with
  | bool b => cases found; rfl
  | str text => cases found; rfl
  | num n => cases n <;> cases found <;> rfl
  | _ => cases found

theorem respectsUnions_merged : RespectsUnions merged :=
  Descriptor.respectsUnions_rewrite _

/-- The name of a field that has to be given is among the names that are listed. -/
theorem contains_requiredNames {fields : List (Field Descriptor)} {f : Field Descriptor}
    (member : f ∈ fields) (absent : f.default = none) :
    (Field.requiredNames fields).contains f.name = true := by
  rw [List.contains_iff_mem, Field.requiredNames]
  refine List.mem_map_of_mem (List.mem_filter.2 ⟨member, ?_⟩)
  rw [Field.isRequired, absent]
  rfl

/-- What can be the key of a mapping is its own normal form. -/
theorem Descriptor.normal_of_isKey {key : Descriptor} (scalar : key.isKey = true) :
    key.normal = key := by
  cases key with
  | primitive kind => rw [normal]
  | enumeration name members => rw [normal]
  | path => rw [normal]
  | any => rw [normal]
  | _ => cases scalar

theorem Descriptor.merged_of_isKey {key : Descriptor} (scalar : key.isKey = true) :
    key.merged = key := by
  cases key with
  | primitive kind => rfl
  | enumeration name members => rfl
  | path => rfl
  | any => rfl
  | _ => cases scalar

/-- The names that a record node lists are those of the fields that have to be given. -/
theorem requires_record {fields : List (Field Descriptor)} {properties : List (String × Json)}
    (related : List.Forall₂ Field.EncodesAs fields properties) :
    Node.Requires [("type", .str "object"), ("properties", .obj (Keyed.ofPairs properties)),
        ("required", .arr ((Field.requiredNames fields).map .str))]
      (Keyed.ofPairs properties) (some (Field.requiredNames fields)) := by
  refine ⟨rfl, fun _ same name listed => ?_⟩
  cases same
  obtain ⟨f, member, rfl⟩ := List.mem_map.1 listed
  obtain ⟨p, there, named, _⟩ := related.exists_of_mem_left (List.mem_of_mem_filter member)
  rw [Keyed.contains_iff, Keyed.mem_keys_ofPairs, named]
  exact List.mem_map_of_mem there

/-- A property that a field is encoded as makes that field again; its type admits null if that is
its default. -/
theorem decodeField_withDefault {f : Field Descriptor} {node : Json}
    (plain : Node.IsUndefaulted node) {required : Option (List String)}
    (listed : f.default = none → (required.all fun names => names.contains f.name) = true)
    (t : Descriptor) :
    decodeField required f.name (Node.withDefault node f.default) t =
      Field.admitDefault { name := f.name, type := t, default := f.default } := by
  rw [decodeField, Node.get?_withDefault_self plain, Field.admitDefault]
  cases default : f.default with
  | none =>
    dsimp only
    rw [if_pos (listed default)]
    rfl
  | some value =>
    cases value with
    | null => rfl
    | _ => rfl

/-- The properties that fields are encoded as are read as the fields of the normal form of their
record, if the names that the node lists, where it lists any, are those of the fields that have to
be given. -/
theorem reads_properties {nodeFields properties : List (String × Json)}
    {required : Option (List String)} {name : String} {fields : List (Field Descriptor)}
    (typed : HasPlainType "object" nodeFields)
    (unmarked : Node.isMarked "is_file_data" nodeFields = false)
    (properties_eq :
      Keyed.get? "properties" nodeFields = some (.obj (Keyed.ofPairs properties)))
    (required_eq : Node.Requires nodeFields (Keyed.ofPairs properties) required)
    (listed : ∀ f ∈ fields, f.default = none →
      (required.all fun names => names.contains f.name) = true)
    (related : List.Forall₂ Field.EncodesAs fields properties)
    (part : ∀ f ∈ fields, ∀ s, encode f.type = .ok s → Reads s f.type.merged.normal.unnamed) :
    Reads (.obj nodeFields) (Descriptor.record name fields).merged.normal.unnamed := by
  have mergedRelated := Field.forall₂_merge (fun _ _ rel => rel.1) related
  rw [Descriptor.merged_record, Descriptor.normal_record, Descriptor.unnamed_record]
  refine NodeRule.reads (.record typed unmarked properties_eq required_eq ?_)
  rw [List.forall₂_map_right_iff, List.forall₂_map_right_iff, List.forall₂_map_right_iff]
  refine (mergedRelated.imp_of_mem ?_).flip
  intro f member pair _ given
  rcases pair with ⟨key, value⟩
  rcases given with ⟨rfl, node, nodeEncoded, rfl⟩
  have there := Field.mem_of_mem_merge member
  have nodeReads := part f there node nodeEncoded
  refine ⟨f.type.merged.normal.unnamed, reads_withDefault nodeReads f.default, ?_⟩
  have plain := isUndefaulted_of_encode nodeEncoded
  rw [decodeField_withDefault plain (listed f there)]
  exact Field.mapType_admitDefault _ _

/-- The node of a type that is no union is null if the type is. -/
theorem isNull_eq_isNone {t : Descriptor} :
    ∀ m ∈ t.alternatives, ∀ arm, encode m = .ok arm → m.isNone = Node.isNull arm := by
  intro m member arm encoded
  have leaf := Descriptor.mem_leaves_of_mem_alternatives member
  exact (isNull_of_encode (Descriptor.isUnion_of_mem_leaves t leaf) encoded).symm

section Arms

variable {t : Descriptor} {arms : List Json}
  (related : List.Forall₂ (fun m arm => encode m = .ok arm) t.alternatives arms)

include related

theorem any_isNull_arms (hu : t.isUnion = true) : arms.any Node.isNull = t.splitNull.2 := by
  rw [← Descriptor.any_alternatives hu, related.any_eq isNull_eq_isNone]

/-- The arms of a union that are not null are the nodes of its other alternatives. -/
theorem forall₂_otherArms (hu : t.isUnion = true) :
    List.Forall₂ (fun m arm => encode m = .ok arm) t.splitNull.1 (Node.otherArms arms) := by
  rw [← Descriptor.filter_alternatives hu]
  refine related.filter fun m member arm armEncoded => ?_
  rw [isNull_eq_isNone m member arm armEncoded]

end Arms

theorem decodedUnion_of_length {ts : List Descriptor} (several : 2 ≤ ts.length) (hadNull : Bool) :
    decodedUnion hadNull ts = foldedUnion hadNull ts := by
  rcases ts with _ | ⟨t, _ | ⟨u, rest⟩⟩
  · exact absurd several (by simp)
  · exact absurd several (by simp)
  · cases hadNull with
    | false => exact congrArg Descriptor.union (List.append_nil _).symm
    | true => rfl

theorem unnamed_foldedUnion (hadNull : Bool) (ts : List Descriptor) :
    (foldedUnion hadNull ts).unnamed = foldedUnion hadNull (ts.map unnamed) := by
  rcases ts with _ | ⟨t, _ | ⟨u, rest⟩⟩
  · rfl
  · rfl
  · refine (respectsUnions_unnamed.union _).trans ?_
    rw [List.map_append]
    cases hadNull <;> rfl

/-! ## The round trip -/

/-- The node of a type is read as the normal form of the type. -/
theorem reads_of_encode {t : Descriptor} : ∀ {s : Json}, encode t = .ok s →
    Reads s t.merged.normal.unnamed := by
  induction t using Descriptor.leafInduction with
  | primitive kind =>
    intro s encoded
    rw [encode] at encoded
    cases encoded
    rw [merged, Descriptor.rewrite, normal]
    exact NodeRule.reads (.primitive ⟨⟨rfl, rfl⟩, rfl⟩ (fun _ => rfl) (Primitive.ofName?_name kind))
  | none =>
    intro s encoded
    rw [encode] at encoded
    cases encoded
    rw [merged, Descriptor.rewrite, normal]
    exact NodeRule.reads (.null ⟨⟨rfl, rfl⟩, rfl⟩)
  | any =>
    intro s encoded
    rw [encode] at encoded
    cases encoded
    rw [merged, Descriptor.rewrite, normal]
    exact NodeRule.reads (.bare rfl rfl)
  | path =>
    intro s encoded
    rw [encode] at encoded
    cases encoded
    rw [merged, Descriptor.rewrite, normal]
    exact NodeRule.reads (.path ⟨⟨rfl, rfl⟩, rfl⟩ rfl)
  | fileData =>
    intro s encoded
    rw [encode] at encoded
    cases encoded
    rw [merged, Descriptor.rewrite, normal]
    exact NodeRule.reads (.fileData ⟨⟨rfl, rfl⟩, rfl⟩ rfl)
  | enumeration name members =>
    intro s encoded
    obtain ⟨kind, inhabited, ofKind, rfl⟩ := encode_enumeration_iff.1 encoded
    have values : Descriptor.unnamed (.enumeration name members) =
        .enumeration ""
          ((members.map EnumMember.value).map fun v => { label := "", value := v }) := by
      rw [Descriptor.unnamed_enumeration, List.map_map]
      rfl
    rw [merged, Descriptor.rewrite, normal]
    refine values.symm ▸ ?_
    refine NodeRule.reads (.enumeration ⟨rfl, rfl⟩ rfl (Primitive.ofName?_name kind) ?_ ?_)
    · exact mt List.map_eq_nil_iff.1 inhabited
    · rw [List.forall_mem_map]
      exact fun m member => admits_of_ofValue? (ofKind m member)
  | list element ih =>
    intro s encoded
    obtain ⟨items, itemsEncoded, rfl⟩ := encode_list_iff.1 encoded
    have itemsRead := ih itemsEncoded
    rw [Descriptor.merged_list, normal]
    exact NodeRule.reads (.list ⟨⟨rfl, rfl⟩, rfl⟩ rfl itemsRead)
  | mapping key value ihk ihv =>
    intro s encoded
    obtain ⟨_, k, v, keyEncoded, valueEncoded, rfl⟩ := encode_mapping_iff.1 encoded
    have keyReads := ihk keyEncoded
    have valueReads := ihv valueEncoded
    rw [Descriptor.merged_mapping, normal]
    exact NodeRule.reads (.mapping ⟨⟨rfl, rfl⟩, rfl⟩ rfl rfl rfl rfl rfl keyReads valueReads)
  | record name fields ih =>
    intro s encoded
    obtain ⟨properties, related, rfl⟩ := encode_record_iff.1 encoded
    have listed (f : Field Descriptor) (member : f ∈ fields) (absent : f.default = none) :
        ((some (Field.requiredNames fields)).all fun names => names.contains f.name) = true :=
      contains_requiredNames member absent
    exact reads_properties ⟨⟨rfl, rfl⟩, rfl⟩ rfl rfl (requires_record related) listed related
      fun f member _ => ih f member
  | union t hu ih =>
    intro s encoded
    have hu' : t.merged.isUnion = true := by rw [respectsUnions_merged.isUnion, hu]
    rw [Descriptor.normal_union hu', respectsUnions_merged.splitNull_map, unnamed_foldedUnion,
      List.map_map, List.map_map]
    rcases (encode_union_iff hu).1 encoded with
      ⟨none, _, rfl⟩ | ⟨only, alone, onlyEncoded⟩ | ⟨several, arms, related, rfl⟩
    · rw [none]
      exact NodeRule.reads (.null ⟨⟨rfl, rfl⟩, rfl⟩)
    · have leaf := Descriptor.mem_leaves_of_splitNull_eq alone
      rw [alone]
      exact ih only leaf onlyEncoded
    · have others := forall₂_otherArms related hu
      rw [← decodedUnion_of_length (by rwa [List.length_map]), ← any_isNull_arms related hu]
      refine NodeRule.reads (.anyOf rfl ?_ ?_)
      · intro same
        subst same
        rw [List.forall₂_nil_right_iff.1 others] at several
        cases several
      · rw [List.forall₂_map_right_iff]
        refine (others.imp_of_mem fun m member arm _ armEncoded => ?_).flip
        have leaf := Descriptor.mem_leaves_of_mem_splitNull t member
        exact ih m leaf armEncoded

/-- A document that is not null is decoded like a node. -/
theorem decode_of_encode {t : Descriptor} {s : Json} (encoded : encode t = .ok s)
    (notNull : s ≠ Node.null) (name : String) :
    ∃ u, decode s name = .ok u ∧ u.unnamed = t.merged.normal.unnamed := by
  have notRead : Node.isNull s ≠ true := mt (eq_null_of_isNull encoded) notNull
  rw [decode, if_neg notRead]
  exact reads_of_encode encoded name []

/-! ## A type and its document -/

/-- A record with a field that has to be given, one that may be null, and a list of a union. -/
def ticket : Descriptor :=
  .record "ticket" [
    { name := "id", type := .primitive .integer },
    { name := "owner", type := .optional (.primitive .string), default := some .null },
    { name := "tags", type := .list (.union [.none, .primitive .string, .primitive .boolean]),
      default := some (.arr []) }]

/-- The document of `ticket`. -/
def ticketNode : Json :=
  Node.record [
    ("id", Node.primitive .integer),
    ("owner", Node.withDefault (Node.primitive .string) (some .null)),
    ("tags", Node.withDefault
      (Node.array (Node.anyOf [Node.null, Node.primitive .string, Node.primitive .boolean]))
      (some (.arr [])))] ["id"]

theorem encode_ticket : encode ticket = .ok ticketNode := by
  have owner := encode_optional_primitive .string
  have tag : encode (.union [.none, .primitive .string, .primitive .boolean]) =
      .ok (Node.anyOf [Node.null, Node.primitive .string, Node.primitive .boolean]) := by
    refine (encode_union_iff rfl).2 (Or.inr (Or.inr ⟨by decide, _, ?_, rfl⟩))
    exact .cons (by rw [encode])
      (.cons (encode_primitive .string) (.cons (encode_primitive .boolean) .nil))
  have tags : encode (.list (.union [.none, .primitive .string, .primitive .boolean])) =
      .ok (Node.array (Node.anyOf [Node.null, Node.primitive .string, Node.primitive .boolean])) :=
    encode_list_iff.2 ⟨_, tag, rfl⟩
  rw [ticket, encode]
  simp only [encodeFields, owner, tags]
  simp only [encode]
  rfl

theorem distinctFields_ticket : ticket.DistinctFields := by
  simp [ticket, Descriptor.DistinctFields, Descriptor.EveryRecord, Descriptor.EveryRecordOfFields,
    Descriptor.EveryRecordOfAll]

theorem nullDefaultsOptional_ticket : ticket.NullDefaultsOptional := by
  simp [ticket, Descriptor.NullDefaultsOptional, Descriptor.EveryRecord,
    Descriptor.EveryRecordOfFields, Descriptor.EveryRecordOfAll, Descriptor.isOptional]

theorem ticketNode_ne_null : ticketNode ≠ Node.null := by
  simp [ticketNode, Node.record, Node.null]

/-! ## Documents -/

/-- The document of a type is decoded as the normal form of the type: field names, defaults, values
of enumerations and markers are kept, and the null is lost that the normal form drops. -/
theorem decode_encode_normal {t : Descriptor} {s : Json} (distinct : t.DistinctFields)
    (encoded : encode t = .ok s) (notNull : s ≠ Node.null) (name : String) :
    ∃ u, decode s name = .ok u ∧ u.structurallyEqual t.normal = true ∧
      u.unnamed = t.normal.unnamed := by
  obtain ⟨u, decoded, same⟩ := decode_of_encode encoded notNull name
  rw [Descriptor.merged_of_distinctFields t distinct] at same
  exact ⟨u, decoded, Descriptor.structurallyEqual_of_unnamed_eq same, same⟩

theorem decode_encode_normal_ticket :
    (ticket.DistinctFields ∧ encode ticket = .ok ticketNode ∧ ticketNode ≠ Node.null) ∧
      ∃ u, decode ticketNode "ticket" = .ok u ∧ u.structurallyEqual ticket.normal = true ∧
        u.unnamed = ticket.normal.unnamed :=
  ⟨⟨distinctFields_ticket, encode_ticket, ticketNode_ne_null⟩,
    decode_encode_normal distinctFields_ticket encode_ticket ticketNode_ne_null "ticket"⟩

end CallContract
