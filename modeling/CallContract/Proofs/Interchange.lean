import CallContract.Proofs.Agreement
import CallContract.Proofs.Cycle
import CallContract.Proofs.EqualValues

/-!
# Structurally equal types are interchangeable

Types that are structurally equal may differ in names, in labels and in how their unions are nested.

* `Descriptor.documentsAlike_of_structurallyEqual`: their documents are equal once null stands last
  among the arms of each union.
* `Descriptor.payloadsAlike_of_structurallyEqual`: they make equal payloads of the same payloads.
* Together they say that structurally equal types can stand for each other.
-/

namespace CallContract

open Node (nullArmsLast)

/-! ## Equal documents -/

/-- Two documents with the same keys in one order and equal values under them. -/
def Node.Alike (n m : Json) : Prop :=
  ∃ fs gs, n = .obj fs ∧ m = .obj gs ∧ List.Forall₂ Json.SameField fs gs

namespace Node

theorem Alike.equal {n m : Json} (alike : Alike n m) : n.equal m = true := by
  obtain ⟨fs, gs, rfl, rfl, same⟩ := alike
  exact Json.equal_obj_of_forall₂ same

theorem Alike.withDefault {n m : Json} (alike : Alike n m) {d e : Option Json}
    (same : Json.equal? d e = true) : Alike (withDefault n d) (withDefault m e) := by
  obtain ⟨fs, gs, rfl, rfl, related⟩ := alike
  cases Json.equal?_iff.1 same with
  | none => exact ⟨fs, gs, rfl, rfl, related⟩
  | @some x y same =>
    have head : Json.SameField ("default", x) ("default", y) := ⟨rfl, same⟩
    exact ⟨_, _, rfl, rfl, Keyed.forall₂_put (fun _ _ rel => rel.1) related head⟩

theorem alike_refl (fields : List (String × Json)) : Alike (.obj fields) (.obj fields) :=
  ⟨fields, fields, rfl, rfl, List.forall₂_same.2 fun _ _ => ⟨rfl, Json.equal_refl _⟩⟩

theorem alike_array {n m : Json} (items : Alike n m) : Alike (array n) (array m) :=
  ⟨_, _, rfl, rfl, .cons ⟨rfl, Json.equal_refl _⟩ (.cons ⟨rfl, items.equal⟩ .nil)⟩

theorem alike_mapping {k l n m : Json} (key : Alike k l) (value : Alike n m) :
    Alike (mapping k n) (mapping l m) := by
  have parts : Alike (.obj [("key", k), ("value", n)]) (.obj [("key", l), ("value", m)]) :=
    ⟨_, _, rfl, rfl, .cons ⟨rfl, key.equal⟩ (.cons ⟨rfl, value.equal⟩ .nil)⟩
  exact ⟨_, _, rfl, rfl, .cons ⟨rfl, Json.equal_refl _⟩ (.cons ⟨rfl, parts.equal⟩ .nil)⟩

theorem alike_anyOf {as bs : List Json} (arms : List.Forall₂ Alike as bs) :
    Alike (anyOf as) (anyOf bs) :=
  ⟨_, _, rfl, rfl, .cons ⟨rfl, Json.equal_arr_iff.2 (arms.imp fun _ _ => Alike.equal)⟩ .nil⟩

theorem alike_enumeration {kind : Primitive} {as bs : List Json}
    (values : List.Forall₂ (fun a b => a.equal b = true) as bs) :
    Alike (enumeration kind as) (enumeration kind bs) :=
  ⟨_, _, rfl, rfl, .cons ⟨rfl, Json.equal_refl _⟩ (.cons ⟨rfl, Json.equal_arr_iff.2 values⟩ .nil)⟩

theorem alike_record {fs gs : List (String × Json)} (required : List String)
    (properties : List.Forall₂ Json.SameField fs gs) :
    Alike (record fs required) (record gs required) :=
  ⟨_, _, rfl, rfl, .cons ⟨rfl, Json.equal_refl _⟩
    (.cons ⟨rfl, Json.equal_obj_of_forall₂ properties⟩ (.cons ⟨rfl, Json.equal_refl _⟩ .nil))⟩

end Node

/-! ## Documents of structurally equal types -/

theorem Primitive.ofValue?_eq_of_equal {v w : Json} (same : v.equal w = true) :
    Primitive.ofValue? v = Primitive.ofValue? w := by
  have kept (u : Json) : Primitive.ofValue? u.canonical = Primitive.ofValue? u := by
    cases u with
    | num n => cases n <;> rfl
    | _ => rfl
  rw [← kept v, Json.equal_iff.1 same, kept w]

theorem requiredNames_eq_of_forall₂ {fs gs : List (Field Descriptor)}
    (same : List.Forall₂ (fun f g : Field Descriptor => f.name = g.name ∧
      Json.equal? f.default g.default = true) fs gs) :
    Field.requiredNames fs = Field.requiredNames gs := by
  have required : ∀ f ∈ fs, ∀ g : Field Descriptor,
      f.name = g.name ∧ Json.equal? f.default g.default = true → f.isRequired = g.isRequired := by
    intro f _ g ⟨_, defaults⟩
    rw [Field.isRequired, Field.isRequired]
    generalize f.default = d at defaults
    generalize g.default = e at defaults
    cases Json.equal?_iff.1 defaults <;> rfl
  exact List.map_eq_map_iff_forall₂.2 ((same.filter required).imp fun _ _ rel => rel.1)

namespace Descriptor

/-- The document of a type, told by the alternatives of the type; a type that is no union is its
only one. -/
theorem encode_splitNull {t : Descriptor} {s : Json} (encoded : encode t = .ok s) :
    match t.splitNull.1 with
    | [] => s = Node.null
    | [only] => encode only = .ok s
    | others => ∃ nodes, List.Forall₂ (fun m node => encode m = .ok node) others nodes ∧
        nullArmsLast s = Node.anyOf (nodes.map nullArmsLast ++ Node.nullArm t.splitNull.2) := by
  cases hu : t.isUnion with
  | false =>
    rw [splitNull_of_not_isUnion hu]
    exact encoded
  | true =>
    rcases (encode_union_iff hu).1 encoded with
      ⟨none, _, rfl⟩ | ⟨only, alone, onlyEncoded⟩ | ⟨several, arms, related, rfl⟩
    · rw [none]
    · rw [alone]
      exact onlyEncoded
    · have others := forall₂_otherArms related hu
      rcases split : t.splitNull.1 with _ | ⟨m, _ | ⟨m', rest⟩⟩
      · rw [split] at several
        cases several
      · rw [split] at several
        exact absurd several (by simp)
      · rw [split] at others
        exact ⟨_, others, nullArmsLast_arms hu related⟩

/-- The documents of two types, where both have one, are alike once null stands last. -/
def DocumentsAlike (a b : Descriptor) : Prop :=
  ∀ {s s' : Json}, encode a = .ok s → encode b = .ok s' →
    Node.Alike (nullArmsLast s) (nullArmsLast s')

theorem documentsAlike_refl (t : Descriptor) : DocumentsAlike t t := by
  intro s s' encoded encoded'
  cases encoded.symm.trans encoded'
  obtain ⟨fields, rfl, _⟩ := isUndefaulted_of_encode encoded
  exact Node.alike_refl _

theorem documentsAlike_enumeration {n m : String} {as bs : List EnumMember}
    (values : List.Forall₂ (fun a b : EnumMember => a.value.equal b.value = true) as bs) :
    DocumentsAlike (.enumeration n as) (.enumeration m bs) := by
  intro s s' encoded encoded'
  obtain ⟨kind, inhabited, ofKind, rfl⟩ := encode_enumeration_iff.1 encoded
  obtain ⟨kind', _, ofKind', rfl⟩ := encode_enumeration_iff.1 encoded'
  have kinds : kind = kind' := by
    obtain ⟨a, left⟩ := List.exists_mem_of_ne_nil _ inhabited
    obtain ⟨b, right, same⟩ := values.exists_of_mem_left left
    have found := Primitive.ofValue?_eq_of_equal same
    rw [ofKind a left, ofKind' b right] at found
    exact Option.some.inj found
  rw [Node.nullArmsLast_enumeration, Node.nullArmsLast_enumeration, kinds]
  exact Node.alike_enumeration
    (List.forall₂_map_left_iff.2 (List.forall₂_map_right_iff.2 values))

theorem documentsAlike_list {a b : Descriptor} (element : DocumentsAlike a b) :
    DocumentsAlike (.list a) (.list b) := by
  intro s s' encoded encoded'
  obtain ⟨items, elementEncoded, rfl⟩ := encode_list_iff.1 encoded
  obtain ⟨items', elementEncoded', rfl⟩ := encode_list_iff.1 encoded'
  rw [Node.nullArmsLast_array, Node.nullArmsLast_array]
  exact Node.alike_array (element elementEncoded elementEncoded')

theorem documentsAlike_mapping {k l a b : Descriptor} (keys : DocumentsAlike k l)
    (values : DocumentsAlike a b) : DocumentsAlike (.mapping k a) (.mapping l b) := by
  intro s s' encoded encoded'
  obtain ⟨_, key, value, keyEncoded, valueEncoded, rfl⟩ := encode_mapping_iff.1 encoded
  obtain ⟨_, key', value', keyEncoded', valueEncoded', rfl⟩ := encode_mapping_iff.1 encoded'
  rw [Node.nullArmsLast_mapping, Node.nullArmsLast_mapping]
  exact Node.alike_mapping (keys keyEncoded keyEncoded') (values valueEncoded valueEncoded')

theorem documentsAlike_record {n m : String} {fs gs : List (Field Descriptor)}
    (fields : List.Forall₂ (fun f g : Field Descriptor => f.name = g.name ∧
      Json.equal? f.default g.default = true ∧ DocumentsAlike f.type g.type) fs gs) :
    DocumentsAlike (.record n fs) (.record m gs) := by
  intro s s' encoded encoded'
  obtain ⟨properties, related, rfl⟩ := encode_record_iff.1 encoded
  obtain ⟨properties', related', rfl⟩ := encode_record_iff.1 encoded'
  have required := requiredNames_eq_of_forall₂ (fields.imp fun _ _ rel => ⟨rel.1, rel.2.1⟩)
  rw [Node.nullArmsLast_record, Node.nullArmsLast_record, ← Keyed.ofPairs_map, ← Keyed.ofPairs_map,
    required]
  refine Node.alike_record _ (Keyed.forall₂_ofPairs (fun _ _ rel => rel.1) ?_)
  rw [List.forall₂_map_left_iff, List.forall₂_map_right_iff]
  refine (fields.across related related').imp fun p q given => ?_
  obtain ⟨f, g, ⟨names, defaults, types⟩, ⟨left, node, encodedNode, value⟩,
    ⟨right, node', encodedNode', value'⟩⟩ := given
  refine ⟨by rw [← left, names, right], ?_⟩
  rw [value, value', Node.nullArmsLast_withDefault, Node.nullArmsLast_withDefault]
  exact ((types encodedNode encodedNode').withDefault defaults).equal

theorem documentsAlike_union {a b : Descriptor} (null : a.splitNull.2 = b.splitNull.2)
    (arms : List.Forall₂ DocumentsAlike a.splitNull.1 b.splitNull.1) : DocumentsAlike a b := by
  intro s s' encoded encoded'
  have left := encode_splitNull encoded
  have right := encode_splitNull encoded'
  cases split : a.splitNull.1 with
  | nil =>
    rw [split] at arms left
    rw [List.forall₂_nil_left_iff.1 arms] at right
    rw [left, right]
    exact Node.alike_refl _
  | cons m rest =>
    rw [split] at arms left
    obtain ⟨m', rest', head, tail, split'⟩ := List.forall₂_cons_left_iff.1 arms
    rw [split'] at right arms
    cases tail with
    | nil => exact head left right
    | cons =>
      obtain ⟨nodes, related, ordered⟩ := left
      obtain ⟨nodes', related', ordered'⟩ := right
      have others : List.Forall₂ Node.Alike (nodes.map nullArmsLast) (nodes'.map nullArmsLast) := by
        rw [List.forall₂_map_left_iff, List.forall₂_map_right_iff]
        refine (arms.across related related').imp fun node node' given => ?_
        obtain ⟨x, y, alike, encodedNode, encodedNode'⟩ := given
        exact alike encodedNode encodedNode'
      have last : List.Forall₂ Node.Alike (Node.nullArm b.splitNull.2)
          (Node.nullArm b.splitNull.2) := by
        cases b.splitNull.2 with
        | false => exact .nil
        | true => exact .cons (Node.alike_refl _) .nil
      rw [ordered, ordered', null]
      exact Node.alike_anyOf (List.rel_append others last)

/-- Structurally equal types have equal documents, if they have some and once the null arm of each
union stands last. -/
theorem documentsAlike_of_structurallyEqual {a b : Descriptor}
    (alike : structurallyEqual a b = true) : DocumentsAlike a b :=
  alikeInduction (motive := DocumentsAlike) (fun _ => documentsAlike_refl _)
    (documentsAlike_refl _) (documentsAlike_refl _) (documentsAlike_refl _) (documentsAlike_refl _)
    (fun _ _ _ _ => documentsAlike_enumeration) (fun _ _ => documentsAlike_list)
    (fun _ _ _ _ _ => documentsAlike_mapping) (fun _ _ _ _ => documentsAlike_record)
    (fun _ _ _ => documentsAlike_union) alike

end Descriptor

/-! ## Payloads under structurally equal types -/

theorem EnumMember.rel_find? {as bs : List EnumMember}
    (values : List.Forall₂ (fun a b : EnumMember => a.value.equal b.value = true) as bs)
    (v : Json) :
    Option.Rel (fun a b : EnumMember => a.value.equal b.value = true) (find? v as)
      (find? v bs) := by
  induction values with
  | nil => exact .none
  | @cons a b as bs same _ ih =>
    have test : a.value.equal v = b.value.equal v := by
      rw [Bool.eq_iff_iff, Json.equal_iff, Json.equal_iff, Json.equal_iff.1 same]
    rw [find?, find?, List.find?_cons, List.find?_cons, ← test]
    cases a.value.equal v with
    | true => exact .some same
    | false => exact ih

namespace Descriptor

theorem isUnion_of_isKey {t : Descriptor} (scalar : t.isKey = true) : t.isUnion = false := by
  cases t with
  | optional inner => cases scalar
  | union members => cases scalar
  | _ => rfl

theorem admitsKey_eq_of_structurallyEqual {k l : Descriptor} (scalar : k.isKey = true)
    (scalar' : l.isKey = true) (alike : structurallyEqual k l = true) (key : String) :
    k.admitsKey key = l.admitsKey key := by
  cases alikeRule_of_structurallyEqual alike with
  | union hu =>
    rw [isUnion_of_isKey scalar, isUnion_of_isKey scalar'] at hu
    simp at hu
  | enumeration values =>
    have found := EnumMember.rel_find? values (.str key)
    rw [admitsKey, admitsKey, checkKey, checkKey, validateEnum, validateEnum]
    generalize EnumMember.find? (.str key) _ = x at found
    generalize EnumMember.find? (.str key) _ = y at found
    cases found with
    | none => rfl
    | some _ => rfl
  | primitive | any | path => rfl
  | none | fileData | list | mapping | record => cases scalar

/-- A type takes null if it is a union with null, and else what its first fitting alternative takes;
a type that is no union is its only alternative. -/
theorem checked_splitNull (t : Descriptor) (v : Json) :
    t.checked v =
      if v.isNull && t.splitNull.2 then some .null
      else t.splitNull.1.findSome? fun m => m.checked v := by
  cases hu : t.isUnion with
  | true => exact checked_union hu
  | false =>
    rw [splitNull_of_not_isUnion hu, List.findSome?_singleton, Bool.and_false,
      if_neg Bool.false_ne_true]

/-- Each alternative of a type that has a document has one. -/
theorem encode_of_mem_splitNull {t : Descriptor} {s : Json} (encoded : encode t = .ok s) :
    ∀ m ∈ t.splitNull.1, ∃ node, encode m = .ok node := by
  cases hu : t.isUnion with
  | true => exact encode_alternative hu encoded
  | false =>
    intro m member
    rw [splitNull_of_not_isUnion hu, List.mem_singleton] at member
    exact ⟨s, by rw [member, encoded]⟩

/-- Two types, where both have a document, refuse the same payloads and make equal payloads of
the others. -/
def PayloadsAlike (a b : Descriptor) : Prop :=
  (∃ s, encode a = .ok s) → (∃ s, encode b = .ok s) →
    ∀ v, Json.BothEqual (a.checked v) (b.checked v)

theorem payloadsAlike_refl (t : Descriptor) : PayloadsAlike t t := by
  intro _ _ v
  cases t.checked v with
  | none => exact .none
  | some x => exact .some (Json.equal_refl x)

theorem payloadsAlike_enumeration {n m : String} {as bs : List EnumMember}
    (values : List.Forall₂ (fun a b : EnumMember => a.value.equal b.value = true) as bs) :
    PayloadsAlike (.enumeration n as) (.enumeration m bs) := by
  intro _ _ v
  rw [checked_enumeration, checked_enumeration]
  have found := EnumMember.rel_find? values v
  generalize EnumMember.find? v as = x at found
  generalize EnumMember.find? v bs = y at found
  cases found with
  | none => exact .none
  | some same => exact .some same

theorem unknownField?_eq_of_forall₂ {fs gs : List (Field Descriptor)}
    (names : List.Forall₂ (fun f g : Field Descriptor => f.name = g.name) fs gs)
    (payload : List (String × Json)) :
    (unknownField? fs payload).isSome = (unknownField? gs payload).isSome := by
  rw [Bool.eq_iff_iff, isSome_unknownField?, isSome_unknownField?]
  refine exists_congr fun entry => and_congr_right fun _ => ?_
  exact names.forall_mem_iff fun f _ g same => by rw [same]

theorem payloadsAlike_list {a b : Descriptor} (element : PayloadsAlike a b) :
    PayloadsAlike (.list a) (.list b) := by
  intro encoded encoded' v
  obtain ⟨_, encoded⟩ := encoded
  obtain ⟨_, encoded'⟩ := encoded'
  obtain ⟨items, elementEncoded, _⟩ := encode_list_iff.1 encoded
  obtain ⟨items', elementEncoded', _⟩ := encode_list_iff.1 encoded'
  rw [checked_list, checked_list]
  cases v with
  | arr values =>
    have checks := element ⟨items, elementEncoded⟩ ⟨items', elementEncoded'⟩
    exact (List.rel_mapM_self fun v _ => checks v).map fun _ _ => Json.equal_arr_iff.2
  | _ => exact .none

theorem payloadsAlike_mapping {k l a b : Descriptor} (keys : structurallyEqual k l = true)
    (value : PayloadsAlike a b) : PayloadsAlike (.mapping k a) (.mapping l b) := by
  intro encoded encoded' v
  obtain ⟨_, encoded⟩ := encoded
  obtain ⟨_, encoded'⟩ := encoded'
  obtain ⟨scalar, _, node, _, valueEncoded, _⟩ := encode_mapping_iff.1 encoded
  obtain ⟨scalar', _, node', _, valueEncoded', _⟩ := encode_mapping_iff.1 encoded'
  rw [checked_mapping, checked_mapping]
  cases v with
  | obj entries =>
    have checks := value ⟨node, valueEncoded⟩ ⟨node', valueEncoded'⟩
    simp only [admitsKey_eq_of_structurallyEqual scalar scalar' keys]
    refine Option.Rel.map (List.rel_mapM_self fun entry _ => ?_)
      fun _ _ => Json.equal_obj_of_forall₂
    split
    · exact (checks entry.2).map fun _ _ same => ⟨rfl, same⟩
    · exact .none
  | _ => exact .none

theorem rel_checked_field {f g : Field Descriptor} (names : f.name = g.name)
    (defaults : Json.equal? f.default g.default = true)
    (types : ∀ v, Json.BothEqual (f.type.checked v) (g.type.checked v))
    (payload : List (String × Json)) :
    Option.Rel Json.SameField (f.checked payload) (g.checked payload) := by
  rw [Field.checked_eq, Field.checked_eq, ← names]
  cases Keyed.get? f.name payload with
  | some item => exact (types item).map fun _ _ same => ⟨rfl, same⟩
  | none =>
    generalize f.default = d at defaults
    generalize g.default = e at defaults
    cases Json.equal?_iff.1 defaults with
    | none => exact .none
    | some same => exact .some ⟨rfl, same⟩

theorem payloadsAlike_record {n m : String} {fs gs : List (Field Descriptor)}
    (fields : List.Forall₂ (fun f g : Field Descriptor => f.name = g.name ∧
      Json.equal? f.default g.default = true ∧ PayloadsAlike f.type g.type) fs gs) :
    PayloadsAlike (.record n fs) (.record m gs) := by
  intro encoded encoded' v
  obtain ⟨_, encoded⟩ := encoded
  obtain ⟨_, encoded'⟩ := encoded'
  rw [checked_record, checked_record]
  cases v with
  | obj payload =>
    dsimp only
    rw [unknownField?_eq_of_forall₂ (fields.imp fun _ _ rel => rel.1)]
    split
    · exact .none
    · have checks : List.Forall₂ (fun f g : Field Descriptor =>
          Option.Rel Json.SameField (f.checked payload) (g.checked payload)) fs gs :=
        fields.imp_of_mem fun f member g member' ⟨names, defaults, types⟩ =>
          rel_checked_field names defaults
            (types (encode_field encoded f member) (encode_field encoded' g member')) payload
      exact (checks.rel_mapM fun _ _ rel => rel).map fun _ _ same =>
        Json.equal_obj_of_forall₂ (Keyed.forall₂_ofPairs (fun _ _ rel => rel.1) same)
  | _ => exact .none

theorem payloadsAlike_union {a b : Descriptor} (null : a.splitNull.2 = b.splitNull.2)
    (arms : List.Forall₂ PayloadsAlike a.splitNull.1 b.splitNull.1) : PayloadsAlike a b := by
  intro encoded encoded' v
  obtain ⟨_, encoded⟩ := encoded
  obtain ⟨_, encoded'⟩ := encoded'
  rw [checked_splitNull a, checked_splitNull b, null]
  split
  · exact .some (Json.equal_refl _)
  · have checks : List.Forall₂ (fun x y : Descriptor => Json.BothEqual (x.checked v) (y.checked v))
        a.splitNull.1 b.splitNull.1 :=
      arms.imp_of_mem fun x member y member' alike =>
        alike (encode_of_mem_splitNull encoded x member)
          (encode_of_mem_splitNull encoded' y member') v
    exact checks.rel_findSome? fun _ _ rel => rel

/-- Structurally equal types make equal payloads of every payload, or refuse it both. -/
theorem payloadsAlike_of_structurallyEqual {a b : Descriptor}
    (alike : structurallyEqual a b = true) : PayloadsAlike a b :=
  alikeInduction (motive := PayloadsAlike) (fun _ => payloadsAlike_refl _)
    (payloadsAlike_refl _) (payloadsAlike_refl _) (payloadsAlike_refl _) (payloadsAlike_refl _)
    (fun _ _ _ _ => payloadsAlike_enumeration) (fun _ _ => payloadsAlike_list)
    (fun _ _ _ _ keys _ => payloadsAlike_mapping keys) (fun _ _ _ _ => payloadsAlike_record)
    (fun _ _ _ => payloadsAlike_union) alike

end Descriptor

/-- Two types that both refuse a payload, or both take it and make equal payloads of it. -/
def Descriptor.Interchange (a b : Descriptor) (v : Json) : Prop :=
  (∃ e e', validate a v = .error e ∧ validate b v = .error e') ∨
    ∃ x y, validate a v = .ok x ∧ validate b v = .ok y ∧ x.toJson.equal y.toJson = true

theorem Descriptor.interchange_iff {a b : Descriptor} {v : Json} :
    a.Interchange b v ↔ Json.BothEqual (a.checked v) (b.checked v) := by
  rw [Interchange, checked_eq, checked_eq]
  cases validate a v <;> cases validate b v <;> simp [Except.toOption, Json.BothEqual]

/-! ## Interchangeable types -/

/-- Structurally equal types that have documents have equal ones once null stands last among the
arms of each union, and they do the same with every payload. -/
theorem interchange_of_structurallyEqual {a b : Descriptor} {s s' : Json}
    (alike : a.structurallyEqual b = true) (encoded : encode a = .ok s)
    (encoded' : encode b = .ok s') :
    (Node.nullArmsLast s).equal (Node.nullArmsLast s') = true ∧ ∀ v, a.Interchange b v := by
  constructor
  · exact (Descriptor.documentsAlike_of_structurallyEqual alike encoded encoded').equal
  · intro v
    exact Descriptor.interchange_iff.2
      (Descriptor.payloadsAlike_of_structurallyEqual alike ⟨s, encoded⟩ ⟨s', encoded'⟩ v)

/-- The record of `ticket` under another name, its unions nested in another way. -/
def request : Descriptor :=
  .record "request" [
    { name := "id", type := .primitive .integer },
    { name := "owner", type := .union [.none, .primitive .string], default := some .null },
    { name := "tags", type := .list (.union [.primitive .string, .optional (.primitive .boolean)]),
      default := some (.arr []) }]

/-- The document of `request`: null stands last among the tags. -/
def requestNode : Json :=
  Node.record [
    ("id", Node.primitive .integer),
    ("owner", Node.withDefault (Node.primitive .string) (some .null)),
    ("tags", Node.withDefault
      (Node.array (Node.anyOf [Node.primitive .string, Node.primitive .boolean, Node.null]))
      (some (.arr [])))] ["id"]

theorem encode_request : encode request = .ok requestNode := by
  have owner : encode (.union [.none, .primitive .string]) = .ok (Node.primitive .string) :=
    (encode_union_iff rfl).2 (Or.inr (Or.inl ⟨.primitive .string, rfl, encode_primitive .string⟩))
  have tag : encode (.union [.primitive .string, .optional (.primitive .boolean)]) =
      .ok (Node.anyOf [Node.primitive .string, Node.primitive .boolean, Node.null]) := by
    refine (encode_union_iff rfl).2 (Or.inr (Or.inr ⟨by decide, _, ?_, rfl⟩))
    exact .cons (encode_primitive .string)
      (.cons (encode_primitive .boolean) (.cons (by rw [encode]) .nil))
  have tags : encode (.list (.union [.primitive .string, .optional (.primitive .boolean)])) =
      .ok (Node.array (Node.anyOf [Node.primitive .string, Node.primitive .boolean, Node.null])) :=
    encode_list_iff.2 ⟨_, tag, rfl⟩
  rw [request, encode]
  simp only [encodeFields, owner, tags]
  simp only [encode]
  rfl

theorem structurallyEqual_ticket_request : ticket.structurallyEqual request = true := by
  have scalar (kind : Primitive) :
      Descriptor.structurallyEqual (.primitive kind) (.primitive kind) = true :=
    Descriptor.structurallyEqual_of_unnamed_eq rfl
  have owner : Descriptor.structurallyEqual (.optional (.primitive .string))
      (.union [.none, .primitive .string]) = true :=
    (Descriptor.structurallyEqual_union (Or.inl rfl)).2 ⟨rfl, .cons (scalar _) .nil⟩
  have tag : Descriptor.structurallyEqual (.union [.none, .primitive .string, .primitive .boolean])
      (.union [.primitive .string, .optional (.primitive .boolean)]) = true :=
    (Descriptor.structurallyEqual_union (Or.inl rfl)).2
      ⟨rfl, .cons (scalar _) (.cons (scalar _) .nil)⟩
  refine Descriptor.structurallyEqual_record.2
    (.cons ⟨rfl, rfl, scalar _⟩ (.cons ⟨rfl, rfl, owner⟩ (.cons ⟨rfl, rfl, ?_⟩ .nil)))
  rw [Descriptor.structurallyEqual_list]
  exact tag

theorem interchange_ticket_request :
    (ticket.structurallyEqual request = true ∧ encode ticket = .ok ticketNode ∧
      encode request = .ok requestNode) ∧
      (Node.nullArmsLast ticketNode).equal (Node.nullArmsLast requestNode) = true ∧
      ∀ v, ticket.Interchange request v :=
  ⟨⟨structurallyEqual_ticket_request, encode_ticket, encode_request⟩,
    interchange_of_structurallyEqual structurallyEqual_ticket_request encode_ticket encode_request⟩

end CallContract
