import CallContract.Proofs.KeyedLists
import CallContract.Proofs.Unions

/-!
# Records inside types

* `Descriptor.EveryRecord` is a condition on the fields of every record of a type, at every depth;
  `Descriptor.DistinctFields` and `Descriptor.NullDefaultsOptional` are the two that matter for
  schema documents.
* `Descriptor.Contains` relates a type to the types inside it, one `Descriptor.HasPart` after the
  other.
* `Descriptor.rewrite` changes the records and enumerations of a type where they stand. It makes
  `Descriptor.merged`, in which of the fields of one name the last counts, and `Descriptor.unnamed`,
  in which names and labels are gone.
-/

namespace CallContract

/-! ## Fields -/

namespace Field

variable {σ τ : Type}

/-- A field with another type. -/
def mapType (g : σ → τ) (f : Field σ) : Field τ :=
  { name := f.name, type := g f.type, default := f.default }

@[simp] theorem mapType_name (g : σ → τ) (f : Field σ) : (f.mapType g).name = f.name := rfl

@[simp] theorem mapType_type (g : σ → τ) (f : Field σ) : (f.mapType g).type = g f.type := rfl

@[simp] theorem mapType_default (g : σ → τ) (f : Field σ) :
    (f.mapType g).default = f.default := rfl

theorem names_mapType (g : σ → τ) (fields : List (Field σ)) :
    (fields.map (mapType g)).map Field.name = fields.map Field.name := by
  rw [List.map_map]
  rfl

/-- Fields that are bound by name one after the other: of the fields of one name the first gives the
place and the last the field. -/
def merge (fields : List (Field τ)) : List (Field τ) :=
  (Keyed.ofPairs (fields.map fun f => (f.name, f))).map Prod.snd

theorem mem_of_mem_merge {f : Field τ} {fields : List (Field τ)} (member : f ∈ merge fields) :
    f ∈ fields := by
  obtain ⟨pair, found, rfl⟩ := List.mem_map.1 member
  obtain ⟨g, there, rfl⟩ := List.mem_map.1 (Keyed.mem_ofPairs found)
  exact there

theorem names_merge (fields : List (Field τ)) :
    (merge fields).map Field.name =
      (Keyed.ofPairs (fields.map fun f => (f.name, f))).map Prod.fst := by
  rw [merge, List.map_map]
  refine List.map_congr_left fun pair found => ?_
  obtain ⟨f, _, rfl⟩ := List.mem_map.1 (Keyed.mem_ofPairs found)
  rfl

theorem mem_names_merge {name : String} {fields : List (Field τ)} :
    name ∈ (merge fields).map Field.name ↔ name ∈ fields.map Field.name := by
  rw [names_merge, Keyed.mem_keys_ofPairs, List.map_map]
  rfl

theorem nodup_names_merge (fields : List (Field τ)) : ((merge fields).map Field.name).Nodup := by
  rw [names_merge]
  exact Keyed.nodup_keys_ofPairs _

theorem merge_of_nodup {fields : List (Field τ)} (distinct : (fields.map Field.name).Nodup) :
    merge fields = fields := by
  have keys : ((fields.map fun f => (f.name, f)).map Prod.fst).Nodup := by
    rwa [List.map_map]
  rw [merge, Keyed.ofPairs_of_nodup keys, List.map_map]
  exact List.map_id fields

theorem merge_mapType (g : σ → τ) (fields : List (Field σ)) :
    merge (fields.map (mapType g)) = (merge fields).map (mapType g) := by
  have pairs : ((fields.map (mapType g)).map fun f => (f.name, f)) =
      (fields.map fun f => (f.name, f)).map fun pair => (pair.1, mapType g pair.2) := by
    rw [List.map_map, List.map_map]
    rfl
  rw [merge, pairs, Keyed.ofPairs_map fun pair => mapType g pair.2, merge, List.map_map,
    List.map_map]
  rfl

/-- Fields and bindings that belong together still do once both are merged. -/
theorem forall₂_merge {α : Type} {R : Field τ → String × α → Prop}
    (names : ∀ f p, R f p → f.name = p.1) {fields : List (Field τ)} {pairs : List (String × α)}
    (related : List.Forall₂ R fields pairs) :
    List.Forall₂ R (merge fields) (Keyed.ofPairs pairs) := by
  have named : List.Forall₂ (fun (q : String × Field τ) p => q.1 = p.1 ∧ R q.2 p)
      (fields.map fun f => (f.name, f)) pairs :=
    List.forall₂_map_left_iff.2 (related.imp fun f p rel => ⟨names f p rel, rel⟩)
  rw [merge, List.forall₂_map_left_iff]
  exact (Keyed.forall₂_ofPairs (fun _ _ rel => rel.1) named).imp fun _ _ rel => rel.2

end Field

namespace Descriptor

/-! ## Conditions on records -/

mutual
/-- Whether the fields of every record inside a type are as wanted. -/
def EveryRecord (p : List (Field Descriptor) → Prop) : Descriptor → Prop
  | .optional inner => EveryRecord p inner
  | .union members => EveryRecordOfAll p members
  | .list element => EveryRecord p element
  | .mapping key value => EveryRecord p key ∧ EveryRecord p value
  | .record _ fields => p fields ∧ EveryRecordOfFields p fields
  | .primitive _ | .none | .any | .enumeration _ _ | .path | .fileData => True

/-- The same of several types. -/
def EveryRecordOfAll (p : List (Field Descriptor) → Prop) : List Descriptor → Prop
  | [] => True
  | t :: rest => EveryRecord p t ∧ EveryRecordOfAll p rest

/-- The same of the types of fields. -/
def EveryRecordOfFields (p : List (Field Descriptor) → Prop) : List (Field Descriptor) → Prop
  | [] => True
  | ⟨_, type, _⟩ :: rest => EveryRecord p type ∧ EveryRecordOfFields p rest
end

/-- The fields of each record have names of their own. -/
def DistinctFields : Descriptor → Prop :=
  EveryRecord fun fields => (fields.map Field.name).Nodup

/-- A default of null stands only where the type has null. -/
def NullDefaultsOptional : Descriptor → Prop :=
  EveryRecord fun fields => ∀ f ∈ fields, f.default = some .null → f.type.isOptional = true

variable {p q : List (Field Descriptor) → Prop}

theorem everyRecordOfAll_iff {ts : List Descriptor} :
    EveryRecordOfAll p ts ↔ ∀ t ∈ ts, EveryRecord p t := by
  induction ts with
  | nil => simp [EveryRecordOfAll]
  | cons t rest ih => rw [EveryRecordOfAll, List.forall_mem_cons, ih]

theorem everyRecordOfFields_iff {fields : List (Field Descriptor)} :
    EveryRecordOfFields p fields ↔ ∀ f ∈ fields, EveryRecord p f.type := by
  induction fields with
  | nil => simp [EveryRecordOfFields]
  | cons f rest ih => rw [EveryRecordOfFields, List.forall_mem_cons, ih]

theorem everyRecord_record {name : String} {fields : List (Field Descriptor)} :
    EveryRecord p (.record name fields) ↔ p fields ∧ ∀ f ∈ fields, EveryRecord p f.type := by
  rw [EveryRecord, everyRecordOfFields_iff]

mutual
/-- The records of a type are those of its leaves. -/
theorem everyRecord_iff_leaves : (t : Descriptor) →
    (EveryRecord p t ↔ ∀ m ∈ t.leaves, EveryRecord p m)
  | .optional inner => by
    rw [EveryRecord, leaves, everyRecord_iff_leaves inner, List.forall_mem_append,
      List.forall_mem_singleton]
    exact (and_iff_left trivial).symm
  | .union members => by
    rw [EveryRecord, leaves, everyRecordOfAll_iff_leaves members]
  | .primitive _ | .none | .any | .list _ | .mapping _ _ | .record _ _ | .enumeration _ _
  | .path | .fileData => List.forall_mem_singleton.symm

theorem everyRecordOfAll_iff_leaves : (ts : List Descriptor) →
    (EveryRecordOfAll p ts ↔ ∀ m ∈ leavesOfAll ts, EveryRecord p m)
  | [] => by simp [EveryRecordOfAll, leavesOfAll]
  | t :: rest => by
    rw [EveryRecordOfAll, leavesOfAll, List.forall_mem_append, everyRecord_iff_leaves t,
      everyRecordOfAll_iff_leaves rest]
end

theorem EveryRecord.leaf {t m : Descriptor} (every : EveryRecord p t) (member : m ∈ t.leaves) :
    EveryRecord p m :=
  (everyRecord_iff_leaves t).1 every m member

theorem EveryRecord.true (t : Descriptor) : EveryRecord (fun _ => True) t := by
  induction t using leafInduction with
  | list element ih => exact ih
  | mapping key value ihk ihv => exact ⟨ihk, ihv⟩
  | record name fields ih => exact everyRecord_record.2 ⟨trivial, ih⟩
  | union t _ ih => exact (everyRecord_iff_leaves t).2 ih
  | _ => trivial

/-! ## Types inside types -/

/-- One type is a part of another. Of the fields of one name the last is the one that counts. -/
inductive HasPart : Descriptor → Descriptor → Prop
  | inner {inner : Descriptor} : HasPart (.optional inner) inner
  | member {members : List Descriptor} {m : Descriptor} (member : m ∈ members) :
      HasPart (.union members) m
  | element {element : Descriptor} : HasPart (.list element) element
  | key {key value : Descriptor} : HasPart (.mapping key value) key
  | value {key value : Descriptor} : HasPart (.mapping key value) value
  | field {name : String} {fields : List (Field Descriptor)} {f : Field Descriptor}
      (member : f ∈ Field.merge fields) : HasPart (.record name fields) f.type

/-- A type is found in another: it is that type or inside a part of it. -/
abbrev Contains : Descriptor → Descriptor → Prop :=
  Relation.ReflTransGen HasPart

section Contains

variable {t u : Descriptor}

theorem contains_iff :
    t.Contains u ↔ t = u ∨ ∃ part, t.HasPart part ∧ part.Contains u :=
  Relation.ReflTransGen.cases_head_iff

theorem contains_optional {inner : Descriptor} (single : u.isUnion = false) :
    (optional inner).Contains u ↔ inner.Contains u := by
  constructor
  · intro found
    rcases contains_iff.1 found with rfl | ⟨part, step, found⟩
    · cases single
    · cases step
      exact found
  · exact .head .inner

theorem contains_union {members : List Descriptor} (single : u.isUnion = false) :
    (union members).Contains u ↔ ∃ m ∈ members, m.Contains u := by
  constructor
  · intro found
    rcases contains_iff.1 found with rfl | ⟨part, step, found⟩
    · cases single
    · cases step with
      | member member => exact ⟨part, member, found⟩
  · rintro ⟨m, member, found⟩
    exact .head (.member member) found

theorem eq_none_of_contains (found : Descriptor.none.Contains u) : u = .none := by
  rcases contains_iff.1 found with rfl | ⟨part, step, _⟩
  · rfl
  · cases step

end Contains

mutual
/-- What a type contains, unions and null apart, its leaves contain. -/
theorem contains_iff_leaves {u : Descriptor} (single : u.isUnion = false)
    (notNone : u ≠ .none) : (t : Descriptor) →
    (t.Contains u ↔ ∃ m ∈ t.leaves, m.Contains u)
  | .optional inner => by
    have null : ¬Descriptor.none.Contains u := fun found => notNone (eq_none_of_contains found)
    rw [contains_optional single, contains_iff_leaves single notNone inner, leaves]
    simp [null]
  | .union members => by
    rw [contains_union single, leaves, contains_iff_leavesOfAll single notNone members]
  | .primitive _ | .none | .any | .list _ | .mapping _ _ | .record _ _ | .enumeration _ _
  | .path | .fileData => by
    simp [leaves]

theorem contains_iff_leavesOfAll {u : Descriptor} (single : u.isUnion = false)
    (notNone : u ≠ .none) : (ts : List Descriptor) →
    ((∃ t ∈ ts, t.Contains u) ↔ ∃ m ∈ leavesOfAll ts, m.Contains u)
  | [] => by simp [leavesOfAll]
  | t :: rest => by
    rw [leavesOfAll, List.exists_mem_cons_iff, contains_iff_leaves single notNone t,
      contains_iff_leavesOfAll single notNone rest]
    simp only [List.mem_append, or_and_right, exists_or]
end

/-- A union contains its alternatives. -/
theorem contains_of_mem_splitNull {t m : Descriptor} (hu : t.isUnion = true)
    (member : m ∈ t.splitNull.1) : t.Contains m := by
  rw [splitNull_fst hu, List.mem_filter] at member
  have notNone : m ≠ .none := by
    rintro rfl
    cases member.2
  exact (contains_iff_leaves (isUnion_of_mem_leaves t member.1) notNone t).2 ⟨m, member.1, .refl⟩

theorem EveryRecord.of_hasPart {t part : Descriptor} (every : EveryRecord p t)
    (step : t.HasPart part) : EveryRecord p part := by
  cases step with
  | inner => exact every
  | member member => exact everyRecordOfAll_iff.1 every _ member
  | element => exact every
  | key => exact every.1
  | value => exact every.2
  | field member => exact (everyRecord_record.1 every).2 _ (Field.mem_of_mem_merge member)

/-- The records of a type inside a type are among those of the type. -/
theorem EveryRecord.of_contains {t u : Descriptor} (every : EveryRecord p t)
    (inside : t.Contains u) : EveryRecord p u := by
  induction inside with
  | refl => exact every
  | tail _ step ih => exact ih.of_hasPart step

/-! ## Rewriting records and enumerations -/

/-- What to do with the records and enumerations of a type. -/
structure Rewriting where
  recordName : String → String := id
  fields : List (Field Descriptor) → List (Field Descriptor) := id
  enumName : String → String := id
  members : List EnumMember → List EnumMember := id

mutual
/-- A type whose records and enumerations are rewritten, the innermost first. -/
def rewrite (r : Rewriting) : Descriptor → Descriptor
  | .optional inner => .optional (rewrite r inner)
  | .union members => .union (rewriteAll r members)
  | .primitive kind => .primitive kind
  | .none => .none
  | .any => .any
  | .list element => .list (rewrite r element)
  | .mapping key value => .mapping (rewrite r key) (rewrite r value)
  | .record name fields => .record (r.recordName name) (r.fields (rewriteFields r fields))
  | .enumeration name members => .enumeration (r.enumName name) (r.members members)
  | .path => .path
  | .fileData => .fileData

/-- Types whose records and enumerations are rewritten. -/
def rewriteAll (r : Rewriting) : List Descriptor → List Descriptor
  | [] => []
  | t :: rest => rewrite r t :: rewriteAll r rest

/-- Fields in whose types records and enumerations are rewritten. -/
def rewriteFields (r : Rewriting) : List (Field Descriptor) → List (Field Descriptor)
  | [] => []
  | ⟨name, type, default⟩ :: rest => ⟨name, rewrite r type, default⟩ :: rewriteFields r rest
end

theorem rewriteAll_eq_map (r : Rewriting) (ts : List Descriptor) :
    rewriteAll r ts = ts.map (rewrite r) := by
  induction ts with
  | nil => rfl
  | cons t rest ih => rw [rewriteAll, List.map_cons, ih]

theorem rewriteFields_eq_map (r : Rewriting) (fields : List (Field Descriptor)) :
    rewriteFields r fields = fields.map (Field.mapType (rewrite r)) := by
  induction fields with
  | nil => rfl
  | cons f rest ih => rw [rewriteFields, List.map_cons, ih]; rfl

theorem rewrite_record (r : Rewriting) (name : String) (fields : List (Field Descriptor)) :
    rewrite r (.record name fields) =
      .record (r.recordName name) (r.fields (fields.map (Field.mapType (rewrite r)))) := by
  rw [rewrite, rewriteFields_eq_map]

theorem respectsUnions_rewrite (r : Rewriting) : RespectsUnions (rewrite r) where
  optional _ := rfl
  union members := by rw [rewrite, rewriteAll_eq_map]
  isUnion t := by cases t <;> rfl
  isNone t := by cases t <;> rfl

theorem isOptional_rewrite (r : Rewriting) (t : Descriptor) :
    (rewrite r t).isOptional = t.isOptional := by
  cases t with
  | union members =>
    have split := (respectsUnions_rewrite r).splitNull_map (.union members)
    rw [rewrite] at split ⊢
    rw [isOptional, isOptional, split]
  | _ => rfl

/-- Rewriting that adds no field carries a condition on records over. -/
theorem EveryRecord.rewrite {r : Rewriting}
    (part : ∀ fields, ∀ f ∈ r.fields fields, f ∈ fields)
    (carried : ∀ fields, p fields → q (r.fields (fields.map (Field.mapType (rewrite r)))))
    {t : Descriptor} (every : EveryRecord p t) : EveryRecord q (Descriptor.rewrite r t) := by
  induction t using leafInduction with
  | list element ih => exact ih every
  | mapping key value ihk ihv => exact ⟨ihk every.1, ihv every.2⟩
  | record name fields ih =>
    rw [everyRecord_record] at every
    rw [rewrite_record, everyRecord_record]
    refine ⟨carried fields every.1, fun f member => ?_⟩
    obtain ⟨g, there, rfl⟩ := List.mem_map.1 (part _ f member)
    exact ih g there (every.2 g there)
  | union t _ ih =>
    rw [everyRecord_iff_leaves, (respectsUnions_rewrite r).leaves_map]
    intro m member
    obtain ⟨u, there, rfl⟩ := List.mem_map.1 member
    exact ih u there (every.leaf there)
  | _ => trivial

/-! ## Fields merged -/

/-- A type in whose records the fields of one name are merged. -/
def merged : Descriptor → Descriptor :=
  rewrite { fields := Field.merge }

theorem merged_list (element : Descriptor) : merged (.list element) = .list element.merged := rfl

theorem merged_mapping (key value : Descriptor) :
    merged (.mapping key value) = .mapping key.merged value.merged := rfl

theorem merged_record (name : String) (fields : List (Field Descriptor)) :
    merged (.record name fields) =
      .record name ((Field.merge fields).map (Field.mapType merged)) := by
  rw [← Field.merge_mapType]
  exact rewrite_record _ name fields

theorem distinctFields_merged (t : Descriptor) : t.merged.DistinctFields :=
  EveryRecord.rewrite (fun _ _ => Field.mem_of_mem_merge)
    (fun _ _ => Field.nodup_names_merge _) (EveryRecord.true t)

mutual
/-- Where the fields of each record have names of their own, there is nothing to merge. -/
theorem merged_of_distinctFields : (t : Descriptor) → t.DistinctFields → t.merged = t
  | .optional inner, distinct =>
    congrArg Descriptor.optional (merged_of_distinctFields inner distinct)
  | .union members, distinct =>
    congrArg Descriptor.union (mergedAll_of_distinctFields members distinct)
  | .list element, distinct =>
    congrArg Descriptor.list (merged_of_distinctFields element distinct)
  | .mapping key value, distinct =>
    congrArg₂ Descriptor.mapping (merged_of_distinctFields key distinct.1)
      (merged_of_distinctFields value distinct.2)
  | .record name fields, distinct => by
    have kept := mergedFields_of_distinctFields fields distinct.2
    rw [merged, rewrite, kept]
    exact congrArg (Descriptor.record name) (Field.merge_of_nodup distinct.1)
  | .primitive _, _ | .none, _ | .any, _ | .enumeration _ _, _ | .path, _ | .fileData, _ => rfl

theorem mergedAll_of_distinctFields : (ts : List Descriptor) →
    EveryRecordOfAll (fun fields => (fields.map Field.name).Nodup) ts →
    rewriteAll { fields := Field.merge } ts = ts
  | [], _ => rfl
  | t :: rest, distinct =>
    congrArg₂ List.cons (merged_of_distinctFields t distinct.1)
      (mergedAll_of_distinctFields rest distinct.2)

theorem mergedFields_of_distinctFields : (fields : List (Field Descriptor)) →
    EveryRecordOfFields (fun fields => (fields.map Field.name).Nodup) fields →
    rewriteFields { fields := Field.merge } fields = fields
  | [], _ => rfl
  | ⟨name, type, default⟩ :: rest, distinct =>
    congrArg₂ (fun t fields => (⟨name, t, default⟩ : Field Descriptor) :: fields)
      (merged_of_distinctFields type distinct.1) (mergedFields_of_distinctFields rest distinct.2)
end

/-! ## Names taken away -/

/-- A type without the names of records and enumerations and the labels of members. -/
def unnamed : Descriptor → Descriptor :=
  rewrite {
    recordName := fun _ => ""
    enumName := fun _ => ""
    members := List.map fun m => { label := "", value := m.value } }

theorem unnamed_list (element : Descriptor) :
    unnamed (.list element) = .list element.unnamed := rfl

theorem unnamed_mapping (key value : Descriptor) :
    unnamed (.mapping key value) = .mapping key.unnamed value.unnamed := rfl

theorem unnamed_enumeration (name : String) (members : List EnumMember) :
    unnamed (.enumeration name members) =
      .enumeration "" (members.map fun m => { label := "", value := m.value }) := rfl

theorem unnamed_record (name : String) (fields : List (Field Descriptor)) :
    unnamed (.record name fields) = .record "" (fields.map (Field.mapType unnamed)) :=
  rewrite_record _ name fields

theorem respectsUnions_unnamed : RespectsUnions unnamed :=
  respectsUnions_rewrite _

theorem isOptional_unnamed (t : Descriptor) : t.unnamed.isOptional = t.isOptional :=
  isOptional_rewrite _ t

/-- A condition that names and types leave alone holds of the records of types that differ in names
only. -/
theorem everyRecord_unnamed
    (same : ∀ fields, p (fields.map (Field.mapType unnamed)) ↔ p fields) {t : Descriptor} :
    EveryRecord p t.unnamed ↔ EveryRecord p t := by
  induction t using leafInduction with
  | list element ih => exact ih
  | mapping key value ihk ihv => exact and_congr ihk ihv
  | record name fields ih =>
    rw [unnamed_record, everyRecord_record, everyRecord_record, same, List.forall_mem_map]
    exact and_congr_right fun _ => forall₂_congr ih
  | union t _ ih =>
    rw [everyRecord_iff_leaves, everyRecord_iff_leaves t, respectsUnions_unnamed.leaves_map,
      List.forall_mem_map]
    exact forall₂_congr ih
  | _ => exact Iff.rfl

theorem distinctFields_unnamed {t : Descriptor} :
    t.unnamed.DistinctFields ↔ t.DistinctFields :=
  everyRecord_unnamed fun fields => by rw [Field.names_mapType]

theorem nullDefaultsOptional_unnamed {t : Descriptor} :
    t.unnamed.NullDefaultsOptional ↔ t.NullDefaultsOptional :=
  everyRecord_unnamed fun fields => by
    simp only [List.forall_mem_map, Field.mapType_default, Field.mapType_type, isOptional_unnamed]

end Descriptor

end CallContract
