import CallContract.Proofs.Encoding

/-!
# Which types have a node

A type has a node unless something in it stands in the way, at whatever depth.

* `Obstacle` lists what stands in the way, each with the kind of error that it leads to; whether a
  union does depends on where it stands, so an `Occurrence` is a type together with that.
* `Descriptor.outcome` is what encoding comes to, nodes and details of errors apart. `outcome_list`,
  `outcome_mapping`, `outcome_record` and `outcome_union` are its rules.
* `ExplainedBy` compares an outcome with obstacles; `explainedBy_outcome` says that the outcome of a
  type is explained by what occurs in it, by induction on the type.
* `outcome_blank`: names, labels and defaults have no part in it.
-/

namespace CallContract

/-! ## Obstacles -/

/-- The kinds of errors of encoding. -/
inductive EncodeError.Kind where
  | unsupportedType
  | inconsistentEnumType

/-- The kind of an error. -/
def EncodeError.kind : EncodeError → EncodeError.Kind
  | .mixedMembers .. => .inconsistentEnumType
  | _ => .unsupportedType

/-- A type where it stands in another: as an alternative of a union, or not. -/
structure Occurrence where
  type : Descriptor
  isArm : Bool

/-- One step into a type. What an optional type or a union is directly made of stands as an
alternative; all fields of a record count, those with defaults too. -/
inductive Occurrence.HasPart : Occurrence → Occurrence → Prop
  | inner {inner : Descriptor} {arm : Bool} : HasPart ⟨.optional inner, arm⟩ ⟨inner, true⟩
  | member {members : List Descriptor} {m : Descriptor} {arm : Bool} (member : m ∈ members) :
      HasPart ⟨.union members, arm⟩ ⟨m, true⟩
  | element {element : Descriptor} {arm : Bool} : HasPart ⟨.list element, arm⟩ ⟨element, false⟩
  | key {key value : Descriptor} {arm : Bool} : HasPart ⟨.mapping key value, arm⟩ ⟨key, false⟩
  | value {key value : Descriptor} {arm : Bool} : HasPart ⟨.mapping key value, arm⟩ ⟨value, false⟩
  | field {name : String} {fields : List (Field Descriptor)} {f : Field Descriptor} {arm : Bool}
      (member : f ∈ fields) : HasPart ⟨.record name fields, arm⟩ ⟨f.type, false⟩

/-- What stands in the way of a node, and the kind of error that it leads to. A union without
alternatives is none where it is an alternative itself. -/
inductive Obstacle : EncodeError.Kind → Occurrence → Prop
  | emptyUnion {t : Descriptor} (hu : t.isUnion = true) (empty : t.alternatives = []) :
      Obstacle .unsupportedType ⟨t, false⟩
  | noMembers {name : String} {arm : Bool} : Obstacle .unsupportedType ⟨.enumeration name [], arm⟩
  | notScalar {name : String} {members : List EnumMember} {m : EnumMember} {arm : Bool}
      (member : m ∈ members) (other : Primitive.ofValue? m.value = none) :
      Obstacle .unsupportedType ⟨.enumeration name members, arm⟩
  | mixedKinds {name : String} {members : List EnumMember} {m n : EnumMember}
      {k l : Primitive} {arm : Bool} (first : m ∈ members) (second : n ∈ members)
      (ofFirst : Primitive.ofValue? m.value = some k)
      (ofSecond : Primitive.ofValue? n.value = some l) (differ : k ≠ l) :
      Obstacle .inconsistentEnumType ⟨.enumeration name members, arm⟩
  | mappingKey {key value : Descriptor} {arm : Bool} (notKey : key.isKey = false) :
      Obstacle .unsupportedType ⟨.mapping key value, arm⟩

/-- An obstacle of a kind occurs in a type, at some depth. -/
def Occurrence.Obstructed (kind : EncodeError.Kind) (o : Occurrence) : Prop :=
  ∃ p, Relation.ReflTransGen Occurrence.HasPart o p ∧ Obstacle kind p

/-- An obstacle of a kind occurs in a type that stands alone. -/
def Descriptor.Obstructed (kind : EncodeError.Kind) (t : Descriptor) : Prop :=
  (Occurrence.mk t false).Obstructed kind

section Obstructed

open Occurrence (HasPart Obstructed)

variable {kind : EncodeError.Kind} {o : Occurrence} {t : Descriptor}

theorem obstructed_iff :
    o.Obstructed kind ↔ Obstacle kind o ∨ ∃ part, o.HasPart part ∧ part.Obstructed kind := by
  constructor
  · rintro ⟨p, reached, obstacle⟩
    rcases Relation.ReflTransGen.cases_head reached with rfl | ⟨part, step, further⟩
    · exact .inl obstacle
    · exact .inr ⟨part, step, p, further, obstacle⟩
  · rintro (obstacle | ⟨part, step, p, further, obstacle⟩)
    · exact ⟨o, .refl, obstacle⟩
    · exact ⟨p, .head step further, obstacle⟩

/-- A type has the same parts wherever it stands. -/
theorem hasPart_arm {arm arm' : Bool} {part : Occurrence} (step : HasPart ⟨t, arm⟩ part) :
    HasPart ⟨t, arm'⟩ part := by
  cases step with
  | inner => exact .inner
  | member member => exact .member member
  | element => exact .element
  | key => exact .key
  | value => exact .value
  | field member => exact .field member

/-- Only unions may be in the way in one place and not in another. -/
theorem obstructed_arm (single : t.isUnion = false) (arm : Bool) :
    Obstructed kind ⟨t, arm⟩ ↔ t.Obstructed kind := by
  have obstacle {a b : Bool} : Obstacle kind ⟨t, a⟩ → Obstacle kind ⟨t, b⟩ := by
    intro obstacle
    cases obstacle with
    | emptyUnion hu => cases single.symm.trans hu
    | noMembers => exact .noMembers
    | notScalar member other => exact .notScalar member other
    | mixedKinds first second ofFirst ofSecond differ =>
      exact .mixedKinds first second ofFirst ofSecond differ
    | mappingKey notKey => exact .mappingKey notKey
  rw [Descriptor.Obstructed, obstructed_iff, obstructed_iff]
  exact or_congr ⟨obstacle, obstacle⟩
    (exists_congr fun part => and_congr_left fun _ => ⟨hasPart_arm, hasPart_arm⟩)

theorem obstructed_list {element : Descriptor} :
    (Descriptor.list element).Obstructed kind ↔ element.Obstructed kind := by
  rw [Descriptor.Obstructed, obstructed_iff]
  constructor
  · rintro (obstacle | ⟨part, step, inside⟩)
    · cases obstacle with
      | emptyUnion hu => cases hu
    · cases step
      exact inside
  · exact fun inside => .inr ⟨_, .element, inside⟩

theorem obstructed_mapping {key value : Descriptor} :
    (Descriptor.mapping key value).Obstructed kind ↔
      (kind = .unsupportedType ∧ key.isKey = false) ∨
        key.Obstructed kind ∨ value.Obstructed kind := by
  rw [Descriptor.Obstructed, obstructed_iff]
  constructor
  · rintro (obstacle | ⟨part, step, inside⟩)
    · cases obstacle with
      | emptyUnion hu => cases hu
      | mappingKey notKey => exact .inl ⟨rfl, notKey⟩
    · cases step with
      | key => exact .inr (.inl inside)
      | value => exact .inr (.inr inside)
  · rintro (⟨rfl, notKey⟩ | inside | inside)
    · exact .inl (.mappingKey notKey)
    · exact .inr ⟨_, .key, inside⟩
    · exact .inr ⟨_, .value, inside⟩

theorem obstructed_record {name : String} {fields : List (Field Descriptor)} :
    (Descriptor.record name fields).Obstructed kind ↔ ∃ f ∈ fields, f.type.Obstructed kind := by
  rw [Descriptor.Obstructed, obstructed_iff]
  constructor
  · rintro (obstacle | ⟨part, step, inside⟩)
    · cases obstacle with
      | emptyUnion hu => cases hu
    · cases step with
      | field member => exact ⟨_, member, inside⟩
  · rintro ⟨f, member, inside⟩
    exact .inr ⟨_, .field member, inside⟩

theorem obstructed_enumeration {name : String} {members : List EnumMember} :
    (Descriptor.enumeration name members).Obstructed kind ↔
      Obstacle kind ⟨.enumeration name members, false⟩ := by
  rw [Descriptor.Obstructed, obstructed_iff, or_iff_left]
  rintro ⟨part, step, _⟩
  cases step

/-- Types that are made of nothing else. -/
def IsBasic : Descriptor → Prop
  | .primitive _ | .none | .any | .path | .fileData => True
  | _ => False

theorem not_obstructed_of_isBasic (basic : IsBasic t) : ¬t.Obstructed kind := by
  rw [Descriptor.Obstructed, obstructed_iff]
  rintro (obstacle | ⟨part, step, _⟩)
  · cases obstacle with
    | emptyUnion hu =>
      cases t with
      | optional inner => cases basic
      | union members => cases basic
      | _ => cases hu
    | _ => cases basic
  · cases step <;> cases basic

theorem obstructed_inner {inner : Descriptor} :
    Obstructed kind ⟨.optional inner, true⟩ ↔ Obstructed kind ⟨inner, true⟩ := by
  rw [obstructed_iff]
  constructor
  · rintro (obstacle | ⟨part, step, inside⟩)
    · cases obstacle
    · cases step
      exact inside
  · exact fun inside => .inr ⟨_, .inner, inside⟩

theorem obstructed_member {members : List Descriptor} :
    Obstructed kind ⟨.union members, true⟩ ↔ ∃ m ∈ members, Obstructed kind ⟨m, true⟩ := by
  rw [obstructed_iff]
  constructor
  · rintro (obstacle | ⟨part, step, inside⟩)
    · cases obstacle
    · cases step with
      | member member => exact ⟨_, member, inside⟩
  · rintro ⟨m, member, inside⟩
    exact .inr ⟨_, .member member, inside⟩

mutual
/-- In an alternative is in the way what is so in its leaves. -/
theorem obstructed_iff_leaves : (t : Descriptor) →
    (Obstructed kind ⟨t, true⟩ ↔ ∃ m ∈ t.leaves, m.Obstructed kind)
  | .optional inner => by
    rw [obstructed_inner, obstructed_iff_leaves inner, Descriptor.leaves]
    simp [not_obstructed_of_isBasic (t := .none) trivial]
  | .union members => by
    rw [obstructed_member, obstructed_iff_leavesOfAll members, Descriptor.leaves]
  | .primitive _ | .none | .any | .list _ | .mapping _ _ | .record _ _ | .enumeration _ _
  | .path | .fileData => by
    rw [obstructed_arm rfl]
    simp [Descriptor.leaves]

theorem obstructed_iff_leavesOfAll : (ts : List Descriptor) →
    ((∃ t ∈ ts, Obstructed kind ⟨t, true⟩) ↔
      ∃ m ∈ Descriptor.leavesOfAll ts, m.Obstructed kind)
  | [] => by simp [Descriptor.leavesOfAll]
  | t :: rest => by
    rw [Descriptor.leavesOfAll, List.exists_mem_cons_iff, obstructed_iff_leaves t,
      obstructed_iff_leavesOfAll rest]
    simp only [List.mem_append, or_and_right, exists_or]
end

theorem obstructed_union (hu : t.isUnion = true) :
    t.Obstructed kind ↔
      (kind = .unsupportedType ∧ t.alternatives = []) ∨
        ∃ m ∈ t.splitNull.1, m.Obstructed kind := by
  have inside : (∃ m ∈ t.splitNull.1, m.Obstructed kind) ↔ Obstructed kind ⟨t, true⟩ := by
    rw [obstructed_iff_leaves, Descriptor.splitNull_fst hu]
    refine exists_congr fun m => and_congr_left fun obstructed => ?_
    rw [List.mem_filter, and_iff_left]
    cases null : m.isNone with
    | false => rfl
    | true =>
      rw [Descriptor.eq_none_of_isNone null] at obstructed
      exact absurd obstructed (not_obstructed_of_isBasic trivial)
  -- As an alternative, a union is never in the way itself: only what it is made of may be.
  have asArm : ¬Obstacle kind ⟨t, true⟩ := by
    intro obstacle
    cases obstacle <;> cases hu
  rw [inside, Descriptor.Obstructed, obstructed_iff, obstructed_iff, or_iff_right asArm]
  refine or_congr ?_ (exists_congr fun part => and_congr_left fun _ => ⟨hasPart_arm, hasPart_arm⟩)
  constructor
  · intro obstacle
    cases obstacle with
    | emptyUnion _ empty => exact ⟨rfl, empty⟩
    | noMembers => cases hu
    | notScalar => cases hu
    | mixedKinds => cases hu
    | mappingKey => cases hu
  · rintro ⟨rfl, empty⟩
    exact .emptyUnion hu empty

end Obstructed

/-! ## Outcomes -/

section Outcomes

variable {α β : Type}

/-- What a result comes to: success, or the kind of the error. -/
def outcomeOf : Except EncodeError α → Except EncodeError.Kind Unit
  | .ok _ => .ok ()
  | .error e => .error e.kind

/-- What the encoding of a type comes to. -/
def Descriptor.outcome (t : Descriptor) : Except EncodeError.Kind Unit :=
  outcomeOf (encode t)

theorem outcomeOf_map (f : α → β) (result : Except EncodeError α) :
    outcomeOf (f <$> result) = outcomeOf result := by
  cases result <;> rfl

theorem outcomeOf_bind {first : Except EncodeError α} {next : α → Except EncodeError β}
    {rest : Except EncodeError.Kind Unit} (same : ∀ a, outcomeOf (next a) = rest) :
    outcomeOf (first >>= next) = outcomeOf first >>= fun _ => rest := by
  cases first with
  | error e => rfl
  | ok a => exact same a

theorem outcomeOf_mapM (f : α → Except EncodeError β) (xs : List α) :
    outcomeOf (xs.mapM f) = forM xs fun x => outcomeOf (f x) := by
  induction xs with
  | nil => rfl
  | cons x rest ih =>
    rw [List.mapM_cons]
    exact outcomeOf_bind fun y => (outcomeOf_map (y :: ·) (rest.mapM f)).trans ih

/-! ### The rules -/

theorem outcome_list (element : Descriptor) :
    (Descriptor.list element).outcome = element.outcome := by
  have mapped : encode (.list element) = Node.array <$> encode element := by
    rw [encode]
    rfl
  rw [Descriptor.outcome, mapped, outcomeOf_map, Descriptor.outcome]

theorem outcome_mapping (key value : Descriptor) :
    (Descriptor.mapping key value).outcome =
      if key.isKey then key.outcome >>= fun _ => value.outcome else .error .unsupportedType := by
  rw [Descriptor.outcome, encode]
  split
  · exact outcomeOf_bind fun k => outcomeOf_map (Node.mapping k) (encode value)
  · rfl

theorem outcome_record (name : String) (fields : List (Field Descriptor)) :
    (Descriptor.record name fields).outcome = forM fields fun f => f.type.outcome := by
  have properties : outcomeOf (encodeFields fields) = forM fields fun f => f.type.outcome := by
    induction fields with
    | nil =>
      rw [encodeFields]
      rfl
    | cons f rest ih =>
      obtain ⟨fieldName, type, default⟩ := f
      rw [encodeFields]
      exact outcomeOf_bind fun node => (outcomeOf_map _ (encodeFields rest)).trans ih
  have mapped : encode (.record name fields) =
      (fun properties => Node.record (Keyed.ofPairs properties) (Field.requiredNames fields)) <$>
        encodeFields fields := by
    rw [encode]
    rfl
  rw [Descriptor.outcome, mapped, outcomeOf_map, properties]

theorem outcome_union {t : Descriptor} (hu : t.isUnion = true) :
    t.outcome =
      if t.alternatives = [] then .error .unsupportedType
      else forM t.splitNull.1 Descriptor.outcome := by
  have arms := Descriptor.filter_alternatives hu
  rw [Descriptor.outcome, encode_union hu, arms]
  by_cases empty : t.alternatives = []
  · rw [if_pos (List.isEmpty_iff.2 empty), if_pos empty]
    rfl
  · rw [if_neg (mt List.isEmpty_iff.1 empty), if_neg empty]
    split
    · rename_i none
      rw [none]
      rfl
    · rename_i only alone
      rw [alone, List.forM_cons, Descriptor.outcome]
      cases encode only <;> rfl
    · rw [outcomeOf_map, outcomeOf_mapM, ← arms]
      refine (List.forM_filter fun m _ dropped => ?_).symm
      have null : m.isNone = true := by simpa using dropped
      rw [Descriptor.eq_none_of_isNone null, encode]
      rfl

end Outcomes

/-! ## Outcomes and obstacles -/

/-- Obstacles explain an outcome: one of the kind of the error is there, and none is there if there
is no error. -/
def ExplainedBy (there : EncodeError.Kind → Prop) : Except EncodeError.Kind Unit → Prop
  | .ok _ => ∀ kind, ¬there kind
  | .error kind => there kind

section Explained

variable {α : Type} {P Q : EncodeError.Kind → Prop} {outcome rest : Except EncodeError.Kind Unit}

theorem ExplainedBy.congr (explained : ExplainedBy P outcome) (same : ∀ kind, Q kind ↔ P kind) :
    ExplainedBy Q outcome := by
  cases outcome with
  | ok _ => exact fun kind => mt (same kind).1 (explained kind)
  | error kind => exact (same kind).2 explained

theorem ExplainedBy.bind (explained : ExplainedBy P outcome) (others : ExplainedBy Q rest) :
    ExplainedBy (fun kind => P kind ∨ Q kind) (outcome >>= fun _ => rest) := by
  cases outcome with
  | error kind => exact Or.inl explained
  | ok _ =>
    exact others.congr fun kind => or_iff_right (explained kind)

theorem explainedBy_forM {f : α → Except EncodeError.Kind Unit} {P : α → EncodeError.Kind → Prop}
    {xs : List α} (each : ∀ x ∈ xs, ExplainedBy (P x) (f x)) :
    ExplainedBy (fun kind => ∃ x ∈ xs, P x kind) (forM xs f) := by
  induction xs with
  | nil => exact fun kind => by simp
  | cons x rest ih =>
    have others := ih fun y member => each y (List.mem_cons_of_mem x member)
    exact ((each x List.mem_cons_self).bind others).congr fun kind =>
      List.exists_mem_cons_iff (fun y => P y kind) x rest

end Explained

/-! ### Enumerations -/

theorem memberKinds_eq_error {name : String} {members : List EnumMember} {known : List Primitive}
    {e : EncodeError} (failed : memberKinds name members known = .error e) :
    e.kind = .unsupportedType ∧ ∃ m ∈ members, Primitive.ofValue? m.value = none := by
  induction members generalizing known with
  | nil => cases failed
  | cons m rest ih =>
    rw [memberKinds] at failed
    split at failed
    · rename_i other
      cases failed
      exact ⟨rfl, m, List.mem_cons_self, other⟩
    · obtain ⟨kind, n, member, other⟩ := ih failed
      exact ⟨kind, n, List.mem_cons_of_mem m member, other⟩

/-- Kinds come once, and each from a member unless it was known. -/
theorem nodup_memberKinds {name : String} {members : List EnumMember} {known kinds : List Primitive}
    (found : memberKinds name members known = .ok kinds) (once : known.Nodup) :
    kinds.Nodup ∧
      ∀ k ∈ kinds, k ∈ known ∨ ∃ m ∈ members, Primitive.ofValue? m.value = some k := by
  induction members generalizing known with
  | nil =>
    cases found
    exact ⟨once, fun k member => .inl member⟩
  | cons m rest ih =>
    rw [memberKinds] at found
    split at found
    · cases found
    · rename_i kind ofKind
      have onceMore : (if kind ∈ known then known else known ++ [kind]).Nodup := by
        split
        · exact once
        · rename_i new
          exact List.nodup_append'.2 ⟨once, List.nodup_singleton kind, by simpa using new⟩
      obtain ⟨result, origin⟩ := ih found onceMore
      refine ⟨result, fun k member => ?_⟩
      rcases origin k member with here | ⟨n, there, ofN⟩
      · split at here
        · exact .inl here
        · rcases List.mem_append.1 here with old | new
          · exact .inl old
          · rw [List.mem_singleton.1 new]
            exact .inr ⟨m, List.mem_cons_self, ofKind⟩
      · exact .inr ⟨n, List.mem_cons_of_mem m there, ofN⟩

theorem explainedBy_enumeration (name : String) (members : List EnumMember) :
    ExplainedBy (fun kind => Obstacle kind ⟨.enumeration name members, false⟩)
      (Descriptor.enumeration name members).outcome := by
  rw [Descriptor.outcome, encode, encodeEnum]
  cases found : memberKinds name members [] with
  | error e =>
    obtain ⟨kind, m, member, other⟩ := memberKinds_eq_error found
    change Obstacle e.kind _
    rw [kind]
    exact .notScalar member other
  | ok kinds =>
    obtain ⟨once, origin⟩ := nodup_memberKinds found List.nodup_nil
    have known := (memberKinds_eq_ok found).2
    rcases kinds with _ | ⟨k, _ | ⟨l, others⟩⟩
    · cases members with
      | nil => exact .noMembers
      | cons m rest =>
        obtain ⟨k, member, _⟩ := known m List.mem_cons_self
        cases member
    · intro kind obstacle
      have ofKind : ∀ m ∈ members, Primitive.ofValue? m.value = some k := by
        intro m member
        obtain ⟨k', inside, ofM⟩ := known m member
        rw [ofM, List.mem_singleton.1 inside]
      cases obstacle with
      | emptyUnion hu => cases hu
      | noMembers => cases found
      | notScalar member other => cases other.symm.trans (ofKind _ member)
      | mixedKinds first second ofFirst ofSecond differ =>
        cases ofFirst.symm.trans (ofKind _ first)
        cases ofSecond.symm.trans (ofKind _ second)
        exact differ rfl
    · have fromMember : ∀ k' ∈ k :: l :: others,
          ∃ m ∈ members, Primitive.ofValue? m.value = some k' := by
        intro k' member
        exact (origin k' member).resolve_left List.not_mem_nil
      obtain ⟨m, first, ofFirst⟩ := fromMember k List.mem_cons_self
      obtain ⟨n, second, ofSecond⟩ := fromMember l (List.mem_cons_of_mem k List.mem_cons_self)
      have differ : k ≠ l := by
        rintro rfl
        exact (List.nodup_cons.1 once).1 List.mem_cons_self
      exact .mixedKinds first second ofFirst ofSecond differ

/-! ### All types -/

/-- What occurs in a type explains the outcome of its encoding. -/
theorem explainedBy_outcome (t : Descriptor) :
    ExplainedBy (fun kind => t.Obstructed kind) t.outcome := by
  induction t using Descriptor.leafInduction with
  | list element ih =>
    rw [outcome_list]
    exact ih.congr fun kind => obstructed_list
  | mapping key value ihk ihv =>
    rw [outcome_mapping]
    split
    · rename_i isKey
      -- The key comes first: its error hides one of the value, but not that there is one.
      refine (ihk.bind ihv).congr fun kind => ?_
      rw [obstructed_mapping, isKey, or_iff_right]
      exact fun notKey => nomatch notKey.2
    · rename_i notKey
      exact obstructed_mapping.2 (.inl ⟨rfl, eq_false_of_ne_true notKey⟩)
  | record name fields ih =>
    rw [outcome_record]
    exact (explainedBy_forM ih).congr fun kind => obstructed_record
  | enumeration name members =>
    exact (explainedBy_enumeration name members).congr fun kind => obstructed_enumeration
  | union t hu ih =>
    rw [outcome_union hu]
    split
    · rename_i empty
      exact (obstructed_union hu).2 (.inl ⟨rfl, empty⟩)
    · rename_i inhabited
      have arms := explainedBy_forM fun m member =>
        ih m (Descriptor.mem_leaves_of_mem_splitNull t member)
      refine arms.congr fun kind => ?_
      rw [obstructed_union hu, or_iff_right]
      exact fun given => inhabited given.2
  | _ =>
    rw [Descriptor.outcome, encode]
    exact fun kind => not_obstructed_of_isBasic trivial

/-! ## Names, labels and defaults -/

namespace Descriptor

/-- A type without names, labels and defaults. -/
def blank : Descriptor → Descriptor :=
  rewrite {
    recordName := fun _ => ""
    fields := List.map fun f => { name := "", type := f.type }
    enumName := fun _ => ""
    members := List.map fun m => { label := "", value := m.value } }

theorem blank_record (name : String) (fields : List (Field Descriptor)) :
    blank (.record name fields) =
      .record "" (fields.map fun f => { name := "", type := f.type.blank }) := by
  rw [blank, rewrite_record]
  exact congrArg (record "") List.map_map

theorem respectsUnions_blank : RespectsUnions blank :=
  respectsUnions_rewrite _

end Descriptor

theorem memberKinds_blank (name : String) (members : List EnumMember) (known : List Primitive) :
    (memberKinds "" (members.map fun m => { label := "", value := m.value }) known).mapError
        EncodeError.kind =
      (memberKinds name members known).mapError EncodeError.kind := by
  induction members generalizing known with
  | nil => rfl
  | cons m rest ih =>
    rw [List.map_cons, memberKinds, memberKinds]
    cases Primitive.ofValue? m.value with
    | none => rfl
    | some kind => exact ih _

theorem outcome_enumeration_blank (name : String) (members : List EnumMember) :
    (Descriptor.enumeration name members).blank.outcome =
      (Descriptor.enumeration name members).outcome := by
  have same := memberKinds_blank name members []
  change (Descriptor.enumeration "" _).outcome = _
  rw [Descriptor.outcome, Descriptor.outcome, encode, encode, encodeEnum, encodeEnum]
  revert same
  generalize memberKinds "" _ [] = first
  generalize memberKinds name members [] = second
  intro same
  cases first with
  | error e =>
    cases second with
    | error e' => exact congrArg Except.error (Except.error.inj same)
    | ok kinds => cases same
  | ok kinds =>
    cases second with
    | error e' => cases same
    | ok kinds' =>
      cases same
      rcases kinds with _ | ⟨k, _ | ⟨l, rest⟩⟩
      · rfl
      · rfl
      · rfl

/-- What encoding comes to has nothing to do with names, labels and defaults. -/
theorem outcome_blank (t : Descriptor) : t.blank.outcome = t.outcome := by
  induction t using Descriptor.leafInduction with
  | list element ih =>
    change (Descriptor.list element.blank).outcome = _
    rw [outcome_list, outcome_list, ih]
  | mapping key value ihk ihv =>
    have sameKey : key.blank.isKey = key.isKey := isKey_rewrite _ key
    change (Descriptor.mapping key.blank value.blank).outcome = _
    rw [outcome_mapping, outcome_mapping, sameKey, ihk, ihv]
  | record name fields ih =>
    rw [Descriptor.blank_record, outcome_record, outcome_record, List.forM_map]
    exact List.forM_congr_of_mem ih
  | enumeration name members => exact outcome_enumeration_blank name members
  | union t hu ih =>
    have respects := Descriptor.respectsUnions_blank
    have hu' : t.blank.isUnion = true := by rw [respects.isUnion, hu]
    rw [outcome_union hu, outcome_union hu', respects.alternatives_map, respects.splitNull_map,
      List.forM_map]
    simp only [List.map_eq_nil_iff]
    have arms := List.forM_congr_of_mem fun m member =>
      ih m (Descriptor.mem_leaves_of_mem_splitNull t member)
    rw [arms]
  | _ => rfl

/-- A type has a node exactly if nothing in it stands in the way. An error is about inconsistent
members only if some enumeration mixes kinds, and about an unsupported type if none does. Types that
differ in names, labels and defaults only come to the same. -/
theorem encode_outcome (t : Descriptor) :
    ((∃ s, encode t = .ok s) ↔ ∀ kind, ¬t.Obstructed kind) ∧
      (∀ e, encode t = .error e →
        (e.kind = .inconsistentEnumType → t.Obstructed .inconsistentEnumType) ∧
          (¬t.Obstructed .inconsistentEnumType → e.kind = .unsupportedType)) ∧
      ∀ u : Descriptor, u.blank = t.blank → u.outcome = t.outcome := by
  have explained := explainedBy_outcome t
  refine ⟨?_, fun e failed => ?_, fun u same => ?_⟩
  · rw [Descriptor.outcome] at explained
    cases result : encode t with
    | ok s =>
      rw [result] at explained
      exact iff_of_true ⟨s, rfl⟩ explained
    | error e =>
      rw [result] at explained
      exact iff_of_false (fun success => nomatch success) fun free => free _ explained
  · rw [Descriptor.outcome, failed] at explained
    refine ⟨fun kind => kind ▸ explained, fun free => ?_⟩
    cases kind : e.kind with
    | unsupportedType => rfl
    | inconsistentEnumType => exact absurd (kind ▸ explained) free
  · rw [← outcome_blank u, same, outcome_blank]

end CallContract
