import CallContract.Proofs.EqualValues
import CallContract.Proofs.StructuralEquality

/-!
# What structural equality sees

* `Skeleton` has no names, no labels and no nested unions: of a type it keeps the alternatives
  besides null, each told by the skeletons of its own parts, and whether null is one of them.
* `Descriptor.skeleton` is built from the parts of a type as they are written;
  `Descriptor.skeleton_eq_iff` compares two skeletons alternative by alternative.
* `structurallyEqual_equivalence`: types are structurally equal if they have one skeleton, so
  structural equality is an equivalence, however unions are nested.
-/

namespace CallContract

/-! ## Skeletons -/

mutual
/-- What structural equality sees of a type: its alternatives besides null, and whether null is one
of them. A type that is no union is its only alternative, also if it is null. -/
@[ext]
structure Skeleton where
  hasNull : Bool
  arms : List Skeleton.Arm

/-- What structural equality sees of an alternative. -/
inductive Skeleton.Arm where
  | primitive (kind : Primitive)
  | none
  | any
  | path
  | fileData
  | list (element : Skeleton)
  | mapping (key value : Skeleton)
  | record (fields : List (Field Skeleton))
  | enumeration (values : List Json)
end

namespace Skeleton

/-- Whether an alternative is null. -/
def Arm.isNone : Arm → Bool
  | .none => true
  | _ => false

/-- The skeleton of a type that is no union. -/
def single (arm : Arm) : Skeleton :=
  ⟨false, [arm]⟩

/-- What becomes of the skeleton of a type in a union: null is set apart, also if it is the type. -/
def inUnion (s : Skeleton) : Skeleton :=
  ⟨s.hasNull || s.arms.any Arm.isNone, s.arms.filter fun arm => !arm.isNone⟩

theorem single_injective : Function.Injective single := by
  intro arm arm' same
  cases same
  rfl

end Skeleton

namespace Descriptor

mutual
/-- The skeleton of a type. Values stand in it in their canonical form. -/
def skeleton : Descriptor → Skeleton
  | .optional inner => { (skeleton inner).inUnion with hasNull := true }
  | .union members => skeletonOfAll members
  | .primitive kind => .single (.primitive kind)
  | .none => .single .none
  | .any => .single .any
  | .path => .single .path
  | .fileData => .single .fileData
  | .list element => .single (.list (skeleton element))
  | .mapping key value => .single (.mapping (skeleton key) (skeleton value))
  | .record _ fields => .single (.record (skeletonsOfFields fields))
  | .enumeration _ members => .single (.enumeration (members.map fun m => m.value.canonical))

/-- The skeleton of a union with the given members. -/
def skeletonOfAll : List Descriptor → Skeleton
  | [] => ⟨false, []⟩
  | member :: rest =>
    let first := (skeleton member).inUnion
    let others := skeletonOfAll rest
    ⟨first.hasNull || others.hasNull, first.arms ++ others.arms⟩

/-- The fields of a record with skeletons for types. -/
def skeletonsOfFields : List (Field Descriptor) → List (Field Skeleton)
  | [] => []
  | ⟨name, type, default⟩ :: rest =>
    { name := name, type := skeleton type, default := default.map Json.canonical } ::
      skeletonsOfFields rest
end

/-- A field with a skeleton for a type. -/
def fieldSkeleton (f : Field Descriptor) : Field Skeleton :=
  { name := f.name, type := f.type.skeleton, default := f.default.map Json.canonical }

theorem skeletonsOfFields_eq_map (fields : List (Field Descriptor)) :
    skeletonsOfFields fields = fields.map fieldSkeleton := by
  induction fields with
  | nil => rfl
  | cons f rest ih => rw [skeletonsOfFields, List.map_cons, ih, fieldSkeleton]

/-! ## Alternatives -/

/-- Types and the arms that are all there is of their skeletons. -/
def AreArmsOf (arms : List Skeleton.Arm) (ts : List Descriptor) : Prop :=
  List.Forall₂ (fun t arm => t.skeleton = .single arm) ts arms

theorem isNone_of_skeleton_eq {t : Descriptor} (notUnion : t.isUnion = false) {arm : Skeleton.Arm}
    (alone : t.skeleton = .single arm) : t.isNone = arm.isNone := by
  cases t with
  | optional inner => cases notUnion
  | union members => cases notUnion
  | _ =>
    cases alone
    rfl

theorem areArmsOf_inUnion {t : Descriptor} (arms : AreArmsOf t.skeleton.arms t.splitNull.1) :
    AreArmsOf t.skeleton.inUnion.arms (t.splitNull.1.filter fun m => !m.isNone) :=
  arms.filter fun _ member _ alone => by
    rw [isNone_of_skeleton_eq (isUnion_of_mem_splitNull member) alone]

mutual
theorem areArmsOf_skeleton : (t : Descriptor) → AreArmsOf t.skeleton.arms t.splitNull.1
  | .optional inner => areArmsOf_inUnion (areArmsOf_skeleton inner)
  | .union members => areArmsOf_skeletonOfAll members
  | .primitive _ | .none | .any | .list _ | .mapping _ _ | .record _ _ | .enumeration _ _
  | .path | .fileData => .cons rfl .nil

theorem areArmsOf_skeletonOfAll : (ts : List Descriptor) →
    AreArmsOf (skeletonOfAll ts).arms (splitNullOfAll ts).1
  | [] => .nil
  | t :: rest =>
    List.rel_append (areArmsOf_inUnion (areArmsOf_skeleton t)) (areArmsOf_skeletonOfAll rest)
end

theorem any_isNone_splitNull (t : Descriptor) : t.splitNull.1.any isNone = t.isNone := by
  cases hu : t.isUnion with
  | false => rw [splitNull_of_not_isUnion hu, List.any_cons, List.any_nil, Bool.or_false]
  | true =>
    rw [(areArms_splitNull hu).any]
    cases t with
    | optional inner => rfl
    | union members => rfl
    | _ => cases hu

theorem any_isNone_arms (t : Descriptor) : t.skeleton.arms.any Skeleton.Arm.isNone = t.isNone := by
  rw [← any_isNone_splitNull]
  exact ((areArmsOf_skeleton t).any_eq fun _ member _ alone =>
    isNone_of_skeleton_eq (isUnion_of_mem_splitNull member) alone).symm

mutual
theorem hasNull_skeleton : (t : Descriptor) → t.skeleton.hasNull = t.splitNull.2
  | .union members => hasNull_skeletonOfAll members
  | .optional _ | .primitive _ | .none | .any | .list _ | .mapping _ _ | .record _ _
  | .enumeration _ _ | .path | .fileData => rfl

theorem hasNull_skeletonOfAll : (ts : List Descriptor) →
    (skeletonOfAll ts).hasNull = (splitNullOfAll ts).2
  | [] => rfl
  | t :: rest => by
    rw [skeletonOfAll, splitNullOfAll, Skeleton.inUnion, any_isNone_arms, hasNull_skeleton t,
      hasNull_skeletonOfAll rest]
end

/-- Two types have one skeleton if both or neither have null, and their other alternatives have one
skeleton pair by pair. Either type may be a union or not. -/
theorem skeleton_eq_iff {a b : Descriptor} :
    a.skeleton = b.skeleton ↔
      a.splitNull.2 = b.splitNull.2 ∧
        List.Forall₂ (fun x y => x.skeleton = y.skeleton) a.splitNull.1 b.splitNull.1 := by
  have left : a.splitNull.1.map skeleton = a.skeleton.arms.map .single :=
    List.map_eq_map_iff_forall₂.2 (areArmsOf_skeleton a)
  have right : b.splitNull.1.map skeleton = b.skeleton.arms.map .single :=
    List.map_eq_map_iff_forall₂.2 (areArmsOf_skeleton b)
  rw [← List.map_eq_map_iff_forall₂, left, right,
    (List.map_injective_iff.2 Skeleton.single_injective).eq_iff, ← hasNull_skeleton,
    ← hasNull_skeleton]
  exact Skeleton.ext_iff

/-! ## Types that are no unions -/

theorem skeleton_list_eq_iff {a b : Descriptor} :
    (list a).skeleton = (list b).skeleton ↔ a.skeleton = b.skeleton := by
  rw [skeleton, skeleton, Skeleton.single_injective.eq_iff, Skeleton.Arm.list.injEq]

theorem skeleton_mapping_eq_iff {k l a b : Descriptor} :
    (mapping k a).skeleton = (mapping l b).skeleton ↔
      k.skeleton = l.skeleton ∧ a.skeleton = b.skeleton := by
  rw [skeleton, skeleton, Skeleton.single_injective.eq_iff, Skeleton.Arm.mapping.injEq]

theorem fieldSkeleton_eq_iff {f g : Field Descriptor} :
    fieldSkeleton f = fieldSkeleton g ↔
      f.name = g.name ∧ Json.equal? f.default g.default = true ∧
        f.type.skeleton = g.type.skeleton := by
  rw [fieldSkeleton, fieldSkeleton, Field.mk.injEq, Json.equal?_iff, Json.bothEqual_iff]
  exact and_congr_right fun _ => and_comm

theorem skeleton_record_eq_iff {n m : String} {fs gs : List (Field Descriptor)} :
    (record n fs).skeleton = (record m gs).skeleton ↔
      List.Forall₂ (fun f g : Field Descriptor => f.name = g.name ∧
        Json.equal? f.default g.default = true ∧ f.type.skeleton = g.type.skeleton) fs gs := by
  rw [skeleton, skeleton, Skeleton.single_injective.eq_iff, Skeleton.Arm.record.injEq,
    skeletonsOfFields_eq_map, skeletonsOfFields_eq_map, List.map_eq_map_iff_forall₂]
  simp only [fieldSkeleton_eq_iff]

theorem skeleton_enumeration_eq_iff {n m : String} {as bs : List EnumMember} :
    (enumeration n as).skeleton = (enumeration m bs).skeleton ↔
      List.Forall₂ (fun a b => a.value.equal b.value = true) as bs := by
  rw [skeleton, skeleton, Skeleton.single_injective.eq_iff, Skeleton.Arm.enumeration.injEq,
    List.map_eq_map_iff_forall₂]
  simp only [Json.equal_iff]

/-! ## Structural equality -/

/-- Structurally equal types have one skeleton. -/
theorem skeleton_eq_of_structurallyEqual {a b : Descriptor} (alike : structurallyEqual a b = true) :
    a.skeleton = b.skeleton :=
  alikeInduction (motive := fun a b => a.skeleton = b.skeleton) (fun _ => rfl) rfl rfl rfl rfl
    (fun _ _ _ _ => skeleton_enumeration_eq_iff.2) (fun _ _ => skeleton_list_eq_iff.2)
    (fun _ _ _ _ _ keys values => skeleton_mapping_eq_iff.2 ⟨keys, values⟩)
    (fun _ _ _ _ => skeleton_record_eq_iff.2)
    (fun _ _ _ null arms => skeleton_eq_iff.2 ⟨null, arms⟩) alike

/-- A type that is no union is structurally equal to all types of its skeleton if it is to those of
them that are no unions: a union of that skeleton has one alternative, and no null. -/
theorem structurallyEqual_of_notUnion {a b : Descriptor} (notUnion : a.isUnion = false)
    (same : a.skeleton = b.skeleton)
    (rule : ∀ c : Descriptor, c.isUnion = false → a.skeleton = c.skeleton →
      structurallyEqual a c = true) : structurallyEqual a b = true := by
  cases hu : b.isUnion with
  | false => exact rule b hu same
  | true =>
    obtain ⟨null, arms⟩ := skeleton_eq_iff.1 same
    refine (structurallyEqual_union (Or.inr hu)).2 ⟨null, ?_⟩
    rw [splitNull_of_not_isUnion notUnion] at arms ⊢
    refine arms.imp_of_mem fun x itself y member eq => ?_
    rw [List.mem_singleton.1 itself] at eq ⊢
    exact rule y (isUnion_of_mem_splitNull member) eq

/-- Types of one skeleton are structurally equal. -/
theorem structurallyEqual_of_skeleton_eq {a : Descriptor} :
    ∀ {b : Descriptor}, a.skeleton = b.skeleton → structurallyEqual a b = true := by
  -- The induction is on the left type. Where only the right type is a union, the comparison goes on
  -- with its one alternative, and behind that step both types have the same form.
  induction a using leafInduction with
  | union a hu ih =>
    intro b same
    obtain ⟨null, arms⟩ := skeleton_eq_iff.1 same
    refine (structurallyEqual_union (Or.inl hu)).2 ⟨null, ?_⟩
    exact arms.imp_of_mem fun m member _ _ eq => ih m (mem_leaves_of_mem_splitNull a member) eq
  | list element ih =>
    intro b same
    refine structurallyEqual_of_notUnion rfl same fun c notUnion same => ?_
    cases c with
    | list other =>
      rw [structurallyEqual_list]
      exact ih (skeleton_list_eq_iff.1 same)
    | optional | union => cases notUnion
    | _ => cases same
  | mapping key value ihk ihv =>
    intro b same
    refine structurallyEqual_of_notUnion rfl same fun c notUnion same => ?_
    cases c with
    | mapping key' value' =>
      obtain ⟨keys, values⟩ := skeleton_mapping_eq_iff.1 same
      rw [structurallyEqual_mapping, ihk keys, ihv values]
      rfl
    | optional | union => cases notUnion
    | _ => cases same
  | record name fields ih =>
    intro b same
    refine structurallyEqual_of_notUnion rfl same fun c notUnion same => ?_
    cases c with
    | record name' fields' =>
      have alike := skeleton_record_eq_iff.1 same
      refine structurallyEqual_record.2 (alike.imp_of_mem fun f member g _ eq => ?_)
      exact ⟨eq.1, eq.2.1, ih f member eq.2.2⟩
    | optional | union => cases notUnion
    | _ => cases same
  | enumeration name members =>
    intro b same
    refine structurallyEqual_of_notUnion rfl same fun c notUnion same => ?_
    cases c with
    | enumeration name' members' =>
      exact structurallyEqual_enumeration.2 (skeleton_enumeration_eq_iff.1 same)
    | optional | union => cases notUnion
    | _ => cases same
  | primitive | none | any | path | fileData =>
    intro b same
    refine structurallyEqual_of_notUnion rfl same fun c notUnion same => ?_
    cases c with
    | optional | union => cases notUnion
    | _ => cases same <;> exact structurallyEqual_of_unnamed_eq rfl

/-- The skeleton is all that structural equality sees of a type. -/
theorem structurallyEqual_iff_skeleton_eq {a b : Descriptor} :
    structurallyEqual a b = true ↔ a.skeleton = b.skeleton :=
  ⟨skeleton_eq_of_structurallyEqual, structurallyEqual_of_skeleton_eq⟩

example : (union [.string, .union [.none, .integer]]).skeleton =
    (optional (.union [.union [.string], .optional .integer])).skeleton := rfl

example : (union [.none]).skeleton = (optional (.union [])).skeleton := rfl

end Descriptor

/-- Structural equality is an equivalence on all types, however their unions are nested and also
where these are empty or have null alone: it is to have one skeleton. Defaults and the values of
members are compared as JSON values. -/
theorem structurallyEqual_equivalence :
    Equivalence (fun a b : Descriptor => a.structurallyEqual b = true) ∧
      ∀ a b : Descriptor, a.structurallyEqual b = true ↔ a.skeleton = b.skeleton := by
  refine ⟨⟨?_, ?_, ?_⟩, fun a b => Descriptor.structurallyEqual_iff_skeleton_eq⟩
  · intro a
    exact Descriptor.structurallyEqual_iff_skeleton_eq.2 rfl
  · intro a b alike
    rw [Descriptor.structurallyEqual_iff_skeleton_eq] at alike ⊢
    exact alike.symm
  · intro a b c alike alike'
    rw [Descriptor.structurallyEqual_iff_skeleton_eq] at alike alike' ⊢
    exact alike.trans alike'

end CallContract
