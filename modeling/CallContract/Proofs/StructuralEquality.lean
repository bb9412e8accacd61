import CallContract.Descriptor.Equality
import CallContract.Proofs.Records

/-!
# Structural equality, rule by rule

* `Descriptor.structurallyEqual_union`: where one side is a union, both are compared alternative by
  alternative; `Descriptor.structurallyEqual_record` compares records field by field.
* `Descriptor.structurallyEqual_of_unnamed_eq`: types that differ in names and labels only are
  structurally equal.
* `Descriptor.alikeInduction` is the induction over two structurally equal types.
-/

namespace CallContract

theorem pairwiseAll_iff {α β : Type} {p : α → β → Bool} {as : List α} {bs : List β} :
    pairwiseAll p as bs = true ↔ List.Forall₂ (fun a b => p a b = true) as bs := by
  induction as generalizing bs with
  | nil => cases bs <;> simp [pairwiseAll]
  | cons a as ih =>
    cases bs with
    | nil => simp [pairwiseAll]
    | cons b bs => rw [pairwiseAll, Bool.and_eq_true, ih, List.forall₂_cons]

/-- Two lists of one length, tested pair by pair. -/
theorem all_zip_attach_iff {α β : Type} {p : α → β → Bool} {as : List α} {bs : List β} :
    (as.length == bs.length &&
      (as.attach.zip bs.attach).all fun pair => p pair.1.val pair.2.val) = true ↔
      List.Forall₂ (fun a b => p a b = true) as bs := by
  have detached : ((as.attach.zip bs.attach).all fun pair => p pair.1.val pair.2.val) =
      (as.zip bs).all fun pair => p pair.1 pair.2 := by
    have values : (as.attach.zip bs.attach).map (Prod.map Subtype.val Subtype.val) = as.zip bs := by
      rw [← List.zip_map, List.attach_map_subtype_val, List.attach_map_subtype_val]
    rw [← values, List.all_map]
    rfl
  rw [detached, Bool.and_eq_true, beq_iff_eq, List.forall₂_iff_zip, List.all_eq_true]
  refine and_congr_right fun _ => ⟨?_, ?_⟩
  · exact fun all _ _ member => all _ member
  · exact fun all _ member => all member

namespace Descriptor

theorem structurallyEqual_union {a b : Descriptor} (hu : a.isUnion = true ∨ b.isUnion = true) :
    structurallyEqual a b = true ↔
      a.splitNull.2 = b.splitNull.2 ∧
        List.Forall₂ (fun x y => structurallyEqual x y = true) a.splitNull.1 b.splitNull.1 := by
  rw [structurallyEqual, dif_pos hu, Bool.and_assoc, Bool.and_eq_true, beq_iff_eq,
    ← all_zip_attach_iff]

theorem structurallyEqual_list {a b : Descriptor} :
    structurallyEqual (.list a) (.list b) = structurallyEqual a b := by
  rw [structurallyEqual, dif_neg (by simp [isUnion])]

theorem structurallyEqual_mapping {k l a b : Descriptor} :
    structurallyEqual (.mapping k a) (.mapping l b) =
      (structurallyEqual k l && structurallyEqual a b) := by
  rw [structurallyEqual, dif_neg (by simp [isUnion])]

theorem structurallyEqual_record {n m : String} {fs gs : List (Field Descriptor)} :
    structurallyEqual (.record n fs) (.record m gs) = true ↔
      List.Forall₂ (fun f g => f.name = g.name ∧ Json.equal? f.default g.default = true ∧
        structurallyEqual f.type g.type = true) fs gs := by
  rw [structurallyEqual, dif_neg (by simp [isUnion])]
  dsimp only
  rw [all_zip_attach_iff (p := fun f g : Field Descriptor => f.name == g.name &&
    Json.equal? f.default g.default && structurallyEqual f.type g.type)]
  simp only [Bool.and_eq_true, beq_iff_eq, and_assoc]

theorem structurallyEqual_enumeration {n m : String} {as bs : List EnumMember} :
    structurallyEqual (.enumeration n as) (.enumeration m bs) = true ↔
      List.Forall₂ (fun a b => a.value.equal b.value = true) as bs := by
  rw [structurallyEqual, dif_neg (by simp [isUnion])]
  exact pairwiseAll_iff

/-- Types that differ in names and labels only are structurally equal. -/
theorem structurallyEqual_of_unnamed_eq {a : Descriptor} :
    ∀ {b : Descriptor}, a.unnamed = b.unnamed → structurallyEqual a b = true := by
  induction a using leafInduction with
  | union a hu ih =>
    intro b same
    have split := congrArg splitNull same
    rw [respectsUnions_unnamed.splitNull_map, respectsUnions_unnamed.splitNull_map,
      Prod.mk.injEq] at split
    refine (structurallyEqual_union (Or.inl hu)).2 ⟨split.2, ?_⟩
    have alike := List.map_eq_map_iff_forall₂.1 split.1
    exact alike.imp_of_mem fun m member _ _ eq => ih m (mem_leaves_of_mem_splitNull a member) eq
  | list element ih =>
    intro b same
    cases b with
    | list other =>
      rw [structurallyEqual_list]
      exact ih (list.inj same)
    | _ => cases same
  | mapping key value ihk ihv =>
    intro b same
    cases b with
    | mapping key' value' =>
      obtain ⟨keys, values⟩ := mapping.inj same
      rw [structurallyEqual_mapping, ihk keys, ihv values]
      rfl
    | _ => cases same
  | record name fields ih =>
    intro b same
    cases b with
    | record name' fields' =>
      rw [unnamed_record, unnamed_record] at same
      have alike := List.map_eq_map_iff_forall₂.1 (record.inj same).2
      refine structurallyEqual_record.2 (alike.imp_of_mem fun f member g _ eq => ?_)
      obtain ⟨names, types, defaults⟩ := Field.mk.inj eq
      refine ⟨names, ?_, ih f member types⟩
      rw [defaults]
      cases g.default <;> simp [Json.equal?]
    | _ => cases same
  | enumeration name members =>
    intro b same
    cases b with
    | enumeration name' members' =>
      rw [unnamed_enumeration, unnamed_enumeration] at same
      have alike := List.map_eq_map_iff_forall₂.1 (enumeration.inj same).2
      refine structurallyEqual_enumeration.2 (alike.imp fun m m' eq => ?_)
      rw [(EnumMember.mk.inj eq).2]
      exact Json.equal_refl _
    | _ => cases same
  | primitive kind =>
    intro b same
    cases b with
    | primitive kind' =>
      rw [primitive.inj same, structurallyEqual, dif_neg (by simp [isUnion])]
      simp
    | _ => cases same
  | none =>
    intro b same
    cases b with
    | none => rw [structurallyEqual, dif_neg (by simp [isUnion])]
    | _ => cases same
  | any =>
    intro b same
    cases b with
    | any => rw [structurallyEqual, dif_neg (by simp [isUnion])]
    | _ => cases same
  | path =>
    intro b same
    cases b with
    | path => rw [structurallyEqual, dif_neg (by simp [isUnion])]
    | _ => cases same
  | fileData =>
    intro b same
    cases b with
    | fileData => rw [structurallyEqual, dif_neg (by simp [isUnion])]
    | _ => cases same

/-! ## Induction over equal types -/

/-- What structural equality of two types comes from: each form is compared part by part, and where
one of the two is a union, alternative by alternative. -/
inductive AlikeRule : Descriptor → Descriptor → Prop
  | union {a b : Descriptor} (hu : a.isUnion = true ∨ b.isUnion = true)
      (null : a.splitNull.2 = b.splitNull.2)
      (arms : List.Forall₂ (fun x y => structurallyEqual x y = true) a.splitNull.1 b.splitNull.1) :
      AlikeRule a b
  | primitive (kind : Primitive) : AlikeRule (.primitive kind) (.primitive kind)
  | none : AlikeRule .none .none
  | any : AlikeRule .any .any
  | path : AlikeRule .path .path
  | fileData : AlikeRule .fileData .fileData
  | list {a b : Descriptor} (element : structurallyEqual a b = true) :
      AlikeRule (.list a) (.list b)
  | mapping {k l a b : Descriptor} (key : structurallyEqual k l = true)
      (value : structurallyEqual a b = true) : AlikeRule (.mapping k a) (.mapping l b)
  | record {n m : String} {fs gs : List (Field Descriptor)}
      (fields : List.Forall₂ (fun f g : Field Descriptor => f.name = g.name ∧
        Json.equal? f.default g.default = true ∧ structurallyEqual f.type g.type = true) fs gs) :
      AlikeRule (.record n fs) (.record m gs)
  | enumeration {n m : String} {as bs : List EnumMember}
      (values : List.Forall₂ (fun a b : EnumMember => a.value.equal b.value = true) as bs) :
      AlikeRule (.enumeration n as) (.enumeration m bs)

theorem alikeRule_of_structurallyEqual {a b : Descriptor} (alike : structurallyEqual a b = true) :
    AlikeRule a b := by
  by_cases hu : a.isUnion = true ∨ b.isUnion = true
  · obtain ⟨null, arms⟩ := (structurallyEqual_union hu).1 alike
    exact .union hu null arms
  · cases a with
    | list x =>
      cases b with
      | list y =>
        rw [structurallyEqual_list] at alike
        exact .list alike
      | _ => rw [structurallyEqual, dif_neg hu] at alike; cases alike
    | mapping k x =>
      cases b with
      | mapping l y =>
        rw [structurallyEqual_mapping, Bool.and_eq_true] at alike
        exact .mapping alike.1 alike.2
      | _ => rw [structurallyEqual, dif_neg hu] at alike; cases alike
    | record n fs =>
      cases b with
      | record m gs => exact .record (structurallyEqual_record.1 alike)
      | _ => rw [structurallyEqual, dif_neg hu] at alike; cases alike
    | enumeration n as =>
      cases b with
      | enumeration m bs => exact .enumeration (structurallyEqual_enumeration.1 alike)
      | _ => rw [structurallyEqual, dif_neg hu] at alike; cases alike
    | primitive kind =>
      cases b with
      | primitive other =>
        rw [structurallyEqual, dif_neg hu] at alike
        cases of_decide_eq_true alike
        exact .primitive kind
      | _ => rw [structurallyEqual, dif_neg hu] at alike; cases alike
    | none =>
      cases b with
      | none => exact .none
      | _ => rw [structurallyEqual, dif_neg hu] at alike; cases alike
    | any =>
      cases b with
      | any => exact .any
      | _ => rw [structurallyEqual, dif_neg hu] at alike; cases alike
    | path =>
      cases b with
      | path => exact .path
      | _ => rw [structurallyEqual, dif_neg hu] at alike; cases alike
    | fileData =>
      cases b with
      | fileData => exact .fileData
      | _ => rw [structurallyEqual, dif_neg hu] at alike; cases alike
    | optional inner => exact absurd (Or.inl rfl) hu
    | union members => exact absurd (Or.inl rfl) hu

/-- Induction over two structurally equal types. What holds of two types if it holds of their parts
holds of all; of two types of which one is a union the parts are the alternatives without null. -/
@[elab_as_elim]
theorem alikeInduction {motive : Descriptor → Descriptor → Prop}
    (primitive : ∀ kind, motive (.primitive kind) (.primitive kind))
    (none : motive .none .none)
    (any : motive .any .any)
    (path : motive .path .path)
    (fileData : motive .fileData .fileData)
    (enumeration : ∀ n m as bs,
      List.Forall₂ (fun a b : EnumMember => a.value.equal b.value = true) as bs →
      motive (.enumeration n as) (.enumeration m bs))
    (list : ∀ a b, motive a b → motive (.list a) (.list b))
    (mapping : ∀ k l a b, structurallyEqual k l = true → motive k l → motive a b →
      motive (.mapping k a) (.mapping l b))
    (record : ∀ n m fs gs,
      List.Forall₂ (fun f g : Field Descriptor => f.name = g.name ∧
        Json.equal? f.default g.default = true ∧ motive f.type g.type) fs gs →
      motive (.record n fs) (.record m gs))
    (union : ∀ a b : Descriptor, a.isUnion = true ∨ b.isUnion = true →
      a.splitNull.2 = b.splitNull.2 → List.Forall₂ motive a.splitNull.1 b.splitNull.1 →
      motive a b)
    {a b : Descriptor} (alike : structurallyEqual a b = true) : motive a b := by
  induction size : sizeOf a + sizeOf b using Nat.strongRecOn generalizing a b with
  | _ n ih =>
    subst size
    have step : ∀ {x y : Descriptor}, sizeOf x + sizeOf y < sizeOf a + sizeOf b →
        structurallyEqual x y = true → motive x y :=
      fun smaller same => ih _ smaller same rfl
    cases alikeRule_of_structurallyEqual alike with
    | union hu null arms =>
      refine union a b hu null (arms.imp_of_mem fun x hx y hy same => step ?_ same)
      have left := sizeOf_le_of_mem_leaves a (mem_leaves_of_mem_splitNull a hx)
      have right := sizeOf_le_of_mem_leaves b (mem_leaves_of_mem_splitNull b hy)
      rcases hu with hu | hu
      · have := sizeOf_lt_of_mem_splitNull hu hx
        omega
      · have := sizeOf_lt_of_mem_splitNull hu hy
        omega
    | list element => exact list _ _ (step (by simp; omega) element)
    | mapping key value =>
      exact mapping _ _ _ _ key (step (by simp; omega) key) (step (by simp; omega) value)
    | record fields =>
      refine record _ _ _ _ (fields.imp_of_mem fun f hf g hg same => ?_)
      have left := sizeOf_lt_of_mem_fields hf
      have right := sizeOf_lt_of_mem_fields hg
      exact ⟨same.1, same.2.1, step (by simp; omega) same.2.2⟩
    | enumeration values => exact enumeration _ _ _ _ values
    | primitive kind => exact primitive kind
    | none => exact none
    | any => exact any
    | path => exact path
    | fileData => exact fileData

end Descriptor

end CallContract
