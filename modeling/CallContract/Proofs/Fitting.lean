import CallContract.Proofs.Normal
import CallContract.Proofs.Validation

/-!
# Which payloads fit a type

* `Descriptor.Fits`: a payload has a value of the type. `Descriptor.fits_list` and its neighbours
  are its rules, type by type.
* `Descriptor.Agree`: two types both refuse a payload or make the same of it.
* `Descriptor.fits_widen`: a widened type takes null besides, and nothing else.
* `Descriptor.checked_unnamed`: names and labels do not matter.
-/

namespace CallContract

/-- What fits a scalar type: integers may be written as integral floats of a signed word, and
integers are numbers. -/
def Primitive.Takes : Primitive → Json → Prop
  | .string, v => ∃ s, v = .str s
  | .boolean, v => ∃ b, v = .bool b
  | .integer, v =>
    (∃ i h, v = .num (.int i h)) ∨
      ∃ x i, v = .num (.float x) ∧ x.toInt? = some i ∧ Json.IsSignedWord i
  | .number, v => ∃ n, v = .num n

/-- What fits a field in the payload of its record. -/
def Field.FitsIn (payload : List (String × Json)) (f : Field Descriptor) : Prop :=
  match Keyed.get? f.name payload with
  | some item => ∃ x, validate f.type item = .ok x
  | none => f.default.isSome = true

namespace Descriptor

variable {v : Json}

/-- A payload that has a value of a type. -/
def Fits (t : Descriptor) (v : Json) : Prop :=
  ∃ x, validate t v = .ok x

/-- Two types that both refuse a payload, or both take it and make the same of it. -/
def Agree (t u : Descriptor) (v : Json) : Prop :=
  (∃ e e', validate t v = .error e ∧ validate u v = .error e') ∨
    ∃ x y, validate t v = .ok x ∧ validate u v = .ok y ∧ x.toJson = y.toJson

theorem checked_eq (t : Descriptor) (v : Json) :
    t.checked v = (validate t v).toOption.map Value.toJson := rfl

theorem fits_iff_isSome {t : Descriptor} : t.Fits v ↔ (t.checked v).isSome = true := by
  rw [Fits, checked_eq]
  cases validate t v <;> simp [Except.toOption]

theorem agree_iff {t u : Descriptor} : t.Agree u v ↔ t.checked v = u.checked v := by
  rw [Agree, checked_eq, checked_eq]
  cases validate t v <;> cases validate u v <;> simp [Except.toOption]

/-! ## The rules -/

theorem fits_any : Descriptor.any.Fits v := by
  rw [fits_iff_isSome, checked_any]
  rfl

theorem fits_primitive {kind : Primitive} : (primitive kind).Fits v ↔ kind.Takes v := by
  rw [Fits, validate, validateAt]
  cases kind with
  | string => cases v <;> simp [validatePrimitive, Primitive.Takes]
  | boolean => cases v <;> simp [validatePrimitive, Primitive.Takes]
  | number =>
    cases v with
    | num n => cases n <;> simp [validatePrimitive, Primitive.Takes]
    | _ => simp [validatePrimitive, Primitive.Takes]
  | integer =>
    cases v with
    | num n =>
      cases n with
      | int i word => simp [validatePrimitive, Primitive.Takes, word]
      | float x =>
        rw [validatePrimitive, Primitive.Takes]
        cases whole : x.toInt? with
        | none => simp [whole]
        | some i => by_cases signed : Json.IsSignedWord i <;> simp [whole, signed]
    | _ => simp [validatePrimitive, Primitive.Takes]

theorem fits_none : Descriptor.none.Fits v ↔ v = .null := by
  rw [fits_iff_isSome, checked_none, ← Json.isNull_iff]
  cases v.isNull <;> simp

theorem fits_path : Descriptor.path.Fits v ↔ ∃ s, v = .str s := by
  rw [Fits, validate]
  cases v <;> simp [validateAt]

theorem fits_fileData : Descriptor.fileData.Fits v ↔ ∃ data, FileData.ofJson v = .ok data := by
  rw [fits_iff_isSome, checked_fileData]
  cases FileData.ofJson v <;> simp [Except.toOption]

theorem fits_enumeration {name : String} {members : List EnumMember} :
    (enumeration name members).Fits v ↔ ∃ m ∈ members, m.value.equal v = true := by
  rw [fits_iff_isSome, checked_enumeration, Option.isSome_map, EnumMember.find?, List.find?_isSome]

theorem fits_list {element : Descriptor} :
    (list element).Fits v ↔ ∃ items, v = .arr items ∧ ∀ item ∈ items, element.Fits item := by
  rw [fits_iff_isSome, checked_list]
  cases v with
  | arr items =>
    rw [Option.isSome_map, List.isSome_mapM]
    simp [fits_iff_isSome]
  | _ => simp

theorem fits_mapping {key value : Descriptor} :
    (mapping key value).Fits v ↔
      ∃ entries, v = .obj entries ∧
        ∀ entry ∈ entries, key.admitsKey entry.1 = true ∧ value.Fits entry.2 := by
  rw [fits_iff_isSome, checked_mapping]
  cases v with
  | obj entries =>
    have entry (e : String × Json) :
        (if key.admitsKey e.1 then (value.checked e.2).map (e.1, ·)
          else Option.none).isSome = true ↔ key.admitsKey e.1 = true ∧ value.Fits e.2 := by
      rw [fits_iff_isSome]
      split
      · rename_i admitted
        rw [Option.isSome_map, and_iff_right admitted]
      · rename_i refused
        exact ⟨fun h => Bool.noConfusion h, fun h => absurd h.1 refused⟩
    rw [Option.isSome_map, List.isSome_mapM]
    simp only [entry]
    constructor
    · intro all
      exact ⟨entries, rfl, all⟩
    · intro given
      rcases given with ⟨_, same, all⟩
      cases same
      exact all
  | _ => simp

theorem isSome_unknownField? {fields : List (Field Descriptor)} {payload : List (String × Json)} :
    (unknownField? fields payload).isSome = true ↔
      ∃ entry ∈ payload, ∀ f ∈ fields, f.name ≠ entry.1 := by
  rw [unknownField?, Option.isSome_map, List.find?_isSome]
  simp [Field.find?]

theorem fitsIn_iff {payload : List (String × Json)} {f : Field Descriptor} :
    f.FitsIn payload ↔ (f.checked payload).isSome = true := by
  rw [Field.FitsIn, Field.checked_eq]
  cases Keyed.get? f.name payload with
  | some item =>
    dsimp only
    rw [Option.isSome_map]
    exact fits_iff_isSome
  | none => cases f.default <;> simp

theorem fits_record {name : String} {fields : List (Field Descriptor)} :
    (record name fields).Fits v ↔
      ∃ payload, v = .obj payload ∧ (∀ entry ∈ payload, ∃ f ∈ fields, f.name = entry.1) ∧
        ∀ f ∈ fields, f.FitsIn payload := by
  rw [fits_iff_isSome, checked_record]
  cases v with
  | obj payload =>
    have known : ¬ (unknownField? fields payload).isSome = true ↔
        ∀ entry ∈ payload, ∃ f ∈ fields, f.name = entry.1 := by
      rw [isSome_unknownField?]
      simp
    dsimp only
    split
    · rename_i unknown
      constructor
      · intro h
        cases h
      · intro given
        rcases given with ⟨_, same, names, _⟩
        cases same
        exact absurd unknown (known.2 names)
    · rename_i none
      rw [Option.isSome_map, List.isSome_mapM]
      simp only [← fitsIn_iff]
      constructor
      · intro all
        exact ⟨payload, rfl, known.1 none, all⟩
      · intro given
        rcases given with ⟨_, same, _, all⟩
        cases same
        exact all
  | _ => simp

theorem fits_union {t : Descriptor} (hu : t.isUnion = true) :
    t.Fits v ↔ (v = .null ∧ t.splitNull.2 = true) ∨ ∃ m ∈ t.splitNull.1, m.Fits v := by
  rw [fits_iff_isSome, checked_union hu]
  split
  · rename_i both
    rw [Bool.and_eq_true, Json.isNull_iff] at both
    exact ⟨fun _ => Or.inl both, fun _ => rfl⟩
  · rename_i neither
    rw [Bool.and_eq_true, Json.isNull_iff] at neither
    rw [List.findSome?_isSome_iff, or_iff_right neither]
    simp only [fits_iff_isSome]

/-- A payload fits a type if it fits one of its leaves. -/
theorem fits_iff_leaves {t : Descriptor} : t.Fits v ↔ ∃ m ∈ t.leaves, m.Fits v := by
  cases hu : t.isUnion with
  | false =>
    rw [leaves_of_not_isUnion hu]
    simp
  | true =>
    rw [fits_union hu, splitNull_snd hu, splitNull_fst hu, List.any_eq_true]
    constructor
    · intro given
      rcases given with ⟨null, m, member, none⟩ | ⟨m, member, fits⟩
      · refine ⟨m, member, ?_⟩
        rw [eq_none_of_isNone none]
        exact fits_none.2 null
      · exact ⟨m, List.mem_of_mem_filter member, fits⟩
    · intro given
      rcases given with ⟨m, member, fits⟩
      cases none : m.isNone with
      | true =>
        rw [eq_none_of_isNone none] at fits
        exact Or.inl ⟨fits_none.1 fits, m, member, none⟩
      | false => exact Or.inr ⟨m, List.mem_filter.2 ⟨member, by rw [none]; rfl⟩, fits⟩

theorem fits_optional {inner : Descriptor} :
    (optional inner).Fits v ↔ v = .null ∨ inner.Fits v := by
  rw [fits_iff_leaves, fits_iff_leaves (t := inner), leaves]
  simp only [List.mem_append, List.mem_singleton, or_and_right, exists_or, exists_eq_left,
    fits_none]
  exact or_comm

theorem fits_unionOf {members : List Descriptor} :
    (union members).Fits v ↔ ∃ m ∈ members, m.Fits v := by
  rw [fits_iff_leaves, leaves, leavesOfAll_eq_flatMap]
  constructor
  · intro given
    rcases given with ⟨leaf, inside, fits⟩
    obtain ⟨m, member, there⟩ := List.mem_flatMap.1 inside
    exact ⟨m, member, fits_iff_leaves.2 ⟨leaf, there, fits⟩⟩
  · intro given
    rcases given with ⟨m, member, fits⟩
    obtain ⟨leaf, there, fits⟩ := fits_iff_leaves.1 fits
    exact ⟨leaf, List.mem_flatMap.2 ⟨m, member, there⟩, fits⟩

/-- An optional type takes null. -/
theorem fits_null_of_isOptional {t : Descriptor} (optional : t.isOptional = true) :
    t.Fits .null := by
  cases t with
  | none => exact fits_none.2 rfl
  | any => exact fits_any
  | optional inner => exact fits_optional.2 (Or.inl rfl)
  | union members => exact (fits_union rfl).2 (Or.inl ⟨rfl, optional⟩)
  | _ => cases optional

/-! ## Null taken besides -/

theorem checked_optional {t : Descriptor} (notNull : v ≠ .null) :
    (optional t).checked v = t.checked v := by
  have null := Json.isNull_eq_false notNull
  rw [checked_union rfl, null, Bool.false_and, if_neg Bool.false_ne_true, splitNull]
  cases hu : t.isUnion with
  | true =>
    have arms : (t.splitNull.1.filter fun u => !u.isNone) = t.splitNull.1 :=
      (areArms_splitNull hu).filter
    rw [checked_union hu, null, Bool.false_and, if_neg Bool.false_ne_true, arms]
  | false =>
    rw [splitNull_of_not_isUnion hu]
    cases hn : t.isNone with
    | true =>
      rw [eq_none_of_isNone hn, checked_none, null, if_neg Bool.false_ne_true]
      rfl
    | false =>
      have kept : ([t].filter fun u => !u.isNone) = [t] := by simp [hn]
      rw [kept, List.findSome?_singleton]

theorem checked_widen {t : Descriptor} (notNull : v ≠ .null) :
    t.widen.checked v = t.checked v := by
  rw [widen]
  split
  · rfl
  · exact checked_optional notNull

/-- A widened type takes null, and what the type takes. -/
theorem fits_widen {t : Descriptor} : t.widen.Fits v ↔ v = .null ∨ t.Fits v := by
  by_cases null : v = .null
  · subst null
    exact iff_of_true (fits_null_of_isOptional (isOptional_widen t)) (Or.inl rfl)
  · rw [or_iff_right null, fits_iff_isSome, fits_iff_isSome, checked_widen null]

/-! ## Names and labels -/

theorem find?_map_value (value : Json) (members : List EnumMember) :
    (EnumMember.find? value members).map EnumMember.value =
      (members.map EnumMember.value).find? fun w => w.equal value := by
  rw [EnumMember.find?, List.find?_map]
  rfl

theorem isSome_find?_unlabelled (value : Json) (members : List EnumMember) :
    (EnumMember.find? value (members.map fun m => { label := "", value := m.value })).isSome =
      (EnumMember.find? value members).isSome := by
  rw [← Option.isSome_map (f := EnumMember.value), ← Option.isSome_map (f := EnumMember.value),
    find?_map_value, find?_map_value, List.map_map]
  rfl

theorem admitsKey_enumeration (name : String) (members : List EnumMember) (key : String) :
    (enumeration name members).admitsKey key = (EnumMember.find? (.str key) members).isSome := by
  rw [admitsKey, checkKey, validateEnum]
  cases EnumMember.find? (.str key) members <;> rfl

theorem admitsKey_unnamed (t : Descriptor) (key : String) :
    t.unnamed.admitsKey key = t.admitsKey key := by
  cases t with
  | primitive kind => rfl
  | enumeration name members =>
    rw [unnamed_enumeration, admitsKey_enumeration, admitsKey_enumeration, isSome_find?_unlabelled]
  | _ => rfl

theorem unknownField?_mapType (g : Descriptor → Descriptor) (fields : List (Field Descriptor))
    (payload : List (String × Json)) :
    (unknownField? (fields.map (Field.mapType g)) payload).isSome =
      (unknownField? fields payload).isSome := by
  rw [Bool.eq_iff_iff, isSome_unknownField?, isSome_unknownField?]
  simp only [List.forall_mem_map, Field.mapType_name]

/-- A map of types that changes nothing of what is checked changes nothing of what a record
checks. -/
theorem checked_record_mapType {g : Descriptor → Descriptor} {name name' : String}
    {fields : List (Field Descriptor)}
    (same : ∀ f ∈ fields, ∀ v, (g f.type).checked v = f.type.checked v) :
    (record name' (fields.map (Field.mapType g))).checked v = (record name fields).checked v := by
  rw [checked_record, checked_record]
  cases v with
  | obj payload =>
    have fieldwise : (fields.map (Field.mapType g)).mapM (Field.checked payload) =
        fields.mapM (Field.checked payload) := by
      rw [List.mapM_map]
      refine List.mapM_congr_of_mem fun f member => ?_
      rw [Function.comp_apply, Field.checked_eq, Field.checked_eq]
      simp only [Field.mapType_name, Field.mapType_type, Field.mapType_default, same f member]
    dsimp only
    rw [unknownField?_mapType, fieldwise]
  | _ => rfl

/-- What a type makes of a payload has nothing to do with names and labels. -/
theorem checked_unnamed (t : Descriptor) : ∀ v, t.unnamed.checked v = t.checked v := by
  induction t using leafInduction with
  | enumeration name members =>
    intro v
    rw [unnamed_enumeration, checked_enumeration, checked_enumeration, find?_map_value,
      find?_map_value, List.map_map]
    rfl
  | list element ih =>
    intro v
    have same : element.unnamed.checked = element.checked := funext ih
    rw [unnamed_list, checked_list, checked_list, same]
  | mapping key value _ ih =>
    intro v
    rw [unnamed_mapping, checked_mapping, checked_mapping]
    simp only [admitsKey_unnamed, ih]
  | record name fields ih =>
    intro v
    rw [unnamed_record]
    exact checked_record_mapType ih
  | union t hu ih =>
    intro v
    have hu' : t.unnamed.isUnion = true := by rw [respectsUnions_unnamed.isUnion, hu]
    have found : (t.splitNull.1.findSome? fun m => m.unnamed.checked v) =
        t.splitNull.1.findSome? fun m => m.checked v :=
      List.findSome?_congr_of_mem fun m member => ih m (mem_leaves_of_mem_splitNull t member) v
    rw [checked_union hu, checked_union hu', respectsUnions_unnamed.splitNull_map,
      List.findSome?_map, ← found]
    rfl
  | _ => exact fun _ => rfl

theorem fits_unnamed {t : Descriptor} : t.unnamed.Fits v ↔ t.Fits v := by
  rw [fits_iff_isSome, fits_iff_isSome, checked_unnamed]

theorem checked_of_unnamed_eq {t u : Descriptor} (same : t.unnamed = u.unnamed) (v : Json) :
    t.checked v = u.checked v := by
  rw [← checked_unnamed, same, checked_unnamed]

end Descriptor

end CallContract
