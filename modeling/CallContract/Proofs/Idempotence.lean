import CallContract.Proofs.EqualValues
import CallContract.Proofs.Extension
import CallContract.Proofs.ReadingBack

/-!
# Checking what has been checked

What a type makes of a payload fits the type again, and checking it again changes nothing.

* `Descriptor.Settles` is a payload that a type takes and leaves as it is, up to a relation that
  reaches from parts to wholes (`IsCongruence`): to be the same, or to be equal.
* `settles_list`, `settles_mapping`, `settles_record` and `settles_union` build settled payloads
  from settled parts.
* `settles_of_checked` is by induction on the type. Defaults are filled in unchecked, so they have
  to be settled themselves; and where a union has two alternatives, what the one has made of a
  payload may fit the other, so `Descriptor.SingleArms` leaves such unions out.
-/

namespace CallContract

/-! ## Relations between payloads -/

/-- A relation between payloads that reaches from parts to wholes. -/
structure IsCongruence (R : Json → Json → Prop) : Prop where
  refl : ∀ v, R v v
  array : ∀ {vs ws : List Json}, List.Forall₂ R vs ws → R (.arr vs) (.arr ws)
  object : ∀ {fs gs : List (String × Json)},
    List.Forall₂ (fun p q => p.1 = q.1 ∧ R p.2 q.2) fs gs → R (.obj fs) (.obj gs)

theorem isCongruence_eq : IsCongruence Eq where
  refl _ := rfl
  array items := by
    rw [List.forall₂_eq_eq_eq] at items
    rw [items]
  object entries := by
    have same := entries.imp fun _ _ => Prod.ext_iff.2
    rw [List.forall₂_eq_eq_eq] at same
    rw [same]

theorem isCongruence_equal : IsCongruence fun v w => v.equal w = true where
  refl := Json.equal_refl
  array := Json.equal_arr_iff.2
  object := Json.equal_obj_of_forall₂

/-! ## Settled payloads -/

namespace Descriptor

/-- A type takes a payload, and what it makes of it is related to the payload. -/
def Settles (R : Json → Json → Prop) (t : Descriptor) (v : Json) : Prop :=
  ∃ x, validate t v = .ok x ∧ R x.toJson v

/-- The default of each field is settled by the type of the field. -/
def DefaultsSettled (R : Json → Json → Prop) : Descriptor → Prop :=
  EveryRecord fun fields => ∀ f ∈ fields, ∀ d, f.default = some d → f.type.Settles R d

/-- No union inside a type has two alternatives besides null. -/
def SingleArms (t : Descriptor) : Prop :=
  ∀ u, t.Contains u → u.isUnion = true → u.splitNull.1.length ≤ 1

variable {R : Json → Json → Prop} {t : Descriptor} {v w : Json}

theorem settles_iff : t.Settles R v ↔ ∃ y, t.checked v = some y ∧ R y v := by
  rw [Settles, checked_eq]
  cases validate t v with
  | error e => simp [Except.toOption]
  | ok x => simp [Except.toOption]

theorem SingleArms.of_hasPart {part : Descriptor} (single : t.SingleArms) (step : t.HasPart part) :
    part.SingleArms :=
  fun u inside => single u (.head step inside)

/-- What is settled by its type to the letter is settled. -/
theorem settles_of_checked_self (congruence : IsCongruence R) (fits : t.checked v = some v) :
    t.Settles R v :=
  settles_iff.2 ⟨v, fits, congruence.refl v⟩

theorem checked_of_validate {x : Value} (fits : validate t v = .ok x) :
    t.checked v = some x.toJson := by
  rw [checked_eq, fits]
  rfl

/-! ### From parts to wholes -/

theorem settles_list (congruence : IsCongruence R) {element : Descriptor} {items : List Json}
    (settled : ∀ item ∈ items, element.Settles R item) :
    (list element).Settles R (.arr items) := by
  have steps : List.Forall₂ (fun v w => ∃ y, element.checked v = some y ∧ R y w) items items :=
    List.forall₂_same.2 fun item member => settles_iff.1 (settled item member)
  obtain ⟨results, checked, related⟩ := steps.exists_mapM_eq_some
  refine settles_iff.2 ⟨.arr results, ?_, congruence.array related⟩
  rw [checked_list]
  exact Option.map_eq_some_iff.2 ⟨results, checked, rfl⟩

theorem settles_mapping (congruence : IsCongruence R) {key value : Descriptor}
    {entries : List (String × Json)}
    (settled : ∀ entry ∈ entries, key.admitsKey entry.1 = true ∧ value.Settles R entry.2) :
    (mapping key value).Settles R (.obj entries) := by
  have steps : List.Forall₂ (fun (p q : String × Json) => ∃ r : String × Json,
      (if key.admitsKey p.1 then (value.checked p.2).map (p.1, ·) else Option.none) = some r ∧
        r.1 = q.1 ∧ R r.2 q.2) entries entries := by
    refine List.forall₂_same.2 fun entry member => ?_
    obtain ⟨admitted, settledValue⟩ := settled entry member
    obtain ⟨y, checked, same⟩ := settles_iff.1 settledValue
    refine ⟨(entry.1, y), ?_, rfl, same⟩
    rw [if_pos admitted, checked]
    rfl
  obtain ⟨results, checked, related⟩ := steps.exists_mapM_eq_some
  refine settles_iff.2 ⟨.obj results, ?_, congruence.object related⟩
  rw [checked_mapping]
  exact Option.map_eq_some_iff.2 ⟨results, checked, rfl⟩

/-- A payload that has just the fields of a record, in their order, each with a settled value. -/
theorem settles_record (congruence : IsCongruence R) {name : String}
    {fields : List (Field Descriptor)} (distinct : (fields.map Field.name).Nodup)
    {entries : List (String × Json)}
    (own : List.Forall₂ (fun f p => f.name = p.1 ∧ f.type.Settles R p.2) fields entries) :
    (record name fields).Settles R (.obj entries) := by
  have keys : fields.map Field.name = entries.map Prod.fst :=
    List.map_eq_map_iff_forall₂.2 (own.imp fun _ _ => And.left)
  have known : ¬(unknownField? fields entries).isSome = true := by
    rw [isSome_unknownField?]
    rintro ⟨entry, member, unknown⟩
    obtain ⟨f, there, same, _⟩ := own.exists_of_mem_right member
    exact unknown f there same
  have steps : List.Forall₂ (fun (f : Field Descriptor) p => ∃ r : String × Json,
      f.checked entries = some r ∧ r.1 = p.1 ∧ R r.2 p.2) fields entries := by
    refine own.imp_of_mem fun f _ p member given => ?_
    obtain ⟨same, settled⟩ := given
    obtain ⟨y, checked, related⟩ := settles_iff.1 settled
    have found : Keyed.get? f.name entries = some p.2 := by
      rw [Keyed.get?_eq_some_iff (keys ▸ distinct), same]
      exact member
    refine ⟨(f.name, y), ?_, same, related⟩
    rw [Field.checked_eq, found]
    dsimp only
    rw [checked]
    rfl
  obtain ⟨results, checked, related⟩ := steps.exists_mapM_eq_some
  have names : (results.map Prod.fst).Nodup := by
    rw [List.map_eq_map_iff_forall₂.2 (related.imp fun _ _ => And.left), ← keys]
    exact distinct
  refine settles_iff.2 ⟨.obj results, ?_, congruence.object related⟩
  rw [checked_record]
  dsimp only
  rw [if_neg known, checked, Option.map_some, Keyed.ofPairs_of_nodup names]

/-- Of a union that is one alternative besides null, a payload is settled if it is so of this. -/
theorem settles_union (congruence : IsCongruence R) (hu : t.isUnion = true) {only : Descriptor}
    (alone : t.splitNull.1 = [only]) (settled : only.Settles R v) : t.Settles R v := by
  obtain ⟨y, checked, related⟩ := settles_iff.1 settled
  rw [settles_iff, checked_union hu, alone]
  split
  · rename_i null
    rw [Bool.and_eq_true] at null
    refine ⟨.null, rfl, ?_⟩
    rw [Json.isNull_iff.1 null.1]
    exact congruence.refl .null
  · exact ⟨y, by rw [List.findSome?_cons, checked], related⟩

/-! ### What comes out of checking -/

theorem checked_primitive_of_checked {kind : Primitive}
    (checked : (primitive kind).checked v = some w) : (primitive kind).checked w = some w := by
  rcases cases_of_checked_primitive checked with
    ⟨rfl, _⟩ | ⟨rfl, _, i, h, _, _, rfl⟩ | ⟨rfl, i, h, _, rfl⟩
  · exact checked
  · simp only [Descriptor.checked, checkedAt, validateAt]
    rfl
  · simp only [Descriptor.checked, checkedAt, validateAt]
    rfl

/-- The value of a member is that of the member that it is found for. -/
theorem checked_enumeration_of_checked {name : String} {members : List EnumMember}
    (checked : (enumeration name members).checked v = some w) :
    (enumeration name members).checked w = some w := by
  rw [checked_enumeration] at checked ⊢
  obtain ⟨m, found, rfl⟩ := Option.map_eq_some_iff.1 checked
  have alike (n : EnumMember) : n.value.equal m.value = n.value.equal v := by
    rw [Json.equal, Json.equal, Json.equal_iff.1 (equal_of_find? found)]
  rw [EnumMember.find?] at found ⊢
  simp only [alike]
  rw [found]
  rfl

theorem checked_fileData_of_checked (checked : fileData.checked v = some w) :
    fileData.checked w = some w := by
  rw [checked_fileData] at checked ⊢
  obtain ⟨data, _, rfl⟩ := Option.map_eq_some_iff.1 checked
  rw [FileData.ofJson_toJson]
  rfl

theorem settles_of_checked (congruence : IsCongruence R) (t : Descriptor) : ∀ {v w : Json},
    t.DistinctFields → t.SingleArms → t.DefaultsSettled R → t.checked v = some w →
      t.Settles R w := by
  induction t using leafInduction with
  | primitive kind =>
    intro v w _ _ _ checked
    exact settles_of_checked_self congruence (checked_primitive_of_checked checked)
  | none =>
    intro v w _ _ _ checked
    rw [checked_none] at checked
    split at checked
    · cases checked
      exact settles_of_checked_self congruence checked_none
    · cases checked
  | any =>
    intro v w _ _ _ _
    exact settles_of_checked_self congruence checked_any
  | path =>
    intro v w _ _ _ checked
    refine settles_of_checked_self congruence ?_
    cases v with
    | str s =>
      simp only [Descriptor.checked, checkedAt, validateAt] at checked
      cases checked
      simp [Descriptor.checked, checkedAt, validateAt, Except.toOption, Value.toJson]
    | _ => simp [Descriptor.checked, checkedAt, validateAt, Except.toOption] at checked
  | fileData =>
    intro v w _ _ _ checked
    exact settles_of_checked_self congruence (checked_fileData_of_checked checked)
  | enumeration name members =>
    intro v w _ _ _ checked
    exact settles_of_checked_self congruence (checked_enumeration_of_checked checked)
  | list element ih =>
    intro v w distinct single kept checked
    rw [checked_list] at checked
    cases v with
    | arr vs =>
      obtain ⟨ws, items, rfl⟩ := Option.map_eq_some_iff.1 checked
      refine settles_list congruence fun item member => ?_
      obtain ⟨v, _, checkedItem⟩ := (List.mapM_eq_some.1 items).exists_of_mem_right member
      exact ih distinct (single.of_hasPart .element) kept checkedItem
    | _ => cases checked
  | mapping key value _ ih =>
    intro v w distinct single kept checked
    rw [checked_mapping] at checked
    cases v with
    | obj before =>
      obtain ⟨after, entries, rfl⟩ := Option.map_eq_some_iff.1 checked
      refine settles_mapping congruence fun entry member => ?_
      obtain ⟨p, _, given⟩ := (List.mapM_eq_some.1 entries).exists_of_mem_right member
      split at given
      · rename_i admitted
        obtain ⟨y, checkedValue, rfl⟩ := Option.map_eq_some_iff.1 given
        exact ⟨admitted, ih distinct.2 (single.of_hasPart .value) kept.2 checkedValue⟩
      · cases given
    | _ => cases checked
  | record name fields ih =>
    intro v w distinct single kept checked
    rw [checked_record] at checked
    obtain ⟨names, distinctParts⟩ := everyRecord_record.1 distinct
    obtain ⟨defaults, keptParts⟩ := everyRecord_record.1 kept
    cases v with
    | obj before =>
      dsimp only at checked
      split at checked
      · cases checked
      obtain ⟨after, results, rfl⟩ := Option.map_eq_some_iff.1 checked
      have related := List.mapM_eq_some.1 results
      have keys : fields.map Field.name = after.map Prod.fst :=
        List.map_eq_map_iff_forall₂.2
          (related.imp fun _ _ given => (Field.cases_of_checked given).1)
      rw [Keyed.ofPairs_of_nodup (keys ▸ names)]
      -- A field has its value from the payload, checked by its type, or it has its default.
      refine settles_record congruence names (related.imp_of_mem fun f member p _ given => ?_)
      obtain ⟨same, ⟨item, _, checkedItem⟩ | ⟨_, default⟩⟩ := Field.cases_of_checked given
      · have step : HasPart (record name fields) f.type :=
          .field (by rwa [Field.merge_of_nodup names])
        exact ⟨same, ih f member (distinctParts f member) (single.of_hasPart step)
          (keptParts f member) checkedItem⟩
      · exact ⟨same, defaults f member p.2 default⟩
    | _ => cases checked
  | union t hu ih =>
    intro v w distinct single kept checked
    have few := single t .refl hu
    rw [checked_union hu] at checked
    split at checked
    · rename_i null
      cases checked
      rw [Bool.and_eq_true] at null
      refine settles_of_checked_self congruence ?_
      rw [checked_union hu, null.2]
      rfl
    · obtain ⟨only, member, fits⟩ := List.exists_of_findSome?_eq_some checked
      -- The alternative that fits is the only one, so it is asked again and no other.
      have leaf := mem_leaves_of_mem_splitNull t member
      have alone : t.splitNull.1 = [only] := by
        obtain ⟨other, others⟩ := List.length_eq_one_iff.1
          (Nat.le_antisymm few (List.length_pos_of_mem member))
        rw [others] at member ⊢
        rw [List.mem_singleton.1 member]
      have inside := contains_of_mem_splitNull hu member
      refine settles_union congruence hu alone ?_
      exact ih only leaf (distinct.leaf leaf) (fun u found => single u (inside.trans found))
        (kept.leaf leaf) fits

end Descriptor

/-- What a type makes of a payload fits the type again, and an equal payload is made of it, as long
as an equal payload is made of each default by the type of its field. -/
theorem validate_toJson {t : Descriptor} {v : Json} {x : Value} (distinct : t.DistinctFields)
    (single : t.SingleArms) (kept : t.DefaultsSettled fun v w => v.equal w = true)
    (fits : validate t v = .ok x) :
    ∃ y, validate t x.toJson = .ok y ∧ y.toJson.equal x.toJson = true :=
  Descriptor.settles_of_checked isCongruence_equal t distinct single kept
    (Descriptor.checked_of_validate fits)

/-- A record of a number and a text that is null unless it is given. -/
def parcel : Descriptor :=
  .record "Parcel" [
    { name := "weight", type := .number },
    { name := "note", type := .optional .string, default := some .null }]

/-- A parcel with its weight as an integer and without a note. -/
def parcelPayload : Json :=
  .obj [("weight", .num (.int 3 (by decide)))]

/-- What becomes of it: the weight is a float, and the note is there. -/
def parcelValue : Value :=
  .record "Parcel" [("weight", .number (Binary64.ofInt 3)), ("note", .raw .null)]

theorem distinctFields_parcel : parcel.DistinctFields := by
  simp [parcel, Descriptor.DistinctFields, Descriptor.EveryRecord, Descriptor.EveryRecordOfFields]

theorem singleArms_parcel : parcel.SingleArms := by
  have scalar {kind : Primitive} {u : Descriptor} (found : (Descriptor.primitive kind).Contains u) :
      u.isUnion = false := by
    rcases Descriptor.contains_iff.1 found with rfl | ⟨part, step, _⟩
    · rfl
    · cases step
  intro u found hu
  rcases Descriptor.contains_iff.1 found with rfl | ⟨part, step, found⟩
  · cases hu
  cases step with
  | field member =>
    have fields := Field.mem_of_mem_merge member
    simp only [List.mem_cons, List.not_mem_nil, or_false] at fields
    rcases fields with rfl | rfl
    · cases (scalar found).symm.trans hu
    · rcases Descriptor.contains_iff.1 found with rfl | ⟨part, step, found⟩
      · decide
      · cases step
        cases (scalar found).symm.trans hu

theorem defaultsSettled_parcel : parcel.DefaultsSettled fun v w => v.equal w = true := by
  have note : (Descriptor.optional .string).Settles (fun v w => v.equal w = true) .null := by
    refine Descriptor.settles_of_checked_self isCongruence_equal ?_
    rw [Descriptor.checked_union rfl]
    rfl
  simp [parcel, Descriptor.DefaultsSettled, Descriptor.EveryRecord, Descriptor.EveryRecordOfFields,
    note]

theorem validate_parcel : validate parcel parcelPayload = .ok parcelValue := by
  rw [validate, parcel, parcelPayload, validateAt_record]
  simp [validateField, Keyed.get?, validateAt, validatePrimitive]
  rfl

/-- Checked again, a parcel stays as it is. -/
theorem validate_toJson_parcel :
    (parcel.DistinctFields ∧ parcel.SingleArms ∧
        parcel.DefaultsSettled (fun v w => v.equal w = true) ∧
        validate parcel parcelPayload = .ok parcelValue) ∧
      ∃ y, validate parcel parcelValue.toJson = .ok y ∧
        y.toJson.equal parcelValue.toJson = true :=
  ⟨⟨distinctFields_parcel, singleArms_parcel, defaultsSettled_parcel, validate_parcel⟩,
    validate_toJson distinctFields_parcel singleArms_parcel defaultsSettled_parcel validate_parcel⟩

/-- Where each default is left just as it is, what a type makes of a payload is so too. -/
theorem validate_toJson_eq {t : Descriptor} {v : Json} {x : Value} (distinct : t.DistinctFields)
    (single : t.SingleArms) (kept : t.DefaultsSettled Eq) (fits : validate t v = .ok x) :
    ∃ y, validate t x.toJson = .ok y ∧ y.toJson = x.toJson :=
  Descriptor.settles_of_checked isCongruence_eq t distinct single kept
    (Descriptor.checked_of_validate fits)

end CallContract
