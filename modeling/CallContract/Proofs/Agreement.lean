import CallContract.Proofs.Fitting
import CallContract.Proofs.RoundTrip

/-!
# Payloads of a type and of its document

What a service accepts that knows a type from its schema document only.

* `Json.NullFree`: a payload in which no null stands anywhere.
* `Descriptor.checked_normal`: of such a payload a type and its normal form make the same.
* `Descriptor.fits_of_fits_normal`: whatever fits the normal form fits the type, if a default of
  null stands only where the type has null.

The type that a document is decoded as is such a normal form. Both need that the type has a
document: without one a union may have no alternatives, of which the normal form is null, and the
key of a mapping may be a union, to which no key fits.
-/

namespace CallContract

open Descriptor (AreArms normal foldedUnion areArms_splitNull mem_leaves_of_mem_splitNull)

/-! ## Payloads without null -/

namespace Json

mutual
/-- No null stands in a payload, at any depth. -/
def NullFree : Json → Prop
  | .null => False
  | .bool _ | .num _ | .str _ => True
  | .arr items => NullFreeItems items
  | .obj fields => NullFreeFields fields

/-- No null stands in the items of an array. -/
def NullFreeItems : List Json → Prop
  | [] => True
  | item :: rest => NullFree item ∧ NullFreeItems rest

/-- No null stands in the values of an object. -/
def NullFreeFields : List (String × Json) → Prop
  | [] => True
  | (_, value) :: rest => NullFree value ∧ NullFreeFields rest
end

theorem NullFree.ne_null {v : Json} (free : v.NullFree) : v ≠ .null := by
  intro same
  subst same
  exact free

theorem NullFree.item {items : List Json} (free : (Json.arr items).NullFree) :
    ∀ item ∈ items, item.NullFree := by
  rw [NullFree] at free
  induction items with
  | nil =>
    intro item member
    cases member
  | cons first rest ih =>
    rw [NullFreeItems] at free
    intro item member
    rcases List.mem_cons.1 member with rfl | member
    · exact free.1
    · exact ih free.2 item member

theorem NullFree.value {fields : List (String × Json)} (free : (Json.obj fields).NullFree) :
    ∀ entry ∈ fields, entry.2.NullFree := by
  rw [NullFree] at free
  induction fields with
  | nil =>
    intro entry member
    cases member
  | cons first rest ih =>
    obtain ⟨key, value⟩ := first
    rw [NullFreeFields] at free
    intro entry member
    rcases List.mem_cons.1 member with rfl | member
    · exact free.1
    · exact ih free.2 entry member

end Json

namespace Descriptor

/-! ## What becomes of payloads without null -/

/-- What a field makes of the payload of its record is what its normal form makes of it. -/
theorem checked_normalField {f : Field Descriptor} {payload : List (String × Json)}
    (free : (Json.obj payload).NullFree)
    (same : ∀ v, v.NullFree → f.type.normal.checked v = f.type.checked v) :
    (f.mapType normal).admitDefault.checked payload = f.checked payload := by
  rw [Field.checked_eq, Field.checked_eq, Field.admitDefault_name, Field.admitDefault_default,
    Field.mapType_name, Field.mapType_default]
  cases found : Keyed.get? f.name payload with
  | none => cases f.default <;> rfl
  | some item =>
    have itemFree : item.NullFree := free.value _ (Keyed.mem_of_get? found)
    have itemSame : (f.mapType normal).admitDefault.type.checked item = f.type.checked item := by
      rw [Field.admitDefault_type]
      split
      · rw [checked_widen itemFree.ne_null]
        exact same item itemFree
      · exact same item itemFree
    dsimp only
    rw [itemSame]

theorem unknownField?_normal (fields : List (Field Descriptor)) (payload : List (String × Json)) :
    (unknownField? (fields.map fun f => (f.mapType normal).admitDefault) payload).isSome =
      (unknownField? fields payload).isSome := by
  rw [Bool.eq_iff_iff, isSome_unknownField?, isSome_unknownField?]
  simp only [List.forall_mem_map, Field.admitDefault_name, Field.mapType_name]

/-- Of what is not null a folded union makes what the first fitting alternative makes. -/
theorem checked_foldedUnion {ts : List Descriptor} (arms : AreArms ts) (hadNull : Bool) {v : Json}
    (notNull : v.isNull = false) :
    (foldedUnion hadNull ts).checked v = ts.findSome? fun m => m.checked v := by
  rcases ts with _ | ⟨only, _ | ⟨next, rest⟩⟩
  · rw [foldedUnion, checked_none, notNull]
    rfl
  · rw [foldedUnion, List.findSome?_singleton]
  · rw [foldedUnion_of_length (by simp), checked_union rfl, arms.splitNull_union, notNull]
    rfl

/-- A payload without null becomes the same by a type that has a document and by its normal form. -/
theorem checked_normal {t : Descriptor} : ∀ {s : Json}, encode t = .ok s →
    ∀ v, v.NullFree → t.normal.checked v = t.checked v := by
  induction t using leafInduction with
  | list element ih =>
    intro s encoded v free
    obtain ⟨items, elementEncoded, _⟩ := encode_list_iff.1 encoded
    rw [normal, checked_list, checked_list]
    cases v with
    | arr items =>
      have same : items.mapM element.normal.checked = items.mapM element.checked :=
        List.mapM_congr_of_mem fun item member => ih elementEncoded item (free.item item member)
      dsimp only
      rw [same]
    | _ => rfl
  | mapping key value _ ih =>
    intro s encoded v free
    obtain ⟨scalar, _, _, _, valueEncoded, _⟩ := encode_mapping_iff.1 encoded
    rw [normal, normal_of_isKey scalar, checked_mapping, checked_mapping]
    cases v with
    | obj entries =>
      dsimp only
      congr 1
      refine List.mapM_congr_of_mem fun entry member => ?_
      rw [ih valueEncoded entry.2 (free.value entry member)]
    | _ => rfl
  | record name fields ih =>
    intro s encoded v free
    rw [normal_record, checked_record, checked_record]
    cases v with
    | obj payload =>
      have fieldwise : (fields.map fun f => (f.mapType normal).admitDefault).mapM
          (Field.checked payload) = fields.mapM (Field.checked payload) := by
        rw [List.mapM_map]
        refine List.mapM_congr_of_mem fun f member => ?_
        obtain ⟨node, fieldEncoded⟩ := encode_field encoded f member
        exact checked_normalField free (ih f member fieldEncoded)
      dsimp only
      rw [unknownField?_normal, fieldwise]
    | _ => rfl
  | union t hu ih =>
    intro s encoded v free
    have notNull := Json.isNull_eq_false free.ne_null
    rw [normal_union hu, checked_foldedUnion (areArms_splitNull hu).map_normal _ notNull,
      checked_union hu, notNull, Bool.false_and, if_neg Bool.false_ne_true, List.findSome?_map]
    refine List.findSome?_congr_of_mem fun m member => ?_
    obtain ⟨node, armEncoded⟩ := encode_alternative hu encoded m member
    exact ih m (mem_leaves_of_mem_splitNull t member) armEncoded v free
  | _ =>
    intro s _ v _
    rw [normal]

/-! ## Payloads that fit the normal form -/

/-- What fits a folded union is null or fits one of its alternatives. -/
theorem fits_foldedUnion {ts : List Descriptor} (arms : AreArms ts) {hadNull : Bool} {v : Json}
    (fits : (foldedUnion hadNull ts).Fits v) :
    (v = .null ∧ (ts = [] ∨ hadNull = true)) ∨ ∃ m ∈ ts, m.Fits v := by
  rcases ts with _ | ⟨only, _ | ⟨next, rest⟩⟩
  · exact Or.inl ⟨fits_none.1 fits, Or.inl rfl⟩
  · exact Or.inr ⟨only, List.mem_singleton_self only, fits⟩
  · rw [foldedUnion_of_length (by simp), fits_union rfl, arms.splitNull_union] at fits
    exact fits.imp_left fun null => ⟨null.1, Or.inr null.2⟩

theorem fitsIn_of_normalField {f : Field Descriptor} {payload : List (String × Json)}
    (nullDefault : f.default = some .null → f.type.isOptional = true)
    (part : ∀ v, f.type.normal.Fits v → f.type.Fits v)
    (fits : (f.mapType normal).admitDefault.FitsIn payload) : f.FitsIn payload := by
  rw [Field.FitsIn, Field.admitDefault_name, Field.admitDefault_default, Field.mapType_name,
    Field.mapType_default] at fits
  rw [Field.FitsIn]
  cases found : Keyed.get? f.name payload with
  | none =>
    rw [found] at fits
    exact fits
  | some item =>
    rw [found, Field.admitDefault_type] at fits
    dsimp only at fits ⊢
    split at fits
    · rename_i null
      rcases fits_widen.1 fits with rfl | fits
      · exact fits_null_of_isOptional (nullDefault null)
      · exact part item fits
    · exact part item fits

/-- What fits the normal form of a type that has a document fits the type, if a default of null
stands only where the type has null. -/
theorem fits_of_fits_normal {t : Descriptor} : ∀ {s : Json}, encode t = .ok s →
    t.NullDefaultsOptional → ∀ v, t.normal.Fits v → t.Fits v := by
  induction t using leafInduction with
  | list element ih =>
    intro s encoded defaults v fits
    obtain ⟨_, elementEncoded, _⟩ := encode_list_iff.1 encoded
    rw [normal, fits_list] at fits
    obtain ⟨items, rfl, all⟩ := fits
    refine fits_list.2 ⟨items, rfl, fun item member => ?_⟩
    exact ih elementEncoded defaults item (all item member)
  | mapping key value _ ih =>
    intro s encoded defaults v fits
    obtain ⟨scalar, _, _, _, valueEncoded, _⟩ := encode_mapping_iff.1 encoded
    rw [normal, normal_of_isKey scalar, fits_mapping] at fits
    obtain ⟨entries, rfl, all⟩ := fits
    refine fits_mapping.2 ⟨entries, rfl, fun entry member => ?_⟩
    obtain ⟨admitted, valueFits⟩ := all entry member
    exact ⟨admitted, ih valueEncoded defaults.2 entry.2 valueFits⟩
  | record name fields ih =>
    intro s encoded defaults v fits
    obtain ⟨nullDefaults, parts⟩ := everyRecord_record.1 defaults
    rw [normal_record, fits_record] at fits
    obtain ⟨payload, rfl, known, all⟩ := fits
    refine fits_record.2 ⟨payload, rfl, fun entry member => ?_, fun f member => ?_⟩
    · obtain ⟨_, there, named⟩ := known entry member
      obtain ⟨f, member, rfl⟩ := List.mem_map.1 there
      exact ⟨f, member, by rw [← named, Field.admitDefault_name, Field.mapType_name]⟩
    · obtain ⟨node, fieldEncoded⟩ := encode_field encoded f member
      refine fitsIn_of_normalField (nullDefaults f member) ?_ (all _ (List.mem_map_of_mem member))
      exact ih f member fieldEncoded (parts f member)
  | union t hu ih =>
    intro s encoded defaults v fits
    rw [normal_union hu] at fits
    rw [fits_union hu]
    rcases fits_foldedUnion (areArms_splitNull hu).map_normal fits with
      ⟨rfl, none | null⟩ | ⟨_, there, armFits⟩
    · exact Or.inl ⟨rfl, hasNull_of_encode hu encoded (List.map_eq_nil_iff.1 none)⟩
    · exact Or.inl ⟨rfl, null⟩
    · obtain ⟨m, member, rfl⟩ := List.mem_map.1 there
      have leaf := mem_leaves_of_mem_splitNull t member
      obtain ⟨node, armEncoded⟩ := encode_alternative hu encoded m member
      exact Or.inr ⟨m, member, ih m leaf armEncoded (defaults.leaf leaf) v armFits⟩
  | _ =>
    intro s _ _ v fits
    rw [normal] at fits
    exact fits

end Descriptor

/-! ## Documents -/

/-- The type that the document of a type is decoded as makes the same of payloads without null, and
it accepts no payload that the type refuses, if a default of null stands only where the type has
null. -/
theorem decode_encode_agree {t : Descriptor} {s : Json} (distinct : t.DistinctFields)
    (encoded : encode t = .ok s) (notNull : s ≠ Node.null) (name : String) :
    ∃ u, decode s name = .ok u ∧ (∀ v : Json, v.NullFree → t.Agree u v) ∧
      (t.NullDefaultsOptional → ∀ v, u.Fits v → t.Fits v) := by
  obtain ⟨u, decoded, same⟩ := decode_of_encode encoded notNull name
  rw [Descriptor.merged_of_distinctFields t distinct] at same
  refine ⟨u, decoded, fun v free => ?_, fun defaults v fits => ?_⟩
  · rw [Descriptor.agree_iff, Descriptor.checked_of_unnamed_eq same,
      Descriptor.checked_normal encoded v free]
  · rw [← Descriptor.fits_unnamed, same, Descriptor.fits_unnamed] at fits
    exact Descriptor.fits_of_fits_normal encoded defaults v fits

/-- The document of `ticket` tells of a request without null what `ticket` tells, and it accepts
none that `ticket` refuses. -/
theorem decode_encode_agree_ticket :
    ∃ u, decode ticketNode "ticket" = .ok u ∧
      ticket.Agree u (.obj [("id", .num (.int 7 (by decide))), ("tags", .arr [.str "new"])]) ∧
      ∀ v, u.Fits v → ticket.Fits v := by
  obtain ⟨u, decoded, agree, fits⟩ :=
    decode_encode_agree distinctFields_ticket encode_ticket ticketNode_ne_null "ticket"
  refine ⟨u, decoded, agree _ ?_, fits nullDefaultsOptional_ticket⟩
  simp [Json.NullFree, Json.NullFreeFields, Json.NullFreeItems]

end CallContract
