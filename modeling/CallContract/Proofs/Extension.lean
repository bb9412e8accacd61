import CallContract.Proofs.Fitting
import Mathlib.Algebra.Field.Rat
import Mathlib.Data.Nat.Cast.Field
import Mathlib.Data.Rat.Cast.CharZero

/-!
# Nothing is lost and nothing made up

What a type makes of a payload has all of the payload in it, and nothing else but defaults.

* `Binary64.value` is the number that a float denotes; `Binary64.value_of_toInt?` says that an
  integral float and its integer are one number.
* `Extends` is told by the type that stands at a place: arrays correspond item by item and objects
  key by key, and only a record has more keys than were there, with the defaults of its own fields.
* `cases_of_checked_record` says all that a record does. A union goes back to one of its leaves by
  `extends_of_mem_leaves`.
* `extends_of_validate` is by induction on the type.
-/

namespace CallContract

/-! ## Numbers -/

namespace Binary64

/-- The number that a float denotes. -/
def value (x : Binary64) : ℚ :=
  (if x.negative then -1 else 1) * (x.mantissa * 2 ^ x.exponent)

theorem ratio_eq (x : Binary64) : (x.ratio.1 : ℚ) / x.ratio.2 = x.mantissa * 2 ^ x.exponent := by
  rw [ratio]
  split
  · rename_i positive
    have power : (2 : ℚ) ^ x.exponent = 2 ^ x.exponent.toNat := by
      rw [← zpow_natCast, Int.toNat_of_nonneg positive]
    rw [power]
    simp
  · rename_i negative
    have power : (2 : ℚ) ^ x.exponent = (2 ^ (-x.exponent).toNat)⁻¹ := by
      rw [← zpow_natCast, Int.toNat_of_nonneg (by omega), zpow_neg, inv_inv]
    rw [power, div_eq_mul_inv]
    simp

/-- A float that denotes an integer is that number. -/
theorem value_of_toInt? {x : Binary64} {i : Int} (whole : x.toInt? = some i) : x.value = i := by
  unfold toInt? at whole
  dsimp only at whole
  split at whole
  · rename_i divides
    have quotient : ((x.ratio.1 / x.ratio.2 : Nat) : ℚ) = x.mantissa * 2 ^ x.exponent := by
      rw [← x.ratio_eq]
      exact Nat.cast_div_charZero (Nat.dvd_of_mod_eq_zero divides)
    rw [value, ← quotient, ← Option.some.inj whole]
    split
    · rw [Int.cast_neg, Int.cast_natCast, neg_one_mul]
    · rw [Int.cast_natCast, one_mul]
  · cases whole

end Binary64

/-! ## Extensions -/

/-- A value that has no parts. -/
def Json.isScalar : Json → Bool
  | .arr _ | .obj _ => false
  | _ => true

/-- What a scalar type may make of a scalar: the same one, the integer that a float denotes, or the
float that an integer is converted to. -/
inductive ScalarBecomes : Primitive → Json → Json → Prop
  | same {kind : Primitive} {v : Json} (scalar : v.isScalar = true) : ScalarBecomes kind v v
  | integral {x : Binary64} {i : Int} {h : Json.IsWord i} (whole : x.value = i) :
      ScalarBecomes .integer (.num (.float x)) (.num (.int i h))
  | widened {i : Int} {h : Json.IsWord i} :
      ScalarBecomes .number (.num (.int i h)) (.num (.float (Binary64.ofInt i)))

/-- A payload extends another one at a place of a given type: it has all its items and entries in
their places, each extended at the type of its place. Only a record has more entries than were
there, and these are the defaults of its own fields. -/
inductive Extends : Descriptor → Json → Json → Prop
  | primitive {kind : Primitive} {v w : Json} (becomes : ScalarBecomes kind v w) :
      Extends (.primitive kind) v w
  | null : Extends .none .null .null
  | any (v : Json) : Extends .any v v
  | path (s : String) : Extends .path (.str s) (.str s)
  | enumeration {name : String} {members : List EnumMember} {m : EnumMember} {v : Json}
      (member : m ∈ members) (same : v.equal m.value = true) :
      Extends (.enumeration name members) v m.value
  | list {element : Descriptor} {vs ws : List Json} (length : vs.length = ws.length)
      (items : ∀ (i : Nat) v w, vs[i]? = some v → ws[i]? = some w → Extends element v w) :
      Extends (.list element) (.arr vs) (.arr ws)
  | mapping {key value : Descriptor} {before after : List (String × Json)}
      (keys : after.map Prod.fst = before.map Prod.fst)
      (values : ∀ (i : Nat) p q, before[i]? = some p → after[i]? = some q →
        Extends value p.2 q.2) :
      Extends (.mapping key value) (.obj before) (.obj after)
  | record {name : String} {fields : List (Field Descriptor)} {before after : List (String × Json)}
      (keys : after.map Prod.fst = (Field.merge fields).map Field.name)
      (kept : ∀ k, Keyed.get? k after = none → Keyed.get? k before = none)
      (values : ∀ f ∈ Field.merge fields, ∀ v w, Keyed.get? f.name before = some v →
        Keyed.get? f.name after = some w → Extends f.type v w)
      (added : ∀ f ∈ Field.merge fields, ∀ w, Keyed.get? f.name before = none →
        Keyed.get? f.name after = some w → f.default = some w) :
      Extends (.record name fields) (.obj before) (.obj after)
  | absent {inner : Descriptor} : Extends (.optional inner) .null .null
  | present {inner : Descriptor} {v w : Json} (part : Extends inner v w) :
      Extends (.optional inner) v w
  | alternative {members : List Descriptor} {m : Descriptor} {v w : Json} (member : m ∈ members)
      (part : Extends m v w) : Extends (.union members) v w

/-! ## What types make of payloads -/

section Types

variable {v w : Json}

/-- A scalar is taken as it is, but for floats that are integers and integers among numbers. -/
theorem cases_of_checked_primitive {kind : Primitive}
    (checked : (Descriptor.primitive kind).checked v = some w) :
    (w = v ∧ v.isScalar = true) ∨
      (kind = .integer ∧ ∃ x i h, x.toInt? = some i ∧ v = .num (.float x) ∧ w = .num (.int i h)) ∨
      (kind = .number ∧ ∃ i h, v = .num (.int i h) ∧ w = .num (.float (Binary64.ofInt i))) := by
  simp only [Descriptor.checked, checkedAt, validateAt] at checked
  cases kind with
  | string =>
    cases v with
    | str s => cases checked; exact .inl ⟨rfl, rfl⟩
    | _ => cases checked
  | boolean =>
    cases v with
    | bool b => cases checked; exact .inl ⟨rfl, rfl⟩
    | _ => cases checked
  | integer =>
    cases v with
    | num n =>
      cases n with
      | int i h => cases checked; exact .inl ⟨rfl, rfl⟩
      | float x =>
        rw [validatePrimitive] at checked
        split at checked
        · rename_i i whole
          split at checked
          · cases checked
            exact .inr (.inl ⟨rfl, x, i, _, whole, rfl, rfl⟩)
          · cases checked
        · cases checked
    | _ => cases checked
  | number =>
    cases v with
    | num n =>
      cases n with
      | int i h => cases checked; exact .inr (.inr ⟨rfl, i, h, rfl, rfl⟩)
      | float x => cases checked; exact .inl ⟨rfl, rfl⟩
    | _ => cases checked

theorem extends_primitive {kind : Primitive}
    (checked : (Descriptor.primitive kind).checked v = some w) :
    Extends (.primitive kind) v w := by
  refine .primitive ?_
  rcases cases_of_checked_primitive checked with
    ⟨rfl, scalar⟩ | ⟨rfl, x, i, h, whole, rfl, rfl⟩ | ⟨rfl, i, h, rfl, rfl⟩
  · exact .same scalar
  · exact .integral (Binary64.value_of_toInt? whole)
  · exact .widened

/-- The value of a member that is found for a payload is equal to the payload. -/
theorem equal_of_find? {members : List EnumMember} {m : EnumMember}
    (found : EnumMember.find? v members = some m) : m.value.equal v = true := by
  simpa using List.find?_some found

theorem extends_enumeration {name : String} {members : List EnumMember}
    (checked : (Descriptor.enumeration name members).checked v = some w) :
    Extends (.enumeration name members) v w := by
  rw [Descriptor.checked_enumeration] at checked
  rcases Option.map_eq_some_iff.1 checked with ⟨m, found, rfl⟩
  refine .enumeration (List.mem_of_find?_eq_some found) ?_
  rw [Json.equal_comm]
  exact equal_of_find? found

theorem extends_list {element : Descriptor}
    (part : ∀ v w, element.checked v = some w → Extends element v w)
    (checked : (Descriptor.list element).checked v = some w) : Extends (.list element) v w := by
  rw [Descriptor.checked_list] at checked
  cases v with
  | arr vs =>
    rcases Option.map_eq_some_iff.1 checked with ⟨ws, items, rfl⟩
    have related := (List.mapM_eq_some.1 items).imp part
    exact .list related.length_eq fun i v w => related.of_getElem?
  | _ => cases checked

theorem extends_mapping {key value : Descriptor}
    (part : ∀ v w, value.checked v = some w → Extends value v w)
    (checked : (Descriptor.mapping key value).checked v = some w) :
    Extends (.mapping key value) v w := by
  rw [Descriptor.checked_mapping] at checked
  cases v with
  | obj before =>
    rcases Option.map_eq_some_iff.1 checked with ⟨after, entries, rfl⟩
    have related : List.Forall₂ (fun p q => p.1 = q.1 ∧ Extends value p.2 q.2) before after := by
      refine (List.mapM_eq_some.1 entries).imp fun entry entry' given => ?_
      split at given
      · rcases Option.map_eq_some_iff.1 given with ⟨w, checked, rfl⟩
        exact ⟨rfl, part _ _ checked⟩
      · cases given
    have keys : before.map Prod.fst = after.map Prod.fst :=
      List.map_eq_map_iff_forall₂.2 (related.imp fun _ _ rel => rel.1)
    exact .mapping keys.symm fun i p q left right => (related.of_getElem? left right).2
  | _ => cases checked

/-- A field gives its record what its type makes of its value in the payload, or its default if it
has no value there. -/
theorem Field.cases_of_checked {f : Field Descriptor} {payload : List (String × Json)}
    {p : String × Json} (result : f.checked payload = some p) :
    f.name = p.1 ∧
      ((∃ item, Keyed.get? f.name payload = some item ∧ f.type.checked item = some p.2) ∨
        Keyed.get? f.name payload = none ∧ f.default = some p.2) := by
  rw [Field.checked_eq] at result
  split at result
  · rename_i item found
    rcases Option.map_eq_some_iff.1 result with ⟨y, checked, rfl⟩
    exact ⟨rfl, .inl ⟨item, found, checked⟩⟩
  · rename_i default absent given
    cases result
    exact ⟨rfl, .inr ⟨absent, given⟩⟩
  · cases result

/-- A record takes objects of no other keys than the names of its fields. It makes an object of just
these names, in which each has what its field gives. -/
theorem cases_of_checked_record {name : String} {fields : List (Field Descriptor)}
    (checked : (Descriptor.record name fields).checked v = some w) :
    ∃ before after, v = .obj before ∧ w = .obj after ∧
      (∀ entry ∈ before, entry.1 ∈ fields.map Field.name) ∧
      after.map Prod.fst = (Field.merge fields).map Field.name ∧
      ∀ f ∈ Field.merge fields, ∀ y, Keyed.get? f.name after = some y →
        f.checked before = some (f.name, y) := by
  rw [Descriptor.checked_record] at checked
  cases v with
  | obj before =>
    dsimp only at checked
    split at checked
    · cases checked
    · rename_i noUnknown
      rcases Option.map_eq_some_iff.1 checked with ⟨pairs, results, rfl⟩
      have names (f : Field Descriptor) (p : String × Json) (given : f.checked before = some p) :
          f.name = p.1 := (Field.cases_of_checked given).1
      have merged := Field.forall₂_merge names (List.mapM_eq_some.1 results)
      refine ⟨before, _, rfl, rfl, fun entry member => ?_,
        (List.map_eq_map_iff_forall₂.2 (merged.imp names)).symm, fun f member y found => ?_⟩
      · by_contra other
        refine noUnknown (Descriptor.isSome_unknownField?.2 ⟨entry, member, fun f listed same => ?_⟩)
        exact other (List.mem_map.2 ⟨f, listed, same⟩)
      · rcases merged.exists_of_mem_right (Keyed.mem_of_get? found) with ⟨g, member', given⟩
        -- Merged fields have names of their own, so the field that gives the value is this one.
        cases List.inj_on_of_nodup_map (Field.nodup_names_merge fields) member' member
          (names g _ given)
        exact given
  | _ => cases checked

theorem extends_record {name : String} {fields : List (Field Descriptor)}
    (part : ∀ f ∈ Field.merge fields, ∀ v w, f.type.checked v = some w → Extends f.type v w)
    (checked : (Descriptor.record name fields).checked v = some w) :
    Extends (.record name fields) v w := by
  rcases cases_of_checked_record checked with ⟨before, after, rfl, rfl, known, keys, gives⟩
  refine .record keys ?_ ?_ ?_
  · intro k absent
    cases given : Keyed.get? k before with
    | none => rfl
    | some item =>
      have there : k ∈ after.map Prod.fst := by
        rw [keys, Field.mem_names_merge]
        exact known _ (Keyed.mem_of_get? given)
      rw [← Keyed.contains_iff, Keyed.contains, absent] at there
      cases there
  · intro f member v w given found
    rcases Field.cases_of_checked (gives f member w found) with
      ⟨_, ⟨item, there, checked⟩ | ⟨absent, _⟩⟩
    · cases given.symm.trans there
      exact part f member v w checked
    · cases given.symm.trans absent
  · intro f member w absent found
    rcases Field.cases_of_checked (gives f member w found) with
      ⟨_, ⟨item, there, _⟩ | ⟨_, default⟩⟩
    · cases absent.symm.trans there
    · exact default

end Types

mutual
/-- What extends a payload at a leaf extends it at the type that the leaf belongs to. -/
theorem extends_of_mem_leaves {m : Descriptor} {v w : Json} (part : Extends m v w) :
    (t : Descriptor) → m ∈ t.leaves → Extends t v w
  | .optional inner, leaf => by
    rw [Descriptor.leaves, List.mem_append, List.mem_singleton] at leaf
    rcases leaf with leaf | rfl
    · exact .present (extends_of_mem_leaves part inner leaf)
    · cases part
      exact .absent
  | .union members, leaf => by
    rw [Descriptor.leaves] at leaf
    rcases extends_of_mem_leavesOfAll part members leaf with ⟨t, member, extended⟩
    exact .alternative member extended
  | .primitive _, leaf | .none, leaf | .any, leaf | .list _, leaf | .mapping _ _, leaf
  | .record _ _, leaf | .enumeration _ _, leaf | .path, leaf | .fileData, leaf => by
    rw [Descriptor.leaves, List.mem_singleton] at leaf
    exact leaf ▸ part

theorem extends_of_mem_leavesOfAll {m : Descriptor} {v w : Json} (part : Extends m v w) :
    (ts : List Descriptor) → m ∈ Descriptor.leavesOfAll ts → ∃ t ∈ ts, Extends t v w
  | [], leaf => nomatch leaf
  | t :: rest, leaf => by
    rw [Descriptor.leavesOfAll, List.mem_append] at leaf
    rw [List.exists_mem_cons_iff]
    exact leaf.imp (extends_of_mem_leaves part t) (extends_of_mem_leavesOfAll part rest)
end

/-- A field of a record has an extension of what it had in the payload, or else its default. -/
theorem Extends.of_record {name : String} {fields : List (Field Descriptor)}
    {before after : List (String × Json)}
    (extended : Extends (.record name fields) (.obj before) (.obj after))
    (distinct : (fields.map Field.name).Nodup) {f : Field Descriptor} (member : f ∈ fields)
    {w : Json} (found : Keyed.get? f.name after = some w) :
    (∃ v, Keyed.get? f.name before = some v ∧ Extends f.type v w) ∨
      Keyed.get? f.name before = none ∧ f.default = some w := by
  rw [← Field.merge_of_nodup distinct] at member
  cases extended with
  | record _ _ values added =>
    cases given : Keyed.get? f.name before with
    | some v => exact .inl ⟨v, rfl, values f member v w given found⟩
    | none => exact .inr ⟨rfl, added f member w given found⟩

/-- What a type without file data inside makes of a payload extends the payload. -/
theorem extends_of_checked {t : Descriptor} :
    ¬t.Contains .fileData → ∀ v w, t.checked v = some w → Extends t v w := by
  induction t using Descriptor.leafInduction with
  | primitive kind => exact fun _ v w => extends_primitive
  | none =>
    intro _ v w checked
    rw [Descriptor.checked_none] at checked
    split at checked
    · rename_i null
      cases checked
      rw [Json.isNull_iff.1 null]
      exact .null
    · cases checked
  | any =>
    intro _ v w checked
    cases Descriptor.checked_any.symm.trans checked
    exact .any v
  | path =>
    intro _ v w checked
    cases v with
    | str s =>
      simp only [Descriptor.checked, checkedAt, validateAt] at checked
      cases checked
      exact .path s
    | _ => simp [Descriptor.checked, checkedAt, validateAt, Except.toOption] at checked
  | fileData => exact fun noFiles => absurd .refl noFiles
  | enumeration name members => exact fun _ v w => extends_enumeration
  | list element ih =>
    intro noFiles v w
    exact extends_list (ih fun found => noFiles (.head .element found))
  | mapping key value _ ih =>
    intro noFiles v w
    exact extends_mapping (ih fun found => noFiles (.head .value found))
  | record name fields ih =>
    intro noFiles v w
    refine extends_record fun f member => ?_
    exact ih f (Field.mem_of_mem_merge member) fun found => noFiles (.head (.field member) found)
  | union t hu ih =>
    intro noFiles v w checked
    rw [Descriptor.checked_union hu] at checked
    split at checked
    · rename_i null
      cases checked
      rw [Bool.and_eq_true, Descriptor.splitNull_snd hu, List.any_eq_true] at null
      rcases null with ⟨null, leaf, member, isNone⟩
      rw [Json.isNull_iff.1 null]
      exact extends_of_mem_leaves .null t (Descriptor.eq_none_of_isNone isNone ▸ member)
    · -- The alternative that fits first is a leaf, and there are only unions on the way to it.
      rcases List.exists_of_findSome?_eq_some checked with ⟨m, member, fits⟩
      have leaf := Descriptor.mem_leaves_of_mem_splitNull t member
      have inside := Descriptor.contains_of_mem_splitNull hu member
      exact extends_of_mem_leaves (ih m leaf (fun found => noFiles (inside.trans found)) v w fits) t
        leaf

/-- A payload that fits a type without file data inside becomes a payload that extends it. -/
theorem extends_of_validate {t : Descriptor} {v : Json} {x : Value}
    (noFiles : ¬t.Contains .fileData) (fits : validate t v = .ok x) : Extends t v x.toJson := by
  refine extends_of_checked noFiles v x.toJson ?_
  rw [Descriptor.checked_eq, fits]
  rfl

/-- A value in some unit, which is the one given if none is said. -/
def quantity (name unit : String) : Descriptor :=
  .record name [
    { name := "value", type := .number },
    { name := "unit", type := .string, default := some (.str unit) }]

/-- Two values in different units. -/
def reading : Descriptor :=
  .record "Reading" [
    { name := "length", type := quantity "Length" "m" },
    { name := "weight", type := quantity "Weight" "kg" }]

/-- A payload with two values that say no units. -/
def unitless : Json :=
  .obj [("length", .obj [("value", .num (.int 2 (by decide)))]),
    ("weight", .obj [("value", .num (.int 60 (by decide)))])]

/-- Two values with units. -/
def measured (length weight : String) : Value :=
  .record "Reading" [
    ("length", .record "Length"
      [("value", .number (Binary64.ofInt 2)), ("unit", .raw (.str length))]),
    ("weight", .record "Weight"
      [("value", .number (Binary64.ofInt 60)), ("unit", .raw (.str weight))])]

theorem not_contains_primitive (kind : Primitive) :
    ¬(Descriptor.primitive kind).Contains .fileData := by
  intro found
  rcases Descriptor.contains_iff.1 found with same | ⟨part, step, found⟩
  · cases same
  · cases step

/-- A record has no file data inside if its fields have none. -/
theorem not_contains_record {fields : List (Field Descriptor)}
    (parts : ∀ f ∈ fields, ¬f.type.Contains .fileData) (name : String) :
    ¬(Descriptor.record name fields).Contains .fileData := by
  intro found
  rcases Descriptor.contains_iff.1 found with same | ⟨part, step, found⟩
  · cases same
  · cases step with
    | field member => exact parts _ (Field.mem_of_mem_merge member) found

theorem not_contains_quantity (name unit : String) :
    ¬(quantity name unit).Contains .fileData := by
  refine not_contains_record (List.forall_mem_cons.2 ⟨?_, List.forall_mem_singleton.2 ?_⟩) name
  · exact not_contains_primitive .number
  · exact not_contains_primitive .string

theorem not_contains_reading : ¬reading.Contains .fileData := by
  refine not_contains_record (List.forall_mem_cons.2 ⟨?_, List.forall_mem_singleton.2 ?_⟩) _
  · exact not_contains_quantity "Length" "m"
  · exact not_contains_quantity "Weight" "kg"

theorem validate_reading : validate reading unitless = .ok (measured "m" "kg") := by
  rw [validate, reading, unitless, validateAt_record]
  simp [validateField, Keyed.get?, quantity, validateAt_record, validateAt, validatePrimitive]
  rfl

/-- A unit that is filled in is the unit of the record. -/
theorem unit_of_extends_quantity {name unit filled : String} {x y : Json}
    (extended : Extends (quantity name unit) (.obj [("value", x)])
      (.obj [("value", y), ("unit", .str filled)])) : unit = filled := by
  have names : ["value", "unit"].Nodup := by decide
  have found : Keyed.get? "unit" [("value", y), ("unit", .str filled)] = some (.str filled) := rfl
  rcases extended.of_record names (List.mem_cons_of_mem _ List.mem_cons_self) found with
    ⟨v, given, _⟩ | ⟨_, default⟩
  · cases given
  · cases default
    rfl

/-- The units of one record are not those of the other one. -/
theorem not_extends_exchanged : ¬Extends reading unitless (measured "kg" "m").toJson := by
  intro extended
  have distinct : ["length", "weight"].Nodup := by decide
  rcases extended.of_record distinct List.mem_cons_self rfl with
    ⟨v, given, inner⟩ | ⟨_, default⟩
  · cases given
    exact absurd (unit_of_extends_quantity inner) (by decide)
  · cases default

/-- Integers are widened, and each record fills in the unit of its own. -/
theorem extends_of_validate_reading :
    ¬reading.Contains .fileData ∧ validate reading unitless = .ok (measured "m" "kg") ∧
      Extends reading unitless (measured "m" "kg").toJson ∧
      ¬Extends reading unitless (measured "kg" "m").toJson :=
  ⟨not_contains_reading, validate_reading,
    extends_of_validate not_contains_reading validate_reading, not_extends_exchanged⟩

end CallContract
