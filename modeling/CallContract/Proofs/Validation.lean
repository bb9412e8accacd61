import CallContract.Proofs.Records
import CallContract.Value.Validate

/-!
# What payloads become

A type turns a payload into a payload with its defaults filled in, or refuses it; where in a larger
payload it stands does not matter.

* `Descriptor.checked` is that partial map; `checkedAt_eq_checked` says that the place does not
  matter.
* `Descriptor.checked_list`, `Descriptor.checked_mapping`, `Descriptor.checked_record` and
  `Descriptor.checked_union` are its rules.
-/

namespace CallContract

theorem Json.isNull_eq_false {v : Json} (notNull : v ≠ .null) : v.isNull = false :=
  eq_false_of_ne_true fun null => notNull (Json.isNull_iff.1 null)

/-- Whether a key of an object fits a key type, wherever it stands. -/
def Descriptor.admitsKey (t : Descriptor) (key : String) : Bool :=
  (checkKey [] t key).toOption.isSome

/-- The payload that a value of a type stands for, for a payload that stands in some place. -/
def checkedAt (place : Pointer) (t : Descriptor) (v : Json) : Option Json :=
  (validateAt place t v).toOption.map Value.toJson

/-- The payload that a type makes of a payload, if it fits. -/
def Descriptor.checked (t : Descriptor) (v : Json) : Option Json :=
  checkedAt [] t v

/-- What a field makes of the payload of its record. -/
def Field.checkedAt (place : Pointer) (payload : List (String × Json)) (f : Field Descriptor) :
    Option (String × Json) :=
  match Keyed.get? f.name payload, f.default with
  | some item, _ => (CallContract.checkedAt (place ++ [f.name]) f.type item).map (f.name, ·)
  | none, some default => some (f.name, default)
  | none, none => none

/-- What a field makes of the payload of its record, wherever it stands. -/
def Field.checked (payload : List (String × Json)) (f : Field Descriptor) :
    Option (String × Json) :=
  f.checkedAt [] payload

/-! ## The rules, in a place -/

section Places

variable {place : Pointer} {v : Json}

theorem isSome_checkKey (place : Pointer) (t : Descriptor) (key : String) :
    (checkKey place t key).toOption.isSome = t.admitsKey key := by
  rw [Descriptor.admitsKey]
  cases t with
  | primitive kind =>
    cases kind with
    | string => rfl
    | boolean => simp only [checkKey]; split <;> rfl
    | integer => simp only [checkKey]; split <;> rfl
    | number => simp only [checkKey]; split <;> rfl
  | _ => rfl

theorem checkedAt_list (element : Descriptor) :
    checkedAt place (.list element) v =
      match v with
      | .arr items =>
        (items.zipIdx.mapM fun x =>
          checkedAt (place ++ [Decimal.natText x.2]) element x.1).map .arr
      | _ => none := by
  cases v with
  | arr items =>
    have unfolded : validateAt place (.list element) (.arr items) =
        Value.list <$> items.zipIdx.mapM fun x =>
          validateAt (place ++ [Decimal.natText x.2]) element x.1 := by
      rw [validateAt]
      rfl
    have values : Value.toJson ∘ Value.list = Json.arr ∘ List.map Value.toJson :=
      funext fun xs => congrArg Json.arr (Value.itemsToJson_eq_map xs)
    simp only [checkedAt]
    rw [unfolded, Except.toOption_map, List.toOption_mapM, Option.map_map, values, ← List.map_mapM,
      Option.map_map]
  | _ => simp [checkedAt, validateAt, Except.toOption]

/-- An entry of an object under a mapping: its key is checked before its value. -/
def validateEntry (place : Pointer) (key value : Descriptor) (entry : String × Json) :
    Except ConstructionError (String × Value) := do
  checkKey (place ++ [entry.1]) key entry.1
  let x ← validateAt (place ++ [entry.1]) value entry.2
  return (entry.1, x)

theorem toOption_validateEntry (key value : Descriptor) (entry : String × Json) :
    (validateEntry place key value entry).toOption.map (fun x => (x.1, x.2.toJson)) =
      if key.admitsKey entry.1 then
        (checkedAt (place ++ [entry.1]) value entry.2).map (entry.1, ·)
      else none := by
  rw [← isSome_checkKey (place ++ [entry.1]), checkedAt, validateEntry]
  cases checkKey (place ++ [entry.1]) key entry.1 with
  | error e => rfl
  | ok u =>
    cases validateAt (place ++ [entry.1]) value entry.2 with
    | error e => rfl
    | ok x => rfl

theorem toJson_fields (entries : List (String × Value)) :
    Value.fieldsToJson entries = entries.map fun x => (x.1, x.2.toJson) :=
  Value.fieldsToJson_eq_map entries

theorem checkedAt_mapping (key value : Descriptor) :
    checkedAt place (.mapping key value) v =
      match v with
      | .obj entries =>
        (entries.mapM fun entry =>
          if key.admitsKey entry.1 then
            (checkedAt (place ++ [entry.1]) value entry.2).map (entry.1, ·)
          else none).map .obj
      | _ => none := by
  cases v with
  | obj entries =>
    have unfolded : validateAt place (.mapping key value) (.obj entries) =
        Value.map <$> entries.mapM (validateEntry place key value) := by
      rw [validateAt]
      rfl
    have values : Value.toJson ∘ Value.map = Json.obj ∘ List.map fun x => (x.1, x.2.toJson) :=
      funext fun xs => congrArg Json.obj (toJson_fields xs)
    simp only [← toOption_validateEntry]
    rw [checkedAt, unfolded, Except.toOption_map, List.toOption_mapM, Option.map_map, values,
      ← List.map_mapM, Option.map_map]
  | _ => simp [checkedAt, validateAt, Except.toOption]

/-- A field of a record in the payload of the record. -/
def validateField (name : String) (place : Pointer) (payload : List (String × Json))
    (f : Field Descriptor) : Except ConstructionError (String × Value) :=
  match Keyed.get? f.name payload, f.default with
  | some item, _ => do
    let x ← validateAt (place ++ [f.name]) f.type item
    return (f.name, x)
  | none, some default => .ok (f.name, .raw default)
  | none, none => .error (.missingField name f.name)

theorem toOption_validateField (name : String) (payload : List (String × Json))
    (f : Field Descriptor) :
    (validateField name place payload f).toOption.map (fun x => (x.1, x.2.toJson)) =
      f.checkedAt place payload := by
  rw [validateField, Field.checkedAt]
  cases Keyed.get? f.name payload with
  | some item =>
    simp only [checkedAt]
    cases validateAt (place ++ [f.name]) f.type item with
    | error e => rfl
    | ok x => rfl
  | none => cases f.default <;> rfl

theorem validateAt_record (name : String) (fields : List (Field Descriptor))
    (payload : List (String × Json)) :
    validateAt place (.record name fields) (.obj payload) =
      match unknownField? fields payload with
      | some field => .error (.unknownField name field)
      | none =>
        (fun values => Value.record name (Keyed.ofPairs values)) <$>
          fields.mapM (validateField name place payload) := by
  rw [validateAt]
  cases unknownField? fields payload with
  | some field => rfl
  | none =>
    have attached : (fields.attach.mapM fun f => validateField name place payload f.val) =
        fields.mapM (validateField name place payload) := by
      conv => rhs; rw [← List.attach_map_subtype_val fields]
      rw [List.mapM_map]
      rfl
    rw [← attached]
    rfl

theorem checkedAt_record (name : String) (fields : List (Field Descriptor)) :
    checkedAt place (.record name fields) v =
      match v with
      | .obj payload =>
        if (unknownField? fields payload).isSome then none
        else (fields.mapM (Field.checkedAt place payload)).map fun xs => .obj (Keyed.ofPairs xs)
      | _ => none := by
  cases v with
  | obj payload =>
    have read : Field.checkedAt place payload = fun f =>
        (validateField name place payload f).toOption.map fun x => (x.1, x.2.toJson) :=
      funext fun f => (toOption_validateField name payload f).symm
    simp only [read]
    rw [checkedAt, validateAt_record]
    cases unknownField? fields payload with
    | some field => rfl
    | none =>
      have values : (Value.toJson ∘ fun xs => Value.record name (Keyed.ofPairs xs)) =
          (fun xs => Json.obj (Keyed.ofPairs xs)) ∘ List.map fun x => (x.1, x.2.toJson) := by
        funext xs
        refine congrArg Json.obj ?_
        rw [toJson_fields, ← Keyed.ofPairs_map fun x : String × Value => x.2.toJson]
      rw [Except.toOption_map, List.toOption_mapM, Option.map_map, values, ← List.map_mapM,
        Option.map_map]
      rfl
  | _ => simp [checkedAt, validateAt, Except.toOption]

theorem checkedAt_union {t : Descriptor} (hu : t.isUnion = true) :
    checkedAt place t v =
      if v.isNull && t.splitNull.2 then some .null
      else t.splitNull.1.findSome? fun m => checkedAt place m v := by
  rw [checkedAt, validateAt_union hu]
  split
  · rfl
  · split
    · rename_i only single
      rw [single, List.findSome?_cons, checkedAt]
      cases (validateAt place only v).toOption.map Value.toJson <;> rfl
    · have found : (t.splitNull.1.findSome? fun m => checkedAt place m v) =
          (t.splitNull.1.findSome? fun m => (validateAt place m v).toOption).map Value.toJson :=
        List.map_findSome?.symm
      rw [found]
      cases t.splitNull.1.findSome? fun m => (validateAt place m v).toOption <;> rfl

end Places

/-! ## The rules, wherever the payload stands -/

/-- Where a payload stands does not matter. -/
theorem checkedAt_eq_checked (t : Descriptor) : ∀ place v, checkedAt place t v = t.checked v := by
  induction t using Descriptor.leafInduction with
  | primitive kind =>
    intro place v
    simp only [Descriptor.checked, checkedAt, validateAt]
    cases kind with
    | integer =>
      cases v with
      | num n =>
        cases n with
        | int i h => rfl
        | float x =>
          simp only [validatePrimitive]
          cases x.toInt? with
          | none => rfl
          | some i => dsimp only; split <;> rfl
      | _ => rfl
    | number =>
      cases v with
      | num n => cases n <;> rfl
      | _ => rfl
    | _ => cases v <;> rfl
  | none =>
    intro place v
    simp only [Descriptor.checked, checkedAt, validateAt]
    split <;> rfl
  | path =>
    intro place v
    cases v <;> simp [Descriptor.checked, checkedAt, validateAt, Except.toOption]
  | list element ih =>
    intro place v
    rw [Descriptor.checked, checkedAt_list, checkedAt_list]
    simp only [ih]
  | mapping key value _ ih =>
    intro place v
    rw [Descriptor.checked, checkedAt_mapping, checkedAt_mapping]
    simp only [ih]
  | record name fields ih =>
    intro place v
    rw [Descriptor.checked, checkedAt_record, checkedAt_record]
    cases v with
    | obj payload =>
      have same : fields.mapM (Field.checkedAt place payload) =
          fields.mapM (Field.checkedAt [] payload) := by
        refine List.mapM_congr_of_mem fun f member => ?_
        simp only [Field.checkedAt, ih f member]
      simp only [same]
    | _ => rfl
  | union t hu ih =>
    intro place v
    rw [Descriptor.checked, checkedAt_union hu, checkedAt_union hu]
    have found : (t.splitNull.1.findSome? fun m => checkedAt place m v) =
        t.splitNull.1.findSome? fun m => checkedAt [] m v := by
      refine List.findSome?_congr_of_mem fun m member => ?_
      have leaf := Descriptor.mem_leaves_of_mem_splitNull t member
      rw [ih m leaf, ih m leaf]
    rw [found]
  | _ =>
    intro place v
    simp [Descriptor.checked, checkedAt, validateAt]

namespace Descriptor

variable {v : Json}

theorem checked_list (element : Descriptor) :
    (list element).checked v =
      match v with
      | .arr items => (items.mapM element.checked).map .arr
      | _ => Option.none := by
  rw [checked, checkedAt_list]
  simp only [checkedAt_eq_checked]
  cases v with
  | arr items => exact congrArg (Option.map Json.arr) (List.mapM_zipIdx element.checked items 0)
  | _ => rfl

theorem checked_mapping (key value : Descriptor) :
    (mapping key value).checked v =
      match v with
      | .obj entries =>
        (entries.mapM fun entry =>
          if key.admitsKey entry.1 then (value.checked entry.2).map (entry.1, ·)
          else Option.none).map .obj
      | _ => Option.none := by
  rw [checked, checkedAt_mapping]
  simp only [checkedAt_eq_checked]

theorem checked_record (name : String) (fields : List (Field Descriptor)) :
    (record name fields).checked v =
      match v with
      | .obj payload =>
        if (unknownField? fields payload).isSome then Option.none
        else (fields.mapM (Field.checked payload)).map fun xs => .obj (Keyed.ofPairs xs)
      | _ => Option.none := by
  rw [checked, checkedAt_record]
  rfl

theorem checked_union {t : Descriptor} (hu : t.isUnion = true) :
    t.checked v =
      if v.isNull && t.splitNull.2 then some .null
      else t.splitNull.1.findSome? fun m => m.checked v := by
  rw [checked, checkedAt_union hu]
  rfl

theorem checked_none :
    Descriptor.none.checked v = if v.isNull then some .null else Option.none := by
  rw [checked, checkedAt, validateAt]
  split <;> rfl

theorem checked_any : Descriptor.any.checked v = some v := by
  rw [checked, checkedAt, validateAt]
  rfl

theorem checked_fileData :
    Descriptor.fileData.checked v = (FileData.ofJson v).toOption.map FileData.toJson := by
  rw [checked, checkedAt, validateAt]
  cases FileData.ofJson v <;> rfl

theorem checked_enumeration (name : String) (members : List EnumMember) :
    (enumeration name members).checked v = (EnumMember.find? v members).map EnumMember.value := by
  rw [checked, checkedAt, validateAt, validateEnum]
  cases EnumMember.find? v members <;> rfl

end Descriptor

theorem Field.checked_eq (payload : List (String × Json)) (f : Field Descriptor) :
    f.checked payload =
      match Keyed.get? f.name payload, f.default with
      | some item, _ => (f.type.checked item).map (f.name, ·)
      | none, some default => some (f.name, default)
      | none, none => none := by
  simp only [Field.checked, Field.checkedAt, checkedAt_eq_checked]

end CallContract
