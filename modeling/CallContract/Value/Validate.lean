import CallContract.Value.Key

/-!
# Checking payloads against types

* `validate t v` is the value of type `t` that the payload `v` stands for, or why there is none.
* Of the alternatives of a union the first that fits is taken; a union of one alternative and null
  is that alternative, and its error is the union's.
* `validateFields` checks the fields of a record: none may be unknown, and a field left out takes its
  default as it is.
* `validateAt_union` is the rule for unions.
-/

namespace CallContract

/-- Checks a scalar. Integral floats are integers, and integers are numbers. -/
def validatePrimitive (place : Pointer) (kind : Primitive) (v : Json) :
    Except ConstructionError Value :=
  let mismatch : Except ConstructionError Value :=
    .error (.typeMismatch place (.primitive kind) v.kind)
  match kind, v with
  | .string, .str s => .ok (.string s)
  | .boolean, .bool b => .ok (.bool b)
  | .integer, .num (.int i h) => .ok (.int i h)
  | .integer, .num (.float x) =>
    match x.toInt? with
    | some i => if h : Json.IsSignedWord i then .ok (.int i h.isWord) else mismatch
    | none => mismatch
  | .number, .num (.int i _) => .ok (.number (Binary64.ofInt i))
  | .number, .num (.float x) => .ok (.number x)
  | _, _ => mismatch

/-- The first field of a payload that a record does not have. -/
def unknownField? (fields : List (Field Descriptor)) (payload : List (String × Json)) :
    Option String :=
  (payload.find? fun (key, _) => (Field.find? key fields).isNone).map Prod.fst

open Descriptor (sizeOf_lt_of_mem_splitNull sizeOf_lt_of_mem_fields)

mutual
/-- Checks a payload that stands in some place against a type. -/
def validateAt (place : Pointer) (t : Descriptor) (v : Json) : Except ConstructionError Value :=
  match t with
  | .primitive kind => validatePrimitive place kind v
  | .none => if v.isNull then .ok .null else .error (.typeMismatch place .null v.kind)
  | .any => .ok (.raw v)
  | .path =>
    match v with
    | .str s => .ok (.path s)
    | _ => .error (.typeMismatch place .path v.kind)
  | .fileData => (FileData.ofJson v).map .fileData |>.mapError .fileData
  | .enumeration name members => (validateEnum name members v).map (.enumMember name)
  | .list element =>
    match v with
    | .arr items => do
      let values ← items.zipIdx.mapM fun (item, i) =>
        validateAt (place ++ [Decimal.natText i]) element item
      return .list values
    | _ => .error (.typeMismatch place .array v.kind)
  | .mapping key value =>
    match v with
    | .obj entries => do
      let values ← entries.mapM fun (k, item) => do
        checkKey (place ++ [k]) key k
        let x ← validateAt (place ++ [k]) value item
        return (k, x)
      return .map values
    | _ => .error (.typeMismatch place .object v.kind)
  | .record name fields =>
    match v with
    | .obj payload =>
      match unknownField? fields payload with
      | some field => .error (.unknownField name field)
      | Option.none => do
        let values ← fields.attach.mapM fun ⟨f, h⟩ =>
          have := sizeOf_lt_of_mem_fields h
          match Keyed.get? f.name payload, f.default with
          | some item, _ => do
            let x ← validateAt (place ++ [f.name]) f.type item
            return (f.name, x)
          | Option.none, some d => .ok (f.name, .raw d)
          | Option.none, Option.none => .error (.missingField name f.name)
        return .record name (Keyed.ofPairs values)
    | _ => .error (.typeMismatch place .object v.kind)
  | .optional inner => validateUnion place (.optional inner) rfl v
  | .union members => validateUnion place (.union members) rfl v
termination_by (sizeOf t, 1)

/-- Checks a payload against a union. -/
def validateUnion (place : Pointer) (t : Descriptor) (hu : t.isUnion = true) (v : Json) :
    Except ConstructionError Value :=
  if v.isNull && t.splitNull.2 then .ok .null
  else
    match t.splitNull.1.attach with
    | [⟨only, h⟩] =>
      have := sizeOf_lt_of_mem_splitNull hu h
      validateAt place only v
    | alternatives =>
      match alternatives.findSome? fun ⟨m, h⟩ =>
        have := sizeOf_lt_of_mem_splitNull hu h
        (validateAt place m v).toOption with
      | some x => .ok x
      | none => .error (.noMatchingAlternative place)
termination_by (sizeOf t, 0)
end

/-- The value of a type that a payload stands for. -/
def validate (t : Descriptor) (v : Json) : Except ConstructionError Value :=
  validateAt [] t v

/-- A payload fits a union if it is null and the union has null, or if it fits an alternative. -/
theorem validateAt_union {t : Descriptor} (hu : t.isUnion = true) (place : Pointer) (v : Json) :
    validateAt place t v =
      if v.isNull && t.splitNull.2 then .ok .null
      else
        match t.splitNull.1 with
        | [only] => validateAt place only v
        | alternatives =>
          match alternatives.findSome? fun m => (validateAt place m v).toOption with
          | some x => .ok x
          | none => .error (.noMatchingAlternative place) := by
  have h : validateAt place t v = validateUnion place t hu v := by
    cases t with
    | optional inner => rw [validateAt]
    | union members => rw [validateAt]
    | _ => simp [Descriptor.isUnion] at hu
  rw [h, validateUnion]
  split
  · rfl
  · have hval : t.splitNull.1.attach.map Subtype.val = t.splitNull.1 := List.attach_map_subtype_val _
    conv => rhs; rw [← hval]
    generalize t.splitNull.1.attach = alternatives
    rcases alternatives with _ | ⟨a, _ | ⟨b, rest⟩⟩
    · rfl
    · rfl
    · simp only [List.map_cons, List.findSome?_cons, List.findSome?_map, Function.comp_def]

end CallContract
