import CallContract.Proofs.Agreement
import CallContract.Signature.Coerce
import CallContract.Signature.Schema
import Mathlib.Data.List.Nodup

/-!
# Requests and their schema

The schema of requests to a function is the document of a record, the parameters that are shown
being its fields, but for a list of required names that is left out where it would be empty.

* `requestType` is that record. `decode_inputSchema`: the schema is decoded as its normal form.
* `exists_coerceParams_iff`: a request is coerced if each parameter takes its argument in the request.
* `coerce_of_validate`: what the type decoded from the schema accepts is coerced. Arguments of hidden
  parameters are unknown to that type, and an argument that it accepts for a parameter fits the type
  of the parameter.
-/

namespace CallContract

open Node (HasPlainType Reads)

/-! ## The schema of requests -/

/-- The type of requests that hold arguments for some parameters. -/
def requestType (params : List Parameter) : Descriptor :=
  .record "request" (params.map Parameter.toField)

/-- The parts of a node of requests. -/
def Node.requestParts (properties : List (String × Json)) (required : List String) :
    List (String × Json) :=
  [("type", .str "object"), ("properties", .obj properties)] ++
    if required.isEmpty then [] else [("required", .arr (required.map .str))]

theorem checkParameters_eq_ok_iff {params : List Parameter} :
    checkParameters params = .ok () ↔ ∀ p ∈ params, p.kind.isVariadic = false := by
  unfold checkParameters
  split
  · rename_i none
    simpa using none
  · rename_i some
    refine iff_of_false nofun ?_
    intro fixed
    exact some (List.filter_eq_nil_iff.2 fun p member => by simp [fixed p member])

/-- The schema of requests is that of null without parameters, and otherwise that of their record. No
parameter is variadic. -/
theorem parametersSchema_eq_ok_iff {params : List Parameter} {s : Json} :
    parametersSchema params = .ok s ↔
      (∀ p ∈ params, p.kind.isVariadic = false) ∧
        ((params = [] ∧ s = Node.null) ∨
          (params ≠ [] ∧ ∃ properties,
            List.Forall₂ Field.EncodesAs (params.map Parameter.toField) properties ∧
              s = .obj (Node.requestParts (Keyed.ofPairs properties)
                (Field.requiredNames (params.map Parameter.toField))))) := by
  rw [parametersSchema, Except.bind_eq_ok, ← checkParameters_eq_ok_iff]
  constructor
  · intro given
    rcases given with ⟨_, checked, schema⟩
    refine ⟨checked, ?_⟩
    split at schema
    · rename_i empty
      exact .inl ⟨List.isEmpty_iff.1 empty, (Except.ok.inj schema).symm⟩
    · rename_i inhabited
      rcases Except.bind_eq_ok.1 schema with ⟨properties, encoded, result⟩
      have related := encodeFields_iff.1 (Except.mapError_eq_ok.1 encoded)
      exact .inr ⟨mt List.isEmpty_iff.2 inhabited, properties, related,
        (Except.ok.inj result).symm⟩
  · intro given
    rcases given with ⟨checked, ⟨rfl, rfl⟩ | ⟨inhabited, properties, related, rfl⟩⟩
    · exact ⟨(), checked, rfl⟩
    · refine ⟨(), checked, ?_⟩
      rw [if_neg (mt List.isEmpty_iff.1 inhabited)]
      have encoded := encodeFields_iff.2 related
      exact Except.bind_eq_ok.2 ⟨properties, Except.mapError_eq_ok.2 encoded, rfl⟩

section RequestParts

variable {properties : List (String × Json)} {required : List String}

/-- What is not a list of required names is found in a node of requests as if there was none. -/
theorem get?_requestParts {key : String} (other : key ≠ "required") :
    Keyed.get? key (Node.requestParts properties required) =
      Keyed.get? key [("type", .str "object"), ("properties", .obj properties)] := by
  unfold Node.requestParts
  split
  · rw [List.append_nil]
  · simp [Keyed.get?_cons, other.symm]

theorem hasPlainType_requestParts :
    HasPlainType "object" (Node.requestParts properties required) where
  noArms := get?_requestParts (by decide)
  type := get?_requestParts (by decide)
  noValues := get?_requestParts (by decide)

theorem not_isMarked_requestParts :
    Node.isMarked "is_file_data" (Node.requestParts properties required) = false :=
  not_isMarked_of_eq (get?_requestParts (by decide))

theorem get?_properties_requestParts :
    Keyed.get? "properties" (Node.requestParts properties required) = some (.obj properties) :=
  get?_requestParts (by decide)

theorem get?_required_requestParts :
    Keyed.get? "required" (Node.requestParts properties required) =
      if required.isEmpty then none else some (.arr (required.map .str)) := by
  unfold Node.requestParts
  split <;> rfl

end RequestParts

section Reading

variable {params : List Parameter} {properties : List (String × Json)}
  (related : List.Forall₂ Field.EncodesAs (params.map Parameter.toField) properties)

include related

/-- The names that a node of requests lists, if any, are those of its properties. -/
theorem requires_requestParts {required : List String}
    (names : required = Field.requiredNames (params.map Parameter.toField)) :
    Node.Requires (Node.requestParts (Keyed.ofPairs properties) required)
      (Keyed.ofPairs properties) (if required.isEmpty then none else some required) := by
  subst names
  have known := (requires_record related).2 _ rfl
  refine ⟨?_, ?_⟩
  · rw [get?_required_requestParts]
    split <;> rfl
  · intro names same
    split at same
    · cases same
    · cases same
      exact known

/-- A node of requests is read as the normal form of the record of the parameters. -/
theorem reads_requestParts :
    Reads (.obj (Node.requestParts (Keyed.ofPairs properties)
        (Field.requiredNames (params.map Parameter.toField))))
      (requestType params).merged.normal.unnamed := by
  refine reads_properties hasPlainType_requestParts not_isMarked_requestParts
    get?_properties_requestParts (requires_requestParts related rfl) ?_ related
    fun f _ s => reads_of_encode
  intro f member absent
  split
  · rfl
  · exact contains_requiredNames member absent

end Reading

section Schema

variable {sig : Signature} {options : SchemaOptions} {s : Json}
  (built : sig.inputSchema options = .ok s)

include built

/-- The record of the parameters that are shown has a node, though it need not be the schema. -/
theorem exists_encode_requestType :
    ∃ node, encode (requestType (sig.shownParams options)) = .ok node := by
  rcases (parametersSchema_eq_ok_iff.1 built).2 with ⟨none, _⟩ | ⟨_, properties, related, _⟩
  · rw [none]
    exact ⟨_, encode_record_iff.2 ⟨[], .nil, rfl⟩⟩
  · exact ⟨_, encode_record_iff.2 ⟨properties, related, rfl⟩⟩

/-- The schema of requests is decoded as the normal form of the record of the parameters that are
shown. -/
theorem decode_inputSchema (name : String) :
    ∃ u, decode s name = .ok u ∧
      u.unnamed = (requestType (sig.shownParams options)).merged.normal.unnamed := by
  rcases (parametersSchema_eq_ok_iff.1 built).2 with ⟨none, rfl⟩ | ⟨_, properties, related, rfl⟩
  · refine ⟨.record name [], rfl, ?_⟩
    rw [none, requestType, Descriptor.merged_record, Descriptor.normal_record]
    rfl
  · have notNull : Node.isNull (.obj (Node.requestParts (Keyed.ofPairs properties)
        (Field.requiredNames ((sig.shownParams options).map Parameter.toField)))) = false :=
      hasPlainType_requestParts.isNull
    rw [decode, notNull]
    exact reads_requestParts related name []

section Payloads

variable {t : Descriptor} {name : String} {v : Json}
  (distinct : (requestType (sig.shownParams options)).DistinctFields)
  (decoded : decode s name = .ok t)

include distinct decoded

/-- The decoded schema accepts what the normal form of the record of the shown parameters does. -/
theorem fits_iff_fits_normal :
    t.Fits v ↔ (requestType (sig.shownParams options)).normal.Fits v := by
  rcases decode_inputSchema built name with ⟨u, again, same⟩
  cases decoded.symm.trans again
  rw [Descriptor.merged_of_distinctFields _ distinct] at same
  rw [← Descriptor.fits_unnamed, same, Descriptor.fits_unnamed]

/-- What the decoded schema accepts fits the record of the shown parameters. -/
theorem fits_requestType_of_fits
    (defaults : (requestType (sig.shownParams options)).NullDefaultsOptional)
    (fits : t.Fits v) : (requestType (sig.shownParams options)).Fits v := by
  rcases exists_encode_requestType built with ⟨node, encoded⟩
  have normalFits := (fits_iff_fits_normal built distinct decoded).1 fits
  exact Descriptor.fits_of_fits_normal encoded defaults v normalFits

/-- Without null, what fits the record is what the decoded schema accepts. -/
theorem fits_iff_fits_requestType (free : v.NullFree) :
    t.Fits v ↔ (requestType (sig.shownParams options)).Fits v := by
  rcases exists_encode_requestType built with ⟨node, encoded⟩
  rw [fits_iff_fits_normal built distinct decoded, Descriptor.fits_iff_isSome,
    Descriptor.checked_normal encoded v free, ← Descriptor.fits_iff_isSome]

end Payloads

end Schema

/-! ## Arguments -/

/-- A parameter takes its argument in a request, if there is one. -/
def Parameter.Takes (request : List (String × Json)) (p : Parameter) : Prop :=
  ∀ argument, Keyed.get? p.name request = some argument →
    ∃ value, coerceArgument p.type argument = .ok value

/-- An argument that fits the type of a parameter makes a value or is taken as it is. -/
theorem coerceArgument_of_fits {t : Descriptor} {argument : Json} (fits : t.Fits argument) :
    ∃ value, coerceArgument t argument = .ok value := by
  rcases fits with ⟨x, accepted⟩
  unfold coerceArgument
  split
  · rw [accepted]
    exact ⟨some x, rfl⟩
  · rw [accepted]
    exact ⟨some x, rfl⟩
  · exact ⟨none, rfl⟩

/-- Arguments are coerced, from whatever values there are so far, if each parameter takes its own. -/
theorem exists_coerceParams_iff {request : List (String × Json)} {params : List Parameter} :
    ∀ {values : List (String × Value)},
      (∃ result, coerceParams request params values = .ok result) ↔
        ∀ p ∈ params, p.Takes request := by
  -- A parameter changes the values for the parameters behind it, but not whether they take theirs.
  induction params with
  | nil =>
    intro values
    exact iff_of_true ⟨values, rfl⟩ (List.forall_mem_nil _)
  | cons p rest ih =>
    intro values
    rw [List.forall_mem_cons, coerceParams, Parameter.Takes]
    cases found : Keyed.get? p.name request with
    | none =>
      have free : ∀ argument, none = some argument →
          ∃ value, coerceArgument p.type argument = .ok value := nofun
      exact ih.trans (and_iff_right free).symm
    | some argument =>
      dsimp only
      cases coerced : coerceArgument p.type argument with
      | error source =>
        refine iff_of_false ?_ ?_
        · intro given
          rcases given with ⟨_, result⟩
          cases result
        · intro given
          rcases given.1 argument rfl with ⟨_, same⟩
          cases coerced.symm.trans same
      | ok value =>
        have taken : ∀ other, some argument = some other →
            ∃ value, coerceArgument p.type other = .ok value := by
          intro other same
          cases same
          exact ⟨value, coerced⟩
        rw [and_iff_right taken]
        cases value with
        | none => exact ih
        | some value => exact ih

/-! ## Coercion -/

section Conditions

variable {params : List Parameter}

theorem distinctFields_requestType (names : (params.map fun p => p.name).Nodup)
    (distinct : ∀ p ∈ params, p.type.DistinctFields) : (requestType params).DistinctFields := by
  refine Descriptor.everyRecord_record.2 ⟨?_, ?_⟩
  · rwa [List.map_map]
  · rwa [List.forall_mem_map]

theorem nullDefaultsOptional_requestType
    (defaults : ∀ p ∈ params, (p.default = some .null → p.type.isOptional = true) ∧
      p.type.NullDefaultsOptional) : (requestType params).NullDefaultsOptional := by
  refine Descriptor.everyRecord_record.2 ⟨?_, ?_⟩
  · rw [List.forall_mem_map]
    exact fun p member => (defaults p member).1
  · rw [List.forall_mem_map]
    exact fun p member => (defaults p member).2

end Conditions

section Coercion

variable {sig : Signature} {options : SchemaOptions}

theorem mem_params_of_mem_shownParams {p : Parameter} (member : p ∈ sig.shownParams options) :
    p ∈ sig.params :=
  List.mem_of_mem_filter member

/-- A request that fits the record of the shown parameters has arguments for no others, and each of
its arguments fits. -/
theorem takes_of_fits_requestType {request : List (String × Json)}
    (names : (sig.params.map fun p => p.name).Nodup)
    (fits : (requestType (sig.shownParams options)).Fits (.obj request)) :
    ∀ p ∈ sig.params, p.Takes request := by
  intro p member argument found
  -- The record knows the name of the argument, and names are distinct: `p` is shown.
  rcases Descriptor.fits_record.1 fits with ⟨payload, same, known, all⟩
  cases same
  rcases known _ (Keyed.mem_of_get? found) with ⟨f, there, named⟩
  rcases List.mem_map.1 there with ⟨q, shown, rfl⟩
  have listed := mem_params_of_mem_shownParams shown
  have same : q = p := List.inj_on_of_nodup_map names listed member named
  subst same
  have taken := all _ there
  rw [Field.FitsIn, found] at taken
  exact coerceArgument_of_fits taken

end Coercion

/-! ## A function and its requests -/

/-- A function of a ticket and a note, which may be left out. Its variadic parameter is hidden. -/
def filing : Signature where
  name := "filing"
  params := [
    { name := "ticket", type := ticket },
    { name := "note", type := .optional .string, default := some .null },
    { name := "usage", type := .any, kind := .varKeyword }]
  returns := .optional (.list ticket)

/-- The schema of requests to `filing`. -/
def filingInputs : Json :=
  .obj (Node.requestParts
    [("ticket", ticketNode), ("note", Node.withDefault (Node.primitive .string) (some .null))]
    ["ticket"])

theorem inputSchema_filing : filing.inputSchema {} = .ok filingInputs := by
  have note := encode_optional_primitive .string
  have shown : filing.shownParams {} = filing.params.take 2 := rfl
  have related : List.Forall₂ Field.EncodesAs ((filing.params.take 2).map Parameter.toField)
      [("ticket", ticketNode),
        ("note", Node.withDefault (Node.primitive .string) (some .null))] :=
    .cons ⟨rfl, ticketNode, encode_ticket, rfl⟩ (.cons ⟨rfl, _, note, rfl⟩ .nil)
  have fixed : ∀ p ∈ filing.params.take 2, p.kind.isVariadic = false :=
    List.forall_mem_cons.2 ⟨rfl, List.forall_mem_singleton.2 rfl⟩
  rw [Signature.inputSchema, shown]
  exact parametersSchema_eq_ok_iff.2 ⟨fixed, .inr ⟨List.cons_ne_nil _ _, _, related, rfl⟩⟩

/-- A request to `filing` that leaves the note out. -/
def filingRequest : List (String × Json) :=
  [("ticket", .obj [("id", .num (.int 7 (by decide)))])]

theorem fits_filingRequest :
    (requestType (filing.shownParams {})).Fits (.obj filingRequest) := by
  have id : (Descriptor.primitive .integer).Fits (.num (.int 7 (by decide))) :=
    Descriptor.fits_primitive.2 (.inl ⟨_, _, rfl⟩)
  have taken : ticket.Fits (.obj [("id", .num (.int 7 (by decide)))]) := by
    refine Descriptor.fits_record.2 ⟨_, rfl, by simp, ?_⟩
    rw [List.forall_mem_cons, List.forall_mem_cons, List.forall_mem_singleton]
    exact ⟨id, rfl, rfl⟩
  have shown : filing.shownParams {} = filing.params.take 2 := rfl
  rw [shown]
  refine Descriptor.fits_record.2 ⟨_, rfl, ?_, ?_⟩
  · exact List.forall_mem_singleton.2 ⟨_, List.mem_cons_self, rfl⟩
  · exact List.forall_mem_cons.2 ⟨taken, List.forall_mem_singleton.2 rfl⟩

theorem nullFree_filingRequest : (Json.obj filingRequest).NullFree := by
  simp [filingRequest, Json.NullFree, Json.NullFreeFields]

/-! ## Requests that are accepted are coerced -/

/-- A request that the type decoded from the schema of a function accepts is coerced by the types of
the function, if names are distinct and a default of null stands only where the type has null. -/
theorem coerce_of_validate {sig : Signature} {options : SchemaOptions} {s : Json}
    (names : (sig.params.map fun p => p.name).Nodup)
    (distinct : ∀ p ∈ sig.params, p.type.DistinctFields)
    (defaults : ∀ p ∈ sig.params, (p.default = some .null → p.type.isOptional = true) ∧
      p.type.NullDefaultsOptional)
    (built : sig.inputSchema options = .ok s) (name : String) :
    ∃ t, decode s name = .ok t ∧ ∀ request,
      (∃ x, validate t (.obj request) = .ok x) → ∃ values, sig.coerce request = .ok values := by
  have shownNames : ((sig.shownParams options).map fun p => p.name).Nodup :=
    names.sublist (List.filter_sublist.map _)
  have listed : ∀ p ∈ sig.shownParams options, p ∈ sig.params :=
    fun p => mem_params_of_mem_shownParams
  have shownDistinct := distinctFields_requestType shownNames fun p member =>
    distinct p (listed p member)
  have shownDefaults := nullDefaultsOptional_requestType fun p member =>
    defaults p (listed p member)
  rcases decode_inputSchema built name with ⟨t, decoded, _⟩
  refine ⟨t, decoded, ?_⟩
  intro request accepted
  have fits := fits_requestType_of_fits built shownDistinct decoded shownDefaults accepted
  exact exists_coerceParams_iff.2 (takes_of_fits_requestType names fits)

theorem distinctFields_filing : ∀ p ∈ filing.params, p.type.DistinctFields := by
  refine List.forall_mem_cons.2 ⟨distinctFields_ticket, ?_⟩
  exact List.forall_mem_cons.2 ⟨trivial, List.forall_mem_singleton.2 trivial⟩

theorem distinctFields_requestType_filing :
    (requestType (filing.shownParams {})).DistinctFields :=
  distinctFields_requestType (by decide) fun p member =>
    distinctFields_filing p (mem_params_of_mem_shownParams member)

theorem coerce_of_validate_filing :
    ∃ t, decode filingInputs "filing" = .ok t ∧
      (∃ x, validate t (.obj filingRequest) = .ok x) ∧
      ∃ values, filing.coerce filingRequest = .ok values := by
  have defaults : ∀ p ∈ filing.params, (p.default = some .null → p.type.isOptional = true) ∧
      p.type.NullDefaultsOptional := by
    refine List.forall_mem_cons.2 ⟨⟨nofun, nullDefaultsOptional_ticket⟩, ?_⟩
    exact List.forall_mem_cons.2 ⟨⟨fun _ => rfl, trivial⟩,
      List.forall_mem_singleton.2 ⟨nofun, trivial⟩⟩
  rcases coerce_of_validate (by decide) distinctFields_filing defaults inputSchema_filing "filing"
    with ⟨t, decoded, coerced⟩
  have accepted : t.Fits (.obj filingRequest) :=
    (fits_iff_fits_requestType inputSchema_filing distinctFields_requestType_filing decoded
      nullFree_filingRequest).2 fits_filingRequest
  exact ⟨t, decoded, accepted, coerced filingRequest accepted⟩

end CallContract
