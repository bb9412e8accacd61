import CallContract.Proofs.Defaults
import CallContract.Proofs.Requests

/-!
# The schemas that are served

What a function serves is what the two checks of roots accept, and it can be decoded, if defaults are
admissible.

* `isInputSchema_inputSchema` is so for the schema of requests: null, or a record.
* `isResponseSchema_responseSchema` is so for that of responses: each alternative of a response type
  has a node of a form that a response may have.
-/

namespace CallContract

open Node (HasType HasPlainType)

/-! ## Requests -/

section Requests

variable {params : List Parameter} {properties : List (String × Json)}

theorem isRecordForm_requestParts
    (related : List.Forall₂ Field.EncodesAs (params.map Parameter.toField) properties)
    (admissible : (requestType params).DefaultsAdmissible) {required : List String}
    (names : required = Field.requiredNames (params.map Parameter.toField)) :
    isRecordForm (Node.requestParts (Keyed.ofPairs properties) required) = true := by
  have parts := (isNode_properties_iff related fun f _ s => isNode_iff_of_encode).2
    admissible.merged
  have known := (requires_record related).2 _ rfl
  subst names
  rw [isRecordForm_of_properties, List.all_eq_true.2 parts, Bool.true_and, absentOr,
    get?_required_requestParts]
  · split
    · rfl
    · rw [Option.all_some, isRequiredList_names]
      exact List.all_eq_true.2 known
  · unfold Node.requestParts
    split <;> rfl
  · rw [absentOr, get?_requestParts (by decide)]
    rfl
  · exact get?_properties_requestParts

/-- The schema of requests is one, if the defaults of the parameters are admissible. -/
theorem isInputSchema_inputSchema {sig : Signature} {options : SchemaOptions} {s : Json}
    (built : sig.inputSchema options = .ok s)
    (admissible : (requestType (sig.shownParams options)).DefaultsAdmissible) :
    isInputSchema s = true := by
  rcases (parametersSchema_eq_ok_iff.1 built).2 with ⟨_, rfl⟩ | ⟨_, properties, related, rfl⟩
  · exact isInputSchema_iff.2 (.inl ⟨⟨rfl, rfl⟩, rfl⟩)
  · have form := isRecordForm_requestParts related admissible rfl
    exact isInputSchema_iff.2
      (.inr ⟨hasPlainType_requestParts, get?_requestParts (by decide), form⟩)

end Requests

/-! ## Responses -/

mutual
/-- A type is a response if its alternatives are. -/
theorem notResponse?_eq_none_iff : (t : Descriptor) →
    (notResponse? t = none ↔ ∀ m ∈ t.leaves, notResponse? m = none)
  | .optional inner => by
    rw [notResponse?, Descriptor.leaves, List.forall_mem_append, List.forall_mem_singleton,
      notResponse?_eq_none_iff inner]
    exact (and_iff_left rfl).symm
  | .union members => by
    rw [notResponse?, Descriptor.leaves, firstNotResponse?_eq_none_iff members]
  | .primitive _ | .none | .any | .list _ | .mapping _ _ | .record _ _ | .enumeration _ _
  | .path | .fileData => by rw [Descriptor.leaves, List.forall_mem_singleton]

theorem firstNotResponse?_eq_none_iff : (ts : List Descriptor) →
    (firstNotResponse? ts = none ↔ ∀ m ∈ Descriptor.leavesOfAll ts, notResponse? m = none)
  | [] => by simp [firstNotResponse?, Descriptor.leavesOfAll]
  | t :: rest => by
    rw [firstNotResponse?, Option.or_eq_none_iff, Descriptor.leavesOfAll, List.forall_mem_append,
      notResponse?_eq_none_iff t, firstNotResponse?_eq_none_iff rest]
end

/-- A type has a schema of responses if it is a response that has a node. -/
theorem responseSchema_eq_ok_iff {t : Descriptor} {s : Json} :
    responseSchema t = .ok s ↔ notResponse? t = none ∧ encode t = .ok s := by
  have checked : checkResponse t = .ok () ↔ notResponse? t = none := by
    unfold checkResponse
    split
    · rename_i none
      exact iff_of_true rfl none
    · rename_i offender some
      exact iff_of_false nofun (by rw [some]; exact nofun)
  rw [responseSchema, Except.bind_eq_ok, ← checked]
  simp only [Except.mapError_eq_ok]
  exact ⟨fun given => given.elim fun _ both => both, fun both => ⟨(), both⟩⟩

section Roots

variable {fields : List (String × Json)}

theorem isResponseSchema_of_arms {arms : Json}
    (there : Keyed.get? "anyOf" fields = some arms) :
    isResponseSchema (.obj fields) = isNode (.obj fields) := by
  rw [isNode_eq_isUnionForm there, isResponseSchema, contains_of_eq there]
  rfl

theorem isResponseSchema_of_hasType {type : String} (typed : HasType type fields) :
    isResponseSchema (.obj fields) =
      if type = "null" then isNullForm fields
      else if type = "object" then isRootRecord fields
      else if type = "array" then isArrayForm fields
      else Keyed.contains "enum" fields && isPrimitiveForm fields := by
  rw [isResponseSchema, not_contains_of_eq typed.noArms, typeName?_eq_some_iff.2 typed.type]
  rfl

theorem isResponseSchema_null (typed : HasType "null" fields) :
    isResponseSchema (.obj fields) = isNode (.obj fields) :=
  (isResponseSchema_of_hasType typed).trans (isNode_eq_isNullForm typed).symm

theorem isResponseSchema_array (typed : HasType "array" fields) :
    isResponseSchema (.obj fields) = isNode (.obj fields) :=
  (isResponseSchema_of_hasType typed).trans (isNode_eq_isArrayForm typed).symm

theorem isResponseSchema_record (typed : HasType "object" fields)
    (noItems : Keyed.contains "items" fields = false) :
    isResponseSchema (.obj fields) = isNode (.obj fields) := by
  have root : isRootRecord fields = isRecordForm fields := by
    rw [isRootRecord, noItems]
    rfl
  rw [isNode_eq_isRecordForm typed noItems, ← root]
  exact isResponseSchema_of_hasType typed

theorem isResponseSchema_enumeration {kind : Primitive} (typed : HasType kind.name fields)
    (values : Keyed.contains "enum" fields = true) :
    isResponseSchema (.obj fields) = isNode (.obj fields) := by
  rcases Primitive.name_ne kind with ⟨notNull, notObject, notArray⟩
  rw [isResponseSchema_of_hasType typed, isNode_of_hasType typed, if_neg notNull, if_neg notNull,
    if_neg notObject, if_neg notArray, if_neg notArray, if_neg notObject, values, Bool.true_and]

end Roots

/-- The node of a type that is a response, if it belongs to the grammar, is one of a response. -/
theorem isResponseSchema_eq_isNode {t : Descriptor} {s : Json} (encoded : encode t = .ok s)
    (response : notResponse? t = none) : isResponseSchema s = isNode s := by
  have parts := (notResponse?_eq_none_iff t).1 response
  rcases encode_cases encoded with
    ⟨_, rfl⟩ | ⟨only, alone, single, onlyEncoded⟩ | ⟨_, arms, _, rfl⟩
  · exact isResponseSchema_null ⟨rfl, rfl⟩
  · have leaf := Descriptor.mem_leaves_of_mem_others (Descriptor.mem_others_of_eq alone)
    have onlyResponse := parts only leaf
    cases only with
    | record name fields =>
      rcases encode_record_iff.1 onlyEncoded with ⟨properties, _, rfl⟩
      exact isResponseSchema_record ⟨rfl, rfl⟩ rfl
    | enumeration name members =>
      rcases encode_enumeration_iff.1 onlyEncoded with ⟨kind, _, _, rfl⟩
      exact isResponseSchema_enumeration ⟨rfl, rfl⟩ rfl
    | list element =>
      rcases encode_list_iff.1 onlyEncoded with ⟨items, _, rfl⟩
      exact isResponseSchema_array ⟨rfl, rfl⟩
    | fileData =>
      rw [encode] at onlyEncoded
      cases onlyEncoded
      exact isResponseSchema_record ⟨rfl, rfl⟩ rfl
    | none =>
      rw [encode] at onlyEncoded
      cases onlyEncoded
      exact isResponseSchema_null ⟨rfl, rfl⟩
    | optional inner => cases single
    | union members => cases single
    | _ => cases onlyResponse
  · exact isResponseSchema_of_arms rfl

theorem isResponseSchema_responseSchema {t : Descriptor} {s : Json}
    (built : responseSchema t = .ok s) (admissible : t.DefaultsAdmissible) :
    isResponseSchema s = true := by
  rcases responseSchema_eq_ok_iff.1 built with ⟨response, encoded⟩
  rw [isResponseSchema_eq_isNode encoded response]
  exact (isNode_iff_of_encode encoded).2 admissible.merged

/-! ## Both schemas -/

/-- A node that is read is decoded as a document. -/
theorem exists_decode_of_reads {s : Json} {t : Descriptor} (reads : Node.Reads s t)
    (name : String) : ∃ u, decode s name = .ok u := by
  rw [decode]
  split
  · exact ⟨_, rfl⟩
  · rcases reads name [] with ⟨u, decoded, _⟩
    exact ⟨u, decoded⟩

theorem schemas_eq_ok_iff {sig : Signature} {options : SchemaOptions} {doc : Json} :
    sig.schemas options = .ok doc ↔
      ∃ inputs, sig.inputSchema options = .ok inputs ∧
        ∃ outputs, responseSchema sig.returns = .ok outputs ∧
          doc = .obj [("inputs", inputs), ("outputs", outputs)] := by
  rw [Signature.schemas, Except.bind_eq_ok]
  refine exists_congr fun inputs => and_congr_right fun _ => ?_
  rw [Except.bind_eq_ok]
  refine exists_congr fun outputs => and_congr_right fun _ => ?_
  exact ⟨fun result => (Except.ok.inj result).symm, fun same => congrArg Except.ok same.symm⟩

/-- The schema of responses of `filing`: the null of an optional list is dropped. -/
theorem responseSchema_filing :
    responseSchema filing.returns = .ok (Node.array ticketNode) := by
  have encoded : encode filing.returns = .ok (Node.array ticketNode) := by
    refine (encode_optional rfl rfl).trans ?_
    exact encode_list_iff.2 ⟨ticketNode, encode_ticket, rfl⟩
  exact responseSchema_eq_ok_iff.2 ⟨rfl, encoded⟩

/-- The schemas that a function serves are accepted as those of requests and of responses, and both
are decoded, if the defaults of the parameters that are shown and of all fields inside their types
and inside the response type are admissible. -/
theorem schemas_valid {sig : Signature} {options : SchemaOptions} {doc : Json}
    (built : sig.schemas options = .ok doc)
    (params : ∀ p ∈ sig.shownParams options,
      p.toField.Admissible ∧ p.type.DefaultsAdmissible)
    (returns : sig.returns.DefaultsAdmissible) :
    ∃ inputs outputs, doc = .obj [("inputs", inputs), ("outputs", outputs)] ∧
      isInputSchema inputs = true ∧ isResponseSchema outputs = true ∧
      ∀ name, (∃ t, decode inputs name = .ok t) ∧ ∃ t, decode outputs name = .ok t := by
  rcases schemas_eq_ok_iff.1 built with ⟨inputs, requests, outputs, responses, rfl⟩
  have admissible : (requestType (sig.shownParams options)).DefaultsAdmissible := by
    refine Descriptor.everyRecord_record.2 ⟨?_, ?_⟩
    · rw [List.forall_mem_map]
      exact fun p member => (params p member).1
    · rw [List.forall_mem_map]
      exact fun p member => (params p member).2
  refine ⟨inputs, outputs, rfl, isInputSchema_inputSchema requests admissible,
    isResponseSchema_responseSchema responses returns, ?_⟩
  intro name
  rcases decode_inputSchema requests name with ⟨t, decoded, _⟩
  have reads := reads_of_encode (responseSchema_eq_ok_iff.1 responses).2
  exact ⟨⟨t, decoded⟩, exists_decode_of_reads reads name⟩

theorem schemas_valid_filing :
    isInputSchema filingInputs = true ∧ isResponseSchema (Node.array ticketNode) = true ∧
      (∃ t, decode filingInputs "request" = .ok t) ∧
      ∃ t, decode (Node.array ticketNode) "response" = .ok t := by
  have built : filing.schemas {} =
      .ok (.obj [("inputs", filingInputs), ("outputs", Node.array ticketNode)]) :=
    schemas_eq_ok_iff.2 ⟨_, inputSchema_filing, _, responseSchema_filing, rfl⟩
  have params : ∀ p ∈ filing.shownParams {}, p.toField.Admissible ∧ p.type.DefaultsAdmissible := by
    have shown : filing.shownParams {} = filing.params.take 2 := rfl
    rw [shown]
    refine List.forall_mem_cons.2 ⟨⟨nofun, defaultsAdmissible_ticket⟩, ?_⟩
    refine List.forall_mem_singleton.2 ⟨?_, trivial⟩
    intro value same
    cases same
    rfl
  rcases schemas_valid built params defaultsAdmissible_ticket with
    ⟨inputs, outputs, same, inputValid, outputValid, decoded⟩
  cases same
  exact ⟨inputValid, outputValid, (decoded "request").1, (decoded "response").2⟩

end CallContract
