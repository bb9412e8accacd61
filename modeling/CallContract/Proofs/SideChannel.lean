import CallContract.Proofs.NullValues
import CallContract.Proofs.Schemas

/-!
# The side channel for new records

The schema of the side channel holds that of responses two records deep, where a default of null
tells whether contents may be left out.

* `Node.fileDataMeta` is the document that comes out; `fileDataMetaSchema_eq`: it is built from the
  schema of responses, which fails where it fails.
* `isNode_fileDataMeta`: it belongs to the grammar if the schema of responses does.
* `decode_fileDataMeta`: it is decoded as the type of a side channel, and what is left of the
  response type in it is widened for null if the response may be null.
* `isOptional_of_fits_null`: a response that takes null is optional, so the null is not lost.
-/

namespace CallContract

open Node (Reads withDefault orNull)

/-! ## The document -/

namespace Node

/-- The node of contents: their default is null if they may be left out. -/
def contents (mayBeNull : Bool) (response : Json) : Json :=
  if mayBeNull then orNull response else response

/-- What a new record has to have. -/
def newRecordRequired (mayBeNull : Bool) : List String :=
  "file_data" :: if mayBeNull then [] else ["contents"]

/-- The node of new records. -/
def newRecord (mayBeNull : Bool) (response : Json) : Json :=
  record [("file_data", fileData), ("contents", contents mayBeNull response)]
    (newRecordRequired mayBeNull)

/-- The document of the side channel. -/
def fileDataMeta (mayBeNull : Bool) (response : Json) : Json :=
  record
    [("terminate_current", withDefault (primitive .boolean) (some (.bool false))),
      ("new_records", withDefault (array (newRecord mayBeNull response)) (some (.arr [])))] []

end Node

theorem encode_metaDescriptor (response : Descriptor) :
    encode (FileData.metaDescriptor response) =
      Node.fileDataMeta response.isOptional <$> encode response := by
  rw [FileData.metaDescriptor]
  simp only [encode, encodeFields]
  cases encode response with
  | error e => rfl
  | ok s => cases response.isOptional <;> rfl

theorem fileDataMetaSchema_eq (response : Descriptor) :
    fileDataMetaSchema response =
      Node.fileDataMeta response.isOptional <$> responseSchema response := by
  rw [fileDataMetaSchema, responseSchema, encode_metaDescriptor]
  cases checkResponse response with
  | error e => rfl
  | ok _ => cases encode response <;> rfl

/-! ## The grammar -/

/-- Null can be the default of a field of any type that has a node. -/
theorem admitsDefault_null {t : Descriptor} {s : Json} (encoded : encode t = .ok s) :
    t.AdmitsDefault .null := by
  unfold Descriptor.AdmitsDefault
  rcases encode_cases encoded with
    ⟨noOthers, _⟩ | ⟨only, alone, _, onlyEncoded⟩ | ⟨several, _⟩
  · rw [noOthers]
  · rw [alone]
    cases only with
    | primitive kind => rfl
    | path => rfl
    | enumeration name members =>
      obtain ⟨kind, _, ofKind, _⟩ := encode_enumeration_iff.1 onlyEncoded
      exact ⟨kind, ofKind, rfl⟩
    | _ => trivial
  · rcases others : t.others with _ | ⟨first, _ | ⟨second, rest⟩⟩
    · trivial
    · rw [others] at several
      exact absurd several (by simp)
    · trivial

theorem isNode_contents {t : Descriptor} {s : Json} (encoded : encode t = .ok s)
    (mayBeNull : Bool) : isNode (Node.contents mayBeNull s) = isNode s := by
  cases mayBeNull with
  | false => rfl
  | true =>
    refine Bool.eq_iff_iff.2 ((isNode_withDefault_iff encoded (some .null)).trans ?_)
    refine and_iff_left fun value same => ?_
    cases same
    exact admitsDefault_null encoded

/-- New records have what they have to have as properties. -/
theorem all_contains_newRecordRequired (mayBeNull : Bool) (contents : Json) :
    (Node.newRecordRequired mayBeNull).all (fun name =>
      Keyed.contains name [("file_data", Node.fileData), ("contents", contents)]) = true := by
  cases mayBeNull <;> rfl

/-- The document belongs to the grammar if the schema of responses does. -/
theorem isNode_fileDataMeta {t : Descriptor} {s : Json} (encoded : encode t = .ok s)
    (mayBeNull : Bool) : isNode (Node.fileDataMeta mayBeNull s) = isNode s := by
  have fileData : isNode Node.fileData = true := isNode_fileData none
  have terminate :
      isNode (withDefault (Node.primitive .boolean) (some (.bool false))) = true :=
    isNode_primitive _ .boolean
  have newRecord : isNode (Node.newRecord mayBeNull s) = isNode s := by
    refine (isNode_record none _ _).trans ?_
    rw [all_contains_newRecordRequired]
    simp [fileData, isNode_contents encoded]
  refine (isNode_record none _ _).trans ?_
  simp [terminate, isNode_array, newRecord]

/-! ## The type that is decoded -/

/-- The field of contents as it is decoded. -/
def decodedContents (mayBeNull : Bool) (type : Descriptor) : Field Descriptor :=
  if mayBeNull then { name := "contents", type := type.widen, default := some .null }
  else { name := "contents", type := type }

/-- The type of the side channel as it is decoded. -/
def decodedFileDataMeta (name : String) (contents : Field Descriptor) : Descriptor :=
  .record name [
    { name := "terminate_current", type := .boolean, default := some (.bool false) },
    { name := "new_records"
      type := .list
        (.record (name ++ "_" ++ "new_records" ++ "_type") [
          { name := "file_data", type := .fileData }, contents])
      default := some (.arr []) }]

section Decoded

variable {t : Descriptor} {s : Json}

theorem reads_contents (encoded : encode t = .ok s) (mayBeNull : Bool) :
    Reads (Node.contents mayBeNull s) t.merged.normal.unnamed := by
  cases mayBeNull with
  | false => exact reads_of_encode encoded
  | true => exact reads_withDefault (reads_of_encode encoded) (some .null)

theorem decodeField_contents (encoded : encode t = .ok s) (mayBeNull : Bool) (u : Descriptor) :
    decodeField (some (Node.newRecordRequired mayBeNull)) "contents"
      (Node.contents mayBeNull s) u = decodedContents mayBeNull u := by
  have plain := isUndefaulted_of_encode encoded
  cases mayBeNull with
  | false =>
    have undefaulted : s.get? "default" = none := Node.get?_withDefault_self plain none
    rw [decodeField, Node.contents, if_neg Bool.false_ne_true, undefaulted]
    rfl
  | true =>
    have null : (orNull s).get? "default" = some .null :=
      Node.get?_withDefault_self plain (some .null)
    rw [decodeField, Node.contents, if_pos rfl, null]
    rfl

theorem decodeNode_newRecord (encoded : encode t = .ok s) (mayBeNull : Bool) (name : String)
    (place : Pointer) : ∃ u, u.unnamed = t.merged.normal.unnamed ∧
      decodeNode name place (Node.newRecord mayBeNull s) =
        .ok (.record name [
          { name := "file_data", type := .fileData }, decodedContents mayBeNull u]) := by
  obtain ⟨u, decoded, same⟩ := reads_contents encoded mayBeNull (name ++ "_" ++ "contents")
    (place ++ ["properties"] ++ ["contents"])
  refine ⟨u, same, ?_⟩
  have required : Node.Requires
      [("type", .str "object"),
        ("properties", .obj [("file_data", Node.fileData),
          ("contents", Node.contents mayBeNull s)]),
        ("required", .arr ((Node.newRecordRequired mayBeNull).map .str))]
      [("file_data", Node.fileData), ("contents", Node.contents mayBeNull s)]
      (some (Node.newRecordRequired mayBeNull)) := by
    refine ⟨rfl, fun _ same key listed => ?_⟩
    cases same
    exact List.all_eq_true.1 (all_contains_newRecordRequired mayBeNull _) key listed
  have fileData (name : String) (place : Pointer) :
      decodeNode name place Node.fileData = .ok .fileData := by
    rw [Node.fileData, decodeNode_of_hasPlainType ⟨⟨rfl, rfl⟩, rfl⟩]
    rfl
  have fileDataField : decodeField (some (Node.newRecordRequired mayBeNull)) "file_data"
      Node.fileData .fileData = { name := "file_data", type := .fileData } := by
    cases mayBeNull <;> rfl
  rw [Node.newRecord, Node.record,
    decodeNode_of_properties ⟨⟨rfl, rfl⟩, rfl⟩ rfl rfl required name place, decodeProperties,
    fileData, decodeProperties, decoded, decodeProperties, ← decodeField_contents encoded,
    ← fileDataField]
  rfl

/-- The document is decoded as the type of a side channel, with what is left of the response. -/
theorem decode_fileDataMeta (encoded : encode t = .ok s) (mayBeNull : Bool) (name : String) :
    ∃ u, u.unnamed = t.merged.normal.unnamed ∧
      decode (Node.fileDataMeta mayBeNull s) name =
        .ok (decodedFileDataMeta name (decodedContents mayBeNull u)) := by
  obtain ⟨u, same, newRecord⟩ := decodeNode_newRecord encoded mayBeNull
    (name ++ "_" ++ "new_records" ++ "_type") (["properties"] ++ ["new_records"] ++ ["items"])
  refine ⟨u, same, ?_⟩
  have terminate (name : String) (place : Pointer) :
      decodeNode name place (withDefault (Node.primitive .boolean) (some (.bool false))) =
        .ok .boolean := by
    rw [Node.primitive, withDefault, decodeNode_of_hasPlainType ⟨⟨rfl, rfl⟩, rfl⟩]
    rfl
  have newRecords :
      decodeNode (name ++ "_" ++ "new_records") (["properties"] ++ ["new_records"])
        (withDefault (Node.array (Node.newRecord mayBeNull s)) (some (.arr []))) =
      Descriptor.list <$> decodeNode (name ++ "_" ++ "new_records" ++ "_type")
        (["properties"] ++ ["new_records"] ++ ["items"]) (Node.newRecord mayBeNull s) := by
    rw [Node.array, withDefault, decodeNode_of_hasPlainType ⟨⟨rfl, rfl⟩, rfl⟩]
    rfl
  have noneRequired {fields properties : List (String × Json)}
      (listed : Keyed.get? "required" fields = some (.arr [])) :
      Node.Requires fields properties (some []) := by
    refine ⟨listed, fun _ same => ?_⟩
    cases same
    exact List.forall_mem_nil _
  have notNull : Node.isNull (Node.fileDataMeta mayBeNull s) = false := rfl
  rw [decode, notNull, if_neg Bool.false_ne_true, Node.fileDataMeta, Node.record,
    decodeNode_of_properties ⟨⟨rfl, rfl⟩, rfl⟩ rfl rfl (noneRequired rfl) name [],
    List.nil_append, decodeProperties, terminate, decodeProperties, newRecords, newRecord,
    decodeProperties]
  rfl

/-- A response that takes null is optional: no part of it may be anything. -/
theorem isOptional_of_fits_null (response : notResponse? t = none) (encoded : encode t = .ok s)
    (fits : t.Fits .null) : t.isOptional = true := by
  refine Descriptor.isOptional_iff.2 (.inr ?_)
  rcases (Descriptor.fits_null_iff encoded).1 fits with null | any
  · exact null
  · cases (notResponse?_eq_none_iff t).1 response .any any

end Decoded

/-! ## Functions -/

/-- The schema of the side channel is there if that of responses is, and fails with its error
otherwise. It holds the schema of responses as that of the contents of new records, and what
responses may be, contents may be: a default of null tells that they may be null, and only if they
may not they are required. -/
theorem fileDataMetaSchema_outcome (sig : Signature) :
    (∀ e, sig.fileDataMetaSchema = .error e ↔ sig.outputSchema = .error e) ∧
      ∀ s, sig.outputSchema = .ok s → ∃ doc, sig.fileDataMetaSchema = .ok doc ∧
        isNode doc = isNode s ∧ s.get? "default" = none ∧
        doc.at? ["properties", "new_records", "items", "properties", "contents"] =
          some (if sig.returns.isOptional then orNull s else s) ∧
        (∃ required,
          doc.at? ["properties", "new_records", "items", "required"] = some (.arr required) ∧
            (.str "contents" ∈ required ↔ sig.returns.isOptional = false)) ∧
        ∀ name, ∃ contents, decode doc name = .ok (decodedFileDataMeta name contents) ∧
          contents.name = "contents" ∧
          ((∃ x, validate sig.returns .null = .ok x) →
            ∃ x, validate contents.type .null = .ok x) := by
  have built : sig.fileDataMetaSchema =
      Node.fileDataMeta sig.returns.isOptional <$> sig.outputSchema :=
    fileDataMetaSchema_eq sig.returns
  constructor
  · intro e
    rw [built]
    cases sig.outputSchema with
    | error e' => exact Iff.rfl
    | ok s => exact iff_of_false nofun nofun
  · intro s responses
    obtain ⟨response, encoded⟩ := responseSchema_eq_ok_iff.1 responses
    refine ⟨Node.fileDataMeta sig.returns.isOptional s, by rw [built, responses]; rfl,
      isNode_fileDataMeta encoded _,
      Node.get?_withDefault_self (isUndefaulted_of_encode encoded) none, rfl, ?_, fun name => ?_⟩
    · refine ⟨(Node.newRecordRequired sig.returns.isOptional).map .str, rfl, ?_⟩
      cases sig.returns.isOptional <;> simp [Node.newRecordRequired]
    · obtain ⟨u, _, decoded⟩ := decode_fileDataMeta encoded sig.returns.isOptional name
      refine ⟨_, decoded, ?_, fun fits => ?_⟩
      · cases sig.returns.isOptional <;> rfl
      · rw [isOptional_of_fits_null response encoded fits]
        exact Descriptor.fits_null_of_isOptional (Descriptor.isOptional_widen u)

/-- A new record of `filing` may leave its contents out, or have null. -/
theorem fileDataMetaSchema_outcome_filing :
    filing.outputSchema = .ok (Node.array ticketNode) ∧ filing.returns.Fits .null ∧
      ∃ doc, filing.fileDataMetaSchema = .ok doc ∧
        doc.at? ["properties", "new_records", "items", "properties", "contents"] =
          some (orNull (Node.array ticketNode)) ∧
        ∃ contents, decode doc "channel" = .ok (decodedFileDataMeta "channel" contents) ∧
          contents.type.Fits .null := by
  have takesNull : filing.returns.Fits .null := Descriptor.fits_null_of_isOptional rfl
  obtain ⟨doc, built, _, _, node, _, decoded⟩ :=
    (fileDataMetaSchema_outcome filing).2 _ responseSchema_filing
  obtain ⟨contents, channel, _, kept⟩ := decoded "channel"
  exact ⟨responseSchema_filing, takesNull, doc, built, node, contents, channel, kept takesNull⟩

end CallContract
