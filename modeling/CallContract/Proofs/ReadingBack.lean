import CallContract.Declaration.Basic
import CallContract.FileData.Basic
import CallContract.Proofs.Structures
import CallContract.Signature.Document

/-!
# Documents read back

Every document that is written is read as what was written.

* `Descriptor.ofJson?_toJson` is this for types, at the outermost place and inside another type, by
  induction on the type; `Signature.ofJson?_toJson` for functions.
* `Declaration.readsBack`, `Manifest.readsBack` and their neighbours are this for what manifests
  declare, `FileData.readsBack` for file data: a member at a time.
* `documents_readBack` has them all.
-/

namespace CallContract

/-! ## Types -/

theorem EnumMember.ofJson?_toJson (m : EnumMember) : ofJson? m.toJson = some m :=
  rfl

namespace Descriptor

/-- What the parts of a type of a known form are read as. -/
def ofParts? (body : Json) : Form → Option Descriptor
  | .primitive =>
    match body.slots? ["primitive"] with
    | some [some kind] => (primitiveOfJson? kind).map .primitive
    | _ => Option.none
  | .none => bare? .none body
  | .any => bare? .any body
  | .path => bare? .path body
  | .fileData => bare? .fileData body
  | .optional =>
    match body.slots? ["inner"] with
    | some [some inner] => (ofJson? true inner).map .optional
    | _ => Option.none
  | .list =>
    match body.slots? ["element"] with
    | some [some element] => (ofJson? true element).map .list
    | _ => Option.none
  | .mapping =>
    match body.slots? ["key", "value"] with
    | some [some key, some value] => do return .mapping (← ofJson? true key) (← ofJson? true value)
    | _ => Option.none
  | .union =>
    match body.slots? ["members"] with
    | some [some (.arr members)] => (allOfJson? members).map .union
    | _ => Option.none
  | .record =>
    match body.slots? ["name", "fields"] with
    | some [some (.str name), some (.arr fields)] => (fieldsOfJson? fields).map (.record name)
    | _ => Option.none
  | .enumeration =>
    match body.slots? ["name", "members"] with
    | some [some (.str name), some (.arr members)] =>
      (members.mapM EnumMember.ofJson?).map (.enumeration name)
    | _ => Option.none

/-- A type is read by its form, and then part by part. -/
theorem ofJson?_eq (nested : Bool) (j : Json) :
    ofJson? nested j = (formOf? nested j).bind fun found => ofParts? found.2 found.1 := by
  rw [ofJson?]
  split
  case h_12 absent => rw [absent]; rfl
  all_goals
    rename_i formed
    conv => rhs; rw [formed, Option.bind_some]
    dsimp only [ofParts?]
  all_goals
    split
    · simp only [*]
    · split <;> simp_all

theorem ofJson?_obj (nested : Bool) (form : Form) (parts : List (String × Json)) :
    ofJson? nested (.obj (("kind", .str form.word) :: parts)) =
      ofParts? (.obj (("kind", .str form.word) :: parts)) form := by
  have formed : formOf? nested (.obj (("kind", .str form.word) :: parts)) =
      some (form, .obj (("kind", .str form.word) :: parts)) := by
    simp [formOf?, Keyed.get?_cons]
  rw [ofJson?_eq, formed]
  rfl

/-- Fields are read one after the other, each from its parts. -/
theorem fieldsOfJson?_cons (j : Json) (rest : List Json) :
    fieldsOfJson? (j :: rest) =
      match j.slots? ["name", "type", "default"] with
      | some [some (.str name), some type, default] => do
        return { name := name, type := ← ofJson? true type, default := default } ::
          (← fieldsOfJson? rest)
      | _ => Option.none := by
  rw [fieldsOfJson?]
  split
  · simp only [*]
  · split <;> simp_all

mutual
/-- A type is read back, whether it stands inside another or not. -/
theorem ofJson?_toJson (nested : Bool) : (t : Descriptor) → ofJson? nested t.toJson = some t
  | .primitive kind => by
    rw [toJson, ofJson?_obj]
    exact congrArg (Option.map Descriptor.primitive) (Primitive.ofName?_name kind)
  | .none | .any | .path | .fileData => by
    rw [toJson, ofJson?_obj]
    rfl
  | .optional inner => by
    rw [toJson, ofJson?_obj]
    exact congrArg (Option.map Descriptor.optional) (ofJson?_toJson true inner)
  | .union members => by
    rw [toJson, ofJson?_obj]
    exact congrArg (Option.map Descriptor.union) (allOfJson?_allToJson members)
  | .list element => by
    rw [toJson, ofJson?_obj]
    exact congrArg (Option.map Descriptor.list) (ofJson?_toJson true element)
  | .mapping key value => by
    have keyBack := ofJson?_toJson true key
    have valueBack := ofJson?_toJson true value
    rw [toJson, ofJson?_obj]
    simp [ofParts?, Json.slots?, Keyed.get?_cons, keyBack, valueBack]
  | .record name fields => by
    rw [toJson, ofJson?_obj]
    exact congrArg (Option.map (Descriptor.record name)) (fieldsOfJson?_fieldsToJson fields)
  | .enumeration name members => by
    rw [toJson, ofJson?_obj]
    exact congrArg (Option.map (Descriptor.enumeration name))
      (List.mapM_map_eq_some fun m _ => EnumMember.ofJson?_toJson m)

theorem allOfJson?_allToJson : (ts : List Descriptor) → allOfJson? (allToJson ts) = some ts
  | [] => by rw [allToJson, allOfJson?]
  | t :: rest => by
    rw [allToJson, allOfJson?, ofJson?_toJson true t, allOfJson?_allToJson rest]
    rfl

theorem fieldsOfJson?_fieldsToJson :
    (fields : List (Field Descriptor)) → fieldsOfJson? (fieldsToJson fields) = some fields
  | [] => by rw [fieldsToJson, fieldsOfJson?]
  | ⟨name, type, default⟩ :: rest => by
    have typeBack := ofJson?_toJson true type
    have restBack := fieldsOfJson?_fieldsToJson rest
    rw [fieldsToJson, fieldsOfJson?_cons]
    cases default <;> simp [defaultSlot, Json.slots?, Keyed.get?_cons, typeBack, restBack]
end

end Descriptor

/-! ## Functions -/

theorem ParamKind.ofJson?_word (kind : ParamKind) : ofJson? (.str kind.word) = some kind := by
  cases kind <;> rfl

theorem Parameter.ofJson?_toJson (p : Parameter) : ofJson? p.toJson = some p := by
  rcases p with ⟨⟨name, type, default⟩, kind⟩
  have typeBack := Descriptor.ofJson?_toJson false type
  have kindBack := ParamKind.ofJson?_word kind
  rw [toJson, ofJson?]
  cases default <;> simp [defaultSlot, Json.slots?, Keyed.get?_cons, typeBack, kindBack]

theorem Signature.ofJson?_toJson (sig : Signature) : ofJson? sig.toJson = some sig := by
  have params : (sig.params.map Parameter.toJson).mapM Parameter.ofJson? = some sig.params :=
    List.mapM_map_eq_some fun p _ => p.ofJson?_toJson
  have returns := Descriptor.ofJson?_toJson false sig.returns
  rw [toJson, ofJson?]
  simp [Json.slots?, Keyed.get?_cons, params, returns]

/-! ## Declarations -/

open Document

theorem EnumMember.readsBack : ReadsBack EnumMember.read EnumMember.toJson :=
  fun _ _ => Shape.read_of_foldlM (by simp) rfl rfl

theorem Field.readsBack_decl : ReadsBack Field.readDecl Field.declToJson := by
  rintro path ⟨name, type, _ | default⟩
  · exact Shape.read_of_foldlM (by simp [defaultSlot]) rfl rfl
  · exact Shape.read_of_foldlM (by simp [defaultSlot]) rfl rfl

theorem RecordDecl.readsBack : ReadsBack RecordDecl.read RecordDecl.toJson := by
  intro path d
  have fields := ReadsBack.list Field.readsBack_decl (path ++ [.key "fields"]) d.fields
  refine Shape.read_of_foldlM (by simp) rfl (foldlM_cons_eq_ok rfl ?_)
  exact foldlM_cons_eq_ok (Except.map_eq_ok.2 ⟨_, fields, rfl⟩) rfl

theorem EnumDecl.readsBack : ReadsBack EnumDecl.read EnumDecl.toJson := by
  intro path d
  have members := ReadsBack.list EnumMember.readsBack (path ++ [.key "members"]) d.members
  refine Shape.read_of_foldlM (by simp) rfl (foldlM_cons_eq_ok rfl ?_)
  exact foldlM_cons_eq_ok (Except.map_eq_ok.2 ⟨_, members, rfl⟩) rfl

theorem Declaration.readsBack : ReadsBack Declaration.read Declaration.toJson := by
  intro path d
  cases d with
  | record d =>
    rw [Declaration.toJson, Declaration.read, choice_obj rfl]
    exact Except.map_eq_ok.2 ⟨d, RecordDecl.readsBack _ d, rfl⟩
  | enumeration d =>
    rw [Declaration.toJson, Declaration.read, choice_obj rfl]
    exact Except.map_eq_ok.2 ⟨d, EnumDecl.readsBack _ d, rfl⟩

theorem ParamKind.readsBack : ReadsBack ParamKind.read fun kind => .str kind.word := by
  intro path kind
  cases kind <;> rfl

theorem ParamDecl.readsBack : ReadsBack ParamDecl.read ParamDecl.toJson := by
  rintro path ⟨⟨name, type, default⟩, kind⟩
  have annotation := ReadsBack.textOrNull (path ++ [.key "annotation"]) type
  have kind := ParamKind.readsBack (path ++ [.key "kind"]) kind
  cases default with
  | none =>
    refine Shape.read_of_foldlM (by simp [defaultSlot]) rfl (foldlM_cons_eq_ok rfl ?_)
    refine foldlM_cons_eq_ok (Except.map_eq_ok.2 ⟨_, annotation, rfl⟩) ?_
    exact foldlM_cons_eq_ok (Except.map_eq_ok.2 ⟨_, kind, rfl⟩) rfl
  | some default =>
    refine Shape.read_of_foldlM (by simp [defaultSlot]) rfl (foldlM_cons_eq_ok rfl ?_)
    refine foldlM_cons_eq_ok (Except.map_eq_ok.2 ⟨_, annotation, rfl⟩) (foldlM_cons_eq_ok rfl ?_)
    exact foldlM_cons_eq_ok (Except.map_eq_ok.2 ⟨_, kind, rfl⟩) rfl

theorem SignatureDecl.readsBack : ReadsBack SignatureDecl.read SignatureDecl.toJson := by
  intro path d
  have params := ReadsBack.list ParamDecl.readsBack (path ++ [.key "params"]) d.params
  have returns := ReadsBack.textOrNull (path ++ [.key "returns"]) d.returns
  refine Shape.read_of_foldlM (by simp) rfl (foldlM_cons_eq_ok rfl ?_)
  refine foldlM_cons_eq_ok (Except.map_eq_ok.2 ⟨_, params, rfl⟩) ?_
  exact foldlM_cons_eq_ok (Except.map_eq_ok.2 ⟨_, returns, rfl⟩) rfl

theorem Manifest.readsBack : ReadsBack Manifest.read Manifest.toJson := by
  intro path m
  have types := ReadsBack.list Declaration.readsBack (path ++ [.key "types"]) m.types
  have function := SignatureDecl.readsBack (path ++ [.key "function"]) m.function
  refine Shape.read_of_foldlM (by simp) rfl ?_
  refine foldlM_cons_eq_ok (Except.map_eq_ok.2 ⟨_, types, rfl⟩) ?_
  exact foldlM_cons_eq_ok (Except.map_eq_ok.2 ⟨_, function, rfl⟩) rfl

/-! ## File data -/

theorem SourceIdentifiers.readsBack :
    ReadsBack FileData.sourceIdentifiersShape.read SourceIdentifiers.toJson := by
  intro path s
  have relPath := ReadsBack.textOrNull (path ++ [.key "rel_path"]) s.relPath
  refine Shape.read_of_foldlM (by simp) rfl (foldlM_cons_eq_ok rfl (foldlM_cons_eq_ok rfl ?_))
  exact foldlM_cons_eq_ok (Except.map_eq_ok.2 ⟨_, relPath, rfl⟩) rfl

theorem SourceMetadata.readsBack :
    ReadsBack FileData.metadataShape.read SourceMetadata.toJson := by
  intro path m
  have text (name : String) (x : Option String) :
      orNull Document.string (path ++ [.key name]) (Json.orNull .str x) = .ok x :=
    ReadsBack.textOrNull _ x
  have recordLocator : orNull Document.fields (path ++ [.key "record_locator"])
      (Json.orNull .obj m.recordLocator) = .ok m.recordLocator :=
    ReadsBack.fields.orNull (fun _ => nofun) _ _
  have permissionsData : orNull (Document.list Document.fields) (path ++ [.key "permissions_data"])
      (Json.orNull (fun maps => .arr (maps.map .obj)) m.permissionsData) = .ok m.permissionsData :=
    ReadsBack.fields.list.orNull (fun _ => nofun) _ _
  have filesizeBytes : orNull Document.integer (path ++ [.key "filesize_bytes"])
      (Json.orNull Json.ofSignedWord m.filesizeBytes) = .ok m.filesizeBytes :=
    ReadsBack.integer.orNull (fun _ => nofun) _ _
  refine Shape.read_of_foldlM (by simp) rfl ?_
  refine foldlM_cons_eq_ok (Except.map_eq_ok.2 ⟨_, text "url" m.url, rfl⟩) ?_
  refine foldlM_cons_eq_ok (Except.map_eq_ok.2 ⟨_, text "version" m.version, rfl⟩) ?_
  refine foldlM_cons_eq_ok (Except.map_eq_ok.2 ⟨_, recordLocator, rfl⟩) ?_
  refine foldlM_cons_eq_ok (Except.map_eq_ok.2 ⟨_, text "date_created" m.dateCreated, rfl⟩) ?_
  refine foldlM_cons_eq_ok (Except.map_eq_ok.2 ⟨_, text "date_modified" m.dateModified, rfl⟩) ?_
  refine foldlM_cons_eq_ok (Except.map_eq_ok.2 ⟨_, text "date_processed" m.dateProcessed, rfl⟩) ?_
  refine foldlM_cons_eq_ok (Except.map_eq_ok.2 ⟨_, permissionsData, rfl⟩) ?_
  exact foldlM_cons_eq_ok (Except.map_eq_ok.2 ⟨_, filesizeBytes, rfl⟩) rfl

theorem FileData.readsBack : ReadsBack shape.read toJson := by
  intro path f
  have sourceIdentifiers := SourceIdentifiers.readsBack.orNull (fun _ => nofun)
    (path ++ [.key "source_identifiers"]) f.sourceIdentifiers
  have metadata := SourceMetadata.readsBack (path ++ [.key "metadata"]) f.metadata
  have localDownloadPath := ReadsBack.textOrNull (path ++ [.key "local_download_path"])
    f.localDownloadPath
  refine Shape.read_of_foldlM (by simp) rfl (foldlM_cons_eq_ok rfl (foldlM_cons_eq_ok rfl ?_))
  refine foldlM_cons_eq_ok (Except.map_eq_ok.2 ⟨_, sourceIdentifiers, rfl⟩) ?_
  refine foldlM_cons_eq_ok rfl ?_
  refine foldlM_cons_eq_ok (Except.map_eq_ok.2 ⟨_, metadata, rfl⟩) ?_
  refine foldlM_cons_eq_ok rfl (foldlM_cons_eq_ok rfl ?_)
  exact foldlM_cons_eq_ok (Except.map_eq_ok.2 ⟨_, localDownloadPath, rfl⟩) rfl

theorem FileData.ofJson_toJson (f : FileData) : ofJson f.toJson = .ok f :=
  Except.mapError_eq_ok.2 (readsBack [] f)

/-! ## All documents -/

/-- What a type, a function, a declaration, a manifest or file data is written as is read as just
that. -/
theorem documents_readBack :
    (∀ t : Descriptor, Descriptor.ofJson? false t.toJson = some t) ∧
      (∀ sig : Signature, Signature.ofJson? sig.toJson = some sig) ∧
      (∀ d : Declaration, Declaration.read [] d.toJson = .ok d) ∧
      (∀ d : SignatureDecl, SignatureDecl.read [] d.toJson = .ok d) ∧
      (∀ m : Manifest, Manifest.read [] m.toJson = .ok m) ∧
      ∀ f : FileData, FileData.ofJson f.toJson = .ok f := by
  exact ⟨Descriptor.ofJson?_toJson false, Signature.ofJson?_toJson, Declaration.readsBack [],
    SignatureDecl.readsBack [], Manifest.readsBack [], FileData.ofJson_toJson⟩

end CallContract
