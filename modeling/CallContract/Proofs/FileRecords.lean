import CallContract.FileData.Fields
import CallContract.Proofs.Fitting
import CallContract.Proofs.Structures

/-!
# File data as a record

File data is described twice: as a structure that is read, and as the fields of a record that a
payload is checked against.

* `Document.ReadsAs` relates a reader to a type, `Document.Shape.IsRecord` a structure to the fields
  of a record; its members are related one by one.
* `Document.Shape.IsRecord.toOption_foldlM` is the run: reading an object field by field leaves what
  the fields of the record make of it. `Document.Shape.IsRecord.readsAs` says it of whole objects.
* `FileData.agrees_with_fields` is what follows for file data, on the objects in
  `FileData.InScope`.
-/

namespace CallContract

/-- The fields of a record. -/
def Descriptor.fields : Descriptor → List (Field Descriptor)
  | .record _ fields => fields
  | _ => []

/-- An object without repeated keys whose keys are all names of fields of a record. -/
structure Plain (fields : List (Field Descriptor)) (payload : List (String × Json)) : Prop where
  distinct : (payload.map Prod.fst).Nodup
  declared : ∀ key ∈ payload.map Prod.fst, key ∈ fields.map Field.name

/-- A value that is no array, and plain if it is an object. -/
def PlainPart (fields : List (Field Descriptor)) (v : Json) : Prop :=
  v.kind ≠ .array ∧ ∀ parts, v = .obj parts → Plain fields parts

namespace Document

variable {S α : Type}

/-! ## Readers and types -/

/-- Of the values in a scope, a reader reads those that a type admits, and what it reads is written
as what the type makes of them. -/
def ReadsAs (scope : Json → Prop) (read : Reader Json α) (write : α → Json) (t : Descriptor) :
    Prop :=
  ∀ path v, scope v → (read path v).toOption.map write = t.checked v

namespace ReadsAs

variable {scope : Json → Prop} {read : Reader Json α} {write : α → Json} {t : Descriptor}

theorem mono {smaller : Json → Prop} (reads : ReadsAs scope read write t)
    (within : ∀ v, smaller v → scope v) : ReadsAs smaller read write t :=
  fun path v small => reads path v (within v small)

theorem string : ReadsAs scope string .str .string := by
  intro path v _
  simp only [Descriptor.checked, checkedAt, validateAt]
  cases v <;> rfl

theorem boolean : ReadsAs scope boolean .bool .boolean := by
  intro path v _
  simp only [Descriptor.checked, checkedAt, validateAt]
  cases v <;> rfl

/-- Integers of more than a signed word are not read, and integral floats are not either. -/
theorem integer :
    ReadsAs (fun v => ∀ n, v = .num n → ∃ i, v = Json.ofSignedWord i) integer Json.ofSignedWord
      .integer := by
  intro path v signed
  simp only [Descriptor.checked, checkedAt, validateAt]
  cases v with
  | num n =>
    rcases signed n rfl with ⟨i, word⟩
    rw [word]
    exact congrArg (fun x => (Except.toOption x).map Json.ofSignedWord) (dif_pos i.property)
  | _ => rfl

theorem fields : ReadsAs scope fields .obj FileData.anyMap := by
  intro path v _
  rw [FileData.anyMap, Descriptor.checked_mapping]
  cases v with
  | obj entries =>
    have kept : (entries.mapM fun entry =>
        if Descriptor.string.admitsKey entry.1 then
          (Descriptor.any.checked entry.2).map (entry.1, ·)
        else none) = some entries := by
      conv => lhs; rw [← List.map_id entries]
      refine List.mapM_map_eq_some fun entry _ => ?_
      rw [Descriptor.checked_any]
      rfl
    dsimp only
    rw [kept]
    rfl
  | _ => rfl

theorem list (item : ReadsAs (fun _ => True) read write t) :
    ReadsAs scope (list read) (fun xs => .arr (xs.map write)) (.list t) := by
  intro path v _
  rw [Descriptor.checked_list]
  cases v with
  | arr items =>
    have values : (items.zipIdx.mapM fun x => read (path ++ [.index x.2]) x.1).toOption.map
        (List.map write) = items.mapM t.checked := by
      rw [List.toOption_mapM, List.map_mapM, ← List.mapM_zipIdx t.checked items 0]
      exact congrArg (items.zipIdx.mapM ·) (funext fun x => item _ _ trivial)
    dsimp only
    rw [← values, Document.list]
    dsimp only [Source.view]
    cases items.zipIdx.mapM fun x => read (path ++ [.index x.2]) x.1 <;> rfl
  | _ => rfl

theorem orNull (inner : ReadsAs scope read write t) (single : t.splitNull = ([t], false))
    (notNone : t.isNone = false) :
    ReadsAs scope (orNull read) (Json.orNull write) (.optional t) := by
  intro path v within
  have split : (Descriptor.optional t).splitNull = ([t], true) := by
    rw [Descriptor.splitNull, single]
    simp [notNone]
  have given := inner path v within
  rw [Descriptor.checked_union rfl, split, List.findSome?_singleton, ← given]
  cases v with
  | null => rfl
  | _ =>
    rw [Document.orNull]
    dsimp only [Source.view]
    cases read path _ <;> rfl

theorem textOrNull :
    ReadsAs scope (Document.orNull Document.string) (Json.orNull .str) (.optional .string) :=
  .orNull .string rfl rfl

end ReadsAs

/-! ## Structures and records -/

/-- A member of a structure that is read as a field of a record is checked. `write` gives the fields
of a structure, `blank` is the structure before anything is read, and `scope` says which values are
looked at under which name. -/
structure Member.IsField (scope : String → Json → Prop) (write : S → List (String × Json))
    (blank : S) (m : Member Json S) (f : Field Descriptor) : Prop where
  name : m.name = f.name
  isOptional : m.isOptional = f.default.isSome
  blank : ∀ d, f.default = some d → Keyed.get? f.name (write blank) = some d
  reads : ∀ s path v, scope f.name v →
    (m.read s path v).toOption.map write =
      (f.type.checked v).map fun y => Keyed.put f.name y (write s)

section Members

variable {scope : String → Json → Prop} {write : S → List (String × Json)} {blank : S}
  {name : String} {read : Reader Json α} {set : S → α → S} {part : α → Json} {t : Descriptor}

theorem toOption_set_map (reads : ReadsAs (scope name) read part t)
    (sets : ∀ s a, write (set s a) = Keyed.put name (part a) (write s)) (s : S) (path : Path)
    {v : Json} (within : scope name v) :
    (set s <$> read path v).toOption.map write =
      (t.checked v).map fun y => Keyed.put name y (write s) := by
  have written : write ∘ set s = (fun y => Keyed.put name y (write s)) ∘ part :=
    funext fun a => sets s a
  rw [Except.toOption_map, Option.map_map, written, ← Option.map_map, reads path v within]

theorem isField_required (reads : ReadsAs (scope name) read part t)
    (sets : ∀ s a, write (set s a) = Keyed.put name (part a) (write s)) :
    (Document.required name read set).IsField scope write blank { name := name, type := t } where
  name := rfl
  isOptional := rfl
  blank := nofun
  reads s path _ within := toOption_set_map reads sets s path within

theorem isField_optional {d : Json} (reads : ReadsAs (scope name) read part t)
    (sets : ∀ s a, write (set s a) = Keyed.put name (part a) (write s))
    (given : Keyed.get? name (write blank) = some d) :
    (Document.optional name read set).IsField scope write blank
      { name := name, type := t, default := some d } where
  name := rfl
  isOptional := rfl
  blank d' same := by
    cases same
    exact given
  reads s path _ within := toOption_set_map reads sets s path within

end Members

/-- A structure that is a record: its members are the fields. -/
structure Shape.IsRecord (scope : String → Json → Prop) (write : S → List (String × Json))
    (shape : Shape Json S) (fields : List (Field Descriptor)) : Prop where
  members : List.Forall₂ (Member.IsField scope write shape.blank) shape.members fields
  distinct : (fields.map Field.name).Nodup
  keys : ∀ s, (write s).map Prod.fst = fields.map Field.name

end Document

/-- What a field makes of the payload of its record, `base` being the record without the payload. -/
def Field.overlay (base payload : List (String × Json)) (f : Field Descriptor) :
    Option (String × Json) :=
  match Keyed.get? f.name payload with
  | some item => (f.type.checked item).map (f.name, ·)
  | none => (Keyed.get? f.name base).map (f.name, ·)

theorem Field.overlay_cons_self (f : Field Descriptor) (base rest : List (String × Json)) (v : Json) :
    f.overlay base ((f.name, v) :: rest) = (f.type.checked v).map (f.name, ·) := by
  rw [overlay, Keyed.get?_cons, if_pos rfl]

theorem Field.mapM_overlay_nil {fields : List (Field Descriptor)} {base : List (String × Json)}
    (distinct : (fields.map Field.name).Nodup) (keys : base.map Prod.fst = fields.map Field.name) :
    fields.mapM (Field.overlay base []) = some base := by
  have named : fields.mapM (Field.overlay base []) =
      (fields.map Field.name).mapM fun key => (Keyed.get? key base).map (key, ·) := by
    rw [List.mapM_map]
    rfl
  rw [named, ← keys]
  refine List.mapM_map_eq_some fun entry member => ?_
  rw [(Keyed.get?_eq_some_iff (keys ▸ distinct)).2 member]
  rfl

namespace Document

namespace Shape.IsRecord

variable {S : Type} {scope : String → Json → Prop} {write : S → List (String × Json)}
  {shape : Shape Json S} {fields : List (Field Descriptor)}

/-- The member of the name of a field is the one that belongs to it. -/
theorem find? (record : shape.IsRecord scope write fields) {f : Field Descriptor}
    (member : f ∈ fields) :
    ∃ m, (shape.members.find? fun m => m.name = f.name) = some m ∧
      m.IsField scope write shape.blank f := by
  have related := record.members
  have distinct := record.distinct
  clear record
  generalize shape.members = members at related
  induction related with
  | nil => cases member
  | @cons m g members fields head _ ih =>
    rw [List.map_cons, List.nodup_cons] at distinct
    rcases List.mem_cons.1 member with rfl | member
    · exact ⟨m, List.find?_cons_of_pos (decide_eq_true head.name), head⟩
    · have other : m.name ≠ f.name := by
        intro same
        exact distinct.1 (head.name ▸ same ▸ List.mem_map_of_mem member)
      rw [List.find?_cons_of_neg (by simpa using other)]
      exact ih member distinct.2

/-- Reading one field puts what its type makes of it into the record. -/
theorem toOption_readMember (record : shape.IsRecord scope write fields) {f : Field Descriptor}
    (member : f ∈ fields) (s : S) (path : Path) {v : Json} (within : scope f.name v) :
    (readMember shape.members path s (f.name, v)).toOption.map write =
      (f.type.checked v).map fun y => Keyed.put f.name y (write s) := by
  rcases record.find? member with ⟨m, found, isField⟩
  rw [readMember, found]
  exact isField.reads s _ v within

/-- Reading fields one after the other leaves what the fields of the record make of all of them. -/
theorem toOption_foldlM (record : shape.IsRecord scope write fields) (path : Path)
    {payload : List (String × Json)} (plain : Plain fields payload)
    (within : ∀ entry ∈ payload, scope entry.1 entry.2) (s : S) :
    (payload.foldlM (readMember shape.members path) s).toOption.map write =
      fields.mapM (Field.overlay (write s) payload) := by
  rcases plain with ⟨distinct, declared⟩
  induction payload generalizing s with
  | nil => exact (Field.mapM_overlay_nil record.distinct (record.keys s)).symm
  | cons entry rest ih =>
    rcases entry with ⟨key, v⟩
    rw [List.map_cons, List.nodup_cons] at distinct
    rw [List.map_cons, List.forall_mem_cons] at declared
    rw [List.forall_mem_cons] at within
    rcases List.mem_map.1 declared.1 with ⟨f, member, rfl⟩
    have step := record.toOption_readMember member s path within.1
    rw [List.foldlM_cons]
    cases read : readMember shape.members path s (f.name, v) with
    | error e =>
      have refused : f.type.checked v = none := by
        rw [read] at step
        exact Option.map_eq_none_iff.1 step.symm
      have failed : fields.mapM (Field.overlay (write s) ((f.name, v) :: rest)) = none := by
        rw [← Option.not_isSome_iff_eq_none, List.isSome_mapM]
        intro all
        have there := all f member
        rw [Field.overlay_cons_self, refused] at there
        cases there
      rw [failed]
      rfl
    | ok next =>
      rw [read] at step
      rcases Option.map_eq_some_iff.1 step.symm with ⟨y, checked, put⟩
      refine (ih within.2 next distinct.2 declared.2).trans ?_
      refine List.mapM_congr_of_mem fun g member' => ?_
      rw [← put]
      by_cases same : f.name = g.name
      · have equal : f = g := List.inj_on_of_nodup_map record.distinct member member' same
        subst equal
        have fresh : Keyed.get? f.name rest = none := by
          rw [← Option.not_isSome_iff_eq_none]
          exact fun there => distinct.1 (Keyed.contains_iff.1 there)
        rw [Field.overlay_cons_self, checked, Field.overlay, fresh, Keyed.get?_put_self]
      · rw [Field.overlay, Field.overlay, Keyed.get?_cons, if_neg same,
          Keyed.get?_put_of_ne (Ne.symm same)]

/-- An object is read as the payload that the record makes of it. -/
theorem toOption_read (record : shape.IsRecord scope write fields) (path : Path)
    {payload : List (String × Json)} (plain : Plain fields payload)
    (within : ∀ entry ∈ payload, scope entry.1 entry.2) :
    (shape.read path (.obj payload)).toOption.map write = fields.mapM (Field.checked payload) := by
  by_cases complete : ∀ m ∈ shape.members, m.isOptional = false → m.name ∈ payload.map Prod.fst
  · have fold : (shape.read path (.obj payload)).toOption =
        (payload.foldlM (readMember shape.members path) shape.blank).toOption := by
      refine Option.ext fun s => ?_
      rw [Except.toOption_eq_some, Except.toOption_eq_some, Shape.read_obj_eq_ok plain.distinct,
        and_iff_left complete]
    rw [fold, record.toOption_foldlM path plain within]
    refine List.mapM_congr_of_mem fun f member => ?_
    rcases record.find? member with ⟨m, found, isField⟩
    rw [Field.overlay, Field.checked_eq]
    cases given : Keyed.get? f.name payload with
    | some item => rfl
    | none =>
      cases default : f.default with
      | some d =>
        rw [isField.blank d default]
        rfl
      | none =>
        have mandatory : m.isOptional = false := by rw [isField.isOptional, default]; rfl
        have there := complete m (List.mem_of_find?_eq_some found) mandatory
        rw [isField.name, ← Keyed.contains_iff, Keyed.contains, given] at there
        cases there
  · have refused : (shape.read path (.obj payload)).toOption = none := by
      rw [← Option.not_isSome_iff_eq_none, Option.isSome_iff_exists]
      rintro ⟨s, read⟩
      exact complete ((Shape.read_obj_eq_ok plain.distinct).1 (Except.toOption_eq_some.1 read)).2
    have failed : ¬(fields.mapM (Field.checked payload)).isSome = true := by
      rw [List.isSome_mapM]
      refine fun all => complete fun m member mandatory => ?_
      rcases record.members.exists_of_mem_left member with ⟨f, member', isField⟩
      have given := all f member'
      rw [isField.isOptional, Option.isSome_eq_false_iff, Option.isNone_iff_eq_none] at mandatory
      rw [isField.name, ← Keyed.contains_iff, Keyed.contains]
      rw [Field.checked_eq, mandatory] at given
      cases found : Keyed.get? f.name payload with
      | some item => rfl
      | none => rw [found] at given; cases given
    rw [refused, Option.not_isSome_iff_eq_none.1 failed]
    rfl

/-- A structure that is a record is read as the record is checked, wherever it stands. -/
theorem readsAs (record : shape.IsRecord scope write fields) (name : String) :
    ReadsAs (fun v => PlainPart fields v ∧
        ∀ parts, v = .obj parts → ∀ entry ∈ parts, scope entry.1 entry.2)
      shape.read (fun s => .obj (write s)) (.record name fields) := by
  intro path v within
  rcases within with ⟨⟨notArray, plain⟩, within⟩
  rw [Descriptor.checked_record]
  cases v with
  | obj payload =>
    have known : ¬(unknownField? fields payload).isSome = true := by
      rw [Descriptor.isSome_unknownField?]
      rintro ⟨entry, member, unknown⟩
      rcases List.mem_map.1 ((plain payload rfl).declared entry.1 (List.mem_map_of_mem member))
        with ⟨f, member', same⟩
      exact unknown f member' same
    have read := record.toOption_read path (plain payload rfl) (within payload rfl)
    dsimp only
    rw [if_neg known, ← read, Option.map_map]
    refine congrArg (Option.map · _) (funext fun s => congrArg Json.obj ?_)
    exact (Keyed.ofPairs_of_nodup (record.keys s ▸ record.distinct)).symm
  | arr items => exact absurd rfl notArray
  | _ => rfl

end Shape.IsRecord

end Document

/-! ## File data -/

namespace FileData

open Document

/-- A file size that is a number is an integer of a signed word. -/
def SizeInWord (key : String) (v : Json) : Prop :=
  key = "filesize_bytes" → ∀ n, v = .num n → ∃ i, v = Json.ofSignedWord i

/-- The values under the names of file data on which its two descriptions agree. -/
def Within (key : String) (v : Json) : Prop :=
  (key = "source_identifiers" → PlainPart sourceIdentifiersDescriptor.fields v) ∧
    (key = "metadata" → PlainPart metadataDescriptor.fields v ∧
      ∀ parts, v = .obj parts → ∀ entry ∈ parts, SizeInWord entry.1 entry.2)

theorem isRecord_sourceIdentifiers :
    sourceIdentifiersShape.IsRecord (fun _ _ => True) (fun s => s.toJson.fields?.getD [])
      sourceIdentifiersDescriptor.fields := by
  refine ⟨?_, by decide, fun _ => rfl⟩
  refine .cons (isField_required .string fun _ _ => rfl) ?_
  refine .cons (isField_required .string fun _ _ => rfl) ?_
  exact .cons (isField_optional .textOrNull (fun _ _ => rfl) rfl) .nil

theorem isRecord_metadata :
    metadataShape.IsRecord SizeInWord (fun m => m.toJson.fields?.getD [])
      metadataDescriptor.fields := by
  have size : ReadsAs (SizeInWord "filesize_bytes") Document.integer Json.ofSignedWord .integer :=
    ReadsAs.integer.mono fun v within => within rfl
  refine ⟨?_, by decide, fun _ => rfl⟩
  refine .cons (isField_optional .textOrNull (fun _ _ => rfl) rfl) ?_
  refine .cons (isField_optional .textOrNull (fun _ _ => rfl) rfl) ?_
  refine .cons (isField_optional (.orNull .fields rfl rfl) (fun _ _ => rfl) rfl) ?_
  refine .cons (isField_optional .textOrNull (fun _ _ => rfl) rfl) ?_
  refine .cons (isField_optional .textOrNull (fun _ _ => rfl) rfl) ?_
  refine .cons (isField_optional .textOrNull (fun _ _ => rfl) rfl) ?_
  refine .cons (isField_optional (.orNull (.list .fields) rfl rfl) (fun _ _ => rfl) rfl) ?_
  exact .cons (isField_optional (.orNull size rfl rfl) (fun _ _ => rfl) rfl) .nil

theorem isRecord : shape.IsRecord Within (fun f => f.toJson.fields?.getD []) fields := by
  have identifiers : ReadsAs (Within "source_identifiers")
      (Document.orNull sourceIdentifiersShape.read) (Json.orNull SourceIdentifiers.toJson)
      (.optional sourceIdentifiersDescriptor) := by
    refine ReadsAs.orNull ?_ rfl rfl
    exact (isRecord_sourceIdentifiers.readsAs "SourceIdentifiers").mono
      fun v within => ⟨within.1 rfl, fun _ _ _ _ => trivial⟩
  have metadata : ReadsAs (Within "metadata") metadataShape.read SourceMetadata.toJson
      metadataDescriptor :=
    (isRecord_metadata.readsAs "FileDataSourceMetadata").mono fun v within => within.2 rfl
  refine ⟨?_, by decide, fun _ => rfl⟩
  refine .cons (isField_required .string fun _ _ => rfl) ?_
  refine .cons (isField_required .string fun _ _ => rfl) ?_
  refine .cons (isField_optional identifiers (fun _ _ => rfl) rfl) ?_
  refine .cons (isField_optional .string (fun _ _ => rfl) rfl) ?_
  refine .cons (isField_optional metadata (fun _ _ => rfl) rfl) ?_
  refine .cons (isField_optional .fields (fun _ _ => rfl) rfl) ?_
  refine .cons (isField_optional .boolean (fun _ _ => rfl) rfl) ?_
  exact .cons (isField_optional .textOrNull (fun _ _ => rfl) rfl) .nil

/-- An object on which the two descriptions of file data agree: at no level it has a name that is
not described, its parts are no arrays, and its size is an integer of a signed word if it is a
number at all. -/
structure InScope (payload : List (String × Json)) : Prop where
  plain : Plain fields payload
  sourceIdentifiers : ∀ v, Keyed.get? "source_identifiers" payload = some v →
    PlainPart sourceIdentifiersDescriptor.fields v
  metadata : ∀ v, Keyed.get? "metadata" payload = some v → PlainPart metadataDescriptor.fields v
  filesizeBytes : ∀ parts n, Keyed.get? "metadata" payload = some (.obj parts) →
    Keyed.get? "filesize_bytes" parts = some (.num n) → ∃ i, Json.num n = Json.ofSignedWord i

theorem InScope.within {payload : List (String × Json)} (inScope : InScope payload) :
    ∀ entry ∈ payload, Within entry.1 entry.2 := by
  rintro ⟨key, v⟩ member
  have given := (Keyed.get?_eq_some_iff inScope.plain.distinct).2 member
  constructor
  · rintro rfl
    exact inScope.sourceIdentifiers v given
  · rintro rfl
    have part := inScope.metadata v given
    refine ⟨part, ?_⟩
    rintro parts rfl ⟨name, size⟩ member' rfl n rfl
    have distinct := (part.2 parts rfl).distinct
    exact inScope.filesizeBytes parts n given ((Keyed.get?_eq_some_iff distinct).2 member')

theorem checked_fields (name : String) {payload : List (String × Json)}
    (inScope : InScope payload) :
    (Descriptor.record name fields).checked (.obj payload) =
      (ofJson (.obj payload)).toOption.map toJson := by
  have part : PlainPart fields (.obj payload) :=
    ⟨nofun, fun parts same => Json.obj.inj same ▸ inScope.plain⟩
  have read := isRecord.readsAs name [] (.obj payload)
    ⟨part, fun parts same => Json.obj.inj same ▸ inScope.within⟩
  rw [← read, ofJson]
  cases shape.read [] (.obj payload) <;> rfl

/-- File data is read from an object exactly if the object fits the record of its fields, and it is
then written as what the record makes of the object. -/
theorem agrees_with_fields (name : String) {payload : List (String × Json)}
    (inScope : InScope payload) :
    ((∃ f, ofJson (.obj payload) = .ok f) ↔
        ∃ x, validate (.record name fields) (.obj payload) = .ok x) ∧
      ∀ f x, ofJson (.obj payload) = .ok f →
        validate (.record name fields) (.obj payload) = .ok x → f.toJson = x.toJson := by
  have same := checked_fields name inScope
  rw [Descriptor.checked_eq] at same
  generalize ofJson (.obj payload) = read at same
  generalize validate (.record name fields) (.obj payload) = checked at same
  cases read with
  | error e =>
    cases checked with
    | error e' =>
      refine ⟨iff_of_false ?_ ?_, ?_⟩
      · rintro ⟨f, ⟨⟩⟩
      · rintro ⟨x, ⟨⟩⟩
      · rintro f x ⟨⟩
    | ok x => cases same
  | ok f =>
    cases checked with
    | error e' => cases same
    | ok x =>
      refine ⟨iff_of_true ⟨f, rfl⟩ ⟨x, rfl⟩, ?_⟩
      rintro _ _ ⟨⟩ ⟨⟩
      exact (Option.some.inj same).symm

/-- A file of which only the size is known besides what has to be. -/
def upload : List (String × Json) :=
  [("identifier", .str "a1"), ("connector_type", .str "s3"),
    ("metadata", .obj [("filesize_bytes", Json.ofSignedWord ⟨10, by decide⟩)])]

theorem inScope_upload : InScope upload where
  plain := ⟨by decide, by decide⟩
  sourceIdentifiers := nofun
  metadata := by
    rintro v ⟨⟩
    refine ⟨nofun, ?_⟩
    rintro parts ⟨⟩
    exact ⟨by decide, by decide⟩
  filesizeBytes := by
    rintro parts n ⟨⟩ ⟨⟩
    exact ⟨_, rfl⟩

theorem agrees_with_fields_upload :
    InScope upload ∧ ∃ f x, ofJson (.obj upload) = .ok f ∧
      validate (.record "FileData" fields) (.obj upload) = .ok x ∧ f.toJson = x.toJson := by
  have agrees := agrees_with_fields "FileData" inScope_upload
  have read : ofJson (.obj upload) = .ok
      { identifier := "a1", connectorType := "s3",
        metadata := { filesizeBytes := some ⟨10, by decide⟩ } } := rfl
  rcases agrees.1.1 ⟨_, read⟩ with ⟨x, checked⟩
  exact ⟨inScope_upload, _, x, read, checked, agrees.2 _ x read checked⟩

end FileData

end CallContract
