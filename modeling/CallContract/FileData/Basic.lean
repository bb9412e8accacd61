import CallContract.Document.Reading

/-!
# File data

The description of an ingested file that requests can carry.

* `FileData.toJson` writes every member, absent ones as null.
* `FileData.ofJson` reads an object; members that may be left out get their defaults.
-/

namespace CallContract

/-- Where a file comes from. -/
structure SourceIdentifiers where
  filename : String
  fullpath : String
  relPath : Option String := none

/-- What is known of a file at its source. -/
structure SourceMetadata where
  url : Option String := none
  version : Option String := none
  recordLocator : Option (List (String × Json)) := none
  dateCreated : Option String := none
  dateModified : Option String := none
  dateProcessed : Option String := none
  permissionsData : Option (List (List (String × Json))) := none
  filesizeBytes : Option Json.SignedWord := none

/-- The description of a file. -/
structure FileData where
  identifier : String
  connectorType : String
  sourceIdentifiers : Option SourceIdentifiers := none
  docType : String := "file"
  metadata : SourceMetadata := {}
  additionalMetadata : List (String × Json) := []
  reprocess : Bool := false
  localDownloadPath : Option String := none

/-! ## Writing -/

/-- The JSON form of source identifiers. -/
def SourceIdentifiers.toJson (s : SourceIdentifiers) : Json :=
  .obj [("filename", .str s.filename), ("fullpath", .str s.fullpath),
    ("rel_path", Json.orNull .str s.relPath)]

/-- The JSON form of source metadata. -/
def SourceMetadata.toJson (m : SourceMetadata) : Json :=
  .obj [("url", Json.orNull .str m.url), ("version", Json.orNull .str m.version),
    ("record_locator", Json.orNull .obj m.recordLocator),
    ("date_created", Json.orNull .str m.dateCreated),
    ("date_modified", Json.orNull .str m.dateModified),
    ("date_processed", Json.orNull .str m.dateProcessed),
    ("permissions_data", Json.orNull (fun maps => .arr (maps.map .obj)) m.permissionsData),
    ("filesize_bytes", Json.orNull Json.ofSignedWord m.filesizeBytes)]

namespace FileData

/-- The JSON form of file data. -/
def toJson (f : FileData) : Json :=
  .obj [("identifier", .str f.identifier), ("connector_type", .str f.connectorType),
    ("source_identifiers", Json.orNull SourceIdentifiers.toJson f.sourceIdentifiers),
    ("doc_type", .str f.docType), ("metadata", f.metadata.toJson),
    ("additional_metadata", .obj f.additionalMetadata), ("reprocess", .bool f.reprocess),
    ("local_download_path", Json.orNull .str f.localDownloadPath)]

/-! ## Reading -/

open Document (Shape required optional)

/-- The members of source identifiers. -/
def sourceIdentifiersShape : Shape Json SourceIdentifiers where
  name := "SourceIdentifiers"
  blank := { filename := "", fullpath := "" }
  members := [
    required "filename" Document.string fun s x => { s with filename := x },
    required "fullpath" Document.string fun s x => { s with fullpath := x },
    optional "rel_path" (Document.orNull Document.string) fun s x => { s with relPath := x }]

/-- The members of source metadata. -/
def metadataShape : Shape Json SourceMetadata where
  name := "FileDataSourceMetadata"
  blank := {}
  members := [
    optional "url" (Document.orNull Document.string) fun m x => { m with url := x },
    optional "version" (Document.orNull Document.string) fun m x => { m with version := x },
    optional "record_locator" (Document.orNull Document.fields) fun m x =>
      { m with recordLocator := x },
    optional "date_created" (Document.orNull Document.string) fun m x =>
      { m with dateCreated := x },
    optional "date_modified" (Document.orNull Document.string) fun m x =>
      { m with dateModified := x },
    optional "date_processed" (Document.orNull Document.string) fun m x =>
      { m with dateProcessed := x },
    optional "permissions_data" (Document.orNull (Document.list Document.fields)) fun m x =>
      { m with permissionsData := x },
    optional "filesize_bytes" (Document.orNull Document.integer) fun m x =>
      { m with filesizeBytes := x }]

/-- The members of file data. -/
def shape : Shape Json FileData where
  name := "FileData"
  blank := { identifier := "", connectorType := "" }
  members := [
    required "identifier" Document.string fun f x => { f with identifier := x },
    required "connector_type" Document.string fun f x => { f with connectorType := x },
    optional "source_identifiers" (Document.orNull sourceIdentifiersShape.read) fun f x =>
      { f with sourceIdentifiers := x },
    optional "doc_type" Document.string fun f x => { f with docType := x },
    optional "metadata" metadataShape.read fun f x => { f with metadata := x },
    optional "additional_metadata" Document.fields fun f x => { f with additionalMetadata := x },
    optional "reprocess" Document.boolean fun f x => { f with reprocess := x },
    optional "local_download_path" (Document.orNull Document.string) fun f x =>
      { f with localDownloadPath := x }]

/-- Why a value is no file data. -/
inductive Fault where
  | notObject (found : Json.Kind)
  | wrongShape (error : Document.ReadError)
  deriving DecidableEq

/-- The text of a fault. -/
def Fault.message : Fault → String
  | .notObject found => "expected an object, found " ++ found.name
  | .wrongShape e => e.message

/-- Reads file data from an object. -/
def ofJson (j : Json) : Except Fault FileData :=
  match j with
  | .obj _ => (shape.read [] j).mapError .wrongShape
  | _ => .error (.notObject j.kind)

end FileData

end CallContract
