import CallContract.Descriptor.Basic
import CallContract.FileData.Basic

/-!
# The fields of file data as a record

* `FileData.fields` are the members of file data as fields of a record, with their defaults.
* `FileData.metaDescriptor` is the side channel by which a function fans its input out into new
  records whose contents are of its response type.
-/

namespace CallContract.FileData

/-- Maps of strings to anything. -/
def anyMap : Descriptor := .mapping .string .any

/-- Source identifiers as a record. -/
def sourceIdentifiersDescriptor : Descriptor :=
  .record "SourceIdentifiers" [
    { name := "filename", type := .string },
    { name := "fullpath", type := .string },
    { name := "rel_path", type := .optional .string, default := some .null }]

/-- Source metadata as a record. -/
def metadataDescriptor : Descriptor :=
  .record "FileDataSourceMetadata" [
    { name := "url", type := .optional .string, default := some .null },
    { name := "version", type := .optional .string, default := some .null },
    { name := "record_locator", type := .optional anyMap, default := some .null },
    { name := "date_created", type := .optional .string, default := some .null },
    { name := "date_modified", type := .optional .string, default := some .null },
    { name := "date_processed", type := .optional .string, default := some .null },
    { name := "permissions_data", type := .optional (.list anyMap), default := some .null },
    { name := "filesize_bytes", type := .optional .integer, default := some .null }]

/-- The members of file data as fields of a record. -/
def fields : List (Field Descriptor) := [
  { name := "identifier", type := .string },
  { name := "connector_type", type := .string },
  { name := "source_identifiers", type := .optional sourceIdentifiersDescriptor,
    default := some .null },
  { name := "doc_type", type := .string, default := some (.str "file") },
  { name := "metadata", type := metadataDescriptor,
    default := some (SourceMetadata.toJson {}) },
  { name := "additional_metadata", type := anyMap, default := some (.obj []) },
  { name := "reprocess", type := .boolean, default := some (.bool false) },
  { name := "local_download_path", type := .optional .string, default := some .null }]

/-- The type of the side channel for a response type. The contents of a new record may be left out
if the response may be null. -/
def metaDescriptor (response : Descriptor) : Descriptor :=
  let contents : Field Descriptor :=
    { name := "contents", type := response,
      default := if response.isOptional then some .null else none }
  let newRecord : Descriptor :=
    .record "NewRecord" [{ name := "file_data", type := .fileData }, contents]
  .record "FileDataMeta" [
    { name := "terminate_current", type := .boolean, default := some (.bool false) },
    { name := "new_records", type := .list newRecord, default := some (.arr []) }]

end CallContract.FileData
