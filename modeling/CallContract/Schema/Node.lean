import CallContract.Descriptor.Basic
import CallContract.FileData.Basic

/-!
# Schema nodes

The forms of nodes that types are encoded as. A node is a JSON object; what it may hold besides is
the business of `CallContract.Schema.Grammar`.
-/

namespace CallContract.Node

/-- The node of null. -/
def null : Json :=
  .obj [("type", .str "null")]

/-- The node of anything. -/
def anything : Json :=
  .obj []

/-- The node of a scalar type. -/
def primitive (kind : Primitive) : Json :=
  .obj [("type", .str kind.name)]

/-- The node of paths. -/
def path : Json :=
  .obj [("type", .str "string"), ("is_path", .bool true)]

/-- The node of an enumeration of scalars. -/
def enumeration (kind : Primitive) (values : List Json) : Json :=
  .obj [("type", .str kind.name), ("enum", .arr values)]

/-- The node of lists. -/
def array (items : Json) : Json :=
  .obj [("type", .str "array"), ("items", items)]

/-- The node of mappings. -/
def mapping (key value : Json) : Json :=
  .obj [("type", .str "object"), ("items", .obj [("key", key), ("value", value)])]

/-- The node of a union. -/
def anyOf (arms : List Json) : Json :=
  .obj [("anyOf", .arr arms)]

/-- The node of a record. -/
def record (properties : List (String × Json)) (required : List String) : Json :=
  .obj [("type", .str "object"), ("properties", .obj properties),
    ("required", .arr (required.map .str))]

/-- A node with a default: a default that the node has is replaced. -/
def withDefault (node : Json) : Option Json → Json
  | none => node
  | some value =>
    match node with
    | .obj fields => .obj (Keyed.put "default" value fields)
    | other => other

/-! ## File data -/

/-- The node of maps of strings to anything. -/
def anyMap : Json :=
  mapping (primitive .string) anything

/-- A node that may be left out for null. -/
def orNull (node : Json) : Json :=
  withDefault node (some .null)

/-- The node of source identifiers. -/
def sourceIdentifiers : Json :=
  record [("filename", primitive .string), ("fullpath", primitive .string),
    ("rel_path", orNull (primitive .string))] ["filename", "fullpath"]

/-- The node of source metadata. -/
def sourceMetadata : Json :=
  record [("url", orNull (primitive .string)), ("version", orNull (primitive .string)),
    ("record_locator", orNull anyMap), ("date_created", orNull (primitive .string)),
    ("date_modified", orNull (primitive .string)), ("date_processed", orNull (primitive .string)),
    ("permissions_data", orNull (array anyMap)),
    ("filesize_bytes", orNull (primitive .integer))] []

/-- The properties of file data. -/
def fileDataProperties : List (String × Json) :=
  [("identifier", primitive .string), ("connector_type", primitive .string),
    ("source_identifiers", orNull sourceIdentifiers),
    ("doc_type", withDefault (primitive .string) (some (.str "file"))),
    ("metadata", withDefault sourceMetadata (some (SourceMetadata.toJson {}))),
    ("additional_metadata", withDefault anyMap (some (.obj []))),
    ("reprocess", withDefault (primitive .boolean) (some (.bool false))),
    ("local_download_path", orNull (primitive .string))]

/-- The node of file data: that of a record, with a marker. -/
def fileData : Json :=
  .obj [("type", .str "object"), ("is_file_data", .bool true),
    ("properties", .obj fileDataProperties),
    ("required", .arr [.str "identifier", .str "connector_type"])]

end CallContract.Node
