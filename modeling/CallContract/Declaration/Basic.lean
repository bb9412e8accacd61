import CallContract.Descriptor.Document
import CallContract.Document.Reading

/-!
# Declarations

What a manifest declares: records and enumerations by name, and a function whose parameters have
annotations for types.

* `Declaration.toJson` and its neighbours write declarations as documents, with every member but
  absent defaults.
* `Declaration.read` and its neighbours read them, from values and from texts.
-/

namespace CallContract

/-- A declared record: its fields have annotations for types. -/
structure RecordDecl where
  name : String
  fields : List (Field String) := []

/-- A declared enumeration. -/
structure EnumDecl where
  name : String
  members : List EnumMember

/-- A declared type. -/
inductive Declaration where
  | record (decl : RecordDecl)
  | enumeration (decl : EnumDecl)

/-- The name of a declared type. -/
def Declaration.name : Declaration → String
  | .record d => d.name
  | .enumeration d => d.name

/-- How arguments reach a parameter. -/
inductive ParamKind where
  | positional
  | varPositional
  | varKeyword
  deriving DecidableEq

/-- The word for a kind of parameters in documents. -/
def ParamKind.word : ParamKind → String
  | .positional => "positional"
  | .varPositional => "var_positional"
  | .varKeyword => "var_keyword"

/-- Whether a kind of parameters takes any number of arguments. -/
def ParamKind.isVariadic : ParamKind → Bool
  | .positional => false
  | _ => true

/-- The kinds of parameters by their words. -/
def ParamKind.byWord : List (String × ParamKind) :=
  [("positional", .positional), ("var_positional", .varPositional), ("var_keyword", .varKeyword)]

/-- A declared parameter, with an annotation or none. -/
structure ParamDecl extends Field (Option String) where
  kind : ParamKind := .positional

/-- A declared function. Without an annotation for the response it returns nothing. -/
structure SignatureDecl where
  name : String
  params : List ParamDecl := []
  returns : Option String := none

/-- The types that a function uses, and the function. -/
structure Manifest where
  types : List Declaration := []
  function : SignatureDecl

/-! ## Writing -/

/-- A field of a declared record as a document. -/
def Field.declToJson (f : Field String) : Json :=
  .obj ([("name", .str f.name), ("annotation", .str f.type)] ++ defaultSlot f.default)

/-- A declared record as a document. -/
def RecordDecl.toJson (d : RecordDecl) : Json :=
  .obj [("name", .str d.name), ("fields", .arr (d.fields.map Field.declToJson))]

/-- A declared enumeration as a document. -/
def EnumDecl.toJson (d : EnumDecl) : Json :=
  .obj [("name", .str d.name), ("members", .arr (d.members.map EnumMember.toJson))]

/-- A declared type as a document. -/
def Declaration.toJson : Declaration → Json
  | .record d => .obj [("record", d.toJson)]
  | .enumeration d => .obj [("enumeration", d.toJson)]

/-- A declared parameter as a document. -/
def ParamDecl.toJson (p : ParamDecl) : Json :=
  .obj ([("name", .str p.name), ("annotation", Json.orNull .str p.type)] ++ defaultSlot p.default ++
    [("kind", .str p.kind.word)])

/-- A declared function as a document. -/
def SignatureDecl.toJson (d : SignatureDecl) : Json :=
  .obj [("name", .str d.name), ("params", .arr (d.params.map ParamDecl.toJson)),
    ("returns", Json.orNull .str d.returns)]

/-- A manifest as a document. -/
def Manifest.toJson (m : Manifest) : Json :=
  .obj [("types", .arr (m.types.map Declaration.toJson)), ("function", m.function.toJson)]

/-! ## Reading -/

open Document (Shape Reader Source required optional)

variable {σ : Type} [Source σ]

/-- Reads a member of an enumeration. -/
def EnumMember.read : Reader σ EnumMember :=
  Shape.read {
    name := "EnumMember"
    blank := { label := "", value := .null }
    members := [
      required "label" Document.string fun m x => { m with label := x },
      required "value" Document.value fun m x => { m with value := x }] }

/-- Reads a field of a declared record. -/
def Field.readDecl : Reader σ (Field String) :=
  Shape.read {
    name := "FieldDecl"
    blank := { name := "", type := "" }
    members := [
      required "name" Document.string fun f x => { f with name := x },
      required "annotation" Document.string fun f x => { f with type := x },
      optional "default" Document.value fun f x => { f with default := some x }] }

/-- Reads a declared record. -/
def RecordDecl.read : Reader σ RecordDecl :=
  Shape.read {
    name := "RecordDecl"
    blank := { name := "" }
    members := [
      required "name" Document.string fun d x => { d with name := x },
      optional "fields" (Document.list Field.readDecl) fun d x => { d with fields := x }] }

/-- Reads a declared enumeration. -/
def EnumDecl.read : Reader σ EnumDecl :=
  Shape.read {
    name := "EnumDecl"
    blank := { name := "", members := [] }
    members := [
      required "name" Document.string fun d x => { d with name := x },
      required "members" (Document.list EnumMember.read) fun d x => { d with members := x }] }

/-- Reads a declared type. It never is a bare name. -/
def Declaration.read : Reader σ Declaration :=
  Document.choice
    [("record", fun path s => .record <$> RecordDecl.read path s),
      ("enumeration", fun path s => .enumeration <$> EnumDecl.read path s)]
    fun _ path => .error ⟨path, .wrongType .bareChoice .choiceValue⟩

/-- Reads a kind of parameters, nothing belonging to any. -/
def ParamKind.read : Reader σ ParamKind :=
  Document.choice
    (ParamKind.byWord.map fun (word, kind) =>
      (word, fun path s => (fun _ => kind) <$> Document.nothing path s))
    fun word path => Document.choiceName ParamKind.byWord path word

/-- Reads a declared parameter. -/
def ParamDecl.read : Reader σ ParamDecl :=
  Shape.read {
    name := "ParamDecl"
    blank := { name := "", type := none }
    members := [
      required "name" Document.string fun p x => { p with name := x },
      optional "annotation" (Document.orNull Document.string) fun p x => { p with type := x },
      optional "default" Document.value fun p x => { p with default := some x },
      optional "kind" ParamKind.read fun p x => { p with kind := x }] }

/-- Reads a declared function. -/
def SignatureDecl.read : Reader σ SignatureDecl :=
  Shape.read {
    name := "SignatureDecl"
    blank := { name := "" }
    members := [
      required "name" Document.string fun d x => { d with name := x },
      optional "params" (Document.list ParamDecl.read) fun d x => { d with params := x },
      optional "returns" (Document.orNull Document.string) fun d x => { d with returns := x }] }

/-- Reads a manifest. -/
def Manifest.read : Reader σ Manifest :=
  Shape.read {
    name := "Manifest"
    blank := { function := { name := "" } }
    members := [
      optional "types" (Document.list Declaration.read) fun m x => { m with types := x },
      required "function" SignatureDecl.read fun m x => { m with function := x }] }

/-- Reads a manifest from the value at the front of a text. What stands behind that value is not
looked at. -/
def Manifest.ofText (text : String) : Except Document.ReadError Manifest :=
  Manifest.read [] (⟨(Json.Outline.read text.toList).1, Json.Outline.depthLimit⟩ : Document.Place)

end CallContract
