import CallContract.CommandLine.Arguments
import CallContract.CommandLine.Glob
import CallContract.Schema.Grammar
import CallContract.Signature.Coerce
import CallContract.Signature.Document
import CallContract.Signature.Schema

/-!
# Running commands

* `Command.run` runs a command on files: what it prints and whether all is well, or a `Failure`.
* `Failure.message` tells a failure from the outside in: what could not be done, and why.
-/

namespace CallContract

/-! ## Failures -/

/-- Why a command fails. -/
inductive Failure where
  | unreadableManifest (path : String) (fault : FileFault)
  | invalidManifest (path : String) (error : Document.ReadError)
  | schema (error : SchemaError)
  | badPattern (error : GlobError)
  | noMatch (pattern : String)
  | unreadable (path : String) (fault : FileFault)
  | notJson (path : String) (error : Json.SyntaxError)
  | nothingSelected (pointer path : String)
  | undecodable (path : String) (error : DecodeError)
  | notObject (request : Json)
  | directoryNotMade (path : String) (fault : FileFault)
  | notWritten (path : String) (fault : FileFault)

/-- The text of a failure. That of an argument tells its cause within and behind itself. -/
def Failure.message : Failure → String
  | .unreadableManifest path fault =>
    "failed to read manifest file " ++ path ++ ": " ++ fault.message
  | .invalidManifest path e => "failed to load manifest " ++ path ++ ": " ++ manifestMessage e
  | .schema (.coercion field value source) =>
    (SchemaError.coercion field value source).message ++ ": " ++ source.message
  | .schema e => e.message
  | .badPattern e => "failed to resolve input file paths: " ++ e.message
  | .noMatch pattern =>
    "failed to resolve input file paths: glob pattern matched no files: " ++ pattern
  | .unreadable path fault => "failed to read source file " ++ path ++ ": " ++ fault.message
  | .notJson path e => "failed to parse JSON source file (" ++ path ++ "): " ++ e.message
  | .nothingSelected pointer path =>
    "JSON pointer " ++ pointer ++ " selects nothing in " ++ path
  | .undecodable path e => "failed to decode " ++ path ++ ": " ++ e.message
  | .notObject request => "request body must be a JSON object, found " ++ request.compact
  | .directoryNotMade path fault => "failed to create " ++ path ++ ": " ++ fault.message
  | .notWritten path fault => "failed to write " ++ path ++ ": " ++ fault.message

/-! ## Documents -/

/-- What a command that does not fail prints, and whether all it looked at is well. -/
structure Report where
  isWell : Bool := true
  stdout : String := ""
  stderr : String := ""

variable {m : Type → Type} [Monad m] (files : Files m)

/-- What a command does: it works on files and may fail. -/
abbrev Action (m : Type → Type) (α : Type) : Type :=
  ExceptT Failure m α

/-- The result of an operation, its fault being a failure. -/
def orFail {ε α : Type} (failure : ε → Failure) (operation : m (Except ε α)) : Action m α := do
  match ← (operation : m (Except ε α)) with
  | .ok a => return a
  | .error e => throw (failure e)

/-- The manifest in a file. -/
def loadManifest (path : String) : Action m Manifest := do
  let text ← orFail (.unreadableManifest path) (files.read path)
  orFail (.invalidManifest path) (pure (Manifest.ofText text))

/-- The signature of the function that the manifest in a file declares. -/
def loadSignature (path : String) : Action m Signature := do
  let manifest ← loadManifest files path
  orFail (fun e => .schema (.resolve e)) (pure manifest.signature)

/-- The JSON value in a file. -/
def loadJson (path : String) : Action m Json := do
  let text ← orFail (.unreadable path) (files.read path)
  orFail (.notJson path) (pure (Json.ofText text))

/-- The part of a document that a pointer, given as text, leads to; without one all of it. -/
def select (pointer : Option String) (path : String) (document : Json) : Except Failure Json :=
  match pointer with
  | none => .ok document
  | some text =>
    match (Pointer.ofText? text).bind fun pointer => document.at? pointer with
    | some part => .ok part
    | none => .error (.nothingSelected text path)

/-- The document in a file, or the part of it that counts. -/
def loadDocument (settings : InputSettings) (path : String) : Action m Json := do
  let document ← loadJson files path
  orFail id (pure (select settings.pointer path document))

/-- The paths that a path or a pattern stands for. -/
def pathsOf (text : String) : Action m (List String) := do
  if isGlob text then
    let glob ← orFail .badPattern (pure (Glob.ofText text))
    let paths ← (glob.paths files : m (List String))
    if paths.isEmpty then throw (.noMatch text)
    return paths
  else return [text]

/-- The paths of the documents that a command reads. -/
def InputSettings.paths (settings : InputSettings) : Action m (List String) :=
  settings.inputs.flatMapM (pathsOf files)

/-- Puts a text out: into a file, whose directory is made, or as a line. -/
def writeOut (out : Option String) (text : String) : Action m Report :=
  match out with
  | none => return { stdout := text ++ "\n" }
  | some path => do
    match parentPath? path with
    | none | some "" => pure ()
    | some parent => orFail (.directoryNotMade parent) (files.makeDirectories parent)
    orFail (.notWritten path) (files.write path text)
    return {}

/-! ## Commands -/

/-- Prints the schemas of the function of a manifest. -/
def runSchema (manifest : String) (hidden : Option (List String)) (withFileDataMeta : Bool)
    (out : Option String) : Action m Report := do
  let sig ← loadSignature files manifest
  let options : SchemaOptions := match hidden with
    | some names => { hidden := names }
    | none => {}
  let schemas ← orFail .schema (pure (sig.schemas options))
  let fields := schemas.fields?.getD []
  if withFileDataMeta then
    let side ← orFail .schema (pure sig.fileDataMetaSchema)
    writeOut files out (Json.obj (Keyed.put "filedata_meta" side fields)).pretty
  else writeOut files out schemas.pretty

/-- The verdict on a document, or why there is none. -/
def verdict (settings : InputSettings) (response : Bool) (path : String) :
    m (Except Failure Bool) := do
  let document ← (loadDocument files settings path).run
  return document.map fun j => if response then isResponseSchema j else isInputSchema j

/-- The line of a verdict. -/
def verdictLine (path : String) : Except Failure Bool → String
  | .ok true => "✅ " ++ path ++ "\n"
  | .ok false => "❌ " ++ path ++ ": not a valid schema\n"
  | .error e => "❌ " ++ path ++ ": " ++ e.message ++ "\n"

/-- Whether a verdict is that all is well. -/
def isGood : Except Failure Bool → Bool
  | .ok good => good
  | .error _ => false

/-- Prints for each document whether it is the schema of a request, or of a response. -/
def runCheck (settings : InputSettings) (response : Bool) : Action m Report := do
  let paths ← settings.paths files
  let verdicts ← paths.mapM fun path => do
    let found ← ExceptT.lift (verdict files settings response path)
    return (path, found)
  let failures := (verdicts.filter fun (_, found) => !isGood found).length
  let stdout := String.join (verdicts.map fun (path, found) => verdictLine path found)
  if failures = 0 then return { stdout := stdout }
  else
    return { isWell := false, stdout := stdout,
             stderr := Decimal.natText failures ++ " of " ++ Decimal.natText verdicts.length ++
               " document(s) failed\n" }

/-- Prints the types that documents describe: one by itself, others as an array. -/
def runDecode (settings : InputSettings) (name : String) (out : Option String) :
    Action m Report := do
  let paths ← settings.paths files
  let types ← paths.mapM fun path => do
    let document ← loadDocument files settings path
    orFail (.undecodable path) (pure (decode document name))
  match types with
  | [t] => writeOut files out t.toJson.pretty
  | ts => writeOut files out (Json.arr (ts.map Descriptor.toJson)).pretty

/-- Prints the arguments of a request as the function of a manifest takes them. -/
def runCoerce (manifest request : String) : Action m Report := do
  let sig ← loadSignature files manifest
  match ← loadJson files request with
  | .obj fields => do
    let values ← orFail .schema (pure (sig.coerce fields))
    let result := Json.obj (values.map fun (name, value) => (name, value.toJson))
    return { stdout := result.pretty ++ "\n" }
  | other => throw (.notObject other)

/-- Runs a command. -/
def Command.run : Command → Action m Report
  | .schema manifest hidden withFileDataMeta out =>
    runSchema files manifest hidden withFileDataMeta out
  | .check settings response => runCheck files settings response
  | .decode settings name out => runDecode files settings name out
  | .coerce manifest request => runCoerce files manifest request

end CallContract
