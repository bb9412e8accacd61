import CallContract.Error

/-!
# The schemas of a function

* `Signature.inputSchema` is the schema of requests: one property for each parameter that is not
  hidden. No parameter may be variadic.
* `Signature.outputSchema` is the schema of responses: records, enumerations, file data or null,
  perhaps in unions and lists.
* `Signature.schemas` holds both, and `Signature.fileDataMetaSchema` is that of the side channel for
  new records.
-/

namespace CallContract

/-- Which parameters are hidden from requests. -/
structure SchemaOptions where
  hidden : List String := ["usage", "filedata_meta", "message_channels"]

/-! ## Requests -/

/-- No parameter may be variadic: it has no name to put into a request. -/
def checkParameters (params : List Parameter) : Except SchemaError Unit :=
  match params.filter fun p => p.kind.isVariadic with
  | [] => .ok ()
  | variadic => .error (.variadic (variadic.map Parameter.shown))

/-- The schema of requests for some parameters: null if there are none. -/
def parametersSchema (params : List Parameter) : Except SchemaError Json := do
  checkParameters params
  if params.isEmpty then return Node.null
  let fields := params.map Parameter.toField
  let properties ← (encodeFields fields).mapError .encode
  let required := Field.requiredNames fields
  return .obj ([("type", .str "object"), ("properties", .obj (Keyed.ofPairs properties))] ++
    if required.isEmpty then [] else [("required", .arr (required.map .str))])

/-! ## Responses -/

mutual
/-- The first part of a type that is no response: unions and lists are looked into. -/
def notResponse? : Descriptor → Option Descriptor
  | .optional inner => notResponse? inner
  | .union members => firstNotResponse? members
  | .list element => notResponse? element
  | .record .. | .enumeration .. | .fileData | .none => none
  | .primitive kind => some (.primitive kind)
  | .mapping key value => some (.mapping key value)
  | .any => some .any
  | .path => some .path

/-- The first part of several types that is no response. -/
def firstNotResponse? : List Descriptor → Option Descriptor
  | [] => none
  | member :: rest => (notResponse? member).or (firstNotResponse? rest)
end

/-- A response describes itself: no part of it outside records is a scalar, a mapping, a path or
anything. -/
def checkResponse (t : Descriptor) : Except SchemaError Unit :=
  match notResponse? t with
  | none => .ok ()
  | some offender => .error (.response offender t)

/-- The schema of responses of a type. -/
def responseSchema (t : Descriptor) : Except SchemaError Json := do
  checkResponse t
  (encode t).mapError .encode

/-- The schema of the side channel for a response type. -/
def fileDataMetaSchema (response : Descriptor) : Except SchemaError Json := do
  checkResponse response
  (encode (FileData.metaDescriptor response)).mapError .encode

/-! ## Functions -/

namespace Signature

/-- The parameters that requests hold. -/
def shownParams (sig : Signature) (options : SchemaOptions) : List Parameter :=
  sig.params.filter fun p => !options.hidden.contains p.name

/-- The schema of requests to a function. -/
def inputSchema (sig : Signature) (options : SchemaOptions) : Except SchemaError Json :=
  parametersSchema (sig.shownParams options)

/-- The schema of responses of a function. -/
def outputSchema (sig : Signature) : Except SchemaError Json :=
  responseSchema sig.returns

/-- The schemas of requests and responses together. -/
def schemas (sig : Signature) (options : SchemaOptions) : Except SchemaError Json := do
  let inputs ← sig.inputSchema options
  let outputs ← sig.outputSchema
  return .obj [("inputs", inputs), ("outputs", outputs)]

/-- The schema of the side channel of a function. -/
def fileDataMetaSchema (sig : Signature) : Except SchemaError Json :=
  CallContract.fileDataMetaSchema sig.returns

end Signature

end CallContract
