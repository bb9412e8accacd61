import CallContract.Declaration.Registry
import CallContract.Schema.Decode
import CallContract.Schema.Encode
import CallContract.Value.Error

/-!
# Errors

* `SchemaError` gathers what can go wrong between a declared function and its requests.
* `SchemaError.message` is the text of an error.
-/

namespace CallContract

/-- What can go wrong between a declared function and its requests. -/
inductive SchemaError where
  | manifest (error : Document.ReadError)
  | resolve (error : ResolveError)
  | variadic (params : List String)
  | encode (error : EncodeError)
  | response (offender whole : Descriptor)
  | decode (error : DecodeError)
  | coercion (field : String) (value : Json) (source : ConstructionError)

/-- The text of an error of a manifest. Of a text that is no JSON the place is not told. -/
def manifestMessage (e : Document.ReadError) : String :=
  "invalid manifest: " ++ (if e.fault = .malformed then e.fault.message else e.message)

/-- The text of an error. -/
def SchemaError.message : SchemaError → String
  | .manifest e => manifestMessage e
  | .resolve e =>
    "unsupported annotation `" ++ e.text ++ "`: " ++ e.fault.message
  | .variadic params =>
    "function has variadic arguments, which are not allowed: " ++ ", ".intercalate params
  | .encode e => e.message
  | .response offender whole =>
    "unsupported response type: " ++
      (if offender.text = whole.text then offender.text
        else offender.text ++ " in " ++ whole.text)
  | .decode e => e.message
  | .coercion field value source =>
    "failed to map input for field " ++ field ++ ": " ++ value.compact ++ ": " ++ source.message

end CallContract
