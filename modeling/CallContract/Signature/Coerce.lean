import CallContract.Error
import CallContract.Value.Validate

/-!
# Requests as values

* `Signature.coerce` makes values of the arguments in a request that are records or file data; all
  else, arguments that no parameter asks for too, is taken as it is.
-/

namespace CallContract

/-- The value that an argument makes for a parameter of a type, or nothing where the argument is
taken as it is. -/
def coerceArgument (type : Descriptor) (argument : Json) :
    Except ConstructionError (Option Value) :=
  match type, argument with
  | .record .., .obj _ => (validate type argument).map some
  | .fileData, _ => (validate type argument).map some
  | _, _ => .ok none

/-- Replaces the arguments of parameters one after the other, starting from values so far. -/
def coerceParams (request : List (String × Json)) :
    List Parameter → List (String × Value) → Except SchemaError (List (String × Value))
  | [], values => .ok values
  | p :: rest, values =>
    match Keyed.get? p.name request with
    | none => coerceParams request rest values
    | some argument =>
      match coerceArgument p.type argument with
      | .error source => .error (.coercion p.name argument source)
      | .ok none => coerceParams request rest values
      | .ok (some value) => coerceParams request rest (Keyed.put p.name value values)

/-- The arguments of a request under their names, those of records and file data as values. -/
def Signature.coerce (sig : Signature) (request : List (String × Json)) :
    Except SchemaError (List (String × Value)) :=
  coerceParams request sig.params (request.map fun (name, argument) => (name, .raw argument))

end CallContract
