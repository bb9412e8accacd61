import CallContract.Declaration.Basic

/-!
# Signatures

A signature is a function whose parameters and response have resolved types.

* `Parameter.shown` is the name of a parameter as messages show it, with stars if it is variadic.
* `Parameter.variadic` is a variadic parameter of any type.
-/

namespace CallContract

/-- A parameter: a field, and how arguments reach it. -/
structure Parameter extends Field Descriptor where
  kind : ParamKind := .positional

/-- The name of a parameter, with a star if it takes any number of arguments by position, and two if
by name. -/
def Parameter.shown (p : Parameter) : String :=
  match p.kind with
  | .positional => p.name
  | .varPositional => "*" ++ p.name
  | .varKeyword => "**" ++ p.name

/-- A parameter of any type and without a default. -/
def Parameter.variadic (name : String) (kind : ParamKind) : Parameter :=
  { name := name, type := .any, kind := kind }

/-- A function with resolved types. -/
structure Signature where
  name : String
  params : List Parameter
  returns : Descriptor

end CallContract
