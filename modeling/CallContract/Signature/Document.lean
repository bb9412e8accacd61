import CallContract.Signature.Basic

/-!
# Signatures as documents

* `Signature.toJson` writes a function with its parameters; the kind of a parameter is always written.
* `Signature.ofJson?` reads one. Functions and parameters may be arrays of their parts.
-/

namespace CallContract

/-! ## Writing -/

/-- A field of a record as a document. -/
def Field.toJson (f : Field Descriptor) : Json :=
  .obj ([("name", .str f.name), ("type", f.type.toJson)] ++ defaultSlot f.default)

/-- A parameter as a document. -/
def Parameter.toJson (p : Parameter) : Json :=
  .obj ([("name", .str p.name), ("type", p.type.toJson)] ++ defaultSlot p.default ++
    [("kind", .str p.kind.word)])

/-- A function as a document. -/
def Signature.toJson (sig : Signature) : Json :=
  .obj [("name", .str sig.name), ("params", .arr (sig.params.map Parameter.toJson)),
    ("returns", sig.returns.toJson)]

/-! ## Reading -/

/-- Reads a kind of parameters: a word, or an object of one word over null. -/
def ParamKind.ofJson? : Json → Option ParamKind
  | .str word => Keyed.get? word ParamKind.byWord
  | .obj [(word, .null)] => Keyed.get? word ParamKind.byWord
  | _ => none

/-- Reads a parameter; without a kind it is positional. -/
def Parameter.ofJson? (j : Json) : Option Parameter :=
  match j.slots? ["name", "type", "default", "kind"] with
  | some [some (.str name), some type, default, kind] => do
    let type ← Descriptor.ofJson? false type
    let kind ← match kind with
      | some kind => ParamKind.ofJson? kind
      | none => some .positional
    return { name := name, type := type, default := default, kind := kind }
  | _ => none

/-- Reads a function. -/
def Signature.ofJson? (j : Json) : Option Signature :=
  match j.slots? ["name", "params", "returns"] with
  | some [some (.str name), some (.arr params), some returns] => do
    let params ← params.mapM Parameter.ofJson?
    let returns ← Descriptor.ofJson? false returns
    return { name := name, params := params, returns := returns }
  | _ => none

end CallContract
