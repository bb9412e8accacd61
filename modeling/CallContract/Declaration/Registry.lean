import CallContract.TypeExpr.Parser
import CallContract.Descriptor.Literal
import CallContract.Signature.Basic

/-!
# Resolving annotations

A registry holds declared types. Annotations are resolved against it after all types have been
declared, so that they may refer to types declared later.

* `Registry.declare` makes a name known; builtin names and names already known are refused.
* `Registry.resolve` turns the text of an annotation into a descriptor. It ends for every registry:
  the names of the records being resolved are kept on a stack and none comes twice, and on one stack
  the annotations get lighter, a quoted part being heavier than what its text parses to.
* `Registry.resolveSignature` resolves the types of a declared function.
-/

namespace CallContract

/-- The text of an annotation, and what is wrong with it. -/
structure ResolveError where
  text : String
  fault : TypeExpr.Fault
  deriving DecidableEq

/-- A name without the module it is taken from. -/
def stripModule (name : String) : String :=
  let cs := name.toList
  let modules := ["typing.", "typing_extensions.", "pathlib.", "builtins."]
  match modules.find? fun m => m.toList.isPrefixOf cs with
  | some m => String.ofList (cs.drop m.toList.length)
  | none => name

/-- The types that have a name of their own, without being declared. -/
def builtin? (name : String) : Option Descriptor :=
  let short := stripModule name
  if short = "str" then some .string
  else if short = "bool" then some .boolean
  else if short = "int" then some .integer
  else if short = "float" then some .number
  else if short = "None" ∨ short = "NoneType" then some .none
  else if short = "Any" then some .any
  else if short = "Path" ∨ short = "PurePath" then some .path
  else if short = "FileData" then some .fileData
  else if short = "list" ∨ short = "List" then some (.list .any)
  else if short = "dict" ∨ short = "Dict" then some (.mapping .string .any)
  else none

/-- Declared types by name, in the order of their declaration. -/
structure Registry where
  declarations : List (String × Declaration) := []

namespace Registry

/-- The registry that nothing is declared in. -/
def empty : Registry := {}

/-- Whether a name is declared. -/
def isDeclared (reg : Registry) (name : String) : Bool :=
  Keyed.contains name reg.declarations

/-- Makes the name of a type known: the registry with it, or the registry as it was and the error. -/
def declare (reg : Registry) (d : Declaration) : Registry × Except ResolveError Unit :=
  if (builtin? d.name).isSome then (reg, .error ⟨d.name, .shadowsBuiltin⟩)
  else if reg.isDeclared d.name then (reg, .error ⟨d.name, .declaredTwice⟩)
  else ({ declarations := reg.declarations ++ [(d.name, d)] }, .ok ())

/-- Declares types one after the other, up to the first that is refused: the registry so far, and the
error if there was one. -/
def declareSome (reg : Registry) : List Declaration → Registry × Except ResolveError Unit
  | [] => (reg, .ok ())
  | d :: rest =>
    match reg.declare d with
    | (reg, .ok ()) => reg.declareSome rest
    | (reg, .error e) => (reg, .error e)

/-- Declares types one after the other, unless one is refused. -/
def declareAll (reg : Registry) (ds : List Declaration) : Except ResolveError Registry :=
  match reg.declareSome ds with
  | (reg, .ok ()) => .ok reg
  | (_, .error e) => .error e

/-- The number of declared names that are not on a stack. -/
def free (reg : Registry) (stack : List String) : Nat :=
  (reg.declarations.filter fun d => !stack.contains d.1).length

/-- Pushing a declared name leaves fewer names off the stack. -/
theorem free_push_lt {reg : Registry} {stack : List String} {name : String} {d : Declaration}
    (hd : Keyed.get? name reg.declarations = some d) (hs : name ∉ stack) :
    reg.free (stack ++ [name]) < reg.free stack := by
  have pushed : (fun e : String × Declaration => !(stack ++ [name]).contains e.1) =
      fun e => e.1 != name && !stack.contains e.1 := by
    funext e
    rw [Bool.eq_iff_iff]
    simp [and_comm]
  rw [free, free, pushed, ← List.filter_filter]
  have there : (name, d) ∈ reg.declarations.filter fun e => !stack.contains e.1 :=
    List.mem_filter.2 ⟨Keyed.mem_of_get? hd, by simpa using hs⟩
  exact List.length_filter_lt_length_iff_exists.2 ⟨_, there, by simp⟩

/-! ## Resolution -/

/-- The values of literal arguments. -/
def literalValues : List TypeExpr → Option (List Json)
  | [] => some []
  | .literal v :: rest => (literalValues rest).map (v :: ·)
  | _ :: _ => none

/-- The type that a generic makes of resolved arguments. -/
def ofGeneric (head : String) (args : List Descriptor) : Except TypeExpr.Fault Descriptor :=
  let arity (takes : Nat) : Except TypeExpr.Fault Descriptor :=
    .error (.arity head takes args.length)
  let short := stripModule head
  if short = "Optional" then
    match args with
    | [t] => .ok (.optional t)
    | _ => arity 1
  else if short = "Union" then
    match args with
    | [t] => .ok t
    | _ => .ok (.union args)
  else if short = "list" ∨ short = "List" ∨ short = "Sequence" then
    match args with
    | [t] => .ok (.list t)
    | _ => arity 1
  else if short = "dict" ∨ short = "Dict" ∨ short = "Mapping" then
    match args with
    | [k, v] => .ok (.mapping k v)
    | _ => arity 2
  else .error (.unsupportedGeneric short)

/-- The annotation that a text makes, an error naming the text. -/
def parse (text : String) : Except ResolveError TypeExpr :=
  (TypeExpr.parse text).mapError fun fault => ⟨text, fault⟩

theorem weight_le_of_parse {text : String} {a : TypeExpr} (h : parse text = .ok a) :
    a.weight ≤ text.toList.length := by
  unfold parse at h
  cases hp : TypeExpr.parse text with
  | error e =>
    rw [hp] at h
    cases h
  | ok b =>
    rw [hp] at h
    cases h
    exact TypeExpr.weight_le_of_parse hp

mutual
/-- The type of an annotation that stands in the text `src`, while the records on the stack are being
resolved. -/
def resolveTree (reg : Registry) (stack : List String) (src : String) (a : TypeExpr) :
    Except ResolveError Descriptor :=
  match a with
  | .forward text =>
    match _h : parse text with
    | .error e => .error e
    | .ok inner => reg.resolveTree stack text inner
  | .name name =>
    match builtin? name with
    | some t => .ok t
    | none =>
      match hd : Keyed.get? name reg.declarations with
      | none => .error ⟨src, .unresolved name⟩
      | some d =>
        if hs : name ∈ stack then .error ⟨src, .recursive name stack⟩
        else
          match d with
          | .enumeration e => .ok (.enumeration e.name e.members)
          | .record r =>
            have _hfree := free_push_lt hd hs
            match reg.resolveFields (stack ++ [name]) r.fields with
            | .error e => .error e
            | .ok fields => .ok (.record r.name fields)
  | .union arms =>
    match reg.resolveAll stack src arms with
    | .error e => .error e
    | .ok members => .ok (.union members)
  | .literal _ => .error ⟨src, .literalOutsideLiteral⟩
  | .generic head args =>
    if TypeExpr.isLiteralHead head then
      match literalValues args with
      | some values => .ok (.ofValues "Literal" values)
      | none => .error ⟨src, .literalTakesValues⟩
    else
      match reg.resolveAll stack src args with
      | .error e => .error e
      | .ok args => (ofGeneric head args).mapError fun fault => ⟨src, fault⟩
termination_by (reg.free stack, 0, a.weight, 0)
decreasing_by
  · have := weight_le_of_parse _h
    apply Prod.Lex.right
    apply Prod.Lex.right
    apply Prod.Lex.left
    simp [TypeExpr.weight]
    omega
  · exact Prod.Lex.left _ _ _hfree
  · apply Prod.Lex.right
    apply Prod.Lex.right
    apply Prod.Lex.left
    simp [TypeExpr.weight]
  · apply Prod.Lex.right
    apply Prod.Lex.right
    apply Prod.Lex.left
    simp [TypeExpr.weight]

/-- The types of several annotations. -/
def resolveAll (reg : Registry) (stack : List String) (src : String) (as : List TypeExpr) :
    Except ResolveError (List Descriptor) :=
  match as with
  | [] => .ok []
  | a :: rest =>
    match reg.resolveTree stack src a with
    | .error e => .error e
    | .ok t =>
      match reg.resolveAll stack src rest with
      | .error e => .error e
      | .ok ts => .ok (t :: ts)
termination_by (reg.free stack, 0, TypeExpr.weightOfAll as, 1)
decreasing_by
  · apply Prod.Lex.right
    apply Prod.Lex.right
    simp only [TypeExpr.weightOfAll]
    by_cases h : TypeExpr.weightOfAll rest = 0
    · rw [h]
      exact Prod.Lex.right _ (by decide)
    · exact Prod.Lex.left _ _ (by omega)
  · have := TypeExpr.weight_pos a
    apply Prod.Lex.right
    apply Prod.Lex.right
    exact Prod.Lex.left _ _ (by simp [TypeExpr.weightOfAll]; omega)

/-- The fields of a declared record with their types. -/
def resolveFields (reg : Registry) (stack : List String) (fields : List (Field String)) :
    Except ResolveError (List (Field Descriptor)) :=
  match fields with
  | [] => .ok []
  | f :: rest =>
    match parse f.type with
    | .error e => .error e
    | .ok a =>
      match reg.resolveTree stack f.type a with
      | .error e => .error e
      | .ok t =>
        match reg.resolveFields stack rest with
        | .error e => .error e
        | .ok fields => .ok ({ name := f.name, type := t, default := f.default } :: fields)
termination_by (reg.free stack, 1, fields.length, 0)
decreasing_by
  · exact Prod.Lex.right _ (Prod.Lex.left _ _ (by decide))
  · exact Prod.Lex.right _ (Prod.Lex.right _ (Prod.Lex.left _ _ (by simp)))
end

/-- The type that the text of an annotation denotes. -/
def resolve (reg : Registry) (text : String) : Except ResolveError Descriptor := do
  let a ← parse text
  reg.resolveTree [] text a

/-- The parameter that a declared parameter is. Variadic parameters need no annotation; a receiver
without one is no parameter. -/
def resolveParam (reg : Registry) (p : ParamDecl) : Except ResolveError (Option Parameter) :=
  match p.type with
  | some text => do
    let t ← reg.resolve text
    return some { name := p.name, type := t, default := p.default, kind := p.kind }
  | none =>
    if p.kind.isVariadic then
      .ok (some { name := p.name, type := .any, default := p.default, kind := p.kind })
    else if p.name = "self" then .ok none
    else .error ⟨p.name, .missing⟩

/-- The signature of a declared function. -/
def resolveSignature (reg : Registry) (d : SignatureDecl) : Except ResolveError Signature := do
  let params ← d.params.mapM reg.resolveParam
  let returns ← match d.returns with
    | some text => reg.resolve text
    | none => pure .none
  return { name := d.name, params := params.filterMap id, returns := returns }

end Registry

/-- The registry of the types of a manifest. -/
def Manifest.registry (m : Manifest) : Except ResolveError Registry :=
  Registry.empty.declareAll m.types

/-- The signature of the function of a manifest. -/
def Manifest.signature (m : Manifest) : Except ResolveError Signature := do
  (← m.registry).resolveSignature m.function

end CallContract
