import CallContract.Declaration.Registry
import CallContract.Proofs.Traversal

/-!
# Rules of resolution

* `Registry.resolveTree_forward` and its neighbours say what each kind of annotation is resolved to;
  fields and arguments are traversed with `List.mapM`.
* `Registry.resolveInduction` is the induction over what a resolution looks at, declared records
  included.
* `Registry.typeOf?` is the type that an annotation is resolved to, errors left out. It does not
  depend on the text that the annotation stands in, and has rules of its own.
-/

namespace CallContract.Registry

variable {reg : Registry}

/-! ## The rules -/

theorem resolveAll_eq_mapM (reg : Registry) (stack : List String) (src : String)
    (as : List TypeExpr) :
    reg.resolveAll stack src as = as.mapM (reg.resolveTree stack src) := by
  induction as with
  | nil =>
    rw [resolveAll]
    rfl
  | cons a rest ih =>
    rw [resolveAll, List.mapM_cons, ih]
    cases reg.resolveTree stack src a with
    | error e => rfl
    | ok t => cases rest.mapM (reg.resolveTree stack src) <;> rfl

/-- A field of a declared record with its type. -/
def resolveField (reg : Registry) (stack : List String) (f : Field String) :
    Except ResolveError (Field Descriptor) := do
  let a ← parse f.type
  let t ← reg.resolveTree stack f.type a
  return { name := f.name, type := t, default := f.default }

theorem resolveFields_eq_mapM (reg : Registry) (stack : List String)
    (fields : List (Field String)) :
    reg.resolveFields stack fields = fields.mapM (reg.resolveField stack) := by
  induction fields with
  | nil =>
    rw [resolveFields]
    rfl
  | cons f rest ih =>
    rw [resolveFields, List.mapM_cons, ih, resolveField]
    cases parse f.type with
    | error e => rfl
    | ok a =>
      dsimp only [bind, Except.bind]
      cases reg.resolveTree stack f.type a with
      | error e => rfl
      | ok t => cases rest.mapM (reg.resolveField stack) <;> rfl

theorem resolveTree_forward (reg : Registry) (stack : List String) (src text : String) :
    reg.resolveTree stack src (.forward text) = parse text >>= reg.resolveTree stack text := by
  rw [resolveTree]
  cases parse text <;> rfl

theorem resolveTree_union (reg : Registry) (stack : List String) (src : String)
    (arms : List TypeExpr) :
    reg.resolveTree stack src (.union arms) =
      Descriptor.union <$> arms.mapM (reg.resolveTree stack src) := by
  rw [resolveTree, resolveAll_eq_mapM]
  cases arms.mapM (reg.resolveTree stack src) <;> rfl

theorem resolveTree_generic (reg : Registry) (stack : List String) (src head : String)
    (args : List TypeExpr) :
    reg.resolveTree stack src (.generic head args) =
      if TypeExpr.isLiteralHead head then
        match literalValues args with
        | some values => .ok (.ofValues "Literal" values)
        | none => .error ⟨src, .literalTakesValues⟩
      else
        args.mapM (reg.resolveTree stack src) >>= fun types =>
          (ofGeneric head types).mapError fun fault => ⟨src, fault⟩ := by
  rw [resolveTree, resolveAll_eq_mapM]
  split
  · rfl
  · cases args.mapM (reg.resolveTree stack src) <;> rfl

theorem resolveTree_literal (reg : Registry) (stack : List String) (src : String) (v : Json) :
    reg.resolveTree stack src (.literal v) = .error ⟨src, .literalOutsideLiteral⟩ := by
  rw [resolveTree]

theorem resolveTree_builtin {name : String} {t : Descriptor} (found : builtin? name = some t)
    (reg : Registry) (stack : List String) (src : String) :
    reg.resolveTree stack src (.name name) = .ok t := by
  rw [resolveTree, found]

/-- The type that a declaration stands for, with its name on the stack. -/
def resolveDeclaration (reg : Registry) (stack : List String) :
    Declaration → Except ResolveError Descriptor
  | .enumeration e => .ok (.enumeration e.name e.members)
  | .record r => Descriptor.record r.name <$> r.fields.mapM (reg.resolveField stack)

theorem resolveTree_name {name : String} (free : builtin? name = none) (reg : Registry)
    (stack : List String) (src : String) :
    reg.resolveTree stack src (.name name) =
      match Keyed.get? name reg.declarations with
      | none => .error ⟨src, .unresolved name⟩
      | some d =>
        if name ∈ stack then .error ⟨src, .recursive name stack⟩
        else reg.resolveDeclaration (stack ++ [name]) d := by
  rw [resolveTree, free]
  dsimp only
  split
  · rename_i none
    rw [none]
  · rename_i d found
    by_cases onStack : name ∈ stack
    · rw [dif_pos onStack, found]
      exact (if_pos onStack).symm
    · rw [dif_neg onStack]
      -- the branches carry the look-up as a proof, so the declaration is taken apart first
      cases d with
      | enumeration e =>
        dsimp only
        rw [found]
        exact (if_neg onStack).symm
      | record r =>
        dsimp only
        rw [found, resolveFields_eq_mapM]
        dsimp only
        rw [if_neg onStack, resolveDeclaration]
        cases r.fields.mapM (reg.resolveField (stack ++ [name])) <;> rfl

theorem resolveTree_name_eq_ok {name : String} (free : builtin? name = none)
    {stack : List String} {src : String} {t : Descriptor} :
    reg.resolveTree stack src (.name name) = .ok t ↔
      ∃ d, Keyed.get? name reg.declarations = some d ∧ name ∉ stack ∧
        reg.resolveDeclaration (stack ++ [name]) d = .ok t := by
  rw [resolveTree_name free]
  cases Keyed.get? name reg.declarations with
  | none => simp
  | some d =>
    dsimp only
    split
    · simp [*]
    · simp [*]

theorem resolveField_eq_ok {stack : List String} {f : Field String} {g : Field Descriptor} :
    reg.resolveField stack f = .ok g ↔
      ∃ a t, parse f.type = .ok a ∧ reg.resolveTree stack f.type a = .ok t ∧
        g = { name := f.name, type := t, default := f.default } := by
  rw [resolveField, Except.bind_eq_ok]
  refine exists_congr fun a => ?_
  rw [Except.bind_eq_ok, ← exists_and_left]
  refine exists_congr fun t => and_congr_right fun _ => and_congr_right fun _ => ?_
  exact ⟨fun same => (Except.ok.inj same).symm, fun same => by rw [same]; rfl⟩

/-! ## Success -/

theorem exists_resolveField_iff {stack : List String} {f : Field String} :
    (∃ g, reg.resolveField stack f = .ok g) ↔
      ∃ a, parse f.type = .ok a ∧ ∃ t, reg.resolveTree stack f.type a = .ok t := by
  rw [resolveField, Except.exists_bind_eq_ok]
  exact exists_congr fun a => and_congr_right fun _ => Except.exists_map_eq_ok

theorem exists_resolveDeclaration_iff {stack : List String} {d : Declaration} :
    (∃ t, reg.resolveDeclaration stack d = .ok t) ↔
      ∀ r, d = .record r → ∀ f ∈ r.fields,
        ∃ a, parse f.type = .ok a ∧ ∃ t, reg.resolveTree stack f.type a = .ok t := by
  cases d with
  | enumeration e => exact iff_of_true ⟨_, rfl⟩ fun r same => nomatch same
  | record r =>
    simp only [resolveDeclaration, Except.exists_map_eq_ok, List.exists_mapM_eq_ok,
      exists_resolveField_iff, Declaration.record.injEq, forall_eq']

theorem exists_resolveTree_name_iff {name : String} (free : builtin? name = none)
    {stack : List String} {src : String} :
    (∃ t, reg.resolveTree stack src (.name name) = .ok t) ↔
      ∃ d, Keyed.get? name reg.declarations = some d ∧ name ∉ stack ∧
        ∀ r, d = .record r → ∀ f ∈ r.fields,
          ∃ a, parse f.type = .ok a ∧ ∃ t, reg.resolveTree (stack ++ [name]) f.type a = .ok t := by
  simp only [resolveTree_name_eq_ok free]
  rw [exists_comm]
  refine exists_congr fun d => ?_
  rw [exists_and_left, exists_and_left, exists_resolveDeclaration_iff]

/-! ## Induction over a resolution -/

/-- Induction over what resolving an annotation looks at: the parts of the annotation, what a quoted
part is parsed to, and the fields of a declared record, with the record on the stack. -/
theorem resolveInduction (reg : Registry) {motive : List String → TypeExpr → Prop}
    (forward : ∀ stack text, (∀ a, parse text = .ok a → motive stack a) →
      motive stack (.forward text))
    (name : ∀ stack name,
      (∀ r, Keyed.get? name reg.declarations = some (.record r) → name ∉ stack →
        ∀ f ∈ r.fields, ∀ a, parse f.type = .ok a → motive (stack ++ [name]) a) →
      motive stack (.name name))
    (generic : ∀ stack head args, (∀ arg ∈ args, motive stack arg) →
      motive stack (.generic head args))
    (union : ∀ stack arms, (∀ arm ∈ arms, motive stack arm) → motive stack (.union arms))
    (literal : ∀ stack v, motive stack (.literal v)) :
    ∀ stack a, motive stack a := by
  intro stack
  induction size : reg.free stack using Nat.strongRecOn generalizing stack with
  | _ n outer =>
    subst size
    intro a
    induction size : a.weight using Nat.strongRecOn generalizing a with
    | _ n inner =>
      subst size
      cases a with
      | forward text =>
        refine forward stack text fun a parsed => inner _ ?_ a rfl
        have bound := weight_le_of_parse parsed
        simp [TypeExpr.weight]
        omega
      | name word =>
        refine name stack word fun r found fresh f _ a _ => ?_
        exact outer _ (free_push_lt found fresh) (stack ++ [word]) rfl a
      | generic head args =>
        refine generic stack head args fun arg member => inner _ ?_ arg rfl
        have bound := TypeExpr.weight_le_of_mem member
        simp [TypeExpr.weight]
        omega
      | union arms =>
        refine union stack arms fun arm member => inner _ ?_ arm rfl
        have bound := TypeExpr.weight_le_of_mem member
        simp [TypeExpr.weight]
        omega
      | literal v => exact literal stack v

/-! ## Types without errors -/

/-- The type that an annotation is resolved to, if it is, while the records on a stack are. -/
def typeOf? (reg : Registry) (stack : List String) (a : TypeExpr) : Option Descriptor :=
  (reg.resolveTree stack "" a).toOption

/-- The type that a text is resolved to, if it is, while the records on a stack are. -/
def typeOfText? (reg : Registry) (stack : List String) (text : String) : Option Descriptor :=
  (parse text).toOption.bind (reg.typeOf? stack)

/-- The text that an annotation stands in is for errors only. -/
theorem toOption_resolveTree (reg : Registry) (stack : List String) (src : String) (a : TypeExpr) :
    (reg.resolveTree stack src a).toOption = reg.typeOf? stack a := by
  rw [typeOf?]
  induction stack, a using resolveInduction reg with
  | name stack name _ =>
    cases free : builtin? name with
    | some t => rw [resolveTree_builtin free, resolveTree_builtin free]
    | none =>
      rw [resolveTree_name free, resolveTree_name free]
      cases Keyed.get? name reg.declarations with
      | none => rfl
      | some d =>
        dsimp only
        split <;> rfl
  | generic stack head args parts =>
    rw [resolveTree_generic, resolveTree_generic]
    split
    · cases literalValues args <;> rfl
    · simp only [Except.toOption_bind, List.toOption_mapM, Except.toOption_mapError]
      rw [List.mapM_congr_of_mem parts]
  | union stack arms parts =>
    rw [resolveTree_union, resolveTree_union]
    simp only [Except.toOption_map, List.toOption_mapM]
    rw [List.mapM_congr_of_mem parts]
  | forward stack text _ => rw [resolveTree_forward, resolveTree_forward]
  | literal stack v =>
    rw [resolveTree_literal, resolveTree_literal]
    rfl

theorem toOption_resolve (reg : Registry) (text : String) :
    (reg.resolve text).toOption = reg.typeOfText? [] text := by
  rw [resolve, Except.toOption_bind, typeOfText?]
  exact congrArg _ (funext fun a => toOption_resolveTree reg [] text a)

/-- A text is resolved to the type of the annotation that it parses to. -/
theorem resolve_eq_ok_iff {text : String} {a : TypeExpr} (parsed : parse text = .ok a)
    {t : Descriptor} : reg.resolve text = .ok t ↔ reg.typeOf? [] a = some t := by
  rw [← Except.toOption_eq_some, toOption_resolve, typeOfText?, parsed]
  rfl

theorem exists_parse_of_resolve {text : String} {t : Descriptor}
    (resolved : reg.resolve text = .ok t) :
    ∃ a, parse text = .ok a ∧ reg.typeOf? [] a = some t := by
  rw [resolve] at resolved
  obtain ⟨a, parsed, _⟩ := Except.bind_eq_ok.1 resolved
  exact ⟨a, parsed, (resolve_eq_ok_iff parsed).1 resolved⟩

theorem typeOf?_forward (stack : List String) (text : String) :
    reg.typeOf? stack (.forward text) = reg.typeOfText? stack text := by
  rw [typeOf?, resolveTree_forward, Except.toOption_bind, typeOfText?]
  exact congrArg _ (funext fun a => toOption_resolveTree reg stack text a)

theorem typeOf?_union (stack : List String) (arms : List TypeExpr) :
    reg.typeOf? stack (.union arms) = (arms.mapM (reg.typeOf? stack)).map .union := by
  rw [typeOf?, resolveTree_union, Except.toOption_map, List.toOption_mapM]
  rfl

theorem typeOf?_generic (stack : List String) (head : String) (args : List TypeExpr) :
    reg.typeOf? stack (.generic head args) =
      if TypeExpr.isLiteralHead head then (literalValues args).map (.ofValues "Literal")
      else (args.mapM (reg.typeOf? stack)).bind fun types => (ofGeneric head types).toOption := by
  rw [typeOf?, resolveTree_generic]
  split
  · cases literalValues args <;> rfl
  · simp only [Except.toOption_bind, List.toOption_mapM, Except.toOption_mapError]
    rfl

theorem typeOf?_literal (stack : List String) (v : Json) :
    reg.typeOf? stack (.literal v) = none := by
  rw [typeOf?, resolveTree_literal]
  rfl

/-- The field of a declared record with the type of its annotation, if it has one. -/
def fieldType? (reg : Registry) (stack : List String) (f : Field String) :
    Option (Field Descriptor) :=
  (reg.typeOfText? stack f.type).map fun t => { name := f.name, type := t, default := f.default }

/-- The type that a declaration stands for, if all its annotations have one. -/
def declaredType? (reg : Registry) (stack : List String) : Declaration → Option Descriptor
  | .enumeration e => some (.enumeration e.name e.members)
  | .record r => (r.fields.mapM (reg.fieldType? stack)).map (.record r.name)

theorem toOption_resolveDeclaration (stack : List String) (d : Declaration) :
    (reg.resolveDeclaration stack d).toOption = reg.declaredType? stack d := by
  cases d with
  | enumeration e => rfl
  | record r =>
    have field (f : Field String) :
        (reg.resolveField stack f).toOption = reg.fieldType? stack f := by
      rw [resolveField, fieldType?, typeOfText?]
      cases parse f.type with
      | error e => rfl
      | ok a =>
        have same := toOption_resolveTree reg stack f.type a
        dsimp only [bind, Except.bind, Except.toOption, Option.bind]
        rw [← same]
        cases reg.resolveTree stack f.type a <;> rfl
    rw [resolveDeclaration, declaredType?, Except.toOption_map, List.toOption_mapM, funext field]

theorem typeOf?_builtin {name : String} {t : Descriptor} (found : builtin? name = some t)
    (stack : List String) : reg.typeOf? stack (.name name) = some t := by
  rw [typeOf?, resolveTree_builtin found]
  rfl

theorem typeOf?_name {name : String} (free : builtin? name = none) (stack : List String) :
    reg.typeOf? stack (.name name) =
      (Keyed.get? name reg.declarations).bind fun d =>
        if name ∈ stack then none else reg.declaredType? (stack ++ [name]) d := by
  rw [typeOf?, resolveTree_name free]
  cases Keyed.get? name reg.declarations with
  | none => rfl
  | some d =>
    dsimp only [Option.bind]
    split
    · rfl
    · exact toOption_resolveDeclaration _ d

end CallContract.Registry
