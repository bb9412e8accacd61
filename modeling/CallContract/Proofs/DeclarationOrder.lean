import CallContract.Proofs.Registration
import CallContract.Proofs.Rendering
import CallContract.Proofs.Resolution

/-!
# Declarations in another order, and later ones

* `Registry.sameUnless_resolveTree`: when more types are declared, only those errors go away that
  are over names declared since.
* From this, the order of declarations makes no difference, and what an annotation has been resolved
  to stays in every sequence of steps.
-/

namespace CallContract

namespace Registry

variable {reg : Registry}

/-! ## Registries that know more -/

/-- An error over a name that one registry does not know and another one does. -/
def IsMissed (reg reg' : Registry) (e : ResolveError) : Prop :=
  ∃ name d, e.fault = .unresolved name ∧ Keyed.get? name reg.declarations = none ∧
    Keyed.get? name reg'.declarations = some d

section Grows

variable {reg' : Registry} (grows : reg.Grows reg')

include grows

/-- What an annotation is resolved to stays when more types are declared, errors too, but for those
over a name declared since. -/
theorem sameUnless_resolveTree (stack : List String) (a : TypeExpr) (src : String) :
    (reg.resolveTree stack src a).SameUnless (reg.IsMissed reg')
      (reg'.resolveTree stack src a) := by
  revert src
  induction stack, a using resolveInduction reg with
  | forward stack text inner =>
    intro src
    rw [resolveTree_forward, resolveTree_forward]
    exact (Except.SameUnless.same _).bind fun a parsed => inner a parsed text
  | name stack name fields =>
    intro src
    cases free : builtin? name with
    | some t =>
      rw [resolveTree_builtin free, resolveTree_builtin free]
      exact .same _
    | none =>
      rw [resolveTree_name free, resolveTree_name free]
      cases found : Keyed.get? name reg.declarations with
      | none =>
        cases found' : Keyed.get? name reg'.declarations with
        | none => exact .same _
        | some d => exact .failed ⟨name, d, rfl, found, found'⟩ _
      | some d =>
        rw [grows name d found]
        dsimp only
        split
        · exact .same _
        · rename_i fresh
          cases d with
          | enumeration e => exact .same _
          | record r =>
            rw [resolveDeclaration, resolveDeclaration]
            refine (Except.SameUnless.mapM fun f member => ?_).map _
            refine (Except.SameUnless.same _).bind fun a parsed => ?_
            exact (fields r found fresh f member a parsed f.type).bind fun _ _ => .same _
  | generic stack head args parts =>
    intro src
    rw [resolveTree_generic, resolveTree_generic]
    split
    · exact .same _
    · exact (Except.SameUnless.mapM fun arg member => parts arg member src).bind
        fun _ _ => .same _
  | union stack arms parts =>
    intro src
    rw [resolveTree_union, resolveTree_union]
    exact (Except.SameUnless.mapM fun arm member => parts arm member src).map _
  | literal stack v =>
    intro src
    rw [resolveTree_literal, resolveTree_literal]
    exact .same _

theorem sameUnless_resolve (text : String) :
    (reg.resolve text).SameUnless (reg.IsMissed reg') (reg'.resolve text) :=
  (Except.SameUnless.same _).bind fun a _ => sameUnless_resolveTree grows [] a text

theorem sameUnless_resolveParam (p : ParamDecl) :
    (reg.resolveParam p).SameUnless (reg.IsMissed reg') (reg'.resolveParam p) := by
  rw [resolveParam, resolveParam]
  cases p.type with
  | none => exact .same _
  | some text => exact (sameUnless_resolve grows text).bind fun _ _ => .same _

theorem sameUnless_resolveSignature (d : SignatureDecl) :
    (reg.resolveSignature d).SameUnless (reg.IsMissed reg') (reg'.resolveSignature d) := by
  rw [resolveSignature, resolveSignature]
  refine (Except.SameUnless.mapM fun p _ => sameUnless_resolveParam grows p).bind fun _ _ => ?_
  cases d.returns with
  | none => exact .same _
  | some text => exact (sameUnless_resolve grows text).bind fun _ _ => .same _

end Grows

/-- Registries that know the same types resolve alike. -/
theorem resolve_congr {reg' : Registry}
    (same : ∀ name, Keyed.get? name reg.declarations = Keyed.get? name reg'.declarations) :
    (∀ text, reg.resolve text = reg'.resolve text) ∧
      ∀ d, reg.resolveSignature d = reg'.resolveSignature d := by
  have grows : reg.Grows reg' := fun name d found => by rw [← same, found]
  have never : ∀ e, ¬reg.IsMissed reg' e := by
    rintro e ⟨name, d, _, missed, found⟩
    rw [same, found] at missed
    cases missed
  exact ⟨fun text => (sameUnless_resolve grows text).eq_of_forall_not never,
    fun d => (sameUnless_resolveSignature grows d).eq_of_forall_not never⟩

end Registry

/-! ## Permuted declarations and further steps -/

/-- The order in which types are declared makes no difference. A declaration that is refused changes
nothing; a declared type stays, under a name that no builtin type has; and an annotation that has a
type keeps it, whatever is declared afterwards. -/
theorem resolve_of_declarations :
    (∀ ds ds' : List Declaration, ds.Perm ds' →
      ((∃ reg, Registry.empty.declareAll ds = .ok reg) ↔
        ∃ reg', Registry.empty.declareAll ds' = .ok reg') ∧
      ∀ reg reg', Registry.empty.declareAll ds = .ok reg →
        Registry.empty.declareAll ds' = .ok reg' →
          (∀ text, reg.resolve text = reg'.resolve text) ∧
            ∀ d, reg.resolveSignature d = reg'.resolveSignature d) ∧
      ∀ (steps : List Registry.Registration) (reg : Registry), Registry.empty.run steps = reg →
        (∀ d, (reg.register (.declare d)).2 ≠ .ok () → (reg.register (.declare d)).1 = reg) ∧
        (∀ name d, Keyed.get? name reg.declarations = some d →
          (builtin? name = none ∧ name ∉ builtinNames ∧ stripModule name ∉ builtinNames) ∧
            ∀ later, Keyed.get? name (reg.run later).declarations = some d) ∧
        ∀ text t, reg.resolve text = .ok t → ∀ later, (reg.run later).resolve text = .ok t := by
  constructor
  · intro ds ds' perm
    refine ⟨⟨?_, ?_⟩, ?_⟩
    · rintro ⟨reg, declared⟩
      obtain ⟨reg', declared', _⟩ := Registry.declareAll_perm perm declared
      exact ⟨reg', declared'⟩
    · rintro ⟨reg, declared⟩
      obtain ⟨reg', declared', _⟩ := Registry.declareAll_perm perm.symm declared
      exact ⟨reg', declared'⟩
    · intro reg reg' declared declared'
      obtain ⟨other, otherDeclared, same⟩ := Registry.declareAll_perm perm declared
      rw [declared'] at otherDeclared
      cases otherDeclared
      exact Registry.resolve_congr same
  · intro steps reg reached
    have sound := Registry.isSound_run Registry.isSound_empty steps
    rw [reached] at sound
    refine ⟨fun d refused => ?_, fun name d found => ⟨?_, fun later => ?_⟩, ?_⟩
    · cases failed : (reg.register (.declare d)).2 with
      | ok => exact absurd failed refused
      | error e => exact Registry.eq_of_declare_eq_error (Prod.ext rfl failed)
    · have free := sound.builtin?_eq_none found
      exact ⟨free, not_mem_builtinNames free⟩
    · exact Registry.grows_run reg later name d found
    · intro text t resolved later
      exact (Registry.sameUnless_resolve (Registry.grows_run reg later) text).eq_ok resolved

/-- A record that refers to one declared after it. -/
def outer : Declaration :=
  .record { name := "Outer", fields := [⟨"inner", "\"Inner\"", some .null⟩] }

/-- The record that it refers to. -/
def inner : Declaration :=
  .record { name := "Inner", fields := [⟨"x", "int", none⟩] }

/-- The registry that both are declared in. -/
def nested : Registry :=
  ⟨[("Outer", outer), ("Inner", inner)]⟩

/-- The type of the first record. -/
def outerType : Descriptor :=
  .record "Outer" [⟨"inner", .record "Inner" [⟨"x", .primitive .integer, none⟩], some .null⟩]

theorem resolve_outer : nested.resolve "Outer" = .ok outerType := by
  have int :=
    Registry.resolveTree_builtin (rfl : builtin? "int" = _) nested ["Outer", "Inner"] "int"
  have innerType : nested.resolveTree ["Outer"] "Inner" (.name "Inner") =
      .ok (.record "Inner" [⟨"x", .primitive .integer, none⟩]) := by
    refine (Registry.resolveTree_name_eq_ok rfl).2 ⟨inner, rfl, by decide, ?_⟩
    refine Except.map_eq_ok.2 ⟨_, List.mapM_eq_ok.2 (.cons ?_ .nil), rfl⟩
    have parsed := Registry.parse_eq_ok (.name "int") rfl rfl (by decide)
    exact Registry.resolveField_eq_ok.2 ⟨_, _, parsed, int, rfl⟩
  have parsed := Registry.parse_eq_ok (.name "Outer") rfl rfl (by decide)
  have quoted := Registry.parse_eq_ok (.forward "Inner") rfl rfl (by decide)
  have unquoted := Registry.parse_eq_ok (.name "Inner") rfl rfl (by decide)
  refine Except.bind_eq_ok.2 ⟨_, parsed, ?_⟩
  refine (Registry.resolveTree_name_eq_ok rfl).2 ⟨outer, rfl, by decide, ?_⟩
  refine Except.map_eq_ok.2 ⟨_, List.mapM_eq_ok.2 (.cons ?_ .nil), rfl⟩
  refine Registry.resolveField_eq_ok.2 ⟨_, _, quoted, ?_, rfl⟩
  rw [Registry.resolveTree_forward]
  exact Except.bind_eq_ok.2 ⟨_, unquoted, innerType⟩

/-- The same types in the other order, and a repeated declaration: neither is seen. -/
theorem resolve_of_declarations_nested :
    (∃ reg, Registry.empty.declareAll [inner, outer] = .ok reg ∧
      reg.resolve "Outer" = .ok outerType) ∧
      (nested.register (.declare inner)).1 = nested ∧ stripModule "Inner" ∉ builtinNames ∧
        (nested.run [.declare inner]).resolve "Outer" = .ok outerType := by
  obtain ⟨orders, runs⟩ := resolve_of_declarations
  have declared : Registry.empty.declareAll [outer, inner] = .ok nested := rfl
  have refused : (nested.register (.declare inner)).2 = .error ⟨"Inner", .declaredTwice⟩ := rfl
  obtain ⟨succeeds, agree⟩ := orders [outer, inner] [inner, outer] (List.Perm.swap inner outer [])
  obtain ⟨reg, declared'⟩ := succeeds.1 ⟨nested, declared⟩
  obtain ⟨unchanged, names, keeps⟩ := runs [.declareAll [outer, inner]] nested rfl
  refine ⟨⟨reg, declared', ?_⟩, ?_, ?_, ?_⟩
  · rw [← (agree nested reg declared declared').1, resolve_outer]
  · refine unchanged inner ?_
    rw [refused]
    intro same
    cases same
  · exact (names "Inner" inner rfl).1.2.2
  · exact keeps "Outer" outerType resolve_outer [.declare inner]

end CallContract
