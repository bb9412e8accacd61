import CallContract.Declaration.Registry
import CallContract.Proofs.KeyedLists

/-!
# Sequences of declarations

* `Registry.register` is one step, of one declaration or of several, and `Registry.run` a sequence
  of them. A step may fail, and several declarations may be taken in part.
* `Registry.declare_eq_ok` and `Registry.eq_of_declare_eq_error` say what a declaration leaves of a
  registry, taken or refused.
* `Registry.IsSound` is what each step keeps: every type stands once, under its own name, and no
  name is that of a builtin type.
* `Registry.Grows`: no step takes a declared type back.
* `Registry.declareAll_eq_ok` says which declarations are taken together; their order does not
  matter.
-/

namespace CallContract

/-! ## Builtin names -/

/-- The names of the builtin types, without modules. -/
def builtinNames : List String :=
  ["str", "bool", "int", "float", "None", "NoneType", "Any", "Path", "PurePath", "FileData", "list",
    "List", "dict", "Dict"]

theorem isSome_builtin?_iff (name : String) :
    (builtin? name).isSome = true ↔ stripModule name ∈ builtinNames := by
  rw [builtin?]
  generalize stripModule name = short
  simp only [builtinNames, List.mem_cons, List.not_mem_nil, or_false, apply_ite Option.isSome,
    Option.isSome_some, Option.isSome_none]
  simp only [Bool.if_true_left, Bool.if_false_right, Bool.and_true, Bool.or_eq_true,
    decide_eq_true_eq, or_assoc]

/-- A name that is no builtin one stands for none, neither as it is nor without its module. -/
theorem not_mem_builtinNames {name : String} (free : builtin? name = none) :
    name ∉ builtinNames ∧ stripModule name ∉ builtinNames := by
  have short : stripModule name ∉ builtinNames := by
    intro member
    rw [← isSome_builtin?_iff, free] at member
    cases member
  refine ⟨fun member => short ?_, short⟩
  have kept : ∀ short ∈ builtinNames, stripModule short = short := by decide
  rwa [kept name member]

namespace Registry

/-! ## Single declarations -/

/-- The names that are declared. -/
def names (reg : Registry) : List String :=
  reg.declarations.map Prod.fst

theorem names_push (reg : Registry) (d : Declaration) :
    names ⟨reg.declarations ++ [(d.name, d)]⟩ = reg.names ++ [d.name] :=
  List.map_append

/-- A declaration is taken if its name is new and no builtin one. -/
theorem declare_eq_ok {reg reg' : Registry} {d : Declaration} :
    reg.declare d = (reg', .ok ()) ↔
      builtin? d.name = none ∧ d.name ∉ reg.names ∧
        reg' = ⟨reg.declarations ++ [(d.name, d)]⟩ := by
  rw [declare, ← Option.not_isSome_iff_eq_none, names, ← Keyed.contains_iff, ← isDeclared]
  split
  · simp [*]
  · split
    · simp [*]
    · simp [*, eq_comm]

/-- A declaration that is refused leaves the registry as it was. -/
theorem eq_of_declare_eq_error {reg reg' : Registry} {d : Declaration} {e : ResolveError}
    (refused : reg.declare d = (reg', .error e)) : reg' = reg := by
  rw [declare] at refused
  split at refused
  · exact (Prod.mk.inj refused).1.symm
  · split at refused
    · exact (Prod.mk.inj refused).1.symm
    · cases (Prod.mk.inj refused).2

/-- A registry keeps every declared type that another one knows. -/
def Grows (reg reg' : Registry) : Prop :=
  ∀ name d, Keyed.get? name reg.declarations = some d → Keyed.get? name reg'.declarations = some d

theorem grows_refl (reg : Registry) : reg.Grows reg :=
  fun _ _ found => found

theorem Grows.trans {reg reg' reg'' : Registry} (first : reg.Grows reg') (next : reg'.Grows reg'') :
    reg.Grows reg'' :=
  fun name d found => next name d (first name d found)

/-- Every type stands once, under its own name, and no name is that of a builtin type. -/
structure IsSound (reg : Registry) : Prop where
  named : ∀ name d, (name, d) ∈ reg.declarations → name = d.name
  free : ∀ name ∈ reg.names, builtin? name = none
  distinct : reg.names.Nodup

theorem isSound_empty : empty.IsSound where
  named _ _ member := by cases member
  free _ member := by cases member
  distinct := List.nodup_nil

section Declare

variable {reg reg' : Registry} {d : Declaration}

theorem grows_of_declare {result : Except ResolveError Unit}
    (declared : reg.declare d = (reg', result)) : reg.Grows reg' := by
  cases result with
  | ok =>
    obtain ⟨_, _, rfl⟩ := declare_eq_ok.1 declared
    intro name d found
    rw [Keyed.get?_append, found]
    rfl
  | error e =>
    rw [eq_of_declare_eq_error declared]
    exact grows_refl reg

theorem isSound_of_declare {result : Except ResolveError Unit}
    (declared : reg.declare d = (reg', result)) (sound : reg.IsSound) : reg'.IsSound := by
  cases result with
  | ok =>
    obtain ⟨noBuiltin, fresh, rfl⟩ := declare_eq_ok.1 declared
    refine ⟨fun name other member => ?_, ?_, ?_⟩
    · rcases List.mem_append.1 member with member | member
      · exact sound.named name other member
      · cases List.mem_singleton.1 member
        rfl
    · rw [names_push]
      intro name member
      rcases List.mem_append.1 member with member | member
      · exact sound.free name member
      · rwa [List.mem_singleton.1 member]
    · rw [names_push, ← List.concat_eq_append]
      exact List.Nodup.concat fresh sound.distinct
  | error e => rwa [eq_of_declare_eq_error declared]

end Declare

/-! ## Several declarations -/

theorem declareSome_cons (reg : Registry) (d : Declaration) (rest : List Declaration) :
    reg.declareSome (d :: rest) =
      match reg.declare d with
      | (reg, .ok ()) => reg.declareSome rest
      | (reg, .error e) => (reg, .error e) := by
  rfl

theorem grows_declareSome (reg : Registry) (ds : List Declaration) :
    reg.Grows (reg.declareSome ds).1 := by
  induction ds generalizing reg with
  | nil => exact grows_refl reg
  | cons d rest ih =>
    rw [declareSome_cons]
    split
    · rename_i declared
      exact (grows_of_declare declared).trans (ih _)
    · rename_i declared
      exact grows_of_declare declared

theorem isSound_declareSome {reg : Registry} (sound : reg.IsSound) (ds : List Declaration) :
    (reg.declareSome ds).1.IsSound := by
  induction ds generalizing reg with
  | nil => exact sound
  | cons d rest ih =>
    rw [declareSome_cons]
    split
    · rename_i declared
      exact ih (isSound_of_declare declared sound)
    · rename_i declared
      exact isSound_of_declare declared sound

theorem declareAll_cons_eq_ok {reg reg' : Registry} {d : Declaration} {rest : List Declaration} :
    reg.declareAll (d :: rest) = .ok reg' ↔
      ∃ mid, reg.declare d = (mid, .ok ()) ∧ mid.declareAll rest = .ok reg' := by
  rw [declareAll, declareSome_cons]
  rcases reg.declare d with ⟨mid, _ | _⟩
  · simp
  · simp [declareAll]

/-- Declarations are all taken if their names are new, no builtin ones and distinct. -/
theorem declareAll_eq_ok {reg reg' : Registry} {ds : List Declaration} :
    reg.declareAll ds = .ok reg' ↔
      (∀ d ∈ ds, builtin? d.name = none ∧ d.name ∉ reg.names) ∧ (ds.map Declaration.name).Nodup ∧
        reg' = ⟨reg.declarations ++ ds.map fun d => (d.name, d)⟩ := by
  induction ds generalizing reg with
  | nil =>
    have none : reg.declareAll [] = .ok reg := rfl
    rw [none]
    simp [eq_comm]
  | cons d rest ih =>
    simp only [declareAll_cons_eq_ok, declare_eq_ok]
    constructor
    · intro given
      obtain ⟨_, ⟨noBuiltin, fresh, rfl⟩, others⟩ := given
      obtain ⟨parts, distinct, rfl⟩ := ih.1 others
      rw [names_push] at parts
      refine ⟨List.forall_mem_cons.2 ⟨⟨noBuiltin, fresh⟩, fun other member => ?_⟩, ?_, ?_⟩
      · exact (parts other member).imp_right fun new old => new (List.mem_append_left _ old)
      · rw [List.map_cons, List.nodup_cons]
        refine ⟨fun member => ?_, distinct⟩
        obtain ⟨other, there, same⟩ := List.mem_map.1 member
        exact (parts other there).2 (List.mem_append_right _ (List.mem_singleton.2 same))
      · rw [List.map_cons, List.append_assoc, List.singleton_append]
    · intro given
      obtain ⟨parts, distinct, rfl⟩ := given
      obtain ⟨⟨noBuiltin, fresh⟩, parts⟩ := List.forall_mem_cons.1 parts
      rw [List.map_cons, List.nodup_cons] at distinct
      refine ⟨_, ⟨noBuiltin, fresh, rfl⟩, ih.2 ⟨fun other member => ?_, distinct.2, ?_⟩⟩
      · refine (parts other member).imp_right fun new old => ?_
        rw [names_push] at old
        rcases List.mem_append.1 old with old | same
        · exact new old
        · exact distinct.1 (List.mem_map.2 ⟨other, member, List.mem_singleton.1 same⟩)
      · rw [List.map_cons, List.append_assoc, List.singleton_append]

/-- The order of declarations decides neither whether they are all taken nor what a name stands
for. -/
theorem declareAll_perm {ds ds' : List Declaration} (perm : ds.Perm ds') {reg : Registry}
    (declared : empty.declareAll ds = .ok reg) :
    ∃ reg', empty.declareAll ds' = .ok reg' ∧
      ∀ name, Keyed.get? name reg.declarations = Keyed.get? name reg'.declarations := by
  obtain ⟨parts, distinct, rfl⟩ := declareAll_eq_ok.1 declared
  refine ⟨_, declareAll_eq_ok.2 ⟨fun d member => parts d (perm.mem_iff.2 member), ?_, rfl⟩, ?_⟩
  · exact (perm.map _).nodup_iff.1 distinct
  · refine fun name => Keyed.get?_eq_of_perm (perm.map _) ?_ name
    rwa [List.map_map]

/-! ## Steps -/

/-- A step in filling a registry. -/
inductive Registration where
  | declare (d : Declaration)
  | declareAll (ds : List Declaration)

/-- What a step leaves of a registry, and whether it succeeded. -/
def register (reg : Registry) : Registration → Registry × Except ResolveError Unit
  | .declare d => reg.declare d
  | .declareAll ds => reg.declareSome ds

/-- The registry that steps leave one after the other, whether they succeed or not. -/
def run (reg : Registry) (steps : List Registration) : Registry :=
  steps.foldl (fun reg step => (reg.register step).1) reg

theorem grows_register (reg : Registry) (step : Registration) :
    reg.Grows (reg.register step).1 := by
  cases step with
  | declare d => exact grows_of_declare rfl
  | declareAll ds => exact grows_declareSome reg ds

theorem isSound_register {reg : Registry} (sound : reg.IsSound) (step : Registration) :
    (reg.register step).1.IsSound := by
  cases step with
  | declare d => exact isSound_of_declare rfl sound
  | declareAll ds => exact isSound_declareSome sound ds

theorem grows_run (reg : Registry) (steps : List Registration) : reg.Grows (reg.run steps) := by
  induction steps generalizing reg with
  | nil => exact grows_refl reg
  | cons step steps ih => exact (grows_register reg step).trans (ih _)

theorem isSound_run {reg : Registry} (sound : reg.IsSound) (steps : List Registration) :
    (reg.run steps).IsSound := by
  induction steps generalizing reg with
  | nil => exact sound
  | cons step steps ih => exact ih (isSound_register sound step)

/-- A declared name is no builtin one. -/
theorem IsSound.builtin?_eq_none {reg : Registry} (sound : reg.IsSound) {name : String}
    {d : Declaration} (found : Keyed.get? name reg.declarations = some d) :
    builtin? name = none :=
  sound.free name (List.mem_map.2 ⟨_, Keyed.mem_of_get? found, rfl⟩)

end Registry

end CallContract
