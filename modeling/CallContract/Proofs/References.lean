import CallContract.Error
import CallContract.Proofs.DeclarationOrder
import Mathlib.Logic.Relation

/-!
# References between declared types

* `Registry.Uses` leads from an annotation to those that it is resolved by, `Registry.Reaches` from
  one to all of them.
* `Registry.IsResolvable` says of everything reached that texts parse, names are known, generics
  have the right number of arguments, and no record reaches itself.
* `Registry.exists_resolveTree_iff` shows that the names on the stack, which resolution looks at,
  are enough to find every cycle.
-/

namespace CallContract

namespace Registry

variable {reg : Registry}

/-! ## What an annotation uses -/

/-- What is resolved for an annotation: its parts, the annotation that a quoted text makes, and
those of the fields of a declared record. -/
inductive Uses (reg : Registry) : TypeExpr → TypeExpr → Prop where
  | argument {head : String} {args : List TypeExpr} {arg : TypeExpr} (member : arg ∈ args) :
    Uses reg (.generic head args) arg
  | arm {arms : List TypeExpr} {arm : TypeExpr} (member : arm ∈ arms) :
    Uses reg (.union arms) arm
  | quoted {text : String} {a : TypeExpr} (parsed : parse text = .ok a) :
    Uses reg (.forward text) a
  | field {name : String} {r : RecordDecl} {f : Field String} {a : TypeExpr}
    (found : Keyed.get? name reg.declarations = some (.record r)) (member : f ∈ r.fields)
    (parsed : parse f.type = .ok a) : Uses reg (.name name) a

/-- An annotation, what it uses, what that uses, and so on. -/
def Reaches (reg : Registry) : TypeExpr → TypeExpr → Prop :=
  Relation.ReflTransGen reg.Uses

/-- Whether a generic is supported and takes so many arguments. -/
def TakesArguments (head : String) (count : Nat) : Prop :=
  (TypeExpr.isLiteralHead head = true ∨ stripModule head = "Union") ∧ 1 ≤ count ∨
    stripModule head ∈ ["Optional", "list", "List", "Sequence"] ∧ count = 1 ∨
    stripModule head ∈ ["dict", "Dict", "Mapping"] ∧ count = 2

/-- What is asked of an annotation by itself: a quoted text parses; a name is known, the annotations
of its fields parse if it is that of a record, and it is not reached from there; a generic has the
right number of arguments. -/
def Admits (reg : Registry) : TypeExpr → Prop
  | .forward text => ∃ a, parse text = .ok a
  | .name name =>
    ((builtin? name).isSome = true ∨ reg.isDeclared name = true) ∧
      (∀ r, Keyed.get? name reg.declarations = some (.record r) →
        ∀ f ∈ r.fields, ∃ a, parse f.type = .ok a) ∧
      ¬Relation.TransGen reg.Uses (.name name) (.name name)
  | .generic head args => TakesArguments head args.length
  | .union _ | .literal _ => True

/-- Whether everything is in order that an annotation reaches. -/
def IsResolvable (reg : Registry) (a : TypeExpr) : Prop :=
  ∀ b, reg.Reaches a b → reg.Admits b

/-- Whether a text is an annotation, and everything is in order that it reaches. -/
def Accepts (reg : Registry) (text : String) : Prop :=
  ∃ a, parse text = .ok a ∧ reg.IsResolvable a

/-- Whether none of the names on a stack is reached. -/
def IsClear (reg : Registry) (stack : List String) (a : TypeExpr) : Prop :=
  ∀ name ∈ stack, ¬reg.Reaches a (.name name)

/-- Whether an annotation can be resolved while the records on a stack are. -/
def Passes (reg : Registry) (stack : List String) (a : TypeExpr) : Prop :=
  reg.IsResolvable a ∧ reg.IsClear stack a

/-! ## From an annotation to what it uses -/

theorem reaches_iff {a c : TypeExpr} :
    reg.Reaches a c ↔ c = a ∨ ∃ b, reg.Uses a b ∧ reg.Reaches b c :=
  Relation.ReflTransGen.cases_head_iff.trans (or_congr_left eq_comm)

theorem passes_iff {stack : List String} {a : TypeExpr} :
    reg.Passes stack a ↔
      reg.Admits a ∧ (∀ name ∈ stack, a ≠ .name name) ∧ ∀ b, reg.Uses a b → reg.Passes stack b := by
  constructor
  · intro passes
    obtain ⟨resolvable, clear⟩ := passes
    refine ⟨resolvable a .refl, fun name member same => clear name member ?_,
      fun b uses => ⟨?_, ?_⟩⟩
    · rw [same]
      exact .refl
    · exact fun c reaches => resolvable c (.head uses reaches)
    · exact fun name member reaches => clear name member (.head uses reaches)
  · rintro ⟨admitted, fresh, others⟩
    constructor
    · intro c reaches
      rcases reaches_iff.1 reaches with rfl | ⟨b, uses, rest⟩
      · exact admitted
      · exact (others b uses).1 c rest
    · intro name member reaches
      rcases reaches_iff.1 reaches with same | ⟨b, uses, rest⟩
      · exact fresh name member same.symm
      · exact (others b uses).2 name member rest

theorem passes_forward_iff {stack : List String} {text : String} :
    reg.Passes stack (.forward text) ↔ ∃ a, parse text = .ok a ∧ reg.Passes stack a := by
  rw [passes_iff]
  constructor
  · rintro ⟨⟨a, parsed⟩, _, others⟩
    exact ⟨a, parsed, others a (.quoted parsed)⟩
  · rintro ⟨a, parsed, passes⟩
    refine ⟨⟨a, parsed⟩, fun _ _ => TypeExpr.noConfusion, fun b uses => ?_⟩
    cases uses with
    | quoted parsed' =>
      rw [parsed] at parsed'
      cases parsed'
      exact passes

theorem passes_union_iff {stack : List String} {arms : List TypeExpr} :
    reg.Passes stack (.union arms) ↔ ∀ arm ∈ arms, reg.Passes stack arm := by
  rw [passes_iff]
  constructor
  · rintro ⟨_, _, others⟩ arm member
    exact others arm (.arm member)
  · intro passes
    refine ⟨trivial, fun _ _ => TypeExpr.noConfusion, fun b uses => ?_⟩
    cases uses with
    | arm member => exact passes b member

theorem passes_generic_iff {stack : List String} {head : String} {args : List TypeExpr} :
    reg.Passes stack (.generic head args) ↔
      TakesArguments head args.length ∧ ∀ arg ∈ args, reg.Passes stack arg := by
  rw [passes_iff]
  constructor
  · rintro ⟨takes, _, others⟩
    exact ⟨takes, fun arg member => others arg (.argument member)⟩
  · rintro ⟨takes, passes⟩
    refine ⟨takes, fun _ _ => TypeExpr.noConfusion, fun b uses => ?_⟩
    cases uses with
    | argument member => exact passes b member

theorem passes_literal (stack : List String) (v : Json) : reg.Passes stack (.literal v) :=
  passes_iff.2 ⟨trivial, fun _ _ => TypeExpr.noConfusion, fun _ uses => nomatch uses⟩

theorem passes_push_iff {stack : List String} {name : String} {a : TypeExpr} :
    reg.Passes (stack ++ [name]) a ↔ reg.Passes stack a ∧ ¬reg.Reaches a (.name name) := by
  rw [Passes, Passes, and_assoc]
  refine and_congr_right fun _ => ?_
  simp only [IsClear, List.mem_append, List.mem_singleton, or_imp, forall_and, forall_eq]

/-- A record reaches itself if one of its fields reaches it: that fields reach no name on the stack,
with the record's own name on it, says that there is no cycle either. -/
theorem passes_name_iff {stack : List String} {name : String} :
    reg.Passes stack (.name name) ↔
      (((builtin? name).isSome = true ∨ reg.isDeclared name = true) ∧
        ∀ r, Keyed.get? name reg.declarations = some (.record r) →
          ∀ f ∈ r.fields, ∃ a, parse f.type = .ok a) ∧
        name ∉ stack ∧ ∀ b, reg.Uses (.name name) b → reg.Passes (stack ++ [name]) b := by
  have acyclic : ¬Relation.TransGen reg.Uses (.name name) (.name name) ↔
      ∀ b, reg.Uses (.name name) b → ¬reg.Reaches b (.name name) := by
    rw [Relation.TransGen.head'_iff, not_exists]
    exact forall_congr' fun b => not_and
  have fresh : (∀ word ∈ stack, TypeExpr.name name ≠ .name word) ↔ name ∉ stack := by
    constructor
    · exact fun apart member => apart name member rfl
    · rintro absent word member ⟨⟩
      exact absent member
  rw [passes_iff, Admits, fresh, acyclic]
  simp only [passes_push_iff]
  constructor
  · rintro ⟨⟨known, parses, noCycle⟩, absent, others⟩
    exact ⟨⟨known, parses⟩, absent, fun b uses => ⟨others b uses, noCycle b uses⟩⟩
  · rintro ⟨⟨known, parses⟩, absent, others⟩
    exact ⟨⟨known, parses, fun b uses => (others b uses).2⟩, absent,
      fun b uses => (others b uses).1⟩

/-- A builtin name uses nothing, as no type is declared under it. -/
theorem passes_builtin (sound : reg.IsSound) {stack : List String} {name : String}
    (noBuiltins : ∀ name ∈ stack, builtin? name = none) {t : Descriptor}
    (builtin : builtin? name = some t) : reg.Passes stack (.name name) := by
  have unused {d : Declaration} (found : Keyed.get? name reg.declarations = some d) : False := by
    rw [sound.builtin?_eq_none found] at builtin
    cases builtin
  refine passes_name_iff.2 ⟨⟨Or.inl (Option.isSome_iff_exists.2 ⟨t, builtin⟩), ?_⟩, ?_, ?_⟩
  · exact fun r found => (unused found).elim
  · intro member
    rw [noBuiltins name member] at builtin
    cases builtin
  · intro b uses
    cases uses with
    | field found => exact (unused found).elim

theorem passes_declared_iff {stack : List String} {name : String} (free : builtin? name = none) :
    reg.Passes stack (.name name) ↔
      ∃ d, Keyed.get? name reg.declarations = some d ∧ name ∉ stack ∧
        ∀ r, d = .record r → ∀ f ∈ r.fields,
          ∃ a, parse f.type = .ok a ∧ reg.Passes (stack ++ [name]) a := by
  rw [passes_name_iff, free]
  constructor
  · rintro ⟨⟨known, parses⟩, absent, others⟩
    obtain ⟨d, found⟩ := Option.isSome_iff_exists.1 (known.resolve_left Bool.noConfusion)
    refine ⟨d, found, absent, ?_⟩
    rintro r rfl f member
    obtain ⟨a, parsed⟩ := parses r found f member
    exact ⟨a, parsed, others a (.field found member parsed)⟩
  · rintro ⟨d, found, absent, fields⟩
    have declared {r : RecordDecl} (found' : Keyed.get? name reg.declarations = some (.record r)) :
        d = .record r :=
      Option.some.inj (found.symm.trans found')
    refine ⟨⟨Or.inr (Option.isSome_iff_exists.2 ⟨d, found⟩), ?_⟩, absent, ?_⟩
    · intro r found' f member
      obtain ⟨a, parsed, _⟩ := fields r (declared found') f member
      exact ⟨a, parsed⟩
    · intro b uses
      cases uses with
      | field found' member parsed =>
        obtain ⟨a, parsed', passes⟩ := fields _ (declared found') _ member
        cases parsed.symm.trans parsed'
        exact passes

/-! ## Success -/

theorem exists_ofGeneric_iff {head : String} {args : List TypeExpr} {types : List Descriptor}
    (nonempty : args ≠ []) (same : args.length = types.length)
    (noLiteral : ¬TypeExpr.isLiteralHead head = true) :
    (∃ t, ofGeneric head types = .ok t) ↔ TakesArguments head args.length := by
  have positive : 1 ≤ args.length := List.length_pos_iff.2 nonempty
  rw [same] at positive ⊢
  unfold ofGeneric
  rw [TakesArguments, or_iff_right noLiteral]
  generalize stripModule head = short
  dsimp only
  split
  · rename_i optional
    subst optional
    match types with
    | [] | [t] | t :: u :: rest => simp
  · split
    · rename_i union
      subst union
      match types with
      | [] => simp at positive
      | [t] | t :: u :: rest => simp
    · split
      · rename_i list
        rcases list with rfl | rfl | rfl <;>
        match types with
        | [] | [t] | t :: u :: rest => simp
      · split
        · rename_i mapping
          rcases mapping with rfl | rfl | rfl <;>
          match types with
          | [] | [k] | [k, v] | k :: v :: u :: rest => simp
        · simp [*]

theorem exists_resolveTree_generic_iff {head : String} {args : List TypeExpr} (nonempty : args ≠ [])
    (noLiteral : ¬TypeExpr.isLiteralHead head = true) {stack : List String} {src : String} :
    (∃ t, reg.resolveTree stack src (.generic head args) = .ok t) ↔
      TakesArguments head args.length ∧
        ∀ arg ∈ args, ∃ t, reg.resolveTree stack src arg = .ok t := by
  rw [resolveTree_generic, if_neg noLiteral, Except.exists_bind_eq_ok, ← List.exists_mapM_eq_ok,
    and_comm, ← exists_and_right]
  refine exists_congr fun types => and_congr_right fun made => ?_
  simp only [Except.mapError_eq_ok]
  exact exists_ofGeneric_iff nonempty (List.mapM_eq_ok.1 made).length_eq noLiteral

theorem exists_literalValues {args : List TypeExpr} (values : ∀ arg ∈ args, arg.isLiteral = true) :
    ∃ vs, literalValues args = some vs := by
  induction args with
  | nil => exact ⟨[], rfl⟩
  | cons arg rest ih =>
    obtain ⟨v, rfl⟩ := TypeExpr.exists_of_isLiteral (values arg List.mem_cons_self)
    obtain ⟨vs, others⟩ := ih fun b member => values b (List.mem_cons_of_mem _ member)
    rw [literalValues, others]
    exact ⟨v :: vs, rfl⟩

/-- A well-formed annotation is resolved if everything that it reaches is in order, and nothing that
is on the stack is reached. -/
theorem exists_resolveTree_iff (sound : reg.IsSound) (stack : List String) (a : TypeExpr) :
    (∀ name ∈ stack, builtin? name = none) → a.isWellFormed = true → ∀ src,
      ((∃ t, reg.resolveTree stack src a = .ok t) ↔ reg.Passes stack a) := by
  induction stack, a using resolveInduction reg with
  | forward stack text inner =>
    intro noBuiltins _ src
    rw [resolveTree_forward, Except.exists_bind_eq_ok, passes_forward_iff]
    refine exists_congr fun a => and_congr_right fun parsed => ?_
    exact inner a parsed noBuiltins (formed_of_parse parsed).1 text
  | name stack name fields =>
    intro noBuiltins _ src
    cases free : builtin? name with
    | some t =>
      rw [resolveTree_builtin free]
      exact iff_of_true ⟨t, rfl⟩ (passes_builtin sound noBuiltins free)
    | none =>
      have pushed : ∀ word ∈ stack ++ [name], builtin? word = none := by
        intro word member
        rcases List.mem_append.1 member with old | new
        · exact noBuiltins word old
        · rwa [List.mem_singleton.1 new]
      rw [exists_resolveTree_name_iff free, passes_declared_iff free]
      refine exists_congr fun d => and_congr_right fun found => and_congr_right fun fresh => ?_
      refine forall₂_congr fun r same => forall₂_congr fun f member => ?_
      refine exists_congr fun a => and_congr_right fun parsed => ?_
      subst same
      exact fields r found fresh f member a parsed pushed (formed_of_parse parsed).1 f.type
  | generic stack head args parts =>
    intro noBuiltins formed src
    obtain ⟨_, nonempty, parts'⟩ := TypeExpr.isWellFormed_generic_iff.1 formed
    rw [passes_generic_iff]
    split at parts'
    · rename_i literal
      obtain ⟨values, found⟩ := exists_literalValues parts'
      rw [resolveTree_generic, if_pos literal, found]
      refine iff_of_true ⟨_, rfl⟩ ⟨Or.inl ⟨Or.inl literal, List.length_pos_iff.2 nonempty⟩, ?_⟩
      intro arg member
      obtain ⟨v, rfl⟩ := TypeExpr.exists_of_isLiteral (parts' arg member)
      exact passes_literal stack v
    · rename_i noLiteral
      rw [exists_resolveTree_generic_iff nonempty noLiteral]
      refine and_congr_right fun _ => forall₂_congr fun arg member => ?_
      exact parts arg member noBuiltins (parts' arg member) src
  | union stack arms parts =>
    intro noBuiltins formed src
    obtain ⟨_, parts'⟩ := TypeExpr.isWellFormed_union_iff.1 formed
    rw [resolveTree_union, Except.exists_map_eq_ok, List.exists_mapM_eq_ok, passes_union_iff]
    exact forall₂_congr fun arm member => parts arm member noBuiltins (parts' arm member).2 src
  | literal stack v =>
    intro _ formed
    rw [TypeExpr.isWellFormed] at formed
    cases formed

theorem exists_resolve_iff (sound : reg.IsSound) (text : String) :
    (∃ t, reg.resolve text = .ok t) ↔ reg.Accepts text := by
  rw [resolve, Except.exists_bind_eq_ok, Accepts]
  refine exists_congr fun a => and_congr_right fun parsed => ?_
  have noNames : ∀ name ∈ [], builtin? name = none := List.forall_mem_nil _
  have clear : reg.IsClear [] a := List.forall_mem_nil _
  rw [exists_resolveTree_iff sound [] a noNames (formed_of_parse parsed).1 text]
  exact and_iff_left clear

end Registry

/-- Whatever has been declared, an annotation has a type if its text parses and everything that it
reaches is in order, declared records that lead back to themselves being out of order; all other
texts are unsupported annotations. -/
theorem resolve_iff_accepts (steps : List Registry.Registration) (text : String) :
    ((∃ t, ((Registry.empty.run steps).resolve text).mapError SchemaError.resolve = .ok t) ↔
      (Registry.empty.run steps).Accepts text) ∧
      (¬(Registry.empty.run steps).Accepts text →
        ∃ e, ((Registry.empty.run steps).resolve text).mapError SchemaError.resolve =
          .error (.resolve e)) := by
  have sound := Registry.isSound_run Registry.isSound_empty steps
  have accepted := Registry.exists_resolve_iff sound text
  simp only [Except.mapError_eq_ok]
  refine ⟨accepted, fun refused => ?_⟩
  cases resolved : (Registry.empty.run steps).resolve text with
  | ok t => exact absurd (accepted.1 ⟨t, resolved⟩) refused
  | error e => exact ⟨e, rfl⟩

/-- A record that refers to itself. -/
def node : Declaration :=
  .record { name := "Node", fields := [⟨"next", "Optional[\"Node\"]", none⟩] }

/-- Records in a row are accepted, and one that refers to itself is not. -/
theorem resolve_iff_accepts_node :
    (Registry.empty.run [.declareAll [outer, inner]]).Accepts "Outer" ∧
      ∃ e, ((Registry.empty.run [.declare node]).resolve "Node").mapError SchemaError.resolve =
        .error (.resolve e) := by
  constructor
  · refine (resolve_iff_accepts [.declareAll [outer, inner]] "Outer").1.1 ⟨outerType, ?_⟩
    exact Except.mapError_eq_ok.2 resolve_outer
  · refine (resolve_iff_accepts [.declare node] "Node").2 ?_
    have parsed := Registry.parse_eq_ok (.name "Node") rfl rfl (by decide)
    have optional :=
      Registry.parse_eq_ok (.generic "Optional" [.forward "Node"]) rfl rfl (by decide)
    rintro ⟨a, parsed', resolvable⟩
    cases parsed.symm.trans parsed'
    refine (resolvable _ .refl).2.2 ?_
    refine .head (.field rfl List.mem_cons_self optional) ?_
    exact .head (.argument List.mem_cons_self) (.single (.quoted parsed))

end CallContract
