import CallContract.Proofs.Requests

/-!
# What becomes of the arguments of a request

* `Constructs` says what is made of an argument: a record of an object, and file data of anything.
  Arguments of other types are left alone.
* `coerceParams_cons_eq_ok` and `coerceParams_cons_eq_error` say what one parameter does to the
  values so far; `keys_coerceParams` and `get?_coerceParams` follow all of them in their order.
* `coerce_outcome` is the whole: the first parameter that fails decides the error, and otherwise the
  keys stay as they are and the last parameter of a name decides its value.
-/

namespace CallContract

/-- What is made of an argument for a parameter of a type. -/
inductive Constructs : Descriptor → Json → Except ConstructionError Value → Prop where
  | record (name : String) (fields : List (Field Descriptor)) (entries : List (String × Json)) :
    Constructs (.record name fields) (.obj entries) (validate (.record name fields) (.obj entries))
  | fileData {argument : Json} {data : FileData} (read : FileData.ofJson argument = .ok data) :
    Constructs .fileData argument (.ok (.fileData data))
  | noFileData {argument : Json} {fault : FileData.Fault}
    (failed : FileData.ofJson argument = .error fault) :
    Constructs .fileData argument (.error (.fileData fault))

namespace Parameter

/-- What a parameter makes of its argument in a request, if there is one. -/
def Makes (request : List (String × Json)) (p : Parameter) (argument : Json)
    (result : Except ConstructionError Value) : Prop :=
  Keyed.get? p.name request = some argument ∧ Constructs p.type argument result

/-- A parameter that nothing can be made for of its argument in a request. -/
def Fails (request : List (String × Json)) (p : Parameter) : Prop :=
  ∃ argument source, p.Makes request argument (.error source)

/-- A parameter that makes nothing of a request. -/
def IsIdle (request : List (String × Json)) (p : Parameter) : Prop :=
  ∀ argument result, ¬p.Makes request argument result

end Parameter

/-! ## One argument -/

section Argument

variable {t : Descriptor} {argument : Json} {result : Except ConstructionError Value}

theorem coerceArgument_of_constructs (constructs : Constructs t argument result) :
    coerceArgument t argument = result.map some := by
  cases constructs with
  | record name fields entries => rfl
  | fileData read =>
    unfold coerceArgument validate validateAt
    rw [read]
    rfl
  | noFileData failed =>
    unfold coerceArgument validate validateAt
    rw [failed]
    rfl

theorem coerceArgument_of_not_constructs (nothing : ∀ result, ¬Constructs t argument result) :
    coerceArgument t argument = .ok none := by
  unfold coerceArgument
  split
  · exact absurd (.record _ _ _) (nothing _)
  · cases read : FileData.ofJson argument with
    | ok data => exact absurd (.fileData read) (nothing _)
    | error fault => exact absurd (.noFileData read) (nothing _)
  · rfl

end Argument

/-! ## One parameter -/

section Steps

variable {request : List (String × Json)} {p : Parameter} {argument : Json}
  {rest : List Parameter} {values : List (String × Value)}

theorem coerceParams_of_made {value : Value} (made : p.Makes request argument (.ok value)) :
    coerceParams request (p :: rest) values =
      coerceParams request rest (Keyed.put p.name value values) := by
  obtain ⟨found, constructs⟩ := made
  have coerced := coerceArgument_of_constructs constructs
  rw [coerceParams, found]
  dsimp only
  rw [coerced]
  rfl

theorem coerceParams_of_failed {source : ConstructionError}
    (failed : p.Makes request argument (.error source)) :
    coerceParams request (p :: rest) values = .error (.coercion p.name argument source) := by
  obtain ⟨found, constructs⟩ := failed
  have coerced := coerceArgument_of_constructs constructs
  rw [coerceParams, found]
  dsimp only
  rw [coerced]
  rfl

theorem coerceParams_of_idle (idle : p.IsIdle request) :
    coerceParams request (p :: rest) values = coerceParams request rest values := by
  rw [coerceParams]
  cases found : Keyed.get? p.name request with
  | none => rfl
  | some argument =>
    have kept := coerceArgument_of_not_constructs fun result constructs =>
      idle argument result ⟨found, constructs⟩
    dsimp only
    rw [kept]

theorem Parameter.made_or_fails_or_idle (request : List (String × Json)) (p : Parameter) :
    (∃ argument value, p.Makes request argument (.ok value)) ∨ p.Fails request ∨
      p.IsIdle request := by
  by_cases idle : p.IsIdle request
  · exact Or.inr (Or.inr idle)
  · simp only [IsIdle, not_forall, not_not] at idle
    obtain ⟨argument, result, makes⟩ := idle
    cases result with
    | ok value => exact Or.inl ⟨argument, value, makes⟩
    | error source => exact Or.inr (Or.inl ⟨argument, source, makes⟩)

theorem Parameter.Makes.not_fails {value : Value} (made : p.Makes request argument (.ok value)) :
    ¬p.Fails request := by
  intro fails
  obtain ⟨argument', source, found, constructs⟩ := fails
  have same := made.1.symm.trans found
  cases same
  have coerced := coerceArgument_of_constructs constructs
  rw [coerceArgument_of_constructs made.2] at coerced
  cases coerced

theorem Parameter.IsIdle.not_fails (idle : p.IsIdle request) : ¬p.Fails request := by
  intro fails
  obtain ⟨argument, source, makes⟩ := fails
  exact idle argument _ makes

/-- Where a run succeeds, its first parameter has made a value or nothing at all. -/
theorem coerceParams_cons_eq_ok {result : List (String × Value)}
    (coerced : coerceParams request (p :: rest) values = .ok result) :
    (∃ argument value, p.Makes request argument (.ok value) ∧
        coerceParams request rest (Keyed.put p.name value values) = .ok result) ∨
      p.IsIdle request ∧ coerceParams request rest values = .ok result := by
  rcases p.made_or_fails_or_idle request with ⟨argument, value, made⟩ | fails | idle
  · rw [coerceParams_of_made made] at coerced
    exact Or.inl ⟨argument, value, made, coerced⟩
  · obtain ⟨argument, source, makes⟩ := fails
    rw [coerceParams_of_failed makes] at coerced
    cases coerced
  · rw [coerceParams_of_idle idle] at coerced
    exact Or.inr ⟨idle, coerced⟩

/-- Where a run fails, either its first parameter or the run of the others does. -/
theorem coerceParams_cons_eq_error {e : SchemaError}
    (failed : coerceParams request (p :: rest) values = .error e) :
    (∃ argument source, p.Makes request argument (.error source) ∧
        e = .coercion p.name argument source) ∨
      ¬p.Fails request ∧ ∃ values', coerceParams request rest values' = .error e := by
  rcases p.made_or_fails_or_idle request with ⟨argument, value, made⟩ | fails | idle
  · rw [coerceParams_of_made made] at failed
    exact Or.inr ⟨made.not_fails, _, failed⟩
  · obtain ⟨argument, source, makes⟩ := fails
    rw [coerceParams_of_failed makes] at failed
    cases failed
    exact Or.inl ⟨argument, source, makes, rfl⟩
  · rw [coerceParams_of_idle idle] at failed
    exact Or.inr ⟨idle.not_fails, _, failed⟩

/-- A parameter takes its argument unless it fails on it. -/
theorem Parameter.takes_iff : p.Takes request ↔ ¬p.Fails request := by
  constructor
  · intro takes fails
    obtain ⟨argument, source, found, constructs⟩ := fails
    obtain ⟨value, coerced⟩ := takes argument found
    rw [coerceArgument_of_constructs constructs] at coerced
    cases coerced
  · intro noFailure argument found
    by_cases nothing : ∀ result, ¬Constructs p.type argument result
    · exact ⟨none, coerceArgument_of_not_constructs nothing⟩
    · simp only [not_forall, not_not] at nothing
      obtain ⟨result, constructs⟩ := nothing
      cases result with
      | ok value => exact ⟨some value, coerceArgument_of_constructs constructs⟩
      | error source => exact absurd ⟨argument, source, found, constructs⟩ noFailure

end Steps

/-! ## All parameters -/

section Runs

variable {request : List (String × Json)} {params : List Parameter}
  {values result : List (String × Value)}

/-- The error of a run is that of the first parameter that fails, whatever the values so far. -/
theorem first_fails_of_coerceParams {e : SchemaError}
    (failed : coerceParams request params values = .error e) :
    ∃ before p after argument source, params = before ++ p :: after ∧
      (∀ q ∈ before, ¬q.Fails request) ∧ p.Makes request argument (.error source) ∧
      e = .coercion p.name argument source := by
  induction params generalizing values with
  | nil => cases failed
  | cons p rest ih =>
    rcases coerceParams_cons_eq_error failed with ⟨argument, source, makes, error⟩ | ⟨fine, others⟩
    · exact ⟨[], p, rest, argument, source, rfl, List.forall_mem_nil _, makes, error⟩
    · obtain ⟨values', failed'⟩ := others
      obtain ⟨before, q, after, argument, source, split, noFailure, fails⟩ := ih failed'
      refine ⟨p :: before, q, after, argument, source, ?_, ?_, fails⟩
      · rw [split, List.cons_append]
      · exact List.forall_mem_cons.2 ⟨fine, noFailure⟩

/-- The keys of the request stay, in their order. -/
theorem keys_coerceParams (keys : values.map Prod.fst = request.map Prod.fst)
    (coerced : coerceParams request params values = .ok result) :
    result.map Prod.fst = request.map Prod.fst := by
  induction params generalizing values with
  | nil =>
    cases coerced
    exact keys
  | cons p rest ih =>
    rcases coerceParams_cons_eq_ok coerced with ⟨argument, value, made, others⟩ | ⟨_, others⟩
    · refine ih ?_ others
      have there : p.name ∈ values.map Prod.fst := by
        rw [keys, ← Keyed.contains_iff, Keyed.contains, made.1]
        rfl
      rw [Keyed.keys_put, if_pos there, keys]
    · exact ih keys others

/-- A key has what the last of its parameters to make anything has made; it keeps its value if none
of them does. -/
theorem get?_coerceParams {key : String} {argument : Json}
    (found : Keyed.get? key request = some argument)
    (coerced : coerceParams request params values = .ok result) :
    (∃ before p after value, params = before ++ p :: after ∧ p.name = key ∧
        p.Makes request argument (.ok value) ∧ (∀ q ∈ after, q.name = key → q.IsIdle request) ∧
        Keyed.get? key result = some value) ∨
      (∀ p ∈ params, p.name = key → p.IsIdle request) ∧
        Keyed.get? key result = Keyed.get? key values := by
  induction params generalizing values with
  | nil =>
    cases coerced
    exact Or.inr ⟨List.forall_mem_nil _, rfl⟩
  | cons p rest ih =>
    rcases coerceParams_cons_eq_ok coerced with ⟨argument', value, made, others⟩ | ⟨idle, others⟩
    · rcases ih others with ⟨before, q, after, value', split, last⟩ | ⟨idle, kept⟩
      · exact Or.inl ⟨p :: before, q, after, value', congrArg (p :: ·) split, last⟩
      · by_cases named : p.name = key
        · subst named
          have same := found.symm.trans made.1
          cases same
          rw [Keyed.get?_put_self] at kept
          exact Or.inl ⟨[], p, rest, value, rfl, rfl, made, idle, kept⟩
        · rw [Keyed.get?_put_of_ne (Ne.symm named)] at kept
          have unnamed : p.name = key → p.IsIdle request := fun same => absurd same named
          exact Or.inr ⟨List.forall_mem_cons.2 ⟨unnamed, idle⟩, kept⟩
    · rcases ih others with ⟨before, q, after, value', split, last⟩ | ⟨idleRest, kept⟩
      · exact Or.inl ⟨p :: before, q, after, value', congrArg (p :: ·) split, last⟩
      · exact Or.inr ⟨List.forall_mem_cons.2 ⟨fun _ => idle, idleRest⟩, kept⟩

end Runs

/-! ## Whole requests -/

theorem exists_coerce_error_iff {sig : Signature} {request : List (String × Json)} :
    (∃ e, sig.coerce request = .error e) ↔ ∃ p ∈ sig.params, p.Fails request := by
  have succeeds : (∃ values, sig.coerce request = .ok values) ↔ ∀ p ∈ sig.params, p.Takes request :=
    exists_coerceParams_iff
  simp only [Parameter.takes_iff] at succeeds
  cases outcome : sig.coerce request with
  | ok values =>
    have none := succeeds.1 ⟨values, outcome⟩
    refine iff_of_false ?_ ?_
    · intro given
      obtain ⟨e, same⟩ := given
      cases same
    · intro given
      obtain ⟨p, member, fails⟩ := given
      exact none p member fails
  | error e =>
    refine iff_of_true ⟨e, rfl⟩ ?_
    by_contra fine
    obtain ⟨values, coerced⟩ := succeeds.2 fun p member fails => fine ⟨p, member, fails⟩
    rw [outcome] at coerced
    cases coerced

/-- Coercion fails if some parameter fails on its argument, with the argument and the error of the
first that does. Otherwise the keys of the request stay in their order; each has what the last of
its parameters to make anything has made, or its argument as it is if none does. -/
theorem coerce_outcome (sig : Signature) (request : List (String × Json)) :
    ((∃ e, sig.coerce request = .error e) ↔ ∃ p ∈ sig.params, p.Fails request) ∧
      (∀ e, sig.coerce request = .error e →
        ∃ before p after argument source, sig.params = before ++ p :: after ∧
          (∀ q ∈ before, ¬q.Fails request) ∧ p.Makes request argument (.error source) ∧
          e = .coercion p.name argument source) ∧
      ∀ values, sig.coerce request = .ok values →
        values.map Prod.fst = request.map Prod.fst ∧
          ∀ key argument, Keyed.get? key request = some argument →
            (∃ before p after value, sig.params = before ++ p :: after ∧ p.name = key ∧
                p.Makes request argument (.ok value) ∧
                (∀ q ∈ after, q.name = key → q.IsIdle request) ∧
                Keyed.get? key values = some value) ∨
              (∀ p ∈ sig.params, p.name = key → p.IsIdle request) ∧
                Keyed.get? key values = some (.raw argument) := by
  refine ⟨exists_coerce_error_iff, fun e failed => first_fails_of_coerceParams failed, ?_⟩
  intro values coerced
  refine ⟨keys_coerceParams ?_ coerced, ?_⟩
  · rw [List.map_map]
    rfl
  · intro key argument found
    have raw : Keyed.get? key (request.map fun x => (x.1, Value.raw x.2)) =
        some (.raw argument) := by
      rw [Keyed.get?_map_snd, found]
      rfl
    rw [← raw]
    exact get?_coerceParams found coerced

/-- A request that names the ticket, and something that `filing` does not ask for. -/
def looseRequest : List (String × Json) :=
  [("origin", .str "mail"), ("ticket", .str "none yet")]

/-- What is no object makes no ticket, and neither it nor the other argument is touched; an object
without an id is an error. -/
theorem coerce_outcome_filing :
    (∃ values, filing.coerce looseRequest = .ok values ∧
        values.map Prod.fst = ["origin", "ticket"] ∧
        Keyed.get? "origin" values = some (.raw (.str "mail"))) ∧
      ∃ e, filing.coerce [("ticket", .obj [])] = .error e := by
  have missing : validate ticket (.obj []) = .error (.missingField "ticket" "id") := by
    rw [validate, ticket, validateAt_record]
    rfl
  have fails : (filing.params[0]).Fails [("ticket", .obj [])] :=
    ⟨.obj [], .missingField "ticket" "id", rfl, missing ▸ .record _ _ _⟩
  have coerced : filing.coerce looseRequest =
      .ok [("origin", .raw (.str "mail")), ("ticket", .raw (.str "none yet"))] := rfl
  obtain ⟨_, _, outcome⟩ := coerce_outcome filing looseRequest
  obtain ⟨keys, values⟩ := outcome _ coerced
  refine ⟨⟨_, coerced, keys, ?_⟩, ?_⟩
  · rcases values "origin" (.str "mail") rfl with ⟨before, p, after, _, split, named, _⟩ | raw
    · have unasked : ∀ q ∈ filing.params, q.name ≠ "origin" := by decide
      rw [split] at unasked
      exact absurd named (unasked p (List.mem_append_right _ List.mem_cons_self))
    · exact raw.2
  · exact (coerce_outcome filing [("ticket", .obj [])]).1.2 ⟨_, List.mem_cons_self, fails⟩

end CallContract
