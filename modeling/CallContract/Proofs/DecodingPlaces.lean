import CallContract.Proofs.Decoding
import CallContract.Proofs.Pointers
import CallContract.Schema.Node

/-!
# Where decoding fails

Decoding goes from node to node, and at each node it looks at some of its parts. What it finds at
fault is one of these, and the place of the error says which.

* `Node.TurnsTo` is one step of the traversal, from a node to a node inside it; `Node.HasSite` are
  the parts of a node that can be at fault; `Node.HasPosition` puts both together.
* `HasPosition.place_inj`: a place is that of one position. Each turn leaves its mark in the place.
* `failsWithin_of_decodeNode`: an error of a node is at one of its sites, or an error of a node that
  it turns to; `exists_position_of_decodeNode` follows by induction on the node.
-/

namespace CallContract

open Node (HasType HasPlainType)

/-! ## Positions -/

namespace Node

/-- The ways from a node to a node inside it. -/
inductive Turn where
  | arm (position : Nat)
  | items
  | key
  | value
  | property (name : String)

/-- The tokens that lead from a node to the one that is turned to. -/
def Turn.place : Turn → Pointer
  | .arm position => ["anyOf", Decimal.natText position]
  | .items => ["items"]
  | .key => ["items", "key"]
  | .value => ["items", "value"]
  | .property name => ["properties", name]

/-- Decoding a node turns to a node inside it. Arms are counted with those of null among them, but
these are passed over; a node of file data is not looked into. -/
inductive TurnsTo (fields : List (String × Json)) : Turn → Json → Prop
  | arm {arms : List Json} {position : Nat} {part : Json}
      (arms_eq : Keyed.get? "anyOf" fields = some (.arr arms)) (there : arms[position]? = some part)
      (notNull : isNull part = false) : TurnsTo fields (.arm position) part
  | items {part : Json} (typed : HasPlainType "array" fields)
      (items_eq : Keyed.get? "items" fields = some part) : TurnsTo fields .items part
  | key {items key value : Json} (typed : HasPlainType "object" fields)
      (unmarked : isMarked "is_file_data" fields = false)
      (noProperties : Keyed.get? "properties" fields = none)
      (items_eq : Keyed.get? "items" fields = some items)
      (key_eq : items.get? "key" = some key) (value_eq : items.get? "value" = some value) :
      TurnsTo fields .key key
  | value {items key value : Json} (typed : HasPlainType "object" fields)
      (unmarked : isMarked "is_file_data" fields = false)
      (noProperties : Keyed.get? "properties" fields = none)
      (items_eq : Keyed.get? "items" fields = some items)
      (key_eq : items.get? "key" = some key) (value_eq : items.get? "value" = some value) :
      TurnsTo fields .value value
  | property {properties : List (String × Json)} {name : String} {part : Json}
      (typed : HasPlainType "object" fields) (unmarked : isMarked "is_file_data" fields = false)
      (properties_eq : Keyed.get? "properties" fields = some (.obj properties))
      (there : Keyed.get? name properties = some part) : TurnsTo fields (.property name) part

/-- The parts of a node that can be at fault, the node itself among them. -/
inductive Site where
  | node
  | type
  | arms
  | values
  | value (position : Nat)
  | items
  | properties
  | required

/-- The tokens that lead from a node to a part of it. -/
def Site.place : Site → Pointer
  | .node => []
  | .type => ["type"]
  | .arms => ["anyOf"]
  | .values => ["enum"]
  | .value position => ["enum", Decimal.natText position]
  | .items => ["items"]
  | .properties => ["properties"]
  | .required => ["required"]

/-- A node has a part that decoding looks at. The items of an array are a node of their own. -/
inductive HasSite : Json → Site → Prop
  | node (node : Json) : HasSite node .node
  | type {fields : List (String × Json)} {type : String} (typed : HasPlainType type fields) :
      HasSite (.obj fields) .type
  | arms {fields : List (String × Json)} {arms : Json}
      (arms_eq : Keyed.get? "anyOf" fields = some arms) : HasSite (.obj fields) .arms
  | values {fields : List (String × Json)} {type : String} {values : Json}
      (typed : HasType type fields) (values_eq : Keyed.get? "enum" fields = some values) :
      HasSite (.obj fields) .values
  | value {fields : List (String × Json)} {type : String} {values : List Json} {position : Nat}
      {value : Json} (typed : HasType type fields)
      (values_eq : Keyed.get? "enum" fields = some (.arr values))
      (there : values[position]? = some value) : HasSite (.obj fields) (.value position)
  | items {fields : List (String × Json)} {items : Json} (typed : HasPlainType "object" fields)
      (items_eq : Keyed.get? "items" fields = some items) : HasSite (.obj fields) .items
  | properties {fields : List (String × Json)} {properties : Json}
      (typed : HasPlainType "object" fields)
      (properties_eq : Keyed.get? "properties" fields = some properties) :
      HasSite (.obj fields) .properties
  | required {fields : List (String × Json)} {names : Json} (typed : HasPlainType "object" fields)
      (required_eq : Keyed.get? "required" fields = some names) : HasSite (.obj fields) .required

/-- A position of the traversal: the turns from the root to a node, and a part of the node. -/
structure Position where
  turns : List Turn
  site : Site

/-- The tokens that lead from the root to a position. -/
def Position.place (p : Position) : Pointer :=
  p.turns.flatMap Turn.place ++ p.site.place

/-- The traversal of a document comes to a position. -/
inductive HasPosition : Json → Position → Prop
  | here {node : Json} {site : Site} (part : HasSite node site) : HasPosition node ⟨[], site⟩
  | inside {fields : List (String × Json)} {turn : Turn} {part : Json} {turns : List Turn}
      {site : Site} (step : TurnsTo fields turn part) (rest : HasPosition part ⟨turns, site⟩) :
      HasPosition (.obj fields) ⟨turn :: turns, site⟩

end Node

open Node (Turn TurnsTo Site HasSite Position HasPosition)

/-! ## What places lead to -/

section Places

variable {fields : List (String × Json)} {turn : Turn} {part : Json}

theorem Node.TurnsTo.at? (step : TurnsTo fields turn part) :
    (Json.obj fields).at? turn.place = some part := by
  cases step with
  | arm arms_eq there =>
    exact (Json.at?_entry arms_eq _).trans (Json.at?_item there [])
  | items _ items_eq => exact Json.at?_entry items_eq []
  | key _ _ _ items_eq key_eq => exact (Json.at?_entry items_eq _).trans (Json.at?_get? key_eq [])
  | value _ _ _ items_eq _ value_eq =>
    exact (Json.at?_entry items_eq _).trans (Json.at?_get? value_eq [])
  | property _ _ properties_eq there =>
    exact (Json.at?_entry properties_eq _).trans (Json.at?_entry there [])

theorem Node.HasSite.exists_at? {node : Json} {site : Site} (there : HasSite node site) :
    ∃ v, node.at? site.place = some v := by
  cases there with
  | node => exact ⟨node, rfl⟩
  | type typed => exact ⟨_, Json.at?_entry typed.type []⟩
  | arms arms_eq => exact ⟨_, Json.at?_entry arms_eq []⟩
  | values _ values_eq => exact ⟨_, Json.at?_entry values_eq []⟩
  | value _ values_eq there =>
    exact ⟨_, (Json.at?_entry values_eq _).trans (Json.at?_item there [])⟩
  | items _ items_eq => exact ⟨_, Json.at?_entry items_eq []⟩
  | properties _ properties_eq => exact ⟨_, Json.at?_entry properties_eq []⟩
  | required _ required_eq => exact ⟨_, Json.at?_entry required_eq []⟩

/-- The place of a position leads to a value of the document. -/
theorem Node.HasPosition.exists_at? {doc : Json} {p : Position} (position : HasPosition doc p) :
    ∃ v, doc.at? p.place = some v := by
  induction position with
  | here part => exact part.exists_at?
  | @inside fields turn part turns site step _ ih =>
    obtain ⟨v, there⟩ := ih
    refine ⟨v, ?_⟩
    rw [Position.place, List.flatMap_cons, List.append_assoc]
    exact Json.at?_of_part step.at? there

/-! ## Places of positions are their own -/

/-- A node of objects is none of arrays. -/
theorem Node.HasPlainType.not_array (object : HasPlainType "object" fields) :
    ¬HasPlainType "array" fields := by
  intro array
  have same := Json.str.inj (Option.some.inj (object.type.symm.trans array.type))
  exact absurd same (by decide)

/-- Whether a turn is one to the items of an array. -/
def Node.Turn.isItems : Turn → Bool
  | .items => true
  | _ => false

/-- The first tokens of a place tell the turn, as long as the items of an array are not mixed up
with those of an object. -/
theorem Node.Turn.eq_of_place {turn turn' : Turn} {rest rest' : Pointer}
    (kind : turn.isItems = turn'.isItems) (same : turn.place ++ rest = turn'.place ++ rest') :
    turn = turn' ∧ rest = rest' := by
  cases turn <;> cases turn' <;> simp_all [place, isItems, Pointer.natText_inj]

/-- No part of a node lies behind a turn, but for what items are called. -/
theorem Node.Site.eq_items_of_place {site : Site} {turn : Turn} {rest : Pointer}
    (same : site.place = turn.place ++ rest) : site = .items ∧ turn = .items := by
  cases site <;> cases turn <;> simp_all [place, Turn.place]

theorem Node.Site.place_inj {site site' : Site} (same : site.place = site'.place) :
    site = site' := by
  cases site <;> cases site' <;> simp_all [place, Pointer.natText_inj]

theorem Node.TurnsTo.isItems_iff (step : TurnsTo fields turn part) :
    turn.isItems = true ↔ HasPlainType "array" fields := by
  cases step with
  | arm arms_eq =>
    refine iff_of_false Bool.false_ne_true fun array => ?_
    cases arms_eq.symm.trans array.noArms
  | items typed => exact iff_of_true rfl typed
  | key typed => exact iff_of_false Bool.false_ne_true typed.not_array
  | value typed => exact iff_of_false Bool.false_ne_true typed.not_array
  | property typed => exact iff_of_false Bool.false_ne_true typed.not_array

theorem Node.TurnsTo.eq_of_place {turn' : Turn} {part' : Json} {rest rest' : Pointer}
    (step : TurnsTo fields turn part) (step' : TurnsTo fields turn' part')
    (same : turn.place ++ rest = turn'.place ++ rest') :
    turn = turn' ∧ part = part' ∧ rest = rest' := by
  -- `items` leads to a node in arrays and to a pair of nodes in objects: the type tells which.
  have kind := Bool.eq_iff_iff.2 (step.isItems_iff.trans step'.isItems_iff.symm)
  obtain ⟨rfl, rest_eq⟩ := Turn.eq_of_place kind same
  exact ⟨rfl, Option.some.inj (step.at?.symm.trans step'.at?), rest_eq⟩

/-- A place that goes on behind a turn is not that of a part of the node itself. -/
theorem Node.TurnsTo.ne_of_hasSite {site : Site} {rest : Pointer} (step : TurnsTo fields turn part)
    (there : HasSite (.obj fields) site) : site.place ≠ turn.place ++ rest := by
  intro same
  obtain ⟨rfl, rfl⟩ := Site.eq_items_of_place same
  cases there with
  | items object => exact object.not_array (step.isItems_iff.1 rfl)

/-- Two positions in one place are one position. -/
theorem Node.HasPosition.place_inj {doc : Json} {p q : Position} (position : HasPosition doc p)
    (position' : HasPosition doc q) (same : p.place = q.place) : p = q := by
  induction position generalizing q with
  | here part =>
    cases position' with
    | here part' => exact congrArg (Position.mk []) (Site.place_inj same)
    | inside step' rest' =>
      rw [Position.place, Position.place, List.flatMap_cons, List.append_assoc] at same
      exact absurd same (step'.ne_of_hasSite part)
  | @inside fields turn part turns site step rest ih =>
    rw [Position.place, List.flatMap_cons, List.append_assoc] at same
    cases position' with
    | here part' => exact absurd same.symm (step.ne_of_hasSite part')
    | @inside _ turn' other turns' site' step' rest' =>
      rw [Position.place, List.flatMap_cons, List.append_assoc] at same
      obtain ⟨rfl, rfl, behind⟩ := step.eq_of_place step' same
      cases ih rest' behind
      rfl

/-- The place of a position is not that of the entry with an empty key, whose text is that of the
root. -/
theorem Node.Position.place_ne (p : Position) : p.place ≠ [""] := by
  obtain ⟨turns, site⟩ := p
  rw [place]
  cases turns with
  | nil => cases site <;> simp [Site.place]
  | cons turn rest => cases turn <;> simp [Turn.place]

/-- Two positions whose places have one text are one position. -/
theorem Node.HasPosition.text_inj {doc : Json} {p q : Position} (position : HasPosition doc p)
    (position' : HasPosition doc q) (same : p.place.text = q.place.text) : p = q :=
  position.place_inj position' ((Pointer.text_inj p.place_ne q.place_ne).1 same)

end Places

/-! ## Errors -/

section Errors

variable {fields : List (String × Json)} {name : String} {place : Pointer} {e : DecodeError}

/-- An error of a node that stands in some place is that of a part of the node, or it comes from a
node that is turned to. -/
def Node.FailsWithin (fields : List (String × Json)) (place : Pointer) (e : DecodeError) : Prop :=
  (∃ site, HasSite (.obj fields) site ∧ e.place = place ++ site.place) ∨
    ∃ turn part name, TurnsTo fields turn part ∧
      decodeNode name (place ++ turn.place) part = .error e

open Node (FailsWithin)

theorem failsWithin_of_decodeEnum {type : String} {values : Json} (typed : HasType type fields)
    (values_eq : Keyed.get? "enum" fields = some values)
    (failed : decodeEnum type values name place = .error e) : FailsWithin fields place e := by
  rw [decodeEnum] at failed
  split at failed
  · cases failed
    exact .inl ⟨.node, .node _, (List.append_nil _).symm⟩
  · split at failed
    · rename_i kind _ first rest
      split at failed
      · rename_i bad position found
        cases failed
        have member := List.mem_of_find?_eq_some found
        have there := List.mk_mem_zipIdx_iff_getElem?.1 member
        exact .inl ⟨.value position, .value typed values_eq there, rfl⟩
      · cases failed
    · cases failed
      exact .inl ⟨.values, .values typed values_eq, rfl⟩

theorem failsWithin_of_requiredNames? {properties : List (String × Json)}
    (typed : HasPlainType "object" fields)
    (failed : requiredNames? fields properties place = .error e) : FailsWithin fields place e := by
  rw [requiredNames?] at failed
  split at failed
  · cases failed
  · rename_i items required_eq
    refine .inl ⟨.required, .required typed required_eq, ?_⟩
    rcases Except.bind_eq_error.1 failed with notName | ⟨names, _, unknown⟩
    · obtain ⟨item, _, refused⟩ := List.exists_of_mapM_eq_error notName
      split at refused
      · cases refused
      · cases refused
        rfl
    · split at unknown
      · cases unknown
        rfl
      · cases unknown
  · rename_i other _ required_eq
    cases failed
    exact .inl ⟨.required, .required typed required_eq, rfl⟩

/-- An error of the arms of a union is that of one of them, which is not null, in its place. -/
theorem exists_arm_of_decodeArms {alone : Bool} {arms : List Json} : ∀ {position index : Nat},
    decodeArms name alone place position index arms = .error e →
      ∃ i arm name', arms[i]? = some arm ∧ Node.isNull arm = false ∧
        decodeNode name' (place ++ [Decimal.natText (position + i)]) arm = .error e := by
  induction arms with
  | nil =>
    intro position index failed
    rw [decodeArms] at failed
    cases failed
  | cons arm rest ih =>
    intro position index failed
    have later : decodeArms name alone place (position + 1) index rest = .error e ∨
        decodeArms name alone place (position + 1) (index + 1) rest = .error e →
        ∃ i arm' name', (arm :: rest)[i]? = some arm' ∧ Node.isNull arm' = false ∧
          decodeNode name' (place ++ [Decimal.natText (position + i)]) arm' = .error e := by
      intro others
      obtain ⟨i, arm', name', there, notNull, refused⟩ := others.elim ih ih
      rw [Nat.add_assoc, Nat.add_comm 1 i] at refused
      exact ⟨i + 1, arm', name', there, notNull, refused⟩
    rw [decodeArms] at failed
    cases null : Node.isNull arm with
    | true =>
      rw [null] at failed
      exact later (.inl failed)
    | false =>
      rw [null] at failed
      rcases Except.bind_eq_error.1 failed with first | ⟨t, _, others⟩
      · exact ⟨0, arm, _, rfl, null, first⟩
      · rcases Except.bind_eq_error.1 others with tail | ⟨ts, _, result⟩
        · exact later (.inr tail)
        · cases result

/-- An error of the properties of a record is that of one of them, in its place. -/
theorem exists_property_of_decodeProperties {required : Option (List String)}
    {properties : List (String × Json)}
    (failed : decodeProperties name place required properties = .error e) :
    ∃ key node name', (key, node) ∈ properties ∧
      decodeNode name' (place ++ [key]) node = .error e := by
  induction properties with
  | nil =>
    rw [decodeProperties] at failed
    cases failed
  | cons property rest ih =>
    obtain ⟨key, node⟩ := property
    rw [decodeProperties] at failed
    rcases Except.bind_eq_error.1 failed with first | ⟨t, _, others⟩
    · exact ⟨key, node, _, List.mem_cons_self, first⟩
    · rcases Except.bind_eq_error.1 others with tail | ⟨ts, _, result⟩
      · obtain ⟨key', node', name', member, refused⟩ := ih tail
        exact ⟨key', node', name', List.mem_cons_of_mem _ member, refused⟩
      · cases result

theorem failsWithin_of_decodeObject (distinct : (Json.obj fields).DistinctKeys)
    (typed : HasPlainType "object" fields) (failed : decodeObject name place fields = .error e) :
    FailsWithin fields place e := by
  rw [decodeObject] at failed
  split at failed
  · cases failed
  rename_i notMarked
  have unmarked := eq_false_of_ne_true notMarked
  split at failed
  · rename_i properties properties_eq
    rcases Except.bind_eq_error.1 failed with names | ⟨required, _, behind⟩
    · exact failsWithin_of_requiredNames? typed names
    · rcases Except.bind_eq_error.1 behind with inside | ⟨types, _, result⟩
      · obtain ⟨key, node, name', member, refused⟩ := exists_property_of_decodeProperties inside
        have there := (distinct.of_get? properties_eq).get?_of_mem member
        rw [List.append_assoc] at refused
        exact .inr ⟨.property key, node, name',
          .property typed unmarked properties_eq there, refused⟩
      · cases result
  · rename_i properties_eq
    cases failed
    exact .inl ⟨.properties, .properties typed properties_eq, rfl⟩
  · rename_i noProperties
    split at failed
    · cases failed
      exact .inl ⟨.node, .node _, (List.append_nil _).symm⟩
    · rename_i items items_eq
      split at failed
      · rename_i key value key_eq value_eq
        rcases Except.bind_eq_error.1 failed with keyFailed | ⟨k, _, behind⟩
        · exact .inr ⟨.key, key, _,
            .key typed unmarked noProperties items_eq key_eq value_eq, keyFailed⟩
        · rcases Except.bind_eq_error.1 behind with valueFailed | ⟨v, _, result⟩
          · exact .inr ⟨.value, value, _,
              .value typed unmarked noProperties items_eq key_eq value_eq, valueFailed⟩
          · cases result
      · cases failed
        exact .inl ⟨.items, .items typed items_eq, rfl⟩

theorem failsWithin_of_decodePlainType {type : String} (distinct : (Json.obj fields).DistinctKeys)
    (typed : HasPlainType type fields)
    (failed : decodePlainType type name place fields = .error e) : FailsWithin fields place e := by
  rw [decodePlainType] at failed
  split at failed
  · cases failed
  split at failed
  · rename_i object
    subst object
    exact failsWithin_of_decodeObject distinct typed failed
  split at failed
  · rename_i array
    subst array
    rw [decodeArray] at failed
    split at failed
    · cases failed
    · rename_i items items_eq
      rcases Except.bind_eq_error.1 failed with inside | ⟨element, _, result⟩
      · exact .inr ⟨.items, items, _, .items typed items_eq, inside⟩
      · cases result
  split at failed
  · cases failed
  split at failed
  · cases failed
  · cases failed
    exact .inl ⟨.type, .type typed, rfl⟩

/-- An error of a node is that of a part of it, or it comes from a node that is turned to. -/
theorem failsWithin_of_decodeNode (distinct : (Json.obj fields).DistinctKeys)
    (failed : decodeNode name place (.obj fields) = .error e) : FailsWithin fields place e := by
  have itself : e.place = place → FailsWithin fields place e :=
    fun same => .inl ⟨.node, .node _, same.trans (List.append_nil _).symm⟩
  rw [decodeNode_obj] at failed
  split at failed
  · rename_i arms arms_eq
    split at failed
    · cases failed
      exact .inl ⟨.arms, .arms arms_eq, rfl⟩
    · rcases Except.bind_eq_error.1 failed with inside | ⟨types, _, result⟩
      · obtain ⟨i, arm, name', there, notNull, refused⟩ := exists_arm_of_decodeArms inside
        rw [Nat.zero_add, List.append_assoc] at refused
        exact .inr ⟨.arm i, arm, name', .arm arms_eq there notNull, refused⟩
      · cases result
  · rename_i other _ arms_eq
    cases failed
    exact .inl ⟨.arms, .arms arms_eq, rfl⟩
  rename_i noArms
  split at failed
  · cases failed
  split at failed
  · cases failed
    exact itself rfl
  · rename_i type type_eq
    split at failed
    · rename_i values values_eq
      exact failsWithin_of_decodeEnum ⟨noArms, type_eq⟩ values_eq failed
    · rename_i noValues
      exact failsWithin_of_decodePlainType distinct ⟨⟨noArms, type_eq⟩, noValues⟩ failed
  · cases failed
    exact itself rfl

end Errors

theorem Node.TurnsTo.sizeOf_lt {fields : List (String × Json)} {turn : Turn} {part : Json}
    (step : TurnsTo fields turn part) : sizeOf part < sizeOf (Json.obj fields) := by
  cases step with
  | arm arms_eq there => exact sizeOf_lt_of_arm arms_eq (List.mem_of_getElem? there)
  | items _ items_eq => exact sizeOf_lt_of_part items_eq
  | key _ _ _ items_eq key_eq =>
    exact Nat.lt_trans (Json.lt_of_get? key_eq) (sizeOf_lt_of_part items_eq)
  | value _ _ _ items_eq _ value_eq =>
    exact Nat.lt_trans (Json.lt_of_get? value_eq) (sizeOf_lt_of_part items_eq)
  | property _ _ properties_eq there =>
    exact sizeOf_lt_of_property properties_eq (Keyed.mem_of_get? there)

theorem Node.TurnsTo.distinctKeys {fields : List (String × Json)} {turn : Turn} {part : Json}
    (step : TurnsTo fields turn part) (distinct : (Json.obj fields).DistinctKeys) :
    part.DistinctKeys := by
  cases step with
  | arm arms_eq there =>
    exact Json.distinctKeys_arr_iff.1 (distinct.of_get? arms_eq) part (List.mem_of_getElem? there)
  | items _ items_eq => exact distinct.of_get? items_eq
  | key _ _ _ items_eq key_eq => exact (distinct.of_get? items_eq).of_get? key_eq
  | value _ _ _ items_eq _ value_eq => exact (distinct.of_get? items_eq).of_get? value_eq
  | property _ _ properties_eq there => exact (distinct.of_get? properties_eq).of_get? there

/-- The place of an error is that of a position, behind the place of the node. -/
theorem exists_position_of_decodeNode {node : Json} {e : DecodeError}
    (distinct : node.DistinctKeys) : ∀ {name : String} {place : Pointer},
    decodeNode name place node = .error e →
      ∃ p, HasPosition node p ∧ e.place = place ++ p.place := by
  induction size : sizeOf node using Nat.strongRecOn generalizing node with
  | _ n ih =>
    subst size
    intro name place failed
    cases node with
    | obj fields =>
      rcases failsWithin_of_decodeNode distinct failed with
        ⟨site, there, at_site⟩ | ⟨turn, part, name', step, refused⟩
      · exact ⟨⟨[], site⟩, .here there, at_site⟩
      · obtain ⟨⟨turns, site⟩, rest, at_rest⟩ :=
          ih _ step.sizeOf_lt (step.distinctKeys distinct) rfl refused
        refine ⟨⟨turn :: turns, site⟩, .inside step rest, ?_⟩
        rw [at_rest, Position.place, Position.place, List.flatMap_cons, List.append_assoc,
          List.append_assoc]
    | _ =>
      rw [decodeNode] at failed
      · cases failed
        exact ⟨⟨[], .node⟩, .here (.node _), (List.append_nil _).symm⟩
      · intro fields same
        cases same

/-- An error of a document stands at a position of the traversal. The path in its text is that of
the root, or it is a pointer that leads to a value of the document; and no two positions share a
path. Keys are distinct in all documents that are read, by `Json.distinctKeys_of_ofText`. -/
theorem decode_error_located {doc : Json} (distinct : doc.DistinctKeys) :
    (∀ name e, decode doc name = .error e →
      e.message = "malformed schema at " ++ e.place.text ++ ": " ++ e.fault.message ∧
      (∃ p, HasPosition doc p ∧ e.place = p.place) ∧
      ((e.place = [] ∧ e.place.text = "/") ∨
        ∃ v, Pointer.ofText? e.place.text = some e.place ∧ doc.at? e.place = some v)) ∧
    ∀ p q, HasPosition doc p → HasPosition doc q → p.place.text = q.place.text → p = q := by
  refine ⟨fun name e failed => ⟨rfl, ?_⟩, fun p q position position' => position.text_inj position'⟩
  rw [decode] at failed
  split at failed
  · cases failed
  obtain ⟨p, position, at_p⟩ := exists_position_of_decodeNode distinct failed
  rw [List.nil_append] at at_p
  refine ⟨⟨p, position, at_p⟩, ?_⟩
  by_cases root : e.place = []
  · exact .inl ⟨root, by rw [root]; rfl⟩
  · obtain ⟨v, there⟩ := position.exists_at?
    exact .inr ⟨v, Pointer.ofText?_text root, by rw [at_p, there]⟩

/-- A document with a listed value that is not of its type, below a name that has a slash in it. -/
def misfitNode : Json :=
  .obj [("type", .str "object"),
    ("properties", .obj [("a/b", Node.enumeration .boolean [.bool true, .str "x"])])]

/-- Where the value stands. -/
def misfitPlace : Pointer :=
  ["properties", "a/b", "enum", Decimal.natText 1]

theorem decode_misfitNode :
    decode misfitNode "m" = .error ⟨misfitPlace, .valueNotOfType (.str "x") "boolean"⟩ := by
  have value (name : String) :
      decodeNode name (["properties"] ++ ["a/b"])
        (Node.enumeration .boolean [.bool true, .str "x"]) =
          .error ⟨misfitPlace, .valueNotOfType (.str "x") "boolean"⟩ := by
    rw [Node.enumeration, decodeNode_obj]
    rfl
  rw [decode, if_neg (by decide), misfitNode, decodeNode_obj]
  refine Except.bind_eq_error.2 (.inr ⟨none, rfl, Except.bind_eq_error.2 (.inl ?_)⟩)
  rw [decodeProperties]
  exact Except.bind_eq_error.2 (.inl (value _))

/-- The path escapes the slash, and leads to the value. -/
theorem decode_error_located_misfit :
    misfitNode.DistinctKeys ∧
      decode misfitNode "m" = .error ⟨misfitPlace, .valueNotOfType (.str "x") "boolean"⟩ ∧
      misfitPlace.text = "/properties/a~1b/enum/1" ∧
      ((misfitPlace = [] ∧ misfitPlace.text = "/") ∨
        ∃ v, Pointer.ofText? misfitPlace.text = some misfitPlace ∧
          misfitNode.at? misfitPlace = some v) := by
  have distinct : misfitNode.DistinctKeys := by
    simp [misfitNode, Node.enumeration, Json.DistinctKeys, Json.DistinctKeysOfFields,
      Json.DistinctKeysOfItems]
  have text : misfitPlace.text = "/properties/a~1b/enum/1" := by
    rw [misfitPlace, Decimal.natText, Decimal.numeral]
    decide
  exact ⟨distinct, decode_misfitNode, text,
    ((decode_error_located distinct).1 "m" _ decode_misfitNode).2.2⟩

end CallContract
