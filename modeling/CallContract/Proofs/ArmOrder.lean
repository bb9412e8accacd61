import CallContract.Proofs.Decoding
import CallContract.Proofs.Encoding

/-!
# The order of the arms of unions

Decoding puts the null of a union behind its other arms.

* `Node.nullArmsLast`: a document in which the null arm of each union node stands behind the others,
  and everything else as it stood. Defaults and listed values are data and not looked into, whatever
  they hold: `Role` says which parts of a node are nodes.
* `Node.HasArms`: the arms of the union nodes that stand in a document, at any depth.
* `nullArmsLast_eq_self`: a document in which no null arm stands before another arm stays as it is.
-/

namespace CallContract.Node

/-! ## Nodes inside nodes -/

/-- What a part of a document is. -/
inductive Role where
  /-- A node. -/
  | node
  /-- An object of nodes. -/
  | nodes
  /-- The arms of a union. -/
  | arms
  /-- Anything else. -/
  | data
  deriving DecidableEq

/-- What stands under a key of a node. The items of an array node are one node, those of an object
node two. -/
def roleOf (ofArray : Bool) (key : String) : Role :=
  if key = "anyOf" then .arms
  else if key = "properties" then .nodes
  else if key = "items" then if ofArray then .node else .nodes
  else .data

/-- Arms with null behind the others. -/
def nullLast (arms : List Json) : List Json :=
  otherArms arms ++ arms.filter isNull

mutual
/-- A part of a document with the null arms of its unions behind the others. -/
def rearranged : Role → Json → Json
  | .node, .obj fields => .obj (rearrangedParts (typeIs "array" fields) fields)
  | .nodes, .obj fields => .obj (rearrangedNodes fields)
  | .arms, .arr arms => .arr (nullLast (rearrangedArms arms))
  | _, v => v

/-- The same of what stands under the keys of a node. -/
def rearrangedParts (ofArray : Bool) : List (String × Json) → List (String × Json)
  | [] => []
  | (key, part) :: rest =>
    (key, rearranged (roleOf ofArray key) part) :: rearrangedParts ofArray rest

/-- The same of nodes under names. -/
def rearrangedNodes : List (String × Json) → List (String × Json)
  | [] => []
  | (name, node) :: rest => (name, rearranged .node node) :: rearrangedNodes rest

/-- The same of the arms of a union. -/
def rearrangedArms : List Json → List Json
  | [] => []
  | arm :: rest => rearranged .node arm :: rearrangedArms rest
end

/-- A node with the null arms of its unions behind the others. -/
def nullArmsLast (node : Json) : Json :=
  rearranged .node node

/-- The arms of the unions in a part of a document. -/
inductive HasArms : Role → Json → List Json → Prop where
  | here (arms : List Json) : HasArms .arms (.arr arms) arms
  | arm {arms inner : List Json} {node : Json} (member : node ∈ arms)
      (inside : HasArms .node node inner) : HasArms .arms (.arr arms) inner
  | part {fields : List (String × Json)} {key : String} {value : Json} {inner : List Json}
      (member : (key, value) ∈ fields)
      (inside : HasArms (roleOf (typeIs "array" fields) key) value inner) :
      HasArms .node (.obj fields) inner
  | named {fields : List (String × Json)} {name : String} {node : Json} {inner : List Json}
      (member : (name, node) ∈ fields) (inside : HasArms .node node inner) :
      HasArms .nodes (.obj fields) inner

/-! ## Lists of parts -/

theorem rearrangedNodes_eq_map (fields : List (String × Json)) :
    rearrangedNodes fields = fields.map fun p => (p.1, nullArmsLast p.2) := by
  induction fields with
  | nil => rfl
  | cons p rest ih => rw [rearrangedNodes, List.map_cons, ih, nullArmsLast]

theorem rearrangedArms_eq_map (arms : List Json) : rearrangedArms arms = arms.map nullArmsLast := by
  induction arms with
  | nil => rfl
  | cons arm rest ih => rw [rearrangedArms, List.map_cons, ih, nullArmsLast]

theorem get?_rearrangedParts (ofArray : Bool) (key : String) (fields : List (String × Json)) :
    Keyed.get? key (rearrangedParts ofArray fields) =
      (Keyed.get? key fields).map (rearranged (roleOf ofArray key)) := by
  induction fields with
  | nil => rfl
  | cons p rest ih =>
    obtain ⟨k, v⟩ := p
    rw [rearrangedParts, Keyed.get?_cons, Keyed.get?_cons, ih]
    split
    · rename_i same
      rw [same]
      rfl
    · rfl

theorem rearranged_data (v : Json) : rearranged .data v = v := by
  cases v <;> rfl

theorem isNull_nullArmsLast (node : Json) : isNull (nullArmsLast node) = isNull node := by
  cases node with
  | obj fields =>
    rw [nullArmsLast, rearranged, isNull, isNull]
    dsimp only [Json.get?]
    have type : roleOf (typeIs "array" fields) "type" = .data := rfl
    rw [get?_rearrangedParts, get?_rearrangedParts, type]
    cases Keyed.get? "type" fields with
    | none => rfl
    | some v =>
      rw [Option.map_some, rearranged_data]
      cases Keyed.get? "anyOf" fields with
      | none => rfl
      | some arms => cases v <;> rfl
  | _ => rfl

/-! ## The forms -/

theorem nullArmsLast_array (items : Json) :
    nullArmsLast (array items) = array (nullArmsLast items) := rfl

theorem nullArmsLast_mapping (key value : Json) :
    nullArmsLast (mapping key value) = mapping (nullArmsLast key) (nullArmsLast value) := rfl

theorem nullArmsLast_record (properties : List (String × Json)) (required : List String) :
    nullArmsLast (record properties required) =
      record (properties.map fun p => (p.1, nullArmsLast p.2)) required := by
  rw [← rearrangedNodes_eq_map]
  rfl

theorem nullArmsLast_anyOf (arms : List Json) :
    nullArmsLast (anyOf arms) = anyOf (nullLast (arms.map nullArmsLast)) := by
  rw [← rearrangedArms_eq_map]
  rfl

/-- A default is not looked into, even if it looks like a union. -/
example : nullArmsLast (withDefault (anyOf [null, primitive .string]) (some (anyOf [null, path]))) =
    withDefault (anyOf [primitive .string, null]) (some (anyOf [null, path])) := rfl

theorem nullArmsLast_enumeration (kind : Primitive) (values : List Json) :
    nullArmsLast (enumeration kind values) = enumeration kind values := rfl

theorem nullArmsLast_fileData : nullArmsLast fileData = fileData := rfl

theorem rearrangedParts_put_default (ofArray : Bool) (value : Json)
    (fields : List (String × Json)) :
    rearrangedParts ofArray (Keyed.put "default" value fields) =
      Keyed.put "default" value (rearrangedParts ofArray fields) := by
  have data : rearranged (roleOf ofArray "default") value = value := rearranged_data value
  induction fields with
  | nil =>
    rw [Keyed.put, rearrangedParts, rearrangedParts, data]
    rfl
  | cons p rest ih =>
    obtain ⟨k, v⟩ := p
    rw [Keyed.put, rearrangedParts, Keyed.put]
    split
    · rename_i same
      rw [rearrangedParts, same, data]
    · rw [rearrangedParts, ih]

theorem nullArmsLast_withDefault (node : Json) (default : Option Json) :
    nullArmsLast (withDefault node default) = withDefault (nullArmsLast node) default := by
  cases default with
  | none => rfl
  | some value =>
    cases node with
    | obj fields =>
      have array : typeIs "array" (Keyed.put "default" value fields) = typeIs "array" fields := by
        rw [typeIs, typeIs, Keyed.get?_put_of_ne (by decide)]
      rw [withDefault, nullArmsLast, rearranged, array, rearrangedParts_put_default]
      rfl
    | _ => rfl

/-! ## Arms that are in order -/

theorem nullLast_cons {arm : Json} (notNull : isNull arm = false) (rest : List Json) :
    nullLast (arm :: rest) = arm :: nullLast rest := by
  simp [nullLast, otherArms, notNull]

theorem nullLast_of_pairwise {arms : List Json}
    (ordered : arms.Pairwise fun arm _ => isNull arm = false) : nullLast arms = arms := by
  induction arms with
  | nil => rfl
  | cons arm rest ih =>
    obtain ⟨before, others⟩ := List.pairwise_cons.1 ordered
    cases rest with
    | nil => cases null : isNull arm <;> simp [nullLast, otherArms, null]
    | cons next more =>
      have notNull := before next List.mem_cons_self
      rw [nullLast_cons notNull, ih others]

mutual
theorem rearranged_eq_self : (role : Role) → (v : Json) →
    (∀ arms, HasArms role v arms → arms.Pairwise fun arm _ => isNull arm = false) →
    rearranged role v = v
  | .node, .obj fields, ordered => by
    rw [rearranged]
    refine congrArg Json.obj (rearrangedParts_eq_self _ fields ?_)
    exact fun p member arms inside => ordered arms (.part member inside)
  | .nodes, .obj fields, ordered => by
    rw [rearranged]
    refine congrArg Json.obj (rearrangedNodes_eq_self fields ?_)
    exact fun p member arms inside => ordered arms (.named member inside)
  | .arms, .arr arms, ordered => by
    have same := rearrangedArms_eq_self arms fun arm member inner inside =>
      ordered inner (.arm member inside)
    rw [rearranged, same, nullLast_of_pairwise (ordered arms (.here arms))]
  | .data, v, _ => rearranged_data v
  | .node, .null, _ | .node, .bool _, _ | .node, .num _, _ | .node, .str _, _ | .node, .arr _, _
  | .nodes, .null, _ | .nodes, .bool _, _ | .nodes, .num _, _ | .nodes, .str _, _
  | .nodes, .arr _, _ | .arms, .null, _ | .arms, .bool _, _ | .arms, .num _, _ | .arms, .str _, _
  | .arms, .obj _, _ => rfl

theorem rearrangedParts_eq_self (ofArray : Bool) : (fields : List (String × Json)) →
    (∀ p ∈ fields, ∀ arms, HasArms (roleOf ofArray p.1) p.2 arms →
      arms.Pairwise fun arm _ => isNull arm = false) →
    rearrangedParts ofArray fields = fields
  | [], _ => rfl
  | (key, part) :: rest, ordered => by
    rw [rearrangedParts, rearranged_eq_self _ part (ordered _ List.mem_cons_self),
      rearrangedParts_eq_self ofArray rest fun p member =>
        ordered p (List.mem_cons_of_mem _ member)]

theorem rearrangedNodes_eq_self : (fields : List (String × Json)) →
    (∀ p ∈ fields, ∀ arms, HasArms .node p.2 arms →
      arms.Pairwise fun arm _ => isNull arm = false) →
    rearrangedNodes fields = fields
  | [], _ => rfl
  | (name, node) :: rest, ordered => by
    rw [rearrangedNodes, rearranged_eq_self .node node (ordered _ List.mem_cons_self),
      rearrangedNodes_eq_self rest fun p member => ordered p (List.mem_cons_of_mem _ member)]

theorem rearrangedArms_eq_self : (arms : List Json) →
    (∀ node ∈ arms, ∀ inner, HasArms .node node inner →
      inner.Pairwise fun arm _ => isNull arm = false) →
    rearrangedArms arms = arms
  | [], _ => rfl
  | node :: rest, ordered => by
    rw [rearrangedArms, rearranged_eq_self .node node (ordered _ List.mem_cons_self),
      rearrangedArms_eq_self rest fun arm member => ordered arm (List.mem_cons_of_mem _ member)]
end

/-- A document in which no null arm stands before another arm stays as it is. -/
theorem nullArmsLast_eq_self {node : Json}
    (ordered : ∀ arms, HasArms .node node arms → arms.Pairwise fun arm _ => isNull arm = false) :
    nullArmsLast node = node :=
  rearranged_eq_self .node node ordered

end CallContract.Node
