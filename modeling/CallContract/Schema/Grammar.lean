import CallContract.Schema.Decode

/-!
# The grammar of schema documents

* `isNode` accepts the nodes of the grammar, at any depth.
* `isInputSchema` accepts what can be the schema of a request, `isResponseSchema` what can be that of
  a response.
-/

namespace CallContract

/-- Whether all keys of a node are among some. -/
def onlyKeys (allowed : List String) (node : List (String × Json)) : Bool :=
  node.all fun (key, _) => allowed.contains key

/-- The name of the type of a node, if it is given as a string. -/
def typeName? (node : List (String × Json)) : Option String :=
  (Keyed.get? "type" node).bind Json.text?

/-- Whether a member of a node that may be left out passes a test. -/
def absentOr (key : String) (node : List (String × Json)) (test : Json → Bool) : Bool :=
  (Keyed.get? key node).all test

/-- Whether a node is one of null: its default can only be null. -/
def isNullForm (node : List (String × Json)) : Bool :=
  onlyKeys ["type", "default"] node && absentOr "default" node Json.isNull

/-- Whether a node is one of scalars: perhaps an enumeration of them, or paths. -/
def isPrimitiveForm (node : List (String × Json)) : Bool :=
  match (typeName? node).bind Primitive.ofName? with
  | none => false
  | some kind =>
    onlyKeys ["type", "default", "is_path", "enum"] node &&
      absentOr "is_path" node (fun flag => kind = .string && flag.equal (.bool true)) &&
      absentOr "enum" node (fun values =>
        match values with
        | .arr items => !items.isEmpty && items.all kind.admits
        | _ => false) &&
      absentOr "default" node (fun value => value.isNull || kind.admits value)

/-- Whether the names that a record node lists as required are properties of it. -/
def isRequiredList (properties : Option (List (String × Json))) (names : Json) : Bool :=
  match names, properties with
  | .arr [], _ => true
  | .arr items, some properties =>
    items.all fun item => item.text?.any fun name => Keyed.contains name properties
  | _, _ => false

mutual
/-- Whether a document is a node of the grammar. -/
def isNode (doc : Json) : Bool :=
  match doc with
  | .obj node =>
    if Node.isBare node then true
    else if Keyed.contains "anyOf" node then isUnionForm node
    else
      match typeName? node with
      | none => false
      | some type =>
        if type = "null" then isNullForm node
        else if type = "array" then isArrayForm node
        else if type = "object" then
          if Keyed.contains "items" node then isMappingForm node else isRecordForm node
        else isPrimitiveForm node
  | _ => false
termination_by sizeOf doc

/-- Whether a node is a union: at least one arm, all of them nodes. -/
def isUnionForm (node : List (String × Json)) : Bool :=
  onlyKeys ["anyOf", "default"] node &&
    match h : Keyed.get? "anyOf" node with
    | some (.arr arms) =>
      have := Json.lt_of_keyed_get?_arr h
      !arms.isEmpty && areNodes arms
    | _ => false
termination_by sizeOf node

/-- Whether a node is one of lists. -/
def isArrayForm (node : List (String × Json)) : Bool :=
  onlyKeys ["type", "items", "default"] node &&
    match h : Keyed.get? "items" node with
    | none => true
    | some items =>
      have := Json.lt_of_keyed_get? h
      isNode items
termination_by sizeOf node

/-- Whether a node is one of mappings. -/
def isMappingForm (node : List (String × Json)) : Bool :=
  onlyKeys ["type", "items", "default"] node &&
    match h : Keyed.get? "items" node with
    | some (.obj items) =>
      have := Json.lt_of_keyed_get?_obj h
      items.length = 2 &&
        (match hk : Keyed.get? "key" items with
          | some key =>
            have := Json.lt_of_keyed_get? hk
            isNode key
          | none => false) &&
        (match hv : Keyed.get? "value" items with
          | some value =>
            have := Json.lt_of_keyed_get? hv
            isNode value
          | none => false)
    | _ => false
termination_by sizeOf node

/-- Whether a node is one of records, or of file data. -/
def isRecordForm (node : List (String × Json)) : Bool :=
  onlyKeys ["type", "properties", "required", "is_file_data", "default"] node &&
    absentOr "is_file_data" node (fun flag => flag.equal (.bool true)) &&
    match h : Keyed.get? "properties" node with
    | none => absentOr "required" node (isRequiredList none)
    | some (.obj properties) =>
      have := Json.lt_of_keyed_get?_obj h
      areProperties properties && absentOr "required" node (isRequiredList (some properties))
    | some _ => false
termination_by sizeOf node

/-- Whether all of some documents are nodes. -/
def areNodes (docs : List Json) : Bool :=
  match docs with
  | [] => true
  | doc :: rest => isNode doc && areNodes rest
termination_by sizeOf docs

/-- Whether the documents under all keys are nodes. -/
def areProperties (properties : List (String × Json)) : Bool :=
  match properties with
  | [] => true
  | (_, doc) :: rest => isNode doc && areProperties rest
termination_by sizeOf properties
end

/-- Whether a node is a record rather than a mapping. -/
def isRootRecord (node : List (String × Json)) : Bool :=
  !Keyed.contains "items" node && isRecordForm node

/-- Whether a document can be the schema of a request: null or a record. -/
def isInputSchema (doc : Json) : Bool :=
  match doc with
  | .obj node =>
    match typeName? node with
    | some type =>
      if type = "null" then isNullForm node
      else if type = "object" then isRootRecord node
      else false
    | none => false
  | _ => false

/-- Whether a document can be the schema of a response: null, a record, a union, a list or an
enumeration. Scalars, mappings and the node of anything do not describe themselves. -/
def isResponseSchema (doc : Json) : Bool :=
  match doc with
  | .obj node =>
    if Keyed.contains "anyOf" node then isUnionForm node
    else
      match typeName? node with
      | some type =>
        if type = "null" then isNullForm node
        else if type = "object" then isRootRecord node
        else if type = "array" then isArrayForm node
        else Keyed.contains "enum" node && isPrimitiveForm node
      | none => false
  | _ => false

end CallContract
