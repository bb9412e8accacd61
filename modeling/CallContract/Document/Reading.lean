import CallContract.Json.Outline
import CallContract.Json.Printer
import CallContract.Text.Quoted

/-!
# Reading documents of a given shape

A document is read from a JSON value or straight from a text; `Source` is what the two have in
common. Reading goes through a document in the order in which it is written and stops at the first
thing that does not fit.

* A `ReadError` is a place, as a path from the root, and a `Fault`.
* A `Shape` lists the members of a structure. A structure is read from an object by name, unknown
  names passed over, or from an array by position.
* A `Choice` is read from an object of one field or from a bare name.
-/

namespace CallContract.Document

open Json (SyntaxError Outline)

/-! ## Faults -/

/-- A step from a value to one of its parts. -/
inductive Step where
  | key (name : String)
  | index (position : Nat)
  deriving DecidableEq

/-- The place of a value in a document. -/
abbrev Path : Type := List Step

/-- The text of a place: names with points between them, positions in brackets, a point for the
whole document. -/
def Path.text (path : Path) : String :=
  let step (first : Bool) : Step → String
    | .key name => if first then name else "." ++ name
    | .index i => "[" ++ Decimal.natText i ++ "]"
  match path with
  | [] => "."
  | s :: rest => String.join (step true s :: rest.map (step false))

/-- What was found in a place. -/
inductive Found where
  | null
  | boolean (value : Bool)
  | number (value : Json.Number)
  | string (value : String)
  | sequence
  | map
  | bareChoice
  deriving DecidableEq

/-- The words for what was found. -/
def Found.phrase : Found → String
  | .null => "null"
  | .boolean b => "boolean `" ++ (if b then "true" else "false") ++ "`"
  | .number (.int i h) => "integer `" ++ String.ofList (Json.Number.int i h).write ++ "`"
  | .number (.float x) => "floating point `" ++ String.ofList (Json.Number.float x).write ++ "`"
  | .string s => "string " ++ Text.quoted s
  | .sequence => "sequence"
  | .map => "map"
  | .bareChoice => "unit variant"

/-- What is wanted in a place. -/
inductive Wanted where
  | string
  | boolean
  | integer
  | map
  | sequence
  | structure (name : String)
  | nothing
  | choiceValue
  deriving DecidableEq

/-- The words for what is wanted. -/
def Wanted.phrase : Wanted → String
  | .string => "a string"
  | .boolean => "a boolean"
  | .integer => "i64"
  | .map => "a map"
  | .sequence => "a sequence"
  | .structure name => "struct " ++ name
  | .nothing => "unit"
  | .choiceValue => "newtype variant"

/-- What can be wrong in a place of a document. -/
inductive Fault where
  | malformed
  | missing (name : String)
  | duplicate (name : String)
  | wrongType (found : Found) (wanted : Wanted)
  | outOfRange (value : Json.Number)
  | tooFew (present : Nat) (name : String) (size : Nat)
  | tooMany (present : Nat)
  | trailing
  | unknownChoice (name : String) (known : List String)
  deriving DecidableEq

/-- The words for the names that a choice knows. -/
def knownPhrase (known : List String) : String :=
  let ticked := known.map fun name => "`" ++ name ++ "`"
  match ticked with
  | [a] => a
  | [a, b] => a ++ " or " ++ b
  | _ => "one of " ++ ", ".intercalate ticked

/-- The text of a fault. -/
def Fault.message : Fault → String
  | .malformed => "malformed JSON"
  | .missing name => "missing field `" ++ name ++ "`"
  | .duplicate name => "duplicate field `" ++ name ++ "`"
  | .wrongType found wanted =>
    "invalid type: " ++ found.phrase ++ ", expected " ++ wanted.phrase
  | .outOfRange value =>
    "invalid value: integer `" ++ String.ofList value.write ++ "`, expected i64"
  | .tooFew present name size =>
    "invalid length " ++ Decimal.natText present ++ ", expected struct " ++ name ++ " with " ++
      Decimal.natText size ++ " elements"
  | .tooMany present =>
    "invalid length " ++ Decimal.natText present ++ ", expected fewer elements in array"
  | .trailing => "trailing characters"
  | .unknownChoice name known =>
    "unknown variant `" ++ name ++ "`, expected " ++ knownPhrase known

/-- A fault and its place. -/
structure ReadError where
  path : Path
  fault : Fault
  deriving DecidableEq

/-- The text of an error with its place. -/
def ReadError.message (e : ReadError) : String :=
  "at JSON path " ++ e.path.text ++ " → " ++ e.fault.message

/-! ## Sources -/

/-- What stands in a place, its parts not yet looked at. -/
inductive View (σ : Type) where
  | null
  | bool (value : Bool)
  | num (value : Json.Number)
  | str (value : String)
  | arr (items : List σ) (stop : Option SyntaxError)
  | obj (fields : List (Except SyntaxError String × σ)) (stop : Option SyntaxError)
  | broken

/-- The parts of a document that have not been read yet. -/
class Source (σ : Type) where
  /-- What stands here. -/
  view : σ → View σ
  /-- The whole value that stands here. -/
  value : σ → Except SyntaxError Json
  /-- Whether what stands here may be passed over. -/
  skippable : σ → Bool
  /-- The fault of an array with more items than its structure has members, given their number. -/
  surplus : Nat → Fault

instance : Source Json where
  view
    | .null => .null
    | .bool b => .bool b
    | .num n => .num n
    | .str s => .str s
    | .arr items => .arr items none
    | .obj fields => .obj (fields.map fun (key, value) => (.ok key, value)) none
  value j := .ok j
  skippable _ := true
  surplus n := .tooMany n

/-- A place in a text that is being read, and how many containers may still be opened, plus one. -/
structure Place where
  outline : Outline
  depth : Nat

instance : Source Place where
  view place :=
    match place.outline with
    | .null => .null
    | .bool b => .bool b
    | .num (.ok n) => .num n
    | .num (.error _) => .broken
    | .str (.ok s) => .str s
    | .str (.error _) => .broken
    | .arr items stop =>
      if place.depth ≤ 1 then .broken
      else .arr (items.map fun item => ⟨item, place.depth - 1⟩) stop
    | .obj fields stop =>
      if place.depth ≤ 1 then .broken
      else .obj (fields.map fun (key, item) => (key, ⟨item, place.depth - 1⟩)) stop
    | .broken _ => .broken
  value place := place.outline.valueWithin place.depth
  skippable place := place.outline.wellFormed
  surplus _ := .trailing

/-! ## Readers -/

/-- Reads a value of some type in some place. -/
abbrev Reader (σ α : Type) : Type :=
  Path → σ → Except ReadError α

variable {σ α : Type} [Source σ]

/-- The failure of a place that holds something else than is wanted. -/
def mismatch (path : Path) (s : σ) (wanted : Wanted) : ReadError :=
  ⟨path, match Source.view s with
    | .null => .wrongType .null wanted
    | .bool b => .wrongType (.boolean b) wanted
    | .num n => .wrongType (.number n) wanted
    | .str text => .wrongType (.string text) wanted
    | .arr .. => .wrongType .sequence wanted
    | .obj .. => .wrongType .map wanted
    | .broken => .malformed⟩

/-- Reads a string. -/
def string : Reader σ String := fun path s =>
  match Source.view s with
  | .str text => .ok text
  | _ => .error (mismatch path s .string)

/-- Reads a boolean. -/
def boolean : Reader σ Bool := fun path s =>
  match Source.view s with
  | .bool b => .ok b
  | _ => .error (mismatch path s .boolean)

/-- Reads an integer of a signed 64-bit word. -/
def integer : Reader σ Json.SignedWord := fun path s =>
  match Source.view s with
  | .num (.int i h) =>
    if hi : Json.IsSignedWord i then .ok ⟨i, hi⟩ else .error ⟨path, .outOfRange (.int i h)⟩
  | _ => .error (mismatch path s .integer)

/-- Reads any value. -/
def value : Reader σ Json := fun path s =>
  match Source.value s with
  | .ok j => .ok j
  | .error _ => .error ⟨path, .malformed⟩

/-- Reads the fields of an object of any values. -/
def fields : Reader Json (List (String × Json)) := fun path j =>
  match j with
  | .obj fields => .ok fields
  | _ => .error (mismatch path j .map)

/-- Reads null, or what another reader reads. -/
def orNull (read : Reader σ α) : Reader σ (Option α) := fun path s =>
  match Source.view s with
  | .null => .ok none
  | _ => some <$> read path s

/-- Fails if reading stopped here. -/
def checkStop (path : Path) : Option SyntaxError → Except ReadError Unit
  | none => .ok ()
  | some _ => .error ⟨path, .malformed⟩

/-- Reads the items of an array. -/
def list (read : Reader σ α) : Reader σ (List α) := fun path s =>
  match Source.view s with
  | .arr items stop => do
    let values ← items.zipIdx.mapM fun (item, i) => read (path ++ [.index i]) item
    checkStop path stop
    return values
  | _ => .error (mismatch path s .sequence)

/-! ## Structures -/

/-- A member of a structure, and how it is read into the structure. -/
structure Member (σ S : Type) where
  name : String
  isOptional : Bool
  read : S → Reader σ S

/-- A structure: what it is called, what it is before its members are read, and its members. -/
structure Shape (σ S : Type) where
  name : String
  blank : S
  members : List (Member σ S)

variable {S : Type}

/-- A member that has to be there. -/
def required (name : String) (read : Reader σ α) (set : S → α → S) : Member σ S :=
  ⟨name, false, fun state path s => set state <$> read path s⟩

/-- A member that may be left out. -/
def optional (name : String) (read : Reader σ α) (set : S → α → S) : Member σ S :=
  ⟨name, true, fun state path s => set state <$> read path s⟩

/-- Reads fields one after the other; `seen` are the names of the members read so far. -/
def readFields (members : List (Member σ S)) (path : Path) :
    S → List String → List (Except SyntaxError String × σ) → Except ReadError (S × List String)
  | state, seen, [] => .ok (state, seen)
  | state, seen, (key, s) :: rest =>
    match key with
    | .error _ => .error ⟨path, .malformed⟩
    | .ok name =>
      match members.find? fun member => member.name = name with
      | none =>
        if Source.skippable s then readFields members path state seen rest
        else .error ⟨path, .malformed⟩
      | some member =>
        if seen.contains name then .error ⟨path, .duplicate name⟩
        else
          match member.read state (path ++ [.key name]) s with
          | .error e => .error e
          | .ok state => readFields members path state (name :: seen) rest

/-- The syntax errors that a reader which expects the end of an array reports as trailing. -/
def isTrailing : SyntaxError → Bool
  | .expectedArrayEnd | .endOfValue => true
  | _ => false

/-- Reads items as the members of a structure, in their order; `position` counts them. -/
def readItems (shape : Shape σ S) (total : Nat) (path : Path) (stop : Option SyntaxError) :
    S → Nat → List (Member σ S) → List σ → Except ReadError S
  | state, _, [], [] =>
    match stop with
    | none => .ok state
    | some e => .error ⟨path, if isTrailing e then .trailing else .malformed⟩
  | _, _, [], _ :: _ => .error ⟨path, Source.surplus (σ := σ) total⟩
  | state, position, member :: members, [] =>
    match stop with
    | some _ => .error ⟨path, .malformed⟩
    | none =>
      if member.isOptional then readItems shape total path stop state (position + 1) members []
      else .error ⟨path, .tooFew position shape.name shape.members.length⟩
  | state, position, member :: members, s :: rest =>
    match member.read state (path ++ [.index position]) s with
    | .error e => .error e
    | .ok state => readItems shape total path stop state (position + 1) members rest

/-- Reads a structure from an object or an array. -/
def Shape.read (shape : Shape σ S) : Reader σ S := fun path s =>
  match Source.view s with
  | .obj fields stop => do
    let (state, seen) ← readFields shape.members path shape.blank [] fields
    checkStop path stop
    match shape.members.find? fun member => !member.isOptional && !seen.contains member.name with
    | some member => throw ⟨path, .missing member.name⟩
    | none => return state
  | .arr items stop => readItems shape items.length path stop shape.blank 0 shape.members items
  | _ => .error (mismatch path s (.structure shape.name))

/-! ## Choices -/

/-- Reads the name of a choice: which of the known names it is. -/
def choiceName (known : List (String × α)) (path : Path) (name : String) : Except ReadError α :=
  match Keyed.get? name known with
  | some a => .ok a
  | none => .error ⟨path, .unknownChoice name (known.map Prod.fst)⟩

/-- Reads null and nothing else. -/
def nothing : Reader σ Unit := fun path s =>
  match Source.view s with
  | .null => .ok ()
  | _ => .error (mismatch path s .nothing)

/-- Reads a choice among alternatives, each with its own reader of what belongs to it: an object of
one field named for the choice. A bare name stands for a choice with nothing to it, which is what
`bare` reads. -/
def choice (known : List (String × Reader σ α)) (bare : String → Path → Except ReadError α) :
    Reader σ α := fun path s =>
  match Source.view s with
  | .str name => do
    discard <| choiceName known path name
    bare name (path ++ [.key name])
  | .obj ((key, item) :: rest) stop =>
    match key with
    | .error _ => .error ⟨path, .malformed⟩
    | .ok name => do
      let read ← choiceName known path name
      let result ← read (path ++ [.key name]) item
      if rest.isEmpty && stop.isNone then return result
      else throw ⟨path, .malformed⟩
  | _ => .error ⟨path, .malformed⟩

end CallContract.Document
