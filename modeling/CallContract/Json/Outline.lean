import CallContract.Json.Literal

/-!
# Outlines of JSON texts

An outline is the tree of a JSON text as far as the text goes: where its form breaks, the tree ends,
and what stands before keeps its place. So a reader that expects a certain shape can report what it
meets first, a wrong shape or a broken form, and can pass over what it does not need.

* `Outline.read` makes the outline of the value at the front of a text; it is total.
* `Outline.value` is the whole value, or the first error of the text.
* `Outline.wellFormed` says whether the form holds up to the end of a value: literals that denote
  nothing and deep nesting do not count.
-/

namespace CallContract.Json

/-- The tree of a text up to the first error of its form. Items and fields that follow an error are
not there; an error between items or fields, or in the form of a key, is the `stop` of their container. A
key that is well formed but denotes no text keeps its place with its error. -/
inductive Outline where
  | null
  | bool (value : Bool)
  | num (value : Except SyntaxError Number)
  | str (value : Except SyntaxError String)
  | arr (items : List Outline) (stop : Option SyntaxError)
  | obj (fields : List (Except SyntaxError String × Outline)) (stop : Option SyntaxError)
  | broken (error : SyntaxError)

namespace Outline

instance : Inhabited Outline := ⟨.null⟩

/-- The blanks of JSON. -/
def isSpace (c : Char) : Bool :=
  c == ' ' || c == '\n' || c == '\t' || c == '\r'

/-- A text behind its leading blanks. -/
def skipSpace : List Char → List Char
  | [] => []
  | c :: rest => if isSpace c then skipSpace rest else c :: rest

theorem length_skipSpace_le (cs : List Char) : (skipSpace cs).length ≤ cs.length := by
  induction cs with
  | nil => simp [skipSpace]
  | cons c rest ih =>
    simp only [skipSpace]
    split
    · simp
      omega
    · simp

theorem length_lt_of_skipSpace_eq {cs rest : List Char} {c : Char}
    (h : skipSpace cs = c :: rest) : rest.length < cs.length := by
  have hskip := length_skipSpace_le cs
  rw [h, List.length_cons] at hskip
  exact hskip

/-- Something read from a text, and the rest, unless reading stopped. -/
structure Step (α : Type) (cs : List Char) where
  found : α
  rest : Option (Shorter cs)

/-- Reading that stopped. -/
def Step.stopped {α : Type} {cs : List Char} (found : α) : Step α cs :=
  ⟨found, none⟩

/-- The same step from a text that is longer at its front. -/
def Step.widen {α : Type} {cs ds : List Char} (h : ds.length ≤ cs.length) (step : Step α ds) :
    Step α cs :=
  ⟨step.found, step.rest.map (Shorter.widen h)⟩

/-- Reads the rest of a word whose first letter has been met. -/
def readWord (value : Outline) : (word cs : List Char) → cs ≠ [] → Step Outline cs
  | [], _ :: rest, _ => ⟨value, some ⟨rest, by simp⟩⟩
  | w :: word, _ :: rest, _ =>
    match hr : rest with
    | [] => .stopped (.broken .endOfValue)
    | d :: rest' =>
      if d = w then (readWord value word (d :: rest') (by simp)).widen (by simp)
      else .stopped (.broken .expectedWord)

/-- The outline of a literal that has been read. -/
def ofLiteral {α : Type} {cs : List Char} (make : Except SyntaxError α → Outline) :
    LiteralRead α cs → Step Outline cs
  | .error e => .stopped (.broken e)
  | .ok (value, rest) => ⟨make value, some rest⟩

/-- The items of an array or the fields of an object, and the error that ends them. -/
structure Run (α : Type) where
  items : List α
  stop : Option SyntaxError

mutual
/-- The outline of the value at the front of a text, blanks before it skipped. -/
def readValue (cs : List Char) : Step Outline cs :=
  match hs : skipSpace cs with
  | [] => .stopped (.broken .endOfValue)
  | c :: rest =>
    have hlen : rest.length < cs.length := length_lt_of_skipSpace_eq hs
    have hlen' : (c :: rest).length ≤ cs.length := hlen
    if c = 'n' then (readWord .null ['u', 'l', 'l'] (c :: rest) (by simp)).widen hlen'
    else if c = 't' then
      (readWord (.bool true) ['r', 'u', 'e'] (c :: rest) (by simp)).widen hlen'
    else if c = 'f' then
      (readWord (.bool false) ['a', 'l', 's', 'e'] (c :: rest) (by simp)).widen hlen'
    else if c = '-' ∨ c.isDigit then (ofLiteral .num (readNumber (c :: rest))).widen hlen'
    else if c = '"' then
      (ofLiteral (fun r => .str (r.map String.ofList)) (readString rest)).widen (Nat.le_of_lt hlen)
    else if c = '[' then
      let step := readItems rest true
      ⟨.arr step.found.items step.found.stop, step.rest.map (Shorter.widen (Nat.le_of_lt hlen))⟩
    else if c = '{' then
      let step := readFields rest true
      ⟨.obj step.found.items step.found.stop, step.rest.map (Shorter.widen (Nat.le_of_lt hlen))⟩
    else .stopped (.broken .expectedValue)
termination_by (cs.length, 0)

/-- The items of an array up to its bracket; `first` when none has been read yet. -/
def readItems (cs : List Char) (first : Bool) : Step (Run Outline) cs :=
  match hs : skipSpace cs with
  | [] => .stopped ⟨[], some .endOfArray⟩
  | c :: rest =>
    have hlen : rest.length < cs.length := length_lt_of_skipSpace_eq hs
    if c = ']' then ⟨⟨[], none⟩, some ⟨rest, hlen⟩⟩
    else if first then
      readItem (c :: rest) |>.widen (by exact hlen)
    else if c = ',' then
      have hskip' := length_skipSpace_le rest
      match hr : skipSpace rest with
      | [] => .stopped ⟨[], some .endOfValue⟩
      | d :: rest' =>
        have hlen' : (d :: rest').length ≤ rest.length := by rw [← hr]; exact hskip'
        if d = ']' then .stopped ⟨[], some .trailingComma⟩
        else readItem (d :: rest') |>.widen (by omega)
    else .stopped ⟨[], some .expectedArrayEnd⟩
termination_by (cs.length, 2)
decreasing_by
  · simp_wf
    simp [Prod.lex_def]
    omega
  · simp_wf
    simp [Prod.lex_def]
    simp at hlen'
    omega

/-- An item that has to stand at the front of a text, and the items behind it. -/
def readItem (cs : List Char) : Step (Run Outline) cs :=
  let item := readValue cs
  match item.rest with
  | none => .stopped ⟨[item.found], none⟩
  | some ⟨rest, h⟩ =>
    let more := readItems rest false
    ⟨⟨item.found :: more.found.items, more.found.stop⟩,
      more.rest.map (Shorter.widen (Nat.le_of_lt h))⟩
termination_by (cs.length, 1)

/-- The fields of an object up to its brace; `first` when none has been read yet. -/
def readFields (cs : List Char) (first : Bool) :
    Step (Run (Except SyntaxError String × Outline)) cs :=
  match hs : skipSpace cs with
  | [] => .stopped ⟨[], some .endOfObject⟩
  | c :: rest =>
    have hlen : rest.length < cs.length := length_lt_of_skipSpace_eq hs
    if c = '}' then ⟨⟨[], none⟩, some ⟨rest, hlen⟩⟩
    else if first then
      readField (c :: rest) |>.widen (by exact hlen)
    else if c = ',' then
      have hskip' := length_skipSpace_le rest
      match hr : skipSpace rest with
      | [] => .stopped ⟨[], some .endOfValue⟩
      | d :: rest' =>
        have hlen' : (d :: rest').length ≤ rest.length := by rw [← hr]; exact hskip'
        if d = '}' then .stopped ⟨[], some .trailingComma⟩
        else readField (d :: rest') |>.widen (by omega)
    else .stopped ⟨[], some .expectedObjectEnd⟩
termination_by (cs.length, 2)
decreasing_by
  · simp_wf
    simp [Prod.lex_def]
    omega
  · simp_wf
    simp [Prod.lex_def]
    simp at hlen'
    omega

/-- A field that has to stand at the front of a text, and the fields behind it. -/
def readField (cs : List Char) : Step (Run (Except SyntaxError String × Outline)) cs :=
  match cs with
  | [] => .stopped ⟨[], some .endOfObject⟩
  | c :: rest =>
    if c = '"' then
      match readString rest with
      | .error e => .stopped ⟨[], some e⟩
      | .ok (key, ⟨afterKey, hkey⟩) =>
        let key := key.map String.ofList
        match hs : skipSpace afterKey with
        | [] => .stopped ⟨[(key, .broken .endOfObject)], none⟩
        | d :: rest' =>
          have hlen : rest'.length < afterKey.length := length_lt_of_skipSpace_eq hs
          if d = ':' then
            let value := readValue rest'
            match value.rest with
            | none => .stopped ⟨[(key, value.found)], none⟩
            | some ⟨after, h⟩ =>
              let more := readFields after false
              ⟨⟨(key, value.found) :: more.found.items, more.found.stop⟩,
                more.rest.map (Shorter.widen (by simp; omega))⟩
          else .stopped ⟨[(key, .broken .expectedColon)], none⟩
    else .stopped ⟨[], some .keyNotString⟩
termination_by (cs.length, 1)
decreasing_by
  · simp_wf
    simp [Prod.lex_def]
    omega
  · simp_wf
    simp [Prod.lex_def]
    omega
end

/-- The outline of the value at the front of a text, and the text behind it. -/
def read (cs : List Char) : Outline × List Char :=
  let step := readValue cs
  (step.found, match step.rest with | some rest => rest.val | none => [])

/-! ## Whole values -/

/-- The number of containers that may be open in each other, plus one. -/
def depthLimit : Nat := 128

/-- Puts an error that ends a container behind what the container holds. -/
def close {α : Type} (found : α) : Option SyntaxError → Except SyntaxError α
  | none => .ok found
  | some e => .error e

mutual
/-- The value of an outline, or the first error of the text. Fewer than `depth` containers may be
open in each other. -/
def valueWithin (depth : Nat) : Outline → Except SyntaxError Json
  | .null => .ok .null
  | .bool b => .ok (.bool b)
  | .num n => n.map .num
  | .str s => s.map .str
  | .broken e => .error e
  | .arr items stop =>
    if depth ≤ 1 then .error .tooDeep
    else do
      let items ← valuesWithin (depth - 1) items
      close (.arr items) stop
  | .obj fields stop =>
    if depth ≤ 1 then .error .tooDeep
    else do
      let fields ← fieldsWithin (depth - 1) fields
      close (.obj (Keyed.ofPairs fields)) stop

/-- The values of items. -/
def valuesWithin (depth : Nat) : List Outline → Except SyntaxError (List Json)
  | [] => .ok []
  | item :: rest => do
    let value ← valueWithin depth item
    let values ← valuesWithin depth rest
    return value :: values

/-- The keys and values of fields. -/
def fieldsWithin (depth : Nat) :
    List (Except SyntaxError String × Outline) → Except SyntaxError (List (String × Json))
  | [] => .ok []
  | (key, item) :: rest => do
    let key ← key
    let value ← valueWithin depth item
    let fields ← fieldsWithin depth rest
    return (key, value) :: fields
end

/-! ## Passing over values -/

mutual
/-- Whether the form of a text holds up to the end of a value. -/
def wellFormed : Outline → Bool
  | .null | .bool _ | .num _ | .str _ => true
  | .broken _ => false
  | .arr items stop => wellFormedItems items && stop.isNone
  | .obj fields stop => wellFormedFields fields && stop.isNone

/-- Whether the form holds up to the end of all items. -/
def wellFormedItems : List Outline → Bool
  | [] => true
  | item :: rest => wellFormed item && wellFormedItems rest

/-- Whether the form holds up to the end of all fields. -/
def wellFormedFields : List (Except SyntaxError String × Outline) → Bool
  | [] => true
  | (_, item) :: rest => wellFormed item && wellFormedFields rest
end

end Outline

/-- The value that a text holds, with nothing but blanks behind it. Fewer than `depth` containers
may be open in each other. -/
def readWithin (depth : Nat) (cs : List Char) : Except SyntaxError Json := do
  let (outline, rest) := Outline.read cs
  let value ← outline.valueWithin depth
  if (Outline.skipSpace rest).isEmpty then return value else throw .trailingCharacters

/-- The value that a text holds. -/
def ofText (text : String) : Except SyntaxError Json :=
  readWithin Outline.depthLimit text.toList

end CallContract.Json
