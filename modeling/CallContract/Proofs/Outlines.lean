import CallContract.Json.Outline
import CallContract.Proofs.Traversal

/-!
# Outlines that have a value

A text is read as a value in three respects at once: its form, what its literals denote, and how
deep its containers are open in each other. A reader that passes over a value looks at the form
alone.

* `Outline.denotes` and `Outline.nesting` are the other two respects.
* `Outline.exists_valueWithin_iff`: an outline has a value if it is fine in all three.
* `exists_ofText_iff`: so it is with a text, which moreover must hold nothing but blanks behind the
  value.
-/

namespace CallContract.Json

namespace Outline

mutual
/-- Whether all literals of an outline denote something, keys among them. -/
def denotes : Outline → Bool
  | .null | .bool _ | .broken _ => true
  | .num n => n.isOk
  | .str s => s.isOk
  | .arr items _ => denotesItems items
  | .obj fields _ => denotesFields fields

/-- The same of items. -/
def denotesItems : List Outline → Bool
  | [] => true
  | item :: rest => denotes item && denotesItems rest

/-- The same of fields. -/
def denotesFields : List (Except SyntaxError String × Outline) → Bool
  | [] => true
  | (key, item) :: rest => key.isOk && denotes item && denotesFields rest
end

mutual
/-- How many containers of an outline are open in each other. -/
def nesting : Outline → Nat
  | .null | .bool _ | .num _ | .str _ | .broken _ => 0
  | .arr items _ => nestingOfItems items + 1
  | .obj fields _ => nestingOfFields fields + 1

/-- The same of items. -/
def nestingOfItems : List Outline → Nat
  | [] => 0
  | item :: rest => max (nesting item) (nestingOfItems rest)

/-- The same of fields. -/
def nestingOfFields : List (Except SyntaxError String × Outline) → Nat
  | [] => 0
  | (_, item) :: rest => max (nesting item) (nestingOfFields rest)
end

theorem exists_ok_iff {ε α : Type} {result : Except ε α} :
    (∃ a, result = .ok a) ↔ result.isOk = true := by
  cases result with
  | error e => exact iff_of_false nofun nofun
  | ok a => exact iff_of_true ⟨a, rfl⟩ rfl

/-- A literal has a value if it denotes something. -/
theorem exists_literal_iff {α : Type} {literal : Except SyntaxError α} {make : α → Json} :
    (∃ v, literal.map make = .ok v) ↔ literal.isOk = true :=
  Except.exists_map_eq_ok.trans exists_ok_iff

/-- A container has a value if what it holds has, and if it is closed. -/
theorem exists_close_iff {α β : Type} {parts : Except SyntaxError α} {make : α → β}
    {stop : Option SyntaxError} :
    (∃ b, (parts >>= fun a => close (make a) stop) = .ok b) ↔
      (∃ a, parts = .ok a) ∧ stop.isNone = true := by
  rw [Except.exists_bind_eq_ok]
  cases stop with
  | none => simp [close]
  | some e => simp [close]

/-- A container takes up one level, and the rest of them are for what it holds. -/
theorem exists_container_iff {α β : Type} {parts : Except SyntaxError α} {make : α → β}
    {stop : Option SyntaxError} {e : SyntaxError} {depth nesting : Nat} {formed denoted : Bool}
    (inside : (∃ a, parts = .ok a) ↔
      formed = true ∧ denoted = true ∧ nesting ≤ depth - 1 - 1) :
    (∃ b, (if depth ≤ 1 then .error e else parts >>= fun a => close (make a) stop) = .ok b) ↔
      (formed && stop.isNone) = true ∧ denoted = true ∧ nesting + 1 ≤ depth - 1 := by
  rw [Bool.and_eq_true]
  by_cases shallow : depth ≤ 1
  · rw [if_pos shallow]
    exact iff_of_false nofun fun given => by omega
  · have room : nesting ≤ depth - 1 - 1 ↔ nesting + 1 ≤ depth - 1 := by omega
    rw [if_neg shallow, exists_close_iff, inside, room]
    tauto

/-- Parts have values if the first one and the others have. -/
theorem exists_both_iff {α β γ : Type} {first : Except SyntaxError α}
    {others : Except SyntaxError β} {make : α → β → γ} :
    (∃ c, (first >>= fun a => others >>= fun b => pure (make a b)) = .ok c) ↔
      (∃ a, first = .ok a) ∧ ∃ b, others = .ok b := by
  simp only [Except.exists_bind_eq_ok]
  exact ⟨fun ⟨a, fst, b, snd, _⟩ => ⟨⟨a, fst⟩, b, snd⟩,
    fun ⟨⟨a, fst⟩, b, snd⟩ => ⟨a, fst, b, snd, _, rfl⟩⟩

mutual
/-- An outline has a value if its form holds up, its literals denote something, and it is not nested
too deep. -/
theorem exists_valueWithin_iff : (outline : Outline) → (depth : Nat) →
    ((∃ v, outline.valueWithin depth = .ok v) ↔
      outline.wellFormed = true ∧ outline.denotes = true ∧ outline.nesting ≤ depth - 1)
  | .null, depth | .bool _, depth => by simp [valueWithin, wellFormed, denotes, nesting]
  | .num n, depth => by
    rw [valueWithin, exists_literal_iff]
    simp [wellFormed, denotes, nesting]
  | .str s, depth => by
    rw [valueWithin, exists_literal_iff]
    simp [wellFormed, denotes, nesting]
  | .broken e, depth => by simp [valueWithin, wellFormed]
  | .arr items stop, depth => by
    rw [valueWithin, wellFormed, denotes, nesting]
    exact exists_container_iff (exists_valuesWithin_iff items (depth - 1))
  | .obj fields stop, depth => by
    rw [valueWithin, wellFormed, denotes, nesting]
    exact exists_container_iff (exists_fieldsWithin_iff fields (depth - 1))

theorem exists_valuesWithin_iff : (items : List Outline) → (depth : Nat) →
    ((∃ vs, valuesWithin depth items = .ok vs) ↔
      wellFormedItems items = true ∧ denotesItems items = true ∧ nestingOfItems items ≤ depth - 1)
  | [], depth => by simp [valuesWithin, wellFormedItems, denotesItems, nestingOfItems]
  | item :: rest, depth => by
    rw [valuesWithin, exists_both_iff, exists_valueWithin_iff item depth,
      exists_valuesWithin_iff rest depth, wellFormedItems, denotesItems, nestingOfItems,
      Bool.and_eq_true, Bool.and_eq_true, Nat.max_le]
    tauto

theorem exists_fieldsWithin_iff : (fields : List (Except SyntaxError String × Outline)) →
    (depth : Nat) → ((∃ vs, fieldsWithin depth fields = .ok vs) ↔
      wellFormedFields fields = true ∧ denotesFields fields = true ∧
        nestingOfFields fields ≤ depth - 1)
  | [], depth => by simp [fieldsWithin, wellFormedFields, denotesFields, nestingOfFields]
  | (key, item) :: rest, depth => by
    rw [fieldsWithin, Except.exists_bind_eq_ok]
    simp only [exists_both_iff, exists_and_right]
    rw [exists_ok_iff, exists_valueWithin_iff item depth, exists_fieldsWithin_iff rest depth,
      wellFormedFields, denotesFields, nestingOfFields, Bool.and_eq_true, Bool.and_eq_true,
      Bool.and_eq_true, Nat.max_le]
    tauto
end

theorem wellFormed_of_valueWithin {outline : Outline} {depth : Nat} {v : Json}
    (read : outline.valueWithin depth = .ok v) : outline.wellFormed = true :=
  ((exists_valueWithin_iff outline depth).1 ⟨v, read⟩).1

/-- The value of a container is made of what it holds. -/
theorem exists_of_container {α β : Type} {parts : Except SyntaxError α} {make : α → β}
    {stop : Option SyntaxError} {e : SyntaxError} {depth : Nat} {b : β}
    (value : (if depth ≤ 1 then .error e else parts >>= fun a => close (make a) stop) = .ok b) :
    ∃ a, parts = .ok a ∧ b = make a := by
  split at value
  · cases value
  · obtain ⟨a, inside, closed⟩ := Except.bind_eq_ok.1 value
    cases stop with
    | none => exact ⟨a, inside, (Except.ok.inj closed).symm⟩
    | some e => cases closed

theorem exists_of_valueWithin_arr {items : List Outline} {stop : Option SyntaxError} {depth : Nat}
    {v : Json} (value : (Outline.arr items stop).valueWithin depth = .ok v) :
    ∃ values, valuesWithin (depth - 1) items = .ok values ∧ v = .arr values := by
  rw [valueWithin] at value
  exact exists_of_container value

theorem exists_of_valueWithin_obj {fields : List (Except SyntaxError String × Outline)}
    {stop : Option SyntaxError} {depth : Nat} {v : Json}
    (value : (Outline.obj fields stop).valueWithin depth = .ok v) :
    ∃ pairs, fieldsWithin (depth - 1) fields = .ok pairs ∧ v = .obj (Keyed.ofPairs pairs) := by
  rw [valueWithin] at value
  exact exists_of_container value

theorem exists_of_fieldsWithin_cons {name : String} {item : Outline}
    {rest : List (Except SyntaxError String × Outline)} {depth : Nat}
    {pairs : List (String × Json)}
    (values : fieldsWithin depth ((.ok name, item) :: rest) = .ok pairs) :
    ∃ v others, item.valueWithin depth = .ok v ∧ fieldsWithin depth rest = .ok others ∧
      pairs = (name, v) :: others := by
  obtain ⟨_, same, behind⟩ := Except.bind_eq_ok.1 values
  obtain ⟨v, value, behind⟩ := Except.bind_eq_ok.1 behind
  obtain ⟨others, restValues, result⟩ := Except.bind_eq_ok.1 behind
  cases same
  cases result
  exact ⟨v, others, value, restValues, rfl⟩

/-- A value of null is that of a null. -/
theorem eq_null_of_valueWithin {outline : Outline} {depth : Nat}
    (read : outline.valueWithin depth = .ok .null) : outline = .null := by
  cases outline with
  | null => rfl
  | bool b => cases read
  | num n =>
    obtain ⟨x, _, other⟩ := Except.map_eq_ok.1 read
    cases other
  | str s =>
    obtain ⟨x, _, other⟩ := Except.map_eq_ok.1 read
    cases other
  | broken e => cases read
  | arr items stop =>
    obtain ⟨_, _, other⟩ := exists_of_valueWithin_arr read
    cases other
  | obj fields stop =>
    obtain ⟨_, _, other⟩ := exists_of_valueWithin_obj read
    cases other

end Outline

/-- A text is read if it is the text of a value that can be read, with nothing but blanks behind
it. -/
theorem ofText_eq_ok_iff {text : String} {v : Json} :
    ofText text = .ok v ↔
      (Outline.read text.toList).1.valueWithin Outline.depthLimit = .ok v ∧
        Outline.skipSpace (Outline.read text.toList).2 = [] := by
  rw [ofText, readWithin]
  generalize Outline.read text.toList = found
  obtain ⟨outline, rest⟩ := found
  dsimp only
  rw [Except.bind_eq_ok]
  constructor
  · rintro ⟨value, read, ended⟩
    split at ended
    · rename_i blank
      cases ended
      exact ⟨read, List.isEmpty_iff.1 blank⟩
    · cases ended
  · rintro ⟨read, blank⟩
    refine ⟨v, read, ?_⟩
    rw [blank]
    rfl

/-- A text holds a value if its form holds up, its literals denote something, it is not nested too
deep, and nothing but blanks stands behind it. -/
theorem exists_ofText_iff {text : String} :
    (∃ v, ofText text = .ok v) ↔
      ((Outline.read text.toList).1.wellFormed = true ∧
        (Outline.read text.toList).1.denotes = true ∧
        (Outline.read text.toList).1.nesting < Outline.depthLimit) ∧
      Outline.skipSpace (Outline.read text.toList).2 = [] := by
  simp only [ofText_eq_ok_iff, exists_and_right]
  rw [Outline.exists_valueWithin_iff, Nat.le_sub_one_iff_lt (by decide)]

end CallContract.Json
