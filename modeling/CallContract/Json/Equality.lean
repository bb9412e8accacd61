import CallContract.Json.Basic

/-!
# Equality of JSON values

Two values are equal when their canonical forms are the same: the canonical form sorts the fields of
objects by key and gives zero one sign. So equality ignores the order of keys, and it never mixes
integers with other numbers.

* `Json.equal` is the test; `Json.equal_iff` says what it compares.
* `Json.equal_refl`, `Json.equal_comm` and `Json.equal_trans` make it an equivalence.
-/

namespace CallContract.Json

/-- Puts a field into its place among fields sorted by key; it replaces a field of the same key. -/
def insertSorted (key : String) (value : Json) : List (String × Json) → List (String × Json)
  | [] => [(key, value)]
  | (k, v) :: rest =>
    if key = k then (key, value) :: rest
    else if key < k then (key, value) :: (k, v) :: rest
    else (k, v) :: insertSorted key value rest

/-- A number without the sign of a zero. -/
def Number.canonical : Number → Number
  | .int i h => .int i h
  | .float x => .float x.unsignedZero

mutual
/-- The form in which equal values are the same. -/
def canonical : Json → Json
  | .null => .null
  | .bool b => .bool b
  | .num n => .num n.canonical
  | .str s => .str s
  | .arr items => .arr (canonicalItems items)
  | .obj fields => .obj (canonicalFields fields)

/-- The canonical forms of items. -/
def canonicalItems : List Json → List Json
  | [] => []
  | item :: rest => canonical item :: canonicalItems rest

/-- The canonical forms of fields, sorted by key; of two fields with one key the first counts. -/
def canonicalFields : List (String × Json) → List (String × Json)
  | [] => []
  | (key, value) :: rest => insertSorted key (canonical value) (canonicalFields rest)
end

mutual
/-- Whether two values are written alike. -/
def same : Json → Json → Bool
  | .null, .null => true
  | .bool a, .bool b => a == b
  | .num a, .num b => decide (a = b)
  | .str a, .str b => a == b
  | .arr as, .arr bs => sameItems as bs
  | .obj as, .obj bs => sameFields as bs
  | _, _ => false

/-- Whether two lists of items are written alike. -/
def sameItems : List Json → List Json → Bool
  | [], [] => true
  | a :: as, b :: bs => same a b && sameItems as bs
  | _, _ => false

/-- Whether two lists of fields are written alike. -/
def sameFields : List (String × Json) → List (String × Json) → Bool
  | [], [] => true
  | (k, a) :: as, (l, b) :: bs => k == l && same a b && sameFields as bs
  | _, _ => false
end

mutual
theorem same_iff : (a b : Json) → (same a b = true ↔ a = b)
  | .null, b => by cases b <;> simp [same]
  | .bool _, b => by cases b <;> simp [same]
  | .num _, b => by cases b <;> simp [same]
  | .str _, b => by cases b <;> simp [same]
  | .arr as, b => by cases b <;> simp [same, sameItems_iff as]
  | .obj as, b => by cases b <;> simp [same, sameFields_iff as]

theorem sameItems_iff : (as bs : List Json) → (sameItems as bs = true ↔ as = bs)
  | [], bs => by cases bs <;> simp [sameItems]
  | a :: as, bs => by cases bs <;> simp [sameItems, same_iff a, sameItems_iff as]

theorem sameFields_iff : (as bs : List (String × Json)) → (sameFields as bs = true ↔ as = bs)
  | [], bs => by cases bs <;> simp [sameFields]
  | (k, a) :: as, bs => by
    cases bs with
    | nil => simp [sameFields]
    | cons pair bs =>
      obtain ⟨l, b⟩ := pair
      simp [sameFields, same_iff a, sameFields_iff as, and_assoc]
end

instance : DecidableEq Json := fun a b => decidable_of_iff _ (same_iff a b)

/-- Equality of JSON values: key order and the sign of zero do not count. -/
def equal (a b : Json) : Bool :=
  canonical a == canonical b

theorem equal_iff {a b : Json} : equal a b = true ↔ canonical a = canonical b := by
  simp [equal]

@[simp] theorem equal_refl (a : Json) : equal a a = true := by
  simp [equal]

theorem equal_comm (a b : Json) : equal a b = equal b a := by
  rw [Bool.eq_iff_iff, equal_iff, equal_iff]
  exact eq_comm

theorem equal_trans {a b c : Json} (hab : equal a b = true) (hbc : equal b c = true) :
    equal a c = true :=
  equal_iff.2 ((equal_iff.1 hab).trans (equal_iff.1 hbc))

/-- Equality of two values that may be absent: both are, or they are equal. -/
def equal? : Option Json → Option Json → Bool
  | none, none => true
  | some a, some b => equal a b
  | _, _ => false

end CallContract.Json
