/-!
# Keyed lists

Lists of pairs of a key and a value, in the order in which the keys first came.

* `Keyed.get? key xs` is the value of the first pair with that key.
* `Keyed.put key value xs` changes the value of a key that is there and appends one that is not.
* `Keyed.ofPairs` reads pairs one after the other: a key that comes again keeps its first place
  and gets its last value.
-/

namespace CallContract.Keyed

variable {α : Type}

/-- The value of the first pair with the given key. -/
def get? (key : String) : List (String × α) → Option α
  | [] => none
  | (k, v) :: rest => if k = key then some v else get? key rest

/-- Whether some pair has the given key. -/
def contains (key : String) (xs : List (String × α)) : Bool :=
  (get? key xs).isSome

/-- Binds `key` to `value` where `key` first stands, or at the end. -/
def put (key : String) (value : α) : List (String × α) → List (String × α)
  | [] => [(key, value)]
  | (k, v) :: rest => if k = key then (k, value) :: rest else (k, v) :: put key value rest

/-- The keyed list that a sequence of bindings leaves. -/
def ofPairs (pairs : List (String × α)) : List (String × α) :=
  pairs.foldl (fun xs pair => put pair.1 pair.2 xs) []

@[simp] theorem get?_nil (key : String) : get? key ([] : List (String × α)) = none := rfl

theorem get?_cons (key k : String) (v : α) (rest : List (String × α)) :
    get? key ((k, v) :: rest) = if k = key then some v else get? key rest := rfl

/-- A key just bound has the value it was bound to. -/
@[simp] theorem get?_put_self (key : String) (value : α) (xs : List (String × α)) :
    get? key (put key value xs) = some value := by
  induction xs with
  | nil => simp [put, get?]
  | cons pair rest ih =>
    obtain ⟨k, v⟩ := pair
    by_cases h : k = key <;> simp [put, get?, h, ih]

/-- Binding one key leaves the others alone. -/
theorem get?_put_of_ne {key other : String} (h : other ≠ key) (value : α)
    (xs : List (String × α)) : get? other (put key value xs) = get? other xs := by
  induction xs with
  | nil => simp [put, get?, Ne.symm h]
  | cons pair rest ih =>
    obtain ⟨k, v⟩ := pair
    by_cases hk : k = key
    · subst hk
      simp [put, get?, Ne.symm h]
    · simp [put, get?, hk, ih]

/-- A value found under a key is the second part of one of the pairs. -/
theorem mem_of_get? {key : String} {value : α} {xs : List (String × α)}
    (h : get? key xs = some value) : (key, value) ∈ xs := by
  induction xs with
  | nil => simp at h
  | cons pair rest ih =>
    obtain ⟨k, v⟩ := pair
    by_cases hk : k = key
    · simp [get?, hk] at h
      simp [hk, h]
    · simp [get?, hk] at h
      exact List.mem_cons_of_mem _ (ih h)

end CallContract.Keyed
