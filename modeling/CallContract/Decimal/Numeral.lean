/-!
# Decimal numerals

Digits of natural numbers, and the numbers that digits stand for.

* `numeral n` is the decimal numeral of `n`, without leading zeros.
* `valueOf cs` reads digits, most significant first; `valueOf_numeral` says that it undoes `numeral`.
-/

namespace CallContract.Decimal

/-- The character of a digit below ten. -/
def digitChar (d : Nat) : Char :=
  Char.ofNat (48 + d % 10)

/-- The number a digit stands for. -/
def digitValue (c : Char) : Nat :=
  c.toNat - 48

/-- The decimal numeral of a number. -/
def numeral (n : Nat) : List Char :=
  if n < 10 then [digitChar n] else numeral (n / 10) ++ [digitChar n]

/-- The number that digits stand for, most significant first. -/
def valueOf (cs : List Char) : Nat :=
  cs.foldl (fun n c => 10 * n + digitValue c) 0

/-- The decimal numeral of an integer, with a minus sign if it is negative. -/
def intNumeral (i : Int) : List Char :=
  if i < 0 then '-' :: numeral i.natAbs else numeral i.natAbs

/-- The decimal numeral of a natural number as a string. -/
def natText (n : Nat) : String :=
  String.ofList (numeral n)

theorem digitChar_isDigit (d : Nat) : (digitChar d).isDigit = true := by
  have h : ∀ k : Fin 10, (Char.ofNat (48 + k.val)).isDigit = true := by decide
  exact h ⟨d % 10, Nat.mod_lt _ (by decide)⟩

theorem digitValue_digitChar (d : Nat) : digitValue (digitChar d) = d % 10 := by
  have h : ∀ k : Fin 10, digitValue (Char.ofNat (48 + k.val)) = k.val := by decide
  exact h ⟨d % 10, Nat.mod_lt _ (by decide)⟩

/-- Numerals hold digits only. -/
theorem isDigit_of_mem_numeral {n : Nat} : ∀ c ∈ numeral n, c.isDigit = true := by
  induction n using numeral.induct with
  | case1 n h =>
    intro c hc
    rw [numeral, if_pos h] at hc
    simp at hc
    exact hc ▸ digitChar_isDigit n
  | case2 n h ih =>
    intro c hc
    rw [numeral, if_neg h, List.mem_append] at hc
    rcases hc with hc | hc
    · exact ih c hc
    · simp at hc
      exact hc ▸ digitChar_isDigit n

theorem numeral_ne_nil (n : Nat) : numeral n ≠ [] := by
  rw [numeral]
  split <;> simp

/-- A numeral starts with a digit. -/
theorem exists_cons_numeral (n : Nat) :
    ∃ d digits, numeral n = d :: digits ∧ d.isDigit = true := by
  obtain ⟨d, digits, split⟩ := List.exists_cons_of_ne_nil (numeral_ne_nil n)
  exact ⟨d, digits, split, isDigit_of_mem_numeral d (split ▸ List.mem_cons_self)⟩

/-- An integer is its absolute value behind its sign. -/
theorem signed_natAbs (i : Int) :
    (if decide (i < 0) = true then -(i.natAbs : Int) else i.natAbs) = i := by
  split
  · rename_i negative
    have below := of_decide_eq_true negative
    omega
  · rename_i other
    have notBelow : ¬i < 0 := fun below => other (decide_eq_true below)
    omega

/-- Reading a numeral gives the number back. -/
theorem valueOf_numeral (n : Nat) : valueOf (numeral n) = n := by
  induction n using numeral.induct with
  | case1 n h =>
    rw [numeral, if_pos h]
    simp [valueOf, digitValue_digitChar]
    omega
  | case2 n h ih =>
    rw [numeral, if_neg h]
    unfold valueOf at *
    rw [List.foldl_append, ih]
    simp [digitValue_digitChar]
    omega

end CallContract.Decimal
