import CallContract.Proofs.Extension
import Mathlib.Algebra.Order.Ring.Cast
import Mathlib.Algebra.Order.Ring.Rat
import Mathlib.Tactic.NormNum.Pow

/-!
# Integers are taken exactly

A JSON number is written as an integer or as a float, and the type of integers takes both.

* `Json.Number.value` is the number that is denoted, whichever way it is written.
* `Binary64.toInt?_eq_some_iff`: a float is converted to an integer exactly if it denotes it. There
  is no rounding in either direction, and the sign of zero has no part in it.
* `validate_integer_exact`: so the type of integers takes a number if it is whole and, as a float, a
  signed word, and makes of it an integer that is the same number.
-/

namespace CallContract

/-! ## Floats that denote integers -/

namespace Binary64

theorem ratio_snd_pos (x : Binary64) : 0 < x.ratio.2 := by
  unfold ratio
  split
  · exact Nat.one_pos
  · exact Nat.pow_pos (by decide)

/-- If the quotient of a float is an integer, it leaves no rest. -/
theorem ratio_mod_eq_zero {x : Binary64} {k : Int} (whole : (x.ratio.1 : ℚ) / x.ratio.2 = k) :
    x.ratio.1 % x.ratio.2 = 0 := by
  have positive : (x.ratio.2 : ℚ) ≠ 0 := Nat.cast_ne_zero.2 x.ratio_snd_pos.ne'
  have product : (x.ratio.1 : ℚ) = ((k * x.ratio.2 : Int) : ℚ) := by
    rw [Int.cast_mul, ← whole, Int.cast_natCast, div_mul_cancel₀ _ positive]
  have divides : (x.ratio.2 : Int) ∣ x.ratio.1 := ⟨k, by
    rw [mul_comm]
    exact_mod_cast product⟩
  exact Nat.mod_eq_zero_of_dvd (Int.natCast_dvd_natCast.1 divides)

/-- A float that denotes an integer is converted to some integer. -/
theorem exists_toInt?_of_value {x : Binary64} {i : Int} (whole : x.value = i) :
    ∃ j, x.toInt? = some j := by
  have quotient : ∃ k : Int, (x.ratio.1 : ℚ) / x.ratio.2 = k := by
    rw [x.ratio_eq]
    unfold value at whole
    cases sign : x.negative with
    | true =>
      rw [sign, if_pos rfl, neg_one_mul] at whole
      exact ⟨-i, by rw [Int.cast_neg, ← whole, neg_neg]⟩
    | false =>
      rw [sign, if_neg Bool.false_ne_true, one_mul] at whole
      exact ⟨i, whole⟩
  rcases quotient with ⟨k, same⟩
  unfold toInt?
  dsimp only
  rw [if_pos (ratio_mod_eq_zero same)]
  exact ⟨_, rfl⟩

/-- A float is converted to the integer that it denotes, and to no other. -/
theorem toInt?_eq_some_iff {x : Binary64} {i : Int} : x.toInt? = some i ↔ x.value = i := by
  constructor
  · exact value_of_toInt?
  · intro whole
    rcases exists_toInt?_of_value whole with ⟨j, converted⟩
    have same : (j : ℚ) = i := (value_of_toInt? converted).symm.trans whole
    rw [converted, Int.cast_inj.1 same]

end Binary64

/-! ## Numbers as the type of integers takes them -/

/-- The number that a JSON number denotes. -/
def Json.Number.value : Json.Number → ℚ
  | .int i _ => i
  | .float x => x.value

/-- The signed words are the integers from `-2 ^ 63` up to, and not including, `2 ^ 63`. -/
theorem Json.isSignedWord_iff {i : Int} :
    Json.IsSignedWord i ↔ -2 ^ 63 ≤ (i : ℚ) ∧ (i : ℚ) < 2 ^ 63 := by
  have least : (-2 ^ 63 : ℚ) = ((-0x8000000000000000 : Int) : ℚ) := by norm_num
  have limit : (2 ^ 63 : ℚ) = ((0x8000000000000000 : Int) : ℚ) := by norm_num
  rw [least, limit, Int.cast_le, Int.cast_lt]
  rfl

/-- An integer stays the integer that it is. -/
theorem validate_integer_int (i : Int) (word : Json.IsWord i) :
    validate .integer (.num (.int i word)) = .ok (.int i word) := by
  rw [validate, validateAt]
  rfl

/-- A float becomes the integer that it denotes, if that is a signed word. -/
theorem validate_integer_float {x : Binary64} {y : Value} :
    validate .integer (.num (.float x)) = .ok y ↔
      ∃ (i : Int) (signed : Json.IsSignedWord i), x.value = i ∧ y = .int i signed.isWord := by
  rw [validate, validateAt, validatePrimitive]
  constructor
  · intro accepted
    split at accepted
    · rename_i i converted
      split at accepted
      · rename_i signed
        cases accepted
        exact ⟨i, signed, Binary64.value_of_toInt? converted, rfl⟩
      · cases accepted
    · cases accepted
  · intro given
    rcases given with ⟨i, signed, whole, rfl⟩
    rw [Binary64.toInt?_eq_some_iff.2 whole]
    dsimp only
    rw [dif_pos signed]

/-- The type of integers takes a number exactly if it is whole and, where it is written as a float,
from `-2 ^ 63` up to and not including `2 ^ 63`. What it makes of the number is written as an
integer, and it is the same number. -/
theorem validate_integer_exact (n : Json.Number) :
    ((∃ y, validate .integer (.num n) = .ok y) ↔
      (∃ i : Int, n.value = i) ∧ ∀ x, n = .float x → -2 ^ 63 ≤ n.value ∧ n.value < 2 ^ 63) ∧
    ∀ y, validate .integer (.num n) = .ok y →
      ∃ i word, y.toJson = .num (.int i word) ∧ (i : ℚ) = n.value := by
  cases n with
  | int i word =>
    have accepted := validate_integer_int i word
    have noFloat (x : Binary64) : Json.Number.int i word ≠ .float x := Json.Number.noConfusion
    refine ⟨iff_of_true ⟨_, accepted⟩ ⟨⟨i, rfl⟩, fun x same => absurd same (noFloat x)⟩, ?_⟩
    intro y again
    cases accepted.symm.trans again
    exact ⟨i, word, rfl, rfl⟩
  | float x =>
    have value : (Json.Number.float x).value = x.value := rfl
    rw [value]
    constructor
    · constructor
      · intro accepted
        rcases accepted with ⟨y, accepted⟩
        rcases validate_integer_float.1 accepted with ⟨i, signed, whole, _⟩
        refine ⟨⟨i, whole⟩, ?_⟩
        intro _ _
        rw [whole]
        exact Json.isSignedWord_iff.1 signed
      · intro given
        rcases given with ⟨⟨i, whole⟩, bounded⟩
        have bounds := bounded x rfl
        rw [whole] at bounds
        have signed := Json.isSignedWord_iff.2 bounds
        exact ⟨_, validate_integer_float.2 ⟨i, signed, whole, rfl⟩⟩
    · intro y accepted
      rcases validate_integer_float.1 accepted with ⟨i, signed, whole, rfl⟩
      exact ⟨i, signed.isWord, rfl, whole.symm⟩

/-- The float `-2 ^ 63`, the least one that the type of integers takes. -/
def leastSigned : Binary64 :=
  ⟨true, 0x10000000000000, 11, by decide⟩

theorem value_leastSigned : leastSigned.value = (-0x8000000000000000 : Int) :=
  Binary64.value_of_toInt? (by decide)

theorem validate_leastSigned :
    validate .integer (.num (.float leastSigned)) =
      .ok (.int (-0x8000000000000000) (by decide)) :=
  validate_integer_float.2 ⟨_, by decide, value_leastSigned, rfl⟩

/-- The least float that is taken becomes the least signed word. -/
theorem validate_integer_exact_leastSigned :
    validate .integer (.num (.float leastSigned)) =
        .ok (.int (-0x8000000000000000) (by decide)) ∧
      ∃ i word, (Value.int (-0x8000000000000000) (by decide)).toJson = .num (.int i word) ∧
        (i : ℚ) = leastSigned.value :=
  ⟨validate_leastSigned,
    (validate_integer_exact (.float leastSigned)).2 _ validate_leastSigned⟩

end CallContract
