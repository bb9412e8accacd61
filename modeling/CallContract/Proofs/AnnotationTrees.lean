import CallContract.Proofs.Scanning

/-!
# Well-formed annotations

* `TypeExpr.isWellFormed` tells the trees that texts can be parsed to, `TypeExpr.nesting` how many
  generics stand in each other.
* `TypeExpr.partInduction` is the induction over the parts of an annotation.
-/

namespace CallContract.TypeExpr

/-- Whether an annotation is a union. -/
def isUnion : TypeExpr → Bool
  | .union _ => true
  | _ => false

/-- Whether an annotation is a literal value: a string, a boolean, null or a number. -/
def isLiteral : TypeExpr → Bool
  | .literal (.arr _) | .literal (.obj _) => false
  | .literal _ => true
  | _ => false

mutual
/-- Whether names are dotted identifiers, unions have two arms or more and none that is a union,
generics have arguments, and literal values stand where they belong: in a generic of literals, and
nothing else there. -/
def isWellFormed : TypeExpr → Bool
  | .name word => Token.isDotted word.toList
  | .generic head args =>
    Token.isDotted head.toList && !args.isEmpty &&
      if isLiteralHead head then args.all isLiteral else areWellFormed args
  | .union arms =>
    decide (2 ≤ arms.length) && arms.all (fun arm => !arm.isUnion) && areWellFormed arms
  | .forward _ => true
  | .literal _ => false

/-- Whether several annotations are well formed. -/
def areWellFormed : List TypeExpr → Bool
  | [] => true
  | a :: rest => isWellFormed a && areWellFormed rest
end

mutual
/-- How many generics stand in each other. -/
def nesting : TypeExpr → Nat
  | .generic _ args => 1 + nestingOfAll args
  | .union arms => nestingOfAll arms
  | .name _ | .forward _ | .literal _ => 0

/-- The deepest nesting in several annotations. -/
def nestingOfAll : List TypeExpr → Nat
  | [] => 0
  | a :: rest => max (nesting a) (nestingOfAll rest)
end

/-! ## All parts -/

theorem areWellFormed_iff {as : List TypeExpr} :
    areWellFormed as = true ↔ ∀ a ∈ as, a.isWellFormed = true := by
  induction as with
  | nil => simp [areWellFormed]
  | cons a rest ih => rw [areWellFormed, Bool.and_eq_true, ih, List.forall_mem_cons]

theorem nestingOfAll_le_iff {as : List TypeExpr} {n : Nat} :
    nestingOfAll as ≤ n ↔ ∀ a ∈ as, a.nesting ≤ n := by
  induction as with
  | nil => simp [nestingOfAll]
  | cons a rest ih => rw [nestingOfAll, Nat.max_le, ih, List.forall_mem_cons]

theorem isWellFormed_union_iff {arms : List TypeExpr} :
    (union arms).isWellFormed = true ↔
      2 ≤ arms.length ∧ ∀ arm ∈ arms, arm.isUnion = false ∧ arm.isWellFormed = true := by
  rw [isWellFormed, Bool.and_eq_true, Bool.and_eq_true, decide_eq_true_eq, List.all_eq_true,
    areWellFormed_iff, and_assoc, ← forall₂_and]
  simp only [Bool.not_eq_true']

theorem isWellFormed_generic_iff {head : String} {args : List TypeExpr} :
    (generic head args).isWellFormed = true ↔
      Token.isDotted head.toList = true ∧ args ≠ [] ∧
        if isLiteralHead head then ∀ arg ∈ args, arg.isLiteral = true
        else ∀ arg ∈ args, arg.isWellFormed = true := by
  rw [isWellFormed, Bool.and_eq_true, Bool.and_eq_true, and_assoc]
  refine and_congr_right fun _ => and_congr ?_ ?_
  · simp
  · split
    · exact List.all_eq_true
    · exact areWellFormed_iff

theorem exists_of_isLiteral {a : TypeExpr} (value : a.isLiteral = true) :
    ∃ v, a = .literal v := by
  cases a with
  | literal v => exact ⟨v, rfl⟩
  | _ => cases value

theorem nestingOfAll_of_areLiteral {as : List TypeExpr} (values : ∀ a ∈ as, a.isLiteral = true) :
    nestingOfAll as = 0 := by
  refine Nat.le_zero.1 (nestingOfAll_le_iff.2 fun a member => ?_)
  obtain ⟨v, rfl⟩ := exists_of_isLiteral (values a member)
  exact Nat.le_refl 0

/-- Induction over the parts of an annotation. -/
@[elab_as_elim]
theorem partInduction {motive : TypeExpr → Prop}
    (name : ∀ name, motive (.name name))
    (generic : ∀ head args, (∀ arg ∈ args, motive arg) → motive (.generic head args))
    (union : ∀ arms, (∀ arm ∈ arms, motive arm) → motive (.union arms))
    (forward : ∀ text, motive (.forward text))
    (literal : ∀ value, motive (.literal value))
    (a : TypeExpr) : motive a := by
  induction size : sizeOf a using Nat.strongRecOn generalizing a with
  | _ n ih =>
    subst size
    cases a with
    | name word => exact name word
    | generic head args =>
      refine generic head args fun arg member => ih _ ?_ arg rfl
      have smaller := List.sizeOf_lt_of_mem member
      simp
      omega
    | union arms =>
      refine union arms fun arm member => ih _ ?_ arm rfl
      have smaller := List.sizeOf_lt_of_mem member
      simp
      omega
    | forward text => exact forward text
    | literal value => exact literal value

end CallContract.TypeExpr
