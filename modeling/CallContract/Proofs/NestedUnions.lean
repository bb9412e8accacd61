import CallContract.Proofs.Unions
import CallContract.Schema.Encode
import CallContract.Value.Validate
import Mathlib.Logic.Relation

/-!
# Unions in unions

How unions are nested does not matter: a union that is an alternative of another one can give way to
its own alternatives.

* `keepFirstNone_middle`: in a list of alternatives, null may be kept once in a part of the list
  before it is kept once in the whole.
* `Inlines` is one replacement. `Inlines.alternatives_eq` says that it keeps the alternatives, which
  are all that encoding and checking look at.
* `flattened_union`: the two ways to flatten a union agree, and replacements change neither its node
  nor what it makes of payloads. Only the error of a union without alternatives shows the union as it
  is written; `not_encode_inlined` has such a one.
-/

namespace CallContract

namespace Descriptor

/-! ## Null once in a part and once in the whole -/

/-- Behind a null, no null is kept. -/
theorem keepFirstNone_append (ts us : List Descriptor) :
    keepFirstNone (ts ++ us) =
      keepFirstNone ts ++
        if ts.any isNone then us.filter (fun u => !u.isNone) else keepFirstNone us := by
  induction ts with
  | nil => rfl
  | cons t rest ih =>
    rw [List.cons_append, keepFirstNone, keepFirstNone, List.any_cons, List.filter_append, ih]
    cases t.isNone with
    | true => rfl
    | false => rfl

theorem keepFirstNone_keepFirstNone (ts : List Descriptor) :
    keepFirstNone (keepFirstNone ts) = keepFirstNone ts := by
  induction ts with
  | nil => rfl
  | cons t rest ih =>
    rw [keepFirstNone]
    cases null : t.isNone with
    | true =>
      rw [if_pos rfl, keepFirstNone, null, if_pos rfl, List.filter_filter]
      simp only [Bool.and_self]
    | false => rw [if_neg Bool.false_ne_true, keepFirstNone, null, if_neg Bool.false_ne_true, ih]

/-- Null may be kept once in the middle of a list before it is kept once in the whole list. -/
theorem keepFirstNone_middle (before inside after : List Descriptor) :
    keepFirstNone (before ++ (keepFirstNone inside ++ after)) =
      keepFirstNone (before ++ (inside ++ after)) := by
  simp only [keepFirstNone_append, List.filter_append, filter_keepFirstNone, any_keepFirstNone,
    keepFirstNone_keepFirstNone]

theorem keepFirstNone_congr {inside inside' : List Descriptor}
    (same : keepFirstNone inside = keepFirstNone inside') (before after : List Descriptor) :
    keepFirstNone (before ++ (inside ++ after)) = keepFirstNone (before ++ (inside' ++ after)) := by
  rw [← keepFirstNone_middle, same, keepFirstNone_middle]

/-! ## Replacing a union by its alternatives -/

/-- The alternatives of a union as it is written, unions among them; a type that is no union is its
only one. -/
def written : Descriptor → List Descriptor
  | .optional inner => [inner, .none]
  | .union members => members
  | t => [t]

/-- The alternatives of a type: as they are written, or flattened. -/
inductive HasAlternatives (t : Descriptor) : List Descriptor → Prop
  | written : HasAlternatives t t.written
  | flattened : HasAlternatives t t.alternatives

/-- Somewhere in a union, a union among its alternatives is replaced by its own alternatives. -/
inductive Inlines : Descriptor → Descriptor → Prop
  | inner {inner : Descriptor} {own : List Descriptor} (nested : inner.isUnion = true)
      (alternatives : inner.HasAlternatives own) :
      Inlines (.optional inner) (.union (own ++ [.none]))
  | member (before after : List Descriptor) {own : List Descriptor} {m : Descriptor}
      (nested : m.isUnion = true) (alternatives : m.HasAlternatives own) :
      Inlines (.union (before ++ m :: after)) (.union (before ++ (own ++ after)))
  | insideInner {inner inner' : Descriptor} (step : Inlines inner inner') :
      Inlines (.optional inner) (.optional inner')
  | insideMember (before after : List Descriptor) {m m' : Descriptor} (step : Inlines m m') :
      Inlines (.union (before ++ m :: after)) (.union (before ++ m' :: after))

theorem leavesOfAll_written (t : Descriptor) : leavesOfAll t.written = t.leaves := by
  cases t with
  | optional inner => rfl
  | union members => rfl
  | _ => rfl

theorem HasAlternatives.keepFirstNone_leavesOfAll {t : Descriptor} {own : List Descriptor}
    (alternatives : t.HasAlternatives own) : keepFirstNone (leavesOfAll own) = t.alternatives := by
  cases alternatives with
  | written => rw [leavesOfAll_written, Descriptor.alternatives]
  | flattened =>
    have single (m : Descriptor) (member : m ∈ t.alternatives) : m.isUnion = false :=
      isUnion_of_mem_leaves t (mem_leaves_of_mem_alternatives member)
    rw [leavesOfAll_of_not_isUnion single, Descriptor.alternatives, keepFirstNone_keepFirstNone]

theorem alternatives_optional_eq (inner : Descriptor) :
    (optional inner).alternatives = keepFirstNone ([] ++ (inner.leaves ++ [.none])) := rfl

theorem alternatives_union_append (before after own : List Descriptor) :
    (union (before ++ (own ++ after))).alternatives =
      keepFirstNone (leavesOfAll before ++ (leavesOfAll own ++ leavesOfAll after)) := by
  rw [alternatives, leaves, leavesOfAll_append, leavesOfAll_append]

theorem alternatives_union_cons (before after : List Descriptor) (m : Descriptor) :
    (union (before ++ m :: after)).alternatives =
      keepFirstNone (leavesOfAll before ++ (m.leaves ++ leavesOfAll after)) := by
  rw [alternatives, leaves, leavesOfAll_append, leavesOfAll]

namespace Inlines

variable {t t' : Descriptor}

theorem isUnion_right (step : Inlines t t') : t'.isUnion = true := by
  cases step <;> rfl

/-- A replacement keeps the alternatives, null in its place. -/
theorem alternatives_eq (step : Inlines t t') : t'.alternatives = t.alternatives := by
  induction step with
  | inner _ own =>
    rw [alternatives_optional_eq]
    exact (alternatives_union_append [] [.none] _).trans
      (keepFirstNone_congr own.keepFirstNone_leavesOfAll [] [.none])
  | member before after _ own =>
    rw [alternatives_union_append, alternatives_union_cons]
    exact keepFirstNone_congr own.keepFirstNone_leavesOfAll _ _
  | insideInner _ ih =>
    rw [alternatives_optional_eq, alternatives_optional_eq]
    exact keepFirstNone_congr ih [] [.none]
  | insideMember before after _ ih =>
    rw [alternatives_union_cons, alternatives_union_cons]
    exact keepFirstNone_congr ih _ _

/-- So do several replacements. -/
theorem alternatives_eq_of_reflTransGen (hu : t.isUnion = true)
    (steps : Relation.ReflTransGen Inlines t t') :
    t'.isUnion = true ∧ t'.alternatives = t.alternatives := by
  induction steps with
  | refl => exact ⟨hu, rfl⟩
  | tail _ step ih => exact ⟨step.isUnion_right, step.alternatives_eq.trans ih.2⟩

end Inlines

/-! ## What only the alternatives decide -/

section Alternatives

variable {t t' : Descriptor} (hu : t.isUnion = true) (hu' : t'.isUnion = true)
  (same : t'.alternatives = t.alternatives)

include hu hu' same

theorem splitNull_eq_of_alternatives_eq : t'.splitNull = t.splitNull := by
  refine Prod.ext ?_ ?_
  · rw [← filter_alternatives hu', ← filter_alternatives hu, same]
  · rw [← any_alternatives hu', ← any_alternatives hu, same]

theorem validateAt_eq_of_alternatives_eq (place : Pointer) (v : Json) :
    validateAt place t' v = validateAt place t v := by
  rw [validateAt_union hu', validateAt_union hu, splitNull_eq_of_alternatives_eq hu hu' same]

theorem encode_eq_of_alternatives_eq (inhabited : t.alternatives ≠ []) :
    encode t' = encode t := by
  have notEmpty : t.alternatives.isEmpty = false := List.isEmpty_eq_false_iff.2 inhabited
  rw [encode_union hu', encode_union hu, same, notEmpty]
  rfl

end Alternatives

theorem encode_of_alternatives_eq_nil {t : Descriptor} (hu : t.isUnion = true)
    (empty : t.alternatives = []) : encode t = .error (.emptyUnion t) := by
  rw [encode_union hu, empty]
  rfl

end Descriptor

open Descriptor (Inlines)

/-- Flattened with null in its place or with null set apart, a union has the same alternatives, none
of them a union, and null at most once. Where unions inside it are replaced by their alternatives, it
has the same node and makes the same of every payload; a union without alternatives has none, and
its error shows it as it is written. -/
theorem flattened_union {t : Descriptor} (hu : t.isUnion = true) :
    (t.alternatives.filter fun m => !m.isNone) = t.splitNull.1 ∧
      t.alternatives.filter Descriptor.isNone = (if t.splitNull.2 then [.none] else []) ∧
      (∀ m ∈ t.alternatives, m.isUnion = false) ∧ (∀ m ∈ t.splitNull.1, m.isUnion = false) ∧
      ∀ t', Relation.ReflTransGen Inlines t t' →
        (t.alternatives ≠ [] → encode t' = encode t) ∧
        (t.alternatives = [] →
          encode t = .error (.emptyUnion t) ∧ encode t' = .error (.emptyUnion t')) ∧
        ∀ v, validate t' v = validate t v := by
  refine ⟨Descriptor.filter_alternatives hu, Descriptor.filter_isNone_alternatives hu, ?_, ?_, ?_⟩
  · exact fun m member =>
      Descriptor.isUnion_of_mem_leaves t (Descriptor.mem_leaves_of_mem_alternatives member)
  · exact fun m => Descriptor.isUnion_of_mem_splitNull
  · intro t' steps
    obtain ⟨hu', same⟩ := Inlines.alternatives_eq_of_reflTransGen hu steps
    refine ⟨Descriptor.encode_eq_of_alternatives_eq hu hu' same, ?_, ?_⟩
    · intro empty
      exact ⟨Descriptor.encode_of_alternatives_eq_nil hu empty,
        Descriptor.encode_of_alternatives_eq_nil hu' (same.trans empty)⟩
    · exact Descriptor.validateAt_eq_of_alternatives_eq hu hu' same []

/-- A text or null, an integer, a list of anything or null: the nulls stand in nested unions. -/
def nestedChoice : Descriptor :=
  .union [.optional (.union [.string, .none]), .integer, .optional (.list .any), .none]

/-- The same without nested unions. -/
def flatChoice : Descriptor :=
  .union [.string, .none, .none, .integer, .list .any, .none, .none]

theorem inlines_nestedChoice : Relation.ReflTransGen Inlines nestedChoice flatChoice := by
  have first : Inlines nestedChoice
      (.union [.union [.string, .none, .none], .integer, .optional (.list .any), .none]) :=
    .insideMember [] _ (.inner rfl .written)
  have second : Inlines
      (.union [.union [.string, .none, .none], .integer, .optional (.list .any), .none])
      (.union [.string, .none, .none, .integer, .optional (.list .any), .none]) :=
    .member [] _ rfl .written
  have third : Inlines
      (.union [.string, .none, .none, .integer, .optional (.list .any), .none]) flatChoice :=
    .member [.string, .none, .none, .integer] _ rfl .written
  exact ((Relation.ReflTransGen.single first).tail second).tail third

theorem flattened_union_nestedChoice :
    nestedChoice.isUnion = true ∧ nestedChoice.splitNull.2 = true ∧
      nestedChoice.alternatives.filter Descriptor.isNone = [.none] ∧
      Relation.ReflTransGen Inlines nestedChoice flatChoice ∧
      encode flatChoice = encode nestedChoice ∧
      ∀ v, validate flatChoice v = validate nestedChoice v := by
  have agree := flattened_union (rfl : nestedChoice.isUnion = true)
  have replaced := agree.2.2.2.2 flatChoice inlines_nestedChoice
  exact ⟨rfl, rfl, agree.2.1, inlines_nestedChoice, replaced.1 nofun, replaced.2.2⟩

/-- A union of nothing but a union of nothing fails with another text than the inner one. -/
theorem not_encode_inlined :
    ¬∀ t t' : Descriptor, t.isUnion = true → Inlines t t' →
      (encode t').mapError EncodeError.message = (encode t).mapError EncodeError.message := by
  intro same
  have step : Inlines (.union [.union []]) (.union []) :=
    .member [] [] rfl .written
  have texts := same _ _ rfl step
  rw [Descriptor.encode_of_alternatives_eq_nil rfl rfl,
    Descriptor.encode_of_alternatives_eq_nil rfl rfl] at texts
  exact absurd (Except.error.inj texts) (by decide)

end CallContract
