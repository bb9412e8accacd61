import CallContract.Descriptor.Basic

/-!
# Flattened unions

A union is read through its leaves: the types, no unions themselves, that it is made of.

* `Descriptor.leafInduction`: what holds of a type if it holds of its parts holds of every type; the
  parts of a union are its leaves, however they are nested.
* `Descriptor.filter_alternatives` and `Descriptor.any_alternatives`: the two ways to flatten a
  union, with null in its place and with null set apart, have the same alternatives.
* `Descriptor.RespectsUnions`: maps of types that leave unions as they are commute with flattening.
-/

namespace CallContract.Descriptor

/-! ## Types that are no unions -/

theorem leaves_of_not_isUnion {t : Descriptor} (single : t.isUnion = false) : t.leaves = [t] := by
  cases t with
  | optional inner => cases single
  | union members => cases single
  | _ => rfl

theorem splitNull_of_not_isUnion {t : Descriptor} (single : t.isUnion = false) :
    t.splitNull = ([t], false) := by
  cases t with
  | optional inner => cases single
  | union members => cases single
  | _ => rfl

theorem isUnion_of_isNone {t : Descriptor} (null : t.isNone = true) : t.isUnion = false := by
  cases t with
  | none => rfl
  | _ => cases null

theorem eq_none_of_isNone {t : Descriptor} (null : t.isNone = true) : t = .none := by
  cases t with
  | none => rfl
  | _ => cases null

theorem leavesOfAll_eq_flatMap (ts : List Descriptor) : leavesOfAll ts = ts.flatMap leaves := by
  induction ts with
  | nil => rfl
  | cons t rest ih => rw [leavesOfAll, List.flatMap_cons, ih]

theorem leavesOfAll_append (ts us : List Descriptor) :
    leavesOfAll (ts ++ us) = leavesOfAll ts ++ leavesOfAll us := by
  simp only [leavesOfAll_eq_flatMap, List.flatMap_append]

theorem leavesOfAll_of_not_isUnion {ts : List Descriptor} (single : ∀ t ∈ ts, t.isUnion = false) :
    leavesOfAll ts = ts := by
  induction ts with
  | nil => rfl
  | cons t rest ih =>
    rw [leavesOfAll, leaves_of_not_isUnion (single t List.mem_cons_self),
      ih fun u member => single u (List.mem_cons_of_mem t member)]
    rfl

mutual
/-- A leaf is no union. -/
theorem isUnion_of_mem_leaves : (t : Descriptor) → {m : Descriptor} → m ∈ leaves t →
    m.isUnion = false
  | .optional inner, m, member => by
    rw [leaves, List.mem_append, List.mem_singleton] at member
    rcases member with member | rfl
    · exact isUnion_of_mem_leaves inner member
    · rfl
  | .union members, m, member => by
    rw [leaves] at member
    exact isUnion_of_mem_leavesOfAll members member
  | .primitive _, _, member | .none, _, member | .any, _, member | .list _, _, member
  | .mapping _ _, _, member | .record _ _, _, member | .enumeration _ _, _, member
  | .path, _, member | .fileData, _, member => by
    rw [leaves, List.mem_singleton] at member
    rw [member]
    rfl

theorem isUnion_of_mem_leavesOfAll : (ts : List Descriptor) → {m : Descriptor} →
    m ∈ leavesOfAll ts → m.isUnion = false
  | [], _, member => by cases member
  | t :: rest, m, member => by
    rw [leavesOfAll, List.mem_append] at member
    rcases member with member | member
    · exact isUnion_of_mem_leaves t member
    · exact isUnion_of_mem_leavesOfAll rest member
end

/-! ## Induction over types -/

/-- Induction over types in which the parts of a union are its leaves. -/
@[elab_as_elim]
theorem leafInduction {motive : Descriptor → Prop}
    (primitive : ∀ kind, motive (.primitive kind))
    (none : motive .none)
    (any : motive .any)
    (path : motive .path)
    (fileData : motive .fileData)
    (enumeration : ∀ name members, motive (.enumeration name members))
    (list : ∀ element, motive element → motive (.list element))
    (mapping : ∀ key value, motive key → motive value → motive (.mapping key value))
    (record : ∀ name fields, (∀ f ∈ fields, motive f.type) → motive (.record name fields))
    (union : ∀ t : Descriptor, t.isUnion = true → (∀ m ∈ t.leaves, motive m) → motive t)
    (t : Descriptor) : motive t := by
  induction size : sizeOf t using Nat.strongRecOn generalizing t with
  | _ n ih =>
    subst size
    have step : ∀ u : Descriptor, sizeOf u < sizeOf t → motive u :=
      fun u smaller => ih _ smaller u rfl
    cases t with
    | primitive kind => exact primitive kind
    | none => exact none
    | any => exact any
    | path => exact path
    | fileData => exact fileData
    | enumeration name members => exact enumeration name members
    | list element => exact list element (step element (by simp))
    | mapping key value =>
      have size : sizeOf (Descriptor.mapping key value) = 1 + sizeOf key + sizeOf value :=
        Descriptor.mapping.sizeOf_spec key value
      exact mapping key value (step key (by omega)) (step value (by omega))
    | record name fields =>
      refine record name fields fun f member => step f.type ?_
      have smaller := sizeOf_lt_of_mem_fields member
      rw [Descriptor.record.sizeOf_spec]
      omega
    | optional inner =>
      exact union (.optional inner) rfl fun m member => step m (sizeOf_lt_of_mem_leaves rfl member)
    | union members =>
      exact union (.union members) rfl fun m member => step m (sizeOf_lt_of_mem_leaves rfl member)

/-! ## Two ways to flatten -/

mutual
theorem filter_splitNull : (t : Descriptor) →
    (splitNull t).1.filter (fun u => !u.isNone) = (leaves t).filter fun u => !u.isNone
  | .optional inner => by
    rw [splitNull, leaves, List.filter_append, ← filter_splitNull inner]
    simp [isNone]
  | .union members => by
    rw [splitNull, leaves, filter_splitNullOfAll members]
  | .primitive _ | .none | .any | .list _ | .mapping _ _ | .record _ _ | .enumeration _ _
  | .path | .fileData => rfl

theorem filter_splitNullOfAll : (ts : List Descriptor) →
    (splitNullOfAll ts).1.filter (fun u => !u.isNone) =
      (leavesOfAll ts).filter fun u => !u.isNone
  | [] => rfl
  | t :: rest => by
    rw [splitNullOfAll, leavesOfAll, List.filter_append, List.filter_append,
      filter_splitNullOfAll rest, ← filter_splitNull t, List.filter_filter]
    simp
end

theorem splitNullOfAll_fst_filter (ts : List Descriptor) :
    (splitNullOfAll ts).1.filter (fun u => !u.isNone) = (splitNullOfAll ts).1 := by
  induction ts with
  | nil => rfl
  | cons t rest ih =>
    rw [splitNullOfAll, List.filter_append, ih, List.filter_filter]
    simp

/-- Set apart from null, the alternatives of a union are its leaves without null. -/
theorem splitNull_fst {t : Descriptor} (hu : t.isUnion = true) :
    t.splitNull.1 = t.leaves.filter fun u => !u.isNone := by
  rw [← filter_splitNull]
  cases t with
  | optional inner =>
    rw [splitNull, List.filter_filter]
    simp
  | union members => rw [splitNull, splitNullOfAll_fst_filter]
  | _ => cases hu

mutual
theorem any_leaves : (t : Descriptor) →
    (leaves t).any isNone = ((splitNull t).2 || t.isNone)
  | .optional inner => by simp [leaves, splitNull, isNone]
  | .union members => by
    rw [leaves, splitNull, any_leavesOfAll members]
    exact (Bool.or_false _).symm
  | .primitive _ | .none | .any | .list _ | .mapping _ _ | .record _ _ | .enumeration _ _
  | .path | .fileData => rfl

theorem any_leavesOfAll : (ts : List Descriptor) →
    (leavesOfAll ts).any isNone = (splitNullOfAll ts).2
  | [] => rfl
  | t :: rest => by
    rw [leavesOfAll, splitNullOfAll, List.any_append, any_leaves t, any_leavesOfAll rest]
end

/-- A union has null if null is one of its leaves. -/
theorem splitNull_snd {t : Descriptor} (hu : t.isUnion = true) :
    t.splitNull.2 = t.leaves.any isNone := by
  have notNone : t.isNone = false := by
    cases h : t.isNone with
    | false => rfl
    | true => rw [isUnion_of_isNone h] at hu; cases hu
  rw [any_leaves, notNone, Bool.or_false]

theorem filter_keepFirstNone (ts : List Descriptor) :
    (keepFirstNone ts).filter (fun u => !u.isNone) = ts.filter fun u => !u.isNone := by
  induction ts with
  | nil => rfl
  | cons t rest ih =>
    rw [keepFirstNone]
    split
    · simp [*]
    · simp [*]

theorem any_keepFirstNone (ts : List Descriptor) :
    (keepFirstNone ts).any isNone = ts.any isNone := by
  induction ts with
  | nil => rfl
  | cons t rest ih =>
    rw [keepFirstNone]
    split
    · simp [*]
    · simp [*]

theorem keepFirstNone_of_not_any {ts : List Descriptor} (free : ∀ t ∈ ts, t.isNone = false) :
    keepFirstNone ts = ts := by
  induction ts with
  | nil => rfl
  | cons t rest ih =>
    rw [keepFirstNone, free t List.mem_cons_self, ih fun u member =>
      free u (List.mem_cons_of_mem t member)]
    rfl

theorem keepFirstNone_append_none {ts : List Descriptor} (free : ∀ t ∈ ts, t.isNone = false) :
    keepFirstNone (ts ++ [.none]) = ts ++ [.none] := by
  induction ts with
  | nil => rfl
  | cons t rest ih =>
    rw [List.cons_append, keepFirstNone, free t List.mem_cons_self, ih fun u member =>
      free u (List.mem_cons_of_mem t member)]
    rfl

theorem filter_alternatives {t : Descriptor} (hu : t.isUnion = true) :
    (t.alternatives.filter fun u => !u.isNone) = t.splitNull.1 := by
  rw [alternatives, filter_keepFirstNone, splitNull_fst hu]

theorem any_alternatives {t : Descriptor} (hu : t.isUnion = true) :
    t.alternatives.any isNone = t.splitNull.2 := by
  rw [alternatives, any_keepFirstNone, splitNull_snd hu]

theorem mem_leaves_of_mem_alternatives {t m : Descriptor} (member : m ∈ t.alternatives) :
    m ∈ t.leaves :=
  mem_of_mem_keepFirstNone member

theorem isUnion_of_mem_splitNull {t m : Descriptor} (member : m ∈ t.splitNull.1) :
    m.isUnion = false :=
  isUnion_of_mem_leaves t (mem_leaves_of_mem_splitNull t member)

theorem mem_leaves_of_splitNull_eq {t only : Descriptor} (alone : t.splitNull.1 = [only]) :
    only ∈ t.leaves :=
  mem_leaves_of_mem_splitNull t (by rw [alone]; exact List.mem_singleton_self only)

theorem isNone_of_mem_splitNull {t m : Descriptor} (hu : t.isUnion = true)
    (member : m ∈ t.splitNull.1) : m.isNone = false := by
  rw [splitNull_fst hu, List.mem_filter] at member
  simpa using member.2

/-! ## Unions made anew -/

/-- Types of which none is null and none a union, as the alternatives of a union. -/
def AreArms (ts : List Descriptor) : Prop :=
  ∀ t ∈ ts, t.isUnion = false ∧ t.isNone = false

theorem areArms_splitNull {t : Descriptor} (hu : t.isUnion = true) : AreArms t.splitNull.1 :=
  fun _ member => ⟨isUnion_of_mem_splitNull member, isNone_of_mem_splitNull hu member⟩

theorem AreArms.leavesOfAll {ts : List Descriptor} (arms : AreArms ts) :
    Descriptor.leavesOfAll ts = ts :=
  leavesOfAll_of_not_isUnion fun t member => (arms t member).1

theorem AreArms.filter {ts : List Descriptor} (arms : AreArms ts) :
    (ts.filter fun u => !u.isNone) = ts :=
  List.filter_eq_self.2 fun t member => by rw [(arms t member).2]; rfl

theorem AreArms.any {ts : List Descriptor} (arms : AreArms ts) : ts.any isNone = false :=
  List.any_eq_false.2 fun t member => by rw [(arms t member).2]; exact Bool.false_ne_true

/-- The null that stands behind the arms of a union, if there is one. -/
def nullArm (hadNull : Bool) : List Descriptor :=
  if hadNull then [.none] else []

theorem filter_isNone_keepFirstNone (ts : List Descriptor) :
    (keepFirstNone ts).filter isNone = nullArm (ts.any isNone) := by
  induction ts with
  | nil => rfl
  | cons t rest ih =>
    rw [keepFirstNone, List.any_cons]
    cases null : t.isNone with
    | true =>
      have others : (rest.filter fun u => !u.isNone).filter isNone = [] := by
        rw [List.filter_filter]
        simp
      rw [if_pos rfl, List.filter_cons_of_pos null, others, eq_none_of_isNone null]
      rfl
    | false =>
      have dropped : ¬ t.isNone = true := by
        rw [null]
        exact Bool.false_ne_true
      rw [if_neg Bool.false_ne_true, List.filter_cons_of_neg dropped, ih, Bool.false_or]

/-- Null is an alternative of a union once or not at all. -/
theorem filter_isNone_alternatives {t : Descriptor} (hu : t.isUnion = true) :
    t.alternatives.filter isNone = nullArm t.splitNull.2 := by
  rw [alternatives, filter_isNone_keepFirstNone, splitNull_snd hu]

theorem AreArms.leavesOfAll_append {ts : List Descriptor} (arms : AreArms ts) (hadNull : Bool) :
    Descriptor.leavesOfAll (ts ++ nullArm hadNull) = ts ++ nullArm hadNull := by
  rw [Descriptor.leavesOfAll_append, arms.leavesOfAll]
  cases hadNull <;> rfl

theorem AreArms.splitNull_union {ts : List Descriptor} (arms : AreArms ts) (hadNull : Bool) :
    splitNull (.union (ts ++ nullArm hadNull)) = (ts, hadNull) := by
  refine Prod.ext ?_ ?_
  · rw [splitNull_fst rfl, leaves, arms.leavesOfAll_append, List.filter_append, arms.filter]
    cases hadNull <;> simp [nullArm, isNone]
  · rw [splitNull_snd rfl, leaves, arms.leavesOfAll_append, List.any_append, arms.any]
    cases hadNull <;> rfl

theorem AreArms.alternatives_union {ts : List Descriptor} (arms : AreArms ts) (hadNull : Bool) :
    alternatives (.union (ts ++ nullArm hadNull)) = ts ++ nullArm hadNull := by
  rw [alternatives, leaves, arms.leavesOfAll_append]
  cases hadNull with
  | false =>
    rw [nullArm, if_neg Bool.false_ne_true, List.append_nil]
    exact keepFirstNone_of_not_any fun t member => (arms t member).2
  | true => exact keepFirstNone_append_none fun t member => (arms t member).2

/-! ## Maps that leave unions as they are -/

/-- A map of types that works on the leaves of a union. -/
structure RespectsUnions (f : Descriptor → Descriptor) : Prop where
  optional : ∀ inner, f (.optional inner) = .optional (f inner)
  union : ∀ members, f (.union members) = .union (members.map f)
  isUnion : ∀ t, (f t).isUnion = t.isUnion
  isNone : ∀ t, (f t).isNone = t.isNone

namespace RespectsUnions

variable {f : Descriptor → Descriptor}

theorem map_none (respects : RespectsUnions f) : f .none = .none :=
  eq_none_of_isNone (respects.isNone .none)

theorem leaves_of_single (respects : RespectsUnions f) {t : Descriptor}
    (single : t.isUnion = false) : (f t).leaves = t.leaves.map f := by
  rw [leaves_of_not_isUnion single, leaves_of_not_isUnion (by rw [respects.isUnion, single])]
  rfl

mutual
theorem leaves_map (respects : RespectsUnions f) : (t : Descriptor) →
    (f t).leaves = t.leaves.map f
  | .optional inner => by
    rw [respects.optional, leaves, leaves, leaves_map respects inner, List.map_append,
      List.map_singleton, respects.map_none]
  | .union members => by
    rw [respects.union, leaves, leaves, leavesOfAll_map respects members]
  | .primitive _ | .none | .any | .list _ | .mapping _ _ | .record _ _ | .enumeration _ _
  | .path | .fileData => respects.leaves_of_single rfl

theorem leavesOfAll_map (respects : RespectsUnions f) : (ts : List Descriptor) →
    leavesOfAll (ts.map f) = (leavesOfAll ts).map f
  | [] => rfl
  | t :: rest => by
    rw [List.map_cons, leavesOfAll, leavesOfAll, leaves_map respects t,
      leavesOfAll_map respects rest, List.map_append]
end

variable (respects : RespectsUnions f)

include respects

theorem filter_map (ts : List Descriptor) :
    ((ts.map f).filter fun u => !u.isNone) = (ts.filter fun u => !u.isNone).map f := by
  rw [List.filter_map]
  congr 1
  exact List.filter_congr fun t _ => by rw [Function.comp_apply, respects.isNone]

theorem any_map (ts : List Descriptor) :
    (ts.map f).any Descriptor.isNone = ts.any Descriptor.isNone := by
  rw [List.any_map]
  congr 1
  exact funext respects.isNone

theorem splitNull_map (t : Descriptor) :
    (f t).splitNull = (t.splitNull.1.map f, t.splitNull.2) := by
  cases hu : t.isUnion with
  | false =>
    rw [splitNull_of_not_isUnion hu, splitNull_of_not_isUnion (by rw [respects.isUnion, hu])]
    rfl
  | true =>
    have hf : (f t).isUnion = true := by rw [respects.isUnion, hu]
    refine Prod.ext ?_ ?_
    · rw [splitNull_fst hu, splitNull_fst hf, respects.leaves_map, respects.filter_map]
    · rw [splitNull_snd hu, splitNull_snd hf, respects.leaves_map, respects.any_map]

theorem keepFirstNone_map (ts : List Descriptor) :
    keepFirstNone (ts.map f) = (keepFirstNone ts).map f := by
  induction ts with
  | nil => rfl
  | cons t rest ih =>
    rw [List.map_cons, keepFirstNone, keepFirstNone, respects.isNone, respects.filter_map, ih]
    split <;> rfl

theorem alternatives_map (t : Descriptor) : (f t).alternatives = t.alternatives.map f := by
  rw [alternatives, alternatives, respects.leaves_map, respects.keepFirstNone_map]

end RespectsUnions

end CallContract.Descriptor
