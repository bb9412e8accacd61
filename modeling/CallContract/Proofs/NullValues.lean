import CallContract.Proofs.Interchange

/-!
# Which types take null

A type takes null if null is one of its alternatives, or if one of them is the type of anything.

* `Descriptor.fits_null_iff` is by the leaves of the type: of those that have a node, only null and
  anything take null.
* `Descriptor.isOptional_iff`: a type counts as optional if null is one of its leaves, or if it is
  itself the type of anything. The leaves of a union are searched for null alone.
* `validate_null_iff`: so an optional type takes null, and besides only a union does that has
  anything among its alternatives. `anyOrText` is such a union.
-/

namespace CallContract

namespace Descriptor

/-! ## Leaves -/

theorem mem_splitNull_of_mem_leaves {t m : Descriptor} (member : m ∈ t.leaves)
    (other : m.isNone = false) : m ∈ t.splitNull.1 := by
  cases hu : t.isUnion with
  | true =>
    rw [splitNull_fst hu]
    exact List.mem_filter.2 ⟨member, by rw [other]; rfl⟩
  | false =>
    rw [leaves_of_not_isUnion hu] at member
    rwa [splitNull_of_not_isUnion hu]

/-- Each leaf of a type that has a node has one. -/
theorem encode_of_mem_leaves {t m : Descriptor} {s : Json} (encoded : encode t = .ok s)
    (member : m ∈ t.leaves) : ∃ node, encode m = .ok node := by
  cases null : m.isNone with
  | true =>
    rw [eq_none_of_isNone null, encode]
    exact ⟨_, rfl⟩
  | false => exact encode_of_mem_splitNull encoded m (mem_splitNull_of_mem_leaves member null)

/-! ## Null -/

/-- The members of an enumeration that has a node are scalars, and null is none. -/
theorem not_fits_null_enumeration {name : String} {members : List EnumMember} {s : Json}
    (encoded : encode (.enumeration name members) = .ok s) :
    ¬(enumeration name members).Fits .null := by
  intro fits
  rcases fits_enumeration.1 fits with ⟨m, member, same⟩
  rcases encode_enumeration_iff.1 encoded with ⟨kind, _, ofKind, _⟩
  have noKind : Primitive.ofValue? m.value = Option.none := Primitive.ofValue?_eq_of_equal same
  cases (ofKind m member).symm.trans noKind

/-- Of the types that are no unions and have a node, null and anything take null. -/
theorem fits_null_iff_of_not_isUnion {m : Descriptor} {s : Json} (single : m.isUnion = false)
    (encoded : encode m = .ok s) : m.Fits .null ↔ m = .none ∨ m = .any := by
  cases m with
  | none => exact iff_of_true (fits_none.2 rfl) (Or.inl rfl)
  | any => exact iff_of_true fits_any (Or.inr rfl)
  | optional inner => cases single
  | union members => cases single
  | primitive kind =>
    rw [fits_primitive]
    cases kind <;> simp [Primitive.Takes]
  | list element => simp [fits_list]
  | mapping key value => simp [fits_mapping]
  | record name fields => simp [fits_record]
  | enumeration name members => simp [not_fits_null_enumeration encoded]
  | path => simp [fits_path]
  | fileData => simp [fits_fileData, FileData.ofJson]

/-- A type takes null if null or anything is one of its leaves. -/
theorem fits_null_iff {t : Descriptor} {s : Json} (encoded : encode t = .ok s) :
    t.Fits .null ↔ .none ∈ t.leaves ∨ .any ∈ t.leaves := by
  have leafwise (m : Descriptor) (member : m ∈ t.leaves) :
      m.Fits .null ↔ m = .none ∨ m = .any := by
    rcases encode_of_mem_leaves encoded member with ⟨node, leafEncoded⟩
    exact fits_null_iff_of_not_isUnion (isUnion_of_mem_leaves t member) leafEncoded
  rw [fits_iff_leaves]
  constructor
  · intro given
    rcases given with ⟨m, member, fits⟩
    rcases (leafwise m member).1 fits with rfl | rfl
    · exact Or.inl member
    · exact Or.inr member
  · intro given
    rcases given with member | member
    · exact ⟨.none, member, (leafwise .none member).2 (Or.inl rfl)⟩
    · exact ⟨.any, member, (leafwise .any member).2 (Or.inr rfl)⟩

/-- What counts as optional: the type of anything, and types of which null is a leaf. -/
theorem isOptional_iff {t : Descriptor} :
    t.isOptional = true ↔ t = .any ∨ .none ∈ t.leaves := by
  cases t with
  | optional inner => simp [isOptional, leaves]
  | union members =>
    have asked : (union members).isOptional = (union members).splitNull.2 := rfl
    have notAny : union members ≠ .any := Descriptor.noConfusion
    rw [asked, splitNull_snd rfl, List.any_eq_true, or_iff_right notAny]
    constructor
    · intro given
      rcases given with ⟨m, member, null⟩
      rwa [← eq_none_of_isNone null]
    · intro member
      exact ⟨.none, member, rfl⟩
  | _ => simp [isOptional, leaves]

end Descriptor

/-- A type that has a document takes null exactly if it is optional, or is a union that has anything
among its alternatives. -/
theorem validate_null_iff {t : Descriptor} {s : Json} (encoded : encode t = .ok s) :
    (∃ x, validate t .null = .ok x) ↔
      t.isOptional = true ∨ (t.isUnion = true ∧ Descriptor.any ∈ t.leaves) := by
  have byLeaves : (∃ x, validate t .null = .ok x) ↔
      Descriptor.none ∈ t.leaves ∨ Descriptor.any ∈ t.leaves := Descriptor.fits_null_iff encoded
  rw [byLeaves, Descriptor.isOptional_iff]
  cases hu : t.isUnion with
  | true =>
    have notAny : t ≠ .any := by
      intro same
      subst same
      cases hu
    rw [or_iff_right notAny, and_iff_right rfl]
  | false =>
    have alone : Descriptor.any ∈ t.leaves ↔ t = .any := by
      rw [Descriptor.leaves_of_not_isUnion hu, List.mem_singleton]
      exact eq_comm
    have never : ¬(false = true ∧ t = .any) := fun both => Bool.false_ne_true both.1
    rw [alone, or_iff_left never]
    exact or_comm

/-- A text, or a list of anything, or null. -/
def optionalText : Descriptor :=
  .union [.string, .optional (.list .any)]

theorem encode_optionalText :
    encode optionalText =
      .ok (Node.anyOf [Node.primitive .string, Node.array Node.anything, Node.null]) := by
  have items : encode (.list .any) = .ok (Node.array Node.anything) :=
    encode_list_iff.2 ⟨_, by rw [encode], rfl⟩
  refine (encode_union_iff rfl).2 (Or.inr (Or.inr ⟨by decide, _, ?_, rfl⟩))
  exact .cons (encode_primitive .string) (.cons items (.cons (by rw [encode]) .nil))

/-- The null of a nested union is one of its alternatives. -/
theorem validate_null_iff_optionalText :
    encode optionalText =
        .ok (Node.anyOf [Node.primitive .string, Node.array Node.anything, Node.null]) ∧
      optionalText.isOptional = true ∧ ∃ x, validate optionalText .null = .ok x :=
  ⟨encode_optionalText, rfl, (validate_null_iff encode_optionalText).2 (Or.inl rfl)⟩

/-- The union of anything and texts. -/
def anyOrText : Descriptor :=
  .union [.any, .string]

theorem encode_anyOrText :
    encode anyOrText = .ok (Node.anyOf [Node.anything, Node.primitive .string]) := by
  refine (encode_union_iff rfl).2 (Or.inr (Or.inr ⟨by decide, _, ?_, rfl⟩))
  exact .cons (by rw [encode]) (.cons (encode_primitive .string) .nil)

/-- It takes null and does not count as optional. -/
theorem not_validate_null_iff_anyOrText :
    ¬∀ (t : Descriptor) (s : Json), encode t = .ok s →
      (t.isOptional = true ↔ ∃ x, validate t .null = .ok x) := by
  intro agree
  have taken : anyOrText.Fits .null :=
    (Descriptor.fits_null_iff encode_anyOrText).2 (Or.inr List.mem_cons_self)
  have optional : anyOrText.isOptional = true := (agree _ _ encode_anyOrText).2 taken
  cases optional

end CallContract
