import CallContract.Proofs.Records
import CallContract.Schema.Decode

/-!
# The normal form of a type

What of a type a schema document can hold.

* `Descriptor.normal`: a union becomes its alternatives in order with null behind them; one that is
  left alone stands for the union, and its null is lost. A field whose default is null admits null.
* `Descriptor.normal_union` and `Descriptor.normal_record` are its rules.
* `Descriptor.distinctFields_normal` and `Descriptor.nullDefaultsOptional_normal`: a normal form
  keeps the names of fields, and in it a default of null stands only where the type has null.
-/

namespace CallContract

/-- A field that admits null if null is its default. -/
def Field.admitDefault (f : Field Descriptor) : Field Descriptor :=
  if f.default = some .null then { f with type := f.type.widen } else f

namespace Descriptor

/-! ## Widened types -/

theorem isOptional_widen (t : Descriptor) : t.widen.isOptional = true := by
  rw [widen]
  cases h : t.isOptional with
  | true => rwa [if_pos rfl]
  | false => rfl

theorem widen_rewrite (r : Rewriting) (t : Descriptor) :
    (rewrite r t).widen = rewrite r t.widen := by
  rw [widen, widen, isOptional_rewrite]
  split <;> rfl

theorem everyRecord_widen {p : List (Field Descriptor) → Prop} {t : Descriptor} :
    EveryRecord p t.widen ↔ EveryRecord p t := by
  rw [widen]
  split <;> rfl

theorem widen_unnamed (t : Descriptor) : t.widen.unnamed = t.unnamed.widen :=
  (widen_rewrite _ t).symm

end Descriptor

namespace Field

@[simp] theorem admitDefault_name (f : Field Descriptor) : f.admitDefault.name = f.name := by
  rw [admitDefault]
  split <;> rfl

@[simp] theorem admitDefault_default (f : Field Descriptor) :
    f.admitDefault.default = f.default := by
  rw [admitDefault]
  split <;> rfl

theorem admitDefault_type (f : Field Descriptor) :
    f.admitDefault.type = if f.default = some .null then f.type.widen else f.type := by
  rw [admitDefault]
  split <;> rfl

theorem mapType_admitDefault (r : Descriptor.Rewriting) (f : Field Descriptor) :
    f.admitDefault.mapType (Descriptor.rewrite r) =
      (f.mapType (Descriptor.rewrite r)).admitDefault := by
  rw [admitDefault, admitDefault, mapType_default]
  split
  · rw [mapType_type, Descriptor.widen_rewrite]
    rfl
  · rfl

end Field

namespace Descriptor

/-! ## The normal form -/

/-- The union of some alternatives, with null behind them if it is one of them. One alternative is
taken alone, without null. -/
def foldedUnion (hadNull : Bool) : List Descriptor → Descriptor
  | [] => .none
  | [t] => t
  | ts => .union (ts ++ nullArm hadNull)

mutual
/-- The normal form of a type. -/
def normal (t : Descriptor) : Descriptor :=
  match t with
  | .primitive kind => .primitive kind
  | .none => .none
  | .any => .any
  | .path => .path
  | .fileData => .fileData
  | .enumeration name members => .enumeration name members
  | .list element => .list (normal element)
  | .mapping key value => .mapping (normal key) (normal value)
  | .record name fields =>
    .record name (fields.attach.map fun ⟨f, h⟩ =>
      have := sizeOf_lt_of_mem_fields h
      Field.admitDefault { name := f.name, type := normal f.type, default := f.default })
  | .optional inner => normalUnion (.optional inner) rfl
  | .union members => normalUnion (.union members) rfl
termination_by (sizeOf t, 1)

/-- The normal form of a union. -/
def normalUnion (t : Descriptor) (hu : t.isUnion = true) : Descriptor :=
  foldedUnion t.splitNull.2 (t.splitNull.1.attach.map fun ⟨m, h⟩ =>
    have := sizeOf_lt_of_mem_splitNull hu h
    normal m)
termination_by (sizeOf t, 0)
end

/-- The alternatives of a union in normal form are the normal forms of its alternatives. -/
theorem normal_union {t : Descriptor} (hu : t.isUnion = true) :
    t.normal = foldedUnion t.splitNull.2 (t.splitNull.1.map normal) := by
  have unfolded : t.normal = normalUnion t hu := by
    cases t with
    | optional inner => rw [normal]
    | union members => rw [normal]
    | _ => cases hu
  rw [unfolded, normalUnion]
  congr 1
  exact List.attach_map_val (f := normal)

theorem normal_record (name : String) (fields : List (Field Descriptor)) :
    normal (.record name fields) =
      .record name (fields.map fun f => (f.mapType normal).admitDefault) := by
  rw [normal]
  congr 1
  exact List.attach_map_val (f := fun f : Field Descriptor => (f.mapType normal).admitDefault)

theorem isUnion_normal {t : Descriptor} (single : t.isUnion = false) :
    t.normal.isUnion = false := by
  cases t with
  | optional inner => cases single
  | union members => cases single
  | _ => rw [normal]; rfl

theorem isNone_normal {t : Descriptor} (single : t.isUnion = false) :
    t.normal.isNone = t.isNone := by
  cases t with
  | optional inner => cases single
  | union members => cases single
  | list element => rw [normal]; rfl
  | mapping key value => rw [normal]; rfl
  | record name fields => rw [normal]; rfl
  | _ => rw [normal]

theorem AreArms.map_normal {ts : List Descriptor} (arms : AreArms ts) :
    AreArms (ts.map normal) := by
  intro u member
  obtain ⟨t, there, rfl⟩ := List.mem_map.1 member
  exact ⟨isUnion_normal (arms t there).1, (isNone_normal (arms t there).1).trans (arms t there).2⟩

theorem foldedUnion_of_length {ts : List Descriptor} (several : 2 ≤ ts.length) (hadNull : Bool) :
    foldedUnion hadNull ts = .union (ts ++ nullArm hadNull) := by
  rcases ts with _ | ⟨t, _ | ⟨u, rest⟩⟩
  · exact absurd several (by simp)
  · exact absurd several (by simp)
  · rfl

/-! ## What a normal form keeps -/

section EveryRecord

variable {p q : List (Field Descriptor) → Prop}

theorem everyRecord_foldedUnion {ts : List Descriptor} (hadNull : Bool)
    (every : ∀ t ∈ ts, EveryRecord p t) : EveryRecord p (foldedUnion hadNull ts) := by
  rcases ts with _ | ⟨t, _ | ⟨u, rest⟩⟩
  · exact trivial
  · exact every t List.mem_cons_self
  · refine everyRecordOfAll_iff.2 (List.forall_mem_append.2 ⟨every, fun m member => ?_⟩)
    cases hadNull with
    | false => cases member
    | true =>
      cases List.mem_singleton.1 member
      exact trivial

theorem EveryRecord.normal
    (carried : ∀ fields, p fields →
      q (fields.map fun f => (f.mapType Descriptor.normal).admitDefault))
    {t : Descriptor} (every : EveryRecord p t) : EveryRecord q t.normal := by
  induction t using leafInduction with
  | list element ih =>
    rw [Descriptor.normal]
    exact ih every
  | mapping key value ihk ihv =>
    rw [Descriptor.normal]
    exact ⟨ihk every.1, ihv every.2⟩
  | record name fields ih =>
    rw [everyRecord_record] at every
    rw [normal_record, everyRecord_record, List.forall_mem_map]
    refine ⟨carried fields every.1, fun f member => ?_⟩
    have part := ih f member (every.2 f member)
    rw [Field.admitDefault_type]
    split
    · exact everyRecord_widen.2 part
    · exact part
  | union t hu ih =>
    rw [normal_union hu]
    refine everyRecord_foldedUnion _ fun u member => ?_
    obtain ⟨m, there, rfl⟩ := List.mem_map.1 member
    have leaf := mem_leaves_of_mem_splitNull t there
    exact ih m leaf (every.leaf leaf)
  | _ => rw [Descriptor.normal]; trivial

end EveryRecord

theorem names_normalFields (fields : List (Field Descriptor)) :
    (fields.map fun f => (f.mapType normal).admitDefault).map Field.name =
      fields.map Field.name := by
  rw [List.map_map]
  exact List.map_congr_left fun f _ => Field.admitDefault_name _

theorem distinctFields_normal {t : Descriptor} (distinct : t.DistinctFields) :
    t.normal.DistinctFields :=
  EveryRecord.normal (fun fields names => by rwa [names_normalFields]) distinct

theorem nullDefaultsOptional_normal (t : Descriptor) : t.normal.NullDefaultsOptional := by
  refine EveryRecord.normal (fun fields _ => ?_) (EveryRecord.true t)
  rw [List.forall_mem_map]
  intro f _ null
  rw [Field.admitDefault_default] at null
  rw [Field.admitDefault_type, if_pos null]
  exact isOptional_widen _

end Descriptor

end CallContract
