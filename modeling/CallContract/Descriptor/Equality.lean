import CallContract.Descriptor.Basic
import CallContract.Json.Equality

/-!
# Equality of types

* `Descriptor.equal` compares everything, names and spelling too; values are compared as JSON values.
* `Descriptor.structurallyEqual` ignores the names of records and enumerations, the labels of
  members, and how optionality and nesting of unions are spelled.
-/

namespace CallContract

/-- Whether two members have the same label and value. -/
def EnumMember.equal (a b : EnumMember) : Bool :=
  a.label == b.label && a.value.equal b.value

/-- Whether a test holds for the items of two lists of one length, pair by pair. -/
def pairwiseAll {α β : Type} (test : α → β → Bool) : List α → List β → Bool
  | [], [] => true
  | a :: as, b :: bs => test a b && pairwiseAll test as bs
  | _, _ => false

namespace Descriptor

mutual
/-- Whether two types are the same in every respect. -/
def equal : Descriptor → Descriptor → Bool
  | .primitive a, .primitive b => decide (a = b)
  | .none, .none => true
  | .any, .any => true
  | .path, .path => true
  | .fileData, .fileData => true
  | .optional a, .optional b => equal a b
  | .union as, .union bs => equalAll as bs
  | .list a, .list b => equal a b
  | .mapping k a, .mapping l b => equal k l && equal a b
  | .record n fs, .record m gs => n == m && equalFields fs gs
  | .enumeration n as, .enumeration m bs => n == m && pairwiseAll EnumMember.equal as bs
  | _, _ => false

/-- Whether two lists of types are the same. -/
def equalAll : List Descriptor → List Descriptor → Bool
  | [], [] => true
  | a :: as, b :: bs => equal a b && equalAll as bs
  | _, _ => false

/-- Whether two lists of fields are the same. -/
def equalFields : List (Field Descriptor) → List (Field Descriptor) → Bool
  | [], [] => true
  | ⟨n, a, d⟩ :: fs, ⟨m, b, e⟩ :: gs =>
    n == m && equal a b && Json.equal? d e && equalFields fs gs
  | _, _ => false
end

/-- Whether two types admit the same structure. Where one side is a union, the non-null alternatives
of both are compared in order, and whether both have null. -/
def structurallyEqual (a b : Descriptor) : Bool :=
  if hu : a.isUnion ∨ b.isUnion then
    a.splitNull.2 == b.splitNull.2 && a.splitNull.1.length == b.splitNull.1.length &&
      (a.splitNull.1.attach.zip b.splitNull.1.attach).all fun pair =>
        have hlt : sizeOf pair.1.val + sizeOf pair.2.val < sizeOf a + sizeOf b := by
          have ha := sizeOf_le_of_mem_leaves a (mem_leaves_of_mem_splitNull a pair.1.property)
          have hb := sizeOf_le_of_mem_leaves b (mem_leaves_of_mem_splitNull b pair.2.property)
          rcases hu with hu | hu
          · have := sizeOf_lt_of_mem_splitNull hu pair.1.property
            omega
          · have := sizeOf_lt_of_mem_splitNull hu pair.2.property
            omega
        structurallyEqual pair.1.val pair.2.val
  else
    match a, b with
    | .primitive p, .primitive q => decide (p = q)
    | .none, .none => true
    | .any, .any => true
    | .path, .path => true
    | .fileData, .fileData => true
    | .list a, .list b => structurallyEqual a b
    | .mapping k a, .mapping l b => structurallyEqual k l && structurallyEqual a b
    | .record _ fs, .record _ gs =>
      fs.length == gs.length && (fs.attach.zip gs.attach).all fun pair =>
        have hlt : sizeOf pair.1.val.type + sizeOf pair.2.val.type < sizeOf fs + sizeOf gs := by
          have := sizeOf_lt_of_mem_fields pair.1.property
          have := sizeOf_lt_of_mem_fields pair.2.property
          omega
        pair.1.val.name == pair.2.val.name &&
          Json.equal? pair.1.val.default pair.2.val.default &&
          structurallyEqual pair.1.val.type pair.2.val.type
    | .enumeration _ as, .enumeration _ bs =>
      pairwiseAll (fun a b => a.value.equal b.value) as bs
    | _, _ => false
termination_by sizeOf a + sizeOf b
decreasing_by
  all_goals first
    | exact hlt
    | (simp; omega)

end Descriptor

end CallContract
