import CallContract.Json.Equality
import CallContract.Proofs.KeyedLists
import Mathlib.Data.List.Sort
import Mathlib.Data.String.Basic

/-!
# Equal values, part by part

The canonical form sorts the fields of an object by key, so it is a list that look-ups determine.

* `Json.equal_arr_iff`: arrays are equal if they correspond item by item.
* `Json.equal_obj_iff`: objects are equal if they have equal values under the same keys;
  `Json.equal_obj_of_forall₂` is the case of fields in one order.
* `Json.BothEqual` is equality of values that may be absent.
-/

namespace CallContract.Json

/-! ## Arrays -/

theorem canonicalItems_eq_map (items : List Json) : canonicalItems items = items.map canonical := by
  induction items with
  | nil => rfl
  | cons item rest ih => rw [canonicalItems, List.map_cons, ih]

theorem equal_arr_iff {as bs : List Json} :
    (arr as).equal (arr bs) = true ↔ List.Forall₂ (fun a b => a.equal b = true) as bs := by
  simp only [equal_iff]
  rw [canonical, canonical, canonicalItems_eq_map, canonicalItems_eq_map, arr.injEq,
    List.map_eq_map_iff_forall₂]

/-! ## Values that may be absent -/

/-- Two values that are both absent, or both there and equal. -/
abbrev BothEqual : Option Json → Option Json → Prop :=
  Option.Rel fun x y => x.equal y = true

theorem equal?_iff {x y : Option Json} : equal? x y = true ↔ BothEqual x y := by
  cases x <;> cases y <;> simp [equal?, BothEqual]

theorem bothEqual_iff {x y : Option Json} :
    BothEqual x y ↔ x.map canonical = y.map canonical := by
  cases x <;> cases y <;> simp [BothEqual, equal_iff]

/-! ## Sorted fields -/

/-- A field stands before another one in the order of keys. -/
def KeyBefore (p q : String × Json) : Prop :=
  p.1 < q.1

instance : Std.Irrefl KeyBefore :=
  ⟨fun p => lt_irrefl p.1⟩

instance : Std.Antisymm KeyBefore :=
  ⟨fun _ _ before after => absurd after (lt_asymm before)⟩

theorem mem_of_mem_insertSorted {p : String × Json} {key : String} {value : Json}
    {fields : List (String × Json)} (member : p ∈ insertSorted key value fields) :
    p = (key, value) ∨ p ∈ fields := by
  induction fields with
  | nil => exact Or.inl (List.mem_singleton.1 member)
  | cons field rest ih =>
    rw [insertSorted] at member
    split at member
    · exact (List.mem_cons.1 member).imp_right (List.mem_cons_of_mem _)
    · split at member
      · exact List.mem_cons.1 member
      · rcases List.mem_cons.1 member with first | later
        · exact Or.inr (List.mem_cons.2 (Or.inl first))
        · exact (ih later).imp_right (List.mem_cons_of_mem _)

theorem pairwise_insertSorted {fields : List (String × Json)} (sorted : fields.Pairwise KeyBefore)
    (key : String) (value : Json) : (insertSorted key value fields).Pairwise KeyBefore := by
  induction fields with
  | nil => exact List.pairwise_singleton _ _
  | cons field rest ih =>
    obtain ⟨k, v⟩ := field
    obtain ⟨least, others⟩ := List.pairwise_cons.1 sorted
    rw [insertSorted]
    split
    · rename_i same
      subst same
      exact List.pairwise_cons.2 ⟨least, others⟩
    · rename_i other
      split
      · rename_i before
        refine List.pairwise_cons.2 ⟨fun p member => ?_, sorted⟩
        rcases List.mem_cons.1 member with rfl | later
        · exact before
        · exact lt_trans before (least p later)
      · rename_i notBefore
        refine List.pairwise_cons.2 ⟨fun p member => ?_, ih others⟩
        rcases mem_of_mem_insertSorted member with rfl | later
        · exact lt_of_le_of_ne (not_lt.1 notBefore) (Ne.symm other)
        · exact least p later

theorem pairwise_canonicalFields (fields : List (String × Json)) :
    (canonicalFields fields).Pairwise KeyBefore := by
  induction fields with
  | nil => exact .nil
  | cons field rest ih => exact pairwise_insertSorted ih _ _

theorem get?_insertSorted (key k : String) (v : Json) (fields : List (String × Json)) :
    Keyed.get? key (insertSorted k v fields) =
      if k = key then some v else Keyed.get? key fields := by
  induction fields with
  | nil => rfl
  | cons field rest ih =>
    rcases field with ⟨l, w⟩
    rw [insertSorted]
    split
    · rename_i same
      rw [Keyed.get?_cons, Keyed.get?_cons, ← same]
      split <;> rfl
    · rename_i other
      split
      · rfl
      · rw [Keyed.get?_cons, Keyed.get?_cons, ih]
        split
        · rename_i found
          rw [if_neg fun same => other (same.trans found.symm)]
        · rfl

theorem get?_canonicalFields (key : String) (fields : List (String × Json)) :
    Keyed.get? key (canonicalFields fields) = (Keyed.get? key fields).map canonical := by
  induction fields with
  | nil => rfl
  | cons field rest ih =>
    rcases field with ⟨k, v⟩
    rw [canonicalFields, get?_insertSorted, Keyed.get?_cons, ih]
    split <;> rfl

theorem mem_canonicalFields_iff {key : String} {value : Json} {fields : List (String × Json)} :
    (key, value) ∈ canonicalFields fields ↔
      (Keyed.get? key fields).map canonical = some value := by
  have keys : ((canonicalFields fields).map Prod.fst).Pairwise (· < ·) :=
    List.pairwise_map.2 (pairwise_canonicalFields fields)
  rw [← get?_canonicalFields, Keyed.get?_eq_some_iff keys.nodup]

/-! ## Objects -/

/-- Objects are equal if under each key both have equal values, or both none. -/
theorem equal_obj_iff {fs gs : List (String × Json)} :
    (obj fs).equal (obj gs) = true ↔
      ∀ key, BothEqual (Keyed.get? key fs) (Keyed.get? key gs) := by
  constructor
  · intro same key
    rw [equal_iff, canonical, canonical, obj.injEq] at same
    rw [bothEqual_iff, ← get?_canonicalFields, same, get?_canonicalFields]
  · intro same
    have fields : canonicalFields fs = canonicalFields gs := by
      -- Sorted lists without repeated keys are the same if they have the same members.
      refine (pairwise_canonicalFields fs).eq_of_mem_iff (pairwise_canonicalFields gs) fun p => ?_
      obtain ⟨key, value⟩ := p
      rw [mem_canonicalFields_iff, mem_canonicalFields_iff, bothEqual_iff.1 (same key)]
    rw [equal_iff, canonical, canonical, fields]

/-- Two fields of one name whose values are equal. -/
def SameField (p q : String × Json) : Prop :=
  p.1 = q.1 ∧ p.2.equal q.2 = true

/-- Objects whose fields are equal one by one are equal. -/
theorem equal_obj_of_forall₂ {fs gs : List (String × Json)}
    (same : List.Forall₂ SameField fs gs) : (obj fs).equal (obj gs) = true :=
  equal_obj_iff.2 (Keyed.rel_get? same)

end CallContract.Json
