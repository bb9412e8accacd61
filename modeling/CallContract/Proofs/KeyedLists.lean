import CallContract.Keyed
import CallContract.Proofs.Traversal
import Mathlib.Data.List.Nodup

/-!
# Bindings one after the other

* `Keyed.ofPairs_of_nodup`: pairs with distinct keys are kept as they are.
* `Keyed.nodup_keys_ofPairs`: what a sequence of bindings leaves has distinct keys.
* `Keyed.forall₂_ofPairs`: sequences of bindings whose pairs are related, key by key, leave related
  lists; `Keyed.ofPairs_map` is the case of a function of the values.
-/

namespace CallContract.Keyed

variable {α β : Type}

/-! ## Looking up -/

theorem contains_iff {key : String} {xs : List (String × α)} :
    contains key xs = true ↔ key ∈ xs.map Prod.fst := by
  induction xs with
  | nil => simp [contains]
  | cons pair rest ih =>
    obtain ⟨k, v⟩ := pair
    rw [contains] at ih ⊢
    rw [get?_cons, List.map_cons, List.mem_cons, ← ih]
    by_cases same : k = key
    · simp [same]
    · simp [same, Ne.symm same]

theorem get?_append (key : String) (xs ys : List (String × α)) :
    get? key (xs ++ ys) = (get? key xs).or (get? key ys) := by
  induction xs with
  | nil => rfl
  | cons pair rest ih =>
    obtain ⟨k, v⟩ := pair
    rw [List.cons_append, get?_cons, get?_cons, ih]
    split <;> rfl

theorem get?_map_snd (f : α → β) (key : String) (xs : List (String × α)) :
    get? key (xs.map fun (k, x) => (k, f x)) = (get? key xs).map f := by
  induction xs with
  | nil => rfl
  | cons pair rest ih =>
    obtain ⟨k, x⟩ := pair
    rw [List.map_cons, get?_cons, get?_cons, ih]
    split <;> rfl

/-- Among distinct keys a key has the value that it stands with. -/
theorem get?_eq_some_iff {key : String} {value : α} {xs : List (String × α)}
    (distinct : (xs.map Prod.fst).Nodup) : get? key xs = some value ↔ (key, value) ∈ xs := by
  refine ⟨mem_of_get?, fun member => ?_⟩
  induction xs with
  | nil => cases member
  | cons pair rest ih =>
    obtain ⟨k, v⟩ := pair
    rw [List.map_cons, List.nodup_cons] at distinct
    rw [get?_cons]
    rcases List.mem_cons.1 member with same | member
    · cases same
      exact if_pos rfl
    · have other : k ≠ key := by
        rintro rfl
        exact distinct.1 (List.mem_map.2 ⟨_, member, rfl⟩)
      rw [if_neg other]
      exact ih distinct.2 member

/-- The order of distinct keys does not matter. -/
theorem get?_eq_of_perm {xs ys : List (String × α)} (perm : xs.Perm ys)
    (distinct : (xs.map Prod.fst).Nodup) (key : String) : get? key xs = get? key ys := by
  refine Option.ext fun value => ?_
  rw [get?_eq_some_iff distinct, get?_eq_some_iff ((perm.map _).nodup_iff.1 distinct),
    perm.mem_iff]

/-- Lists that are related pair by pair have related values under each key. -/
theorem rel_get? {S : α → β → Prop} {xs : List (String × α)} {ys : List (String × β)}
    (related : List.Forall₂ (fun p q => p.1 = q.1 ∧ S p.2 q.2) xs ys) (key : String) :
    Option.Rel S (get? key xs) (get? key ys) := by
  induction related with
  | nil => exact .none
  | @cons p q xs ys head _ ih =>
    rcases p with ⟨k, v⟩
    rcases q with ⟨l, w⟩
    rcases head with ⟨rfl, same⟩
    rw [get?_cons, get?_cons]
    split
    · exact .some same
    · exact ih

/-! ## One binding -/

theorem put_of_not_mem {key : String} {xs : List (String × α)} (fresh : key ∉ xs.map Prod.fst)
    (value : α) : put key value xs = xs ++ [(key, value)] := by
  induction xs with
  | nil => rfl
  | cons pair rest ih =>
    obtain ⟨k, v⟩ := pair
    rw [List.map_cons, List.mem_cons, not_or] at fresh
    rw [put, if_neg (Ne.symm fresh.1), ih fresh.2, List.cons_append]

theorem keys_put (key : String) (value : α) (xs : List (String × α)) :
    (put key value xs).map Prod.fst =
      if key ∈ xs.map Prod.fst then xs.map Prod.fst else xs.map Prod.fst ++ [key] := by
  induction xs with
  | nil => rfl
  | cons pair rest ih =>
    obtain ⟨k, v⟩ := pair
    by_cases same : k = key
    · simp [put, same]
    · rw [put, if_neg same, List.map_cons, ih]
      by_cases member : key ∈ rest.map Prod.fst
      · have there : key ∈ ((k, v) :: rest).map Prod.fst := List.mem_cons_of_mem k member
        rw [if_pos member, if_pos there, List.map_cons]
      · have fresh : key ∉ ((k, v) :: rest).map Prod.fst := by
          rw [List.map_cons, List.mem_cons, not_or]
          exact ⟨Ne.symm same, member⟩
        rw [if_neg member, if_neg fresh, List.map_cons, List.cons_append]

theorem nodup_keys_put {xs : List (String × α)} (distinct : (xs.map Prod.fst).Nodup)
    (key : String) (value : α) : ((put key value xs).map Prod.fst).Nodup := by
  rw [keys_put]
  split
  · exact distinct
  · rename_i fresh
    rw [← List.concat_eq_append]
    exact List.Nodup.concat fresh distinct

theorem mem_put {pair : String × α} {key : String} {value : α} {xs : List (String × α)}
    (member : pair ∈ put key value xs) : pair = (key, value) ∨ pair ∈ xs := by
  induction xs with
  | nil => exact Or.inl (List.mem_singleton.1 member)
  | cons first rest ih =>
    obtain ⟨k, v⟩ := first
    rw [put] at member
    split at member
    · rename_i same
      rcases List.mem_cons.1 member with rfl | member
      · exact Or.inl (by rw [same])
      · exact Or.inr (List.mem_cons_of_mem _ member)
    · rcases List.mem_cons.1 member with rfl | member
      · exact Or.inr List.mem_cons_self
      · exact (ih member).imp_right (List.mem_cons_of_mem _)

/-! ## A sequence of bindings -/

/-- Bindings of distinct keys, none of them there, are appended. -/
theorem foldl_put_of_nodup {pairs xs : List (String × α)}
    (distinct : ((xs ++ pairs).map Prod.fst).Nodup) :
    pairs.foldl (fun xs pair => put pair.1 pair.2 xs) xs = xs ++ pairs := by
  induction pairs generalizing xs with
  | nil => rw [List.foldl_nil, List.append_nil]
  | cons pair rest ih =>
    obtain ⟨k, v⟩ := pair
    have fresh : k ∉ xs.map Prod.fst := by
      intro member
      rw [List.map_append, List.nodup_append] at distinct
      exact distinct.2.2 k member k List.mem_cons_self rfl
    have appended : xs ++ (k, v) :: rest = (xs ++ [(k, v)]) ++ rest := by simp
    rw [List.foldl_cons, put_of_not_mem fresh, appended]
    rw [appended] at distinct
    exact ih distinct

theorem ofPairs_of_nodup {pairs : List (String × α)} (distinct : (pairs.map Prod.fst).Nodup) :
    ofPairs pairs = pairs := by
  have appended : (([] ++ pairs).map Prod.fst).Nodup := distinct
  rw [ofPairs, foldl_put_of_nodup appended, List.nil_append]

theorem nodup_keys_ofPairs (pairs : List (String × α)) : ((ofPairs pairs).map Prod.fst).Nodup := by
  suffices kept : ∀ xs : List (String × α), (xs.map Prod.fst).Nodup →
      ((pairs.foldl (fun xs pair => put pair.1 pair.2 xs) xs).map Prod.fst).Nodup from
    kept [] List.nodup_nil
  induction pairs with
  | nil => exact fun _ distinct => distinct
  | cons pair rest ih => exact fun xs distinct => ih _ (nodup_keys_put distinct pair.1 pair.2)

theorem mem_ofPairs {pair : String × α} {pairs : List (String × α)}
    (member : pair ∈ ofPairs pairs) : pair ∈ pairs := by
  suffices traced : ∀ xs : List (String × α),
      pair ∈ pairs.foldl (fun xs pair => put pair.1 pair.2 xs) xs → pair ∈ xs ∨ pair ∈ pairs by
    rcases traced [] member with found | found
    · cases found
    · exact found
  clear member
  induction pairs with
  | nil => exact fun _ found => Or.inl found
  | cons first rest ih =>
    intro xs found
    rcases ih _ found with found | found
    · rcases mem_put found with rfl | found
      · exact Or.inr List.mem_cons_self
      · exact Or.inl found
    · exact Or.inr (List.mem_cons_of_mem _ found)

theorem mem_keys_ofPairs {key : String} {pairs : List (String × α)} :
    key ∈ (ofPairs pairs).map Prod.fst ↔ key ∈ pairs.map Prod.fst := by
  suffices traced : ∀ xs : List (String × α),
      key ∈ (pairs.foldl (fun xs pair => put pair.1 pair.2 xs) xs).map Prod.fst ↔
        key ∈ xs.map Prod.fst ∨ key ∈ pairs.map Prod.fst by
    exact (traced []).trans ⟨fun found => found.resolve_left List.not_mem_nil, Or.inr⟩
  induction pairs with
  | nil => simp
  | cons first rest ih =>
    intro xs
    rw [List.foldl_cons, ih, keys_put, List.map_cons, List.mem_cons, ← or_assoc]
    split
    · rename_i there
      constructor
      · exact Or.imp_left Or.inl
      · intro given
        rcases given with (member | rfl) | member
        · exact Or.inl member
        · exact Or.inl there
        · exact Or.inr member
    · rw [List.mem_append, List.mem_singleton]

theorem filter_put (p : String → Bool) (key : String) (value : α) (xs : List (String × α)) :
    (put key value xs).filter (fun pair => p pair.1) =
      if p key then put key value (xs.filter fun pair => p pair.1)
      else xs.filter fun pair => p pair.1 := by
  induction xs with
  | nil =>
    rw [put, List.filter_singleton]
    cases p key <;> rfl
  | cons pair rest ih =>
    obtain ⟨k, v⟩ := pair
    rw [put]
    by_cases same : k = key
    · subst same
      rw [if_pos rfl, List.filter_cons, List.filter_cons]
      cases p k with
      | true => simp [put]
      | false => rfl
    · rw [if_neg same, List.filter_cons, List.filter_cons, ih]
      cases p k with
      | true => cases p key <;> simp [put, same]
      | false => rfl

/-- Bindings of other keys do not matter for those of some keys. -/
theorem filter_ofPairs (p : String → Bool) (pairs : List (String × α)) :
    (ofPairs pairs).filter (fun pair => p pair.1) = ofPairs (pairs.filter fun pair => p pair.1) := by
  suffices kept : ∀ xs : List (String × α),
      (pairs.foldl (fun xs pair => put pair.1 pair.2 xs) xs).filter (fun pair => p pair.1) =
        (pairs.filter fun pair => p pair.1).foldl (fun xs pair => put pair.1 pair.2 xs)
          (xs.filter fun pair => p pair.1) from
    kept []
  induction pairs with
  | nil => exact fun _ => rfl
  | cons pair rest ih =>
    intro xs
    rw [List.foldl_cons, ih, filter_put, List.filter_cons]
    split <;> rfl

/-! ## Related bindings -/

section Related

variable {R : String × α → String × β → Prop} (keys : ∀ p q, R p q → p.1 = q.1)

include keys

theorem forall₂_put {xs : List (String × α)} {ys : List (String × β)}
    (related : List.Forall₂ R xs ys) {p : String × α} {q : String × β} (head : R p q) :
    List.Forall₂ R (put p.1 p.2 xs) (put q.1 q.2 ys) := by
  induction related with
  | nil => exact .cons head .nil
  | @cons x y xs ys first rest ih =>
    rw [put, put, ← keys p q head, ← keys x y first]
    split
    · rename_i same
      have left : (x.1, p.2) = p := by rw [same]
      have right : (x.1, q.2) = q := by rw [same, keys p q head]
      rw [left, right]
      exact .cons head rest
    · rw [keys p q head] at ih ⊢
      refine .cons ?_ ih
      have right : (x.1, y.2) = y := by rw [keys x y first]
      rw [right]
      exact first

theorem forall₂_ofPairs {xs : List (String × α)} {ys : List (String × β)}
    (related : List.Forall₂ R xs ys) : List.Forall₂ R (ofPairs xs) (ofPairs ys) := by
  suffices kept : ∀ (as : List (String × α)) (bs : List (String × β)), List.Forall₂ R as bs →
      List.Forall₂ R (xs.foldl (fun as pair => put pair.1 pair.2 as) as)
        (ys.foldl (fun bs pair => put pair.1 pair.2 bs) bs) from
    kept [] [] .nil
  induction related with
  | nil => exact fun _ _ start => start
  | @cons x y xs ys head _ ih => exact fun as bs start => ih _ _ (forall₂_put keys start head)

end Related

theorem ofPairs_map (f : String × α → β) (pairs : List (String × α)) :
    ofPairs (pairs.map fun pair => (pair.1, f pair)) =
      (ofPairs pairs).map fun pair => (pair.1, f pair) := by
  have related : List.Forall₂ (fun (p : String × α) (q : String × β) => (p.1, f p) = q) pairs
      (pairs.map fun pair => (pair.1, f pair)) :=
    List.forall₂_map_right_iff.2 (List.forall₂_same.2 fun _ _ => rfl)
  have keys : ∀ (p : String × α) (q : String × β), (p.1, f p) = q → p.1 = q.1 := by
    intro p q same
    subst same
    rfl
  have results := forall₂_ofPairs keys related
  rw [← List.map_id (ofPairs (pairs.map fun pair => (pair.1, f pair)))]
  exact (List.map_eq_map_iff_forall₂.2 results).symm

end CallContract.Keyed
