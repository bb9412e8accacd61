import Mathlib.Data.List.Forall2
import Mathlib.Logic.Relation

/-!
# Traversals that may fail

A list is checked or translated item by item, and one failure is a failure of the whole.

* `Except.bind_eq_ok` and `List.mapM_eq_ok` say what the success of a step and of a traversal means.
* `Except.SameUnless` compares two runs of which the first may fail for a reason of its own.
* `List.toOption_mapM` forgets the errors of a traversal; `List.map_mapM` changes what it gives.
* `List.isSome_mapM` is success alone, item by item.
* `List.Forall₂.rel_mapM` and `List.Forall₂.rel_findSome?` run two traversals side by side.
* `Relation.forall_reflTransGen_iff` goes one step along what a traversal reaches.
-/

namespace Except

variable {α β ε : Type}

/-! ## Steps -/

theorem bind_eq_ok {first : Except ε α} {next : α → Except ε β} {b : β} :
    (first >>= next) = .ok b ↔ ∃ a, first = .ok a ∧ next a = .ok b := by
  cases first with
  | error e => simp [bind, Except.bind]
  | ok a => simp [bind, Except.bind]

theorem map_eq_ok {first : Except ε α} {f : α → β} {b : β} :
    (f <$> first) = .ok b ↔ ∃ a, first = .ok a ∧ f a = b := by
  cases first with
  | error e => simp [Functor.map, Except.map]
  | ok a => simp [Functor.map, Except.map]

theorem bind_eq_error {first : Except ε α} {next : α → Except ε β} {e : ε} :
    (first >>= next) = .error e ↔ first = .error e ∨ ∃ a, first = .ok a ∧ next a = .error e := by
  cases first with
  | error d => simp [bind, Except.bind]
  | ok a => simp [bind, Except.bind]

theorem exists_bind_eq_ok {first : Except ε α} {next : α → Except ε β} :
    (∃ b, (first >>= next) = .ok b) ↔ ∃ a, first = .ok a ∧ ∃ b, next a = .ok b := by
  simp only [bind_eq_ok]
  rw [exists_comm]
  exact exists_congr fun a => exists_and_left

theorem exists_map_eq_ok {first : Except ε α} {f : α → β} :
    (∃ b, (f <$> first) = .ok b) ↔ ∃ a, first = .ok a := by
  cases first with
  | error e => simp [Functor.map, Except.map]
  | ok a => simp [Functor.map, Except.map]

theorem mapError_eq_ok {ε' : Type} {f : ε → ε'} {result : Except ε α} {a : α} :
    result.mapError f = .ok a ↔ result = .ok a := by
  cases result <;> simp [Except.mapError]

theorem toOption_eq_some {first : Except ε α} {a : α} :
    first.toOption = some a ↔ first = .ok a := by
  cases first <;> simp [Except.toOption]

theorem toOption_map (first : Except ε α) (f : α → β) :
    (f <$> first).toOption = first.toOption.map f := by
  cases first <;> rfl

theorem toOption_bind (first : Except ε α) (next : α → Except ε β) :
    (first >>= next).toOption = first.toOption.bind fun a => (next a).toOption := by
  cases first <;> rfl

theorem toOption_mapError {ε' : Type} (f : ε → ε') (result : Except ε α) :
    (result.mapError f).toOption = result.toOption := by
  cases result <;> rfl

/-! ## Results that are the same but for some errors -/

/-- The same result, unless the first is an error of a kind. -/
inductive SameUnless (kind : ε → Prop) : Except ε α → Except ε α → Prop where
  | same (result : Except ε α) : SameUnless kind result result
  | failed {e : ε} (isKind : kind e) (result : Except ε α) : SameUnless kind (.error e) result

namespace SameUnless

variable {kind : ε → Prop} {first second : Except ε α}

theorem eq_of_forall_not (related : SameUnless kind first second) (never : ∀ e, ¬kind e) :
    first = second := by
  cases related with
  | same => rfl
  | failed isKind => exact absurd isKind (never _)

theorem eq_ok {a : α} (related : SameUnless kind first second) (success : first = .ok a) :
    second = .ok a := by
  cases related with
  | same => exact success
  | failed => cases success

theorem bind {next next' : α → Except ε β} (related : SameUnless kind first second)
    (rest : ∀ a, first = .ok a → SameUnless kind (next a) (next' a)) :
    SameUnless kind (first >>= next) (second >>= next') := by
  cases related with
  | failed isKind => exact .failed isKind _
  | same =>
    cases first with
    | error e => exact .same (.error e)
    | ok a => exact rest a rfl

theorem map (related : SameUnless kind first second) (f : α → β) :
    SameUnless kind (f <$> first) (f <$> second) := by
  cases related with
  | same => exact .same _
  | failed isKind => exact .failed isKind _

theorem mapM {f g : α → Except ε β} {xs : List α}
    (related : ∀ x ∈ xs, SameUnless kind (f x) (g x)) :
    SameUnless kind (xs.mapM f) (xs.mapM g) := by
  induction xs with
  | nil => exact .same _
  | cons x xs ih =>
    rw [List.mapM_cons, List.mapM_cons]
    have others := ih fun y member => related y (List.mem_cons_of_mem x member)
    exact (related x List.mem_cons_self).bind fun _ _ => others.bind fun _ _ => .same _

end SameUnless

end Except

theorem Option.Rel.map {α β γ δ : Type} {R : α → β → Prop} {S : γ → δ → Prop} {f : α → γ}
    {g : β → δ} {x : Option α} {y : Option β} (related : Option.Rel R x y)
    (same : ∀ a b, R a b → S (f a) (g b)) : Option.Rel S (x.map f) (y.map g) := by
  cases related with
  | none => exact .none
  | some rel => exact .some (same _ _ rel)

/-- What holds of all that is reached holds at the start, and of all that is reached after a
step. -/
theorem Relation.forall_reflTransGen_iff {α : Type} {step : α → α → Prop} {P : α → Prop} {a : α} :
    (∀ b, Relation.ReflTransGen step a b → P b) ↔
      P a ∧ ∀ c, step a c → ∀ b, Relation.ReflTransGen step c b → P b := by
  constructor
  · intro all
    exact ⟨all a .refl, fun c first b reached => all b (.head first reached)⟩
  · rintro ⟨start, after⟩ b reached
    rcases Relation.ReflTransGen.cases_head reached with rfl | ⟨c, first, further⟩
    · exact start
    · exact after c first b further

namespace List

variable {α β γ δ ε : Type}

/-! ## Traversals -/

theorem mapM_eq_ok {f : α → Except ε β} {xs : List α} {ys : List β} :
    xs.mapM f = .ok ys ↔ List.Forall₂ (fun x y => f x = .ok y) xs ys := by
  induction xs generalizing ys with
  | nil =>
    rw [List.mapM_nil, List.forall₂_nil_left_iff]
    exact ⟨fun h => (Except.ok.inj h).symm, fun h => by rw [h]; rfl⟩
  | cons x xs ih =>
    rw [List.mapM_cons, Except.bind_eq_ok, List.forall₂_cons_left_iff]
    constructor
    · intro given
      rcases given with ⟨y, first, rest⟩
      obtain ⟨tail, others, result⟩ := Except.bind_eq_ok.1 rest
      cases result
      exact ⟨y, tail, first, ih.1 others, rfl⟩
    · intro given
      rcases given with ⟨y, tail, first, others, rfl⟩
      exact ⟨y, first, Except.bind_eq_ok.2 ⟨tail, ih.2 others, rfl⟩⟩

theorem exists_mapM_eq_ok {f : α → Except ε β} {xs : List α} :
    (∃ ys, xs.mapM f = .ok ys) ↔ ∀ x ∈ xs, ∃ y, f x = .ok y := by
  induction xs with
  | nil => exact iff_of_true ⟨[], rfl⟩ fun x member => nomatch member
  | cons x xs ih =>
    rw [List.mapM_cons, List.forall_mem_cons, ← ih]
    cases f x with
    | error e => simp [bind, Except.bind]
    | ok y => cases xs.mapM f <;> simp [bind, Except.bind, pure, Except.pure]

/-- A traversal fails where one of its steps does. -/
theorem exists_of_mapM_eq_error {f : α → Except ε β} {xs : List α} {e : ε}
    (failed : xs.mapM f = .error e) : ∃ x ∈ xs, f x = .error e := by
  induction xs with
  | nil => cases failed
  | cons x xs ih =>
    rw [List.mapM_cons, Except.bind_eq_error] at failed
    rcases failed with first | ⟨y, _, rest⟩
    · exact ⟨x, List.mem_cons_self, first⟩
    · rcases Except.bind_eq_error.1 rest with others | ⟨ys, _, result⟩
      · obtain ⟨z, member, step⟩ := ih others
        exact ⟨z, List.mem_cons_of_mem x member, step⟩
      · cases result

/-- Items with nothing to do need not be looked at. -/
theorem forM_filter {f : α → Except ε Unit} {p : α → Bool} {xs : List α}
    (nothing : ∀ x ∈ xs, p x = false → f x = .ok ()) : forM (xs.filter p) f = forM xs f := by
  induction xs with
  | nil => rfl
  | cons x rest ih =>
    have others := ih fun y member => nothing y (List.mem_cons_of_mem x member)
    cases keep : p x with
    | true => rw [List.filter_cons_of_pos keep, List.forM_cons, List.forM_cons, others]
    | false =>
      rw [List.filter_cons_of_neg (Bool.eq_false_iff.1 keep), List.forM_cons, others,
        nothing x List.mem_cons_self keep]
      rfl

theorem forM_congr_of_mem {f g : α → Except ε Unit} {xs : List α}
    (same : ∀ x ∈ xs, f x = g x) : forM xs f = forM xs g := by
  induction xs with
  | nil => rfl
  | cons x rest ih =>
    have others := ih fun y member => same y (List.mem_cons_of_mem x member)
    rw [List.forM_cons, List.forM_cons, same x List.mem_cons_self, others]

/-- A traversal that takes back what a map has made. -/
theorem mapM_eq_ok_iff_map {f : α → Except ε β} {g : β → α}
    (inverse : ∀ x y, f x = .ok y ↔ x = g y) {xs : List α} {ys : List β} :
    xs.mapM f = .ok ys ↔ xs = ys.map g := by
  rw [mapM_eq_ok, ← List.forall₂_eq_eq_eq, List.forall₂_map_right_iff]
  simp only [inverse]

theorem toOption_mapM (f : α → Except ε β) (xs : List α) :
    (xs.mapM f).toOption = xs.mapM fun x => (f x).toOption := by
  induction xs with
  | nil => rfl
  | cons x xs ih =>
    rw [List.mapM_cons, List.mapM_cons, ← ih]
    cases f x with
    | error e => rfl
    | ok y => cases xs.mapM f <;> rfl

theorem mapM_eq_some {f : α → Option β} {xs : List α} {ys : List β} :
    xs.mapM f = some ys ↔ List.Forall₂ (fun x y => f x = some y) xs ys := by
  induction xs generalizing ys with
  | nil =>
    rw [List.mapM_nil, List.forall₂_nil_left_iff]
    exact ⟨fun h => (Option.some.inj h).symm, fun h => by rw [h]; rfl⟩
  | cons x xs ih =>
    rw [List.mapM_cons, List.forall₂_cons_left_iff]
    simp only [Option.bind_eq_bind, Option.bind_eq_some_iff, Option.pure_def, Option.some.injEq, ih]
    constructor
    · rintro ⟨y, head, tail, others, rfl⟩
      exact ⟨y, tail, head, others, rfl⟩
    · rintro ⟨y, tail, head, others, rfl⟩
      exact ⟨y, head, tail, others, rfl⟩

theorem map_mapM (f : α → Option β) (g : β → γ) (xs : List α) :
    (xs.mapM f).map (List.map g) = xs.mapM fun x => (f x).map g := by
  induction xs with
  | nil => rfl
  | cons x xs ih =>
    rw [List.mapM_cons, List.mapM_cons, ← ih]
    cases f x with
    | none => rfl
    | some y => cases xs.mapM f <;> rfl

theorem mapM_congr_of_mem {f g : α → Option β} {xs : List α}
    (same : ∀ x ∈ xs, f x = g x) : xs.mapM f = xs.mapM g := by
  induction xs with
  | nil => rfl
  | cons x xs ih =>
    rw [List.mapM_cons, List.mapM_cons, same x List.mem_cons_self,
      ih fun y member => same y (List.mem_cons_of_mem x member)]

/-- A traversal that takes each item back to what it was made of. -/
theorem mapM_map_eq_some {f : β → Option α} {g : α → β} {xs : List α}
    (back : ∀ x ∈ xs, f (g x) = some x) : (xs.map g).mapM f = some xs := by
  induction xs with
  | nil => rfl
  | cons x xs ih =>
    rw [List.map_cons, List.mapM_cons, back x List.mem_cons_self,
      ih fun y member => back y (List.mem_cons_of_mem x member)]
    rfl

theorem findSome?_congr_of_mem {f g : α → Option β} {xs : List α}
    (same : ∀ x ∈ xs, f x = g x) : xs.findSome? f = xs.findSome? g := by
  induction xs with
  | nil => rfl
  | cons x xs ih =>
    rw [List.findSome?_cons, List.findSome?_cons, same x List.mem_cons_self,
      ih fun y member => same y (List.mem_cons_of_mem x member)]

theorem isSome_mapM {f : α → Option β} {xs : List α} :
    (xs.mapM f).isSome = true ↔ ∀ x ∈ xs, (f x).isSome = true := by
  induction xs with
  | nil => simp
  | cons x xs ih =>
    rw [List.mapM_cons, List.forall_mem_cons, ← ih]
    cases f x with
    | none => simp
    | some y => cases xs.mapM f <;> simp

/-- A traversal that does not look at positions. -/
theorem mapM_zipIdx (f : α → Option β) (xs : List α) (start : Nat) :
    ((xs.zipIdx start).mapM fun x => f x.1) = xs.mapM f := by
  induction xs generalizing start with
  | nil => rfl
  | cons x xs ih => rw [List.zipIdx_cons, List.mapM_cons, List.mapM_cons, ih]

/-! ## Lists related item by item -/

theorem Forall₂.imp_of_mem {R S : α → β → Prop} {xs : List α} {ys : List β}
    (related : List.Forall₂ R xs ys) (imp : ∀ x ∈ xs, ∀ y ∈ ys, R x y → S x y) :
    List.Forall₂ S xs ys := by
  induction related with
  | nil => exact .nil
  | @cons x y xs ys head tail ih =>
    exact .cons (imp x List.mem_cons_self y List.mem_cons_self head)
      (ih fun a ha b hb => imp a (List.mem_cons_of_mem x ha) b (List.mem_cons_of_mem y hb))

theorem Forall₂.exists_of_mem_right {R : α → β → Prop} {xs : List α} {ys : List β}
    (related : List.Forall₂ R xs ys) {y : β} (member : y ∈ ys) : ∃ x ∈ xs, R x y := by
  induction related with
  | nil => cases member
  | @cons a b as bs head tail ih =>
    rcases List.mem_cons.1 member with rfl | member
    · exact ⟨a, List.mem_cons_self, head⟩
    · obtain ⟨x, hx, rel⟩ := ih member
      exact ⟨x, List.mem_cons_of_mem a hx, rel⟩

/-- Related lists have related members at one position. -/
theorem Forall₂.of_getElem? {R : α → β → Prop} {xs : List α} {ys : List β}
    (related : List.Forall₂ R xs ys) {i : Nat} {x : α} {y : β} (left : xs[i]? = some x)
    (right : ys[i]? = some y) : R x y := by
  obtain ⟨_, rfl⟩ := List.getElem?_eq_some_iff.1 left
  obtain ⟨_, rfl⟩ := List.getElem?_eq_some_iff.1 right
  exact related.get _ _

theorem Forall₂.exists_of_mem_left {R : α → β → Prop} {xs : List α} {ys : List β}
    (related : List.Forall₂ R xs ys) {x : α} (member : x ∈ xs) : ∃ y ∈ ys, R x y :=
  related.flip.exists_of_mem_right member

/-- What is asked of one of the items is asked of one of their partners. -/
theorem Forall₂.exists_mem_iff {R : α → β → Prop} {P : α → Prop} {Q : β → Prop} {xs : List α}
    {ys : List β} (related : List.Forall₂ R xs ys) (same : ∀ x ∈ xs, ∀ y, R x y → (P x ↔ Q y)) :
    (∃ x ∈ xs, P x) ↔ ∃ y ∈ ys, Q y := by
  induction related with
  | nil => simp
  | @cons x y xs ys head tail ih =>
    rw [List.exists_mem_cons_iff, List.exists_mem_cons_iff, same x List.mem_cons_self y head,
      ih fun a ha => same a (List.mem_cons_of_mem x ha)]

/-- What is asked of all items is asked of all their partners. -/
theorem Forall₂.forall_mem_iff {R : α → β → Prop} {P : α → Prop} {Q : β → Prop} {xs : List α}
    {ys : List β} (related : List.Forall₂ R xs ys) (same : ∀ x ∈ xs, ∀ y, R x y → (P x ↔ Q y)) :
    (∀ x ∈ xs, P x) ↔ ∀ y ∈ ys, Q y := by
  induction related with
  | nil => simp
  | @cons x y xs ys head tail ih =>
    rw [List.forall_mem_cons, List.forall_mem_cons, same x List.mem_cons_self y head,
      ih fun a ha => same a (List.mem_cons_of_mem x ha)]

theorem Forall₂.any_eq {R : α → β → Prop} {p : α → Bool} {q : β → Bool} {xs : List α} {ys : List β}
    (related : List.Forall₂ R xs ys) (same : ∀ x ∈ xs, ∀ y, R x y → p x = q y) :
    xs.any p = ys.any q := by
  induction related with
  | nil => rfl
  | @cons x y xs ys head tail ih =>
    rw [List.any_cons, List.any_cons, same x List.mem_cons_self y head,
      ih fun a ha => same a (List.mem_cons_of_mem x ha)]

/-- Related items that pass related tests are related. -/
theorem Forall₂.filter {R : α → β → Prop} {p : α → Bool} {q : β → Bool} {xs : List α} {ys : List β}
    (related : List.Forall₂ R xs ys) (same : ∀ x ∈ xs, ∀ y, R x y → p x = q y) :
    List.Forall₂ R (xs.filter p) (ys.filter q) := by
  induction related with
  | nil => exact .nil
  | @cons x y xs ys head tail ih =>
    have others := ih fun a ha => same a (List.mem_cons_of_mem x ha)
    have test := same x List.mem_cons_self y head
    rw [List.filter_cons, List.filter_cons, ← test]
    cases p x with
    | true => exact .cons head others
    | false => exact others

/-- Items that each have a partner have one all together. -/
theorem exists_forall₂ {R : α → β → Prop} {xs : List α} (partner : ∀ x ∈ xs, ∃ y, R x y) :
    ∃ ys, List.Forall₂ R xs ys := by
  induction xs with
  | nil => exact ⟨[], .nil⟩
  | cons x xs ih =>
    obtain ⟨y, hy⟩ := partner x List.mem_cons_self
    obtain ⟨ys, hys⟩ := ih fun a ha => partner a (List.mem_cons_of_mem x ha)
    exact ⟨y :: ys, .cons hy hys⟩

theorem map_eq_map_iff_forall₂ {f : α → γ} {g : β → γ} {xs : List α} {ys : List β} :
    xs.map f = ys.map g ↔ List.Forall₂ (fun x y => f x = g y) xs ys := by
  rw [← List.forall₂_map_left_iff (R := fun c y => c = g y), ← List.forall₂_map_right_iff,
    List.forall₂_eq_eq_eq]

/-- The partners of related items, each related to its item, pair up. -/
theorem Forall₂.across {R : α → β → Prop} {S : α → γ → Prop} {T : β → δ → Prop} {as : List α}
    {bs : List β} {cs : List γ} {ds : List δ} (related : List.Forall₂ R as bs)
    (left : List.Forall₂ S as cs) (right : List.Forall₂ T bs ds) :
    List.Forall₂ (fun c d => ∃ a b, R a b ∧ S a c ∧ T b d) cs ds := by
  induction related generalizing cs ds with
  | nil =>
    cases left
    cases right
    exact .nil
  | @cons a b as bs head _ ih =>
    cases left with
    | cons first rest =>
      cases right with
      | cons first' rest' => exact .cons ⟨a, b, head, first, first'⟩ (ih rest rest')

/-! ## Related traversals -/

/-- Traversals of related lists by related steps fail both, or give related lists. -/
theorem Forall₂.rel_mapM {R : α → β → Prop} {S : γ → δ → Prop} {f : α → Option γ}
    {g : β → Option δ} {xs : List α} {ys : List β} (related : List.Forall₂ R xs ys)
    (same : ∀ x y, R x y → Option.Rel S (f x) (g y)) :
    Option.Rel (List.Forall₂ S) (xs.mapM f) (ys.mapM g) := by
  induction related with
  | nil => exact .some .nil
  | @cons x y xs ys head _ ih =>
    have first := same x y head
    rw [List.mapM_cons, List.mapM_cons]
    generalize f x = a at first
    generalize g y = b at first
    generalize xs.mapM f = as at ih
    generalize ys.mapM g = bs at ih
    cases first with
    | none => exact .none
    | some first =>
      cases ih with
      | none => exact .none
      | some others => exact .some (.cons first others)

theorem rel_mapM_self {S : β → γ → Prop} {f : α → Option β} {g : α → Option γ} {xs : List α}
    (same : ∀ x ∈ xs, Option.Rel S (f x) (g x)) :
    Option.Rel (List.Forall₂ S) (xs.mapM f) (xs.mapM g) :=
  (List.forall₂_same.2 same).rel_mapM fun _ _ rel => rel

theorem Forall₂.mapM_eq {R : α → β → Prop} {f : α → Option γ} {g : β → Option γ} {xs : List α}
    {ys : List β} (related : List.Forall₂ R xs ys) (same : ∀ x ∈ xs, ∀ y, R x y → f x = g y) :
    xs.mapM f = ys.mapM g := by
  induction related with
  | nil => rfl
  | @cons x y xs ys head _ ih =>
    rw [List.mapM_cons, List.mapM_cons, same x List.mem_cons_self y head,
      ih fun a member => same a (List.mem_cons_of_mem x member)]

/-- A traversal of which each step gives something related to an item gives related items. -/
theorem Forall₂.exists_mapM_eq_some {R : γ → β → Prop} {f : α → Option γ} {xs : List α}
    {ys : List β} (steps : List.Forall₂ (fun x y => ∃ z, f x = some z ∧ R z y) xs ys) :
    ∃ zs, xs.mapM f = some zs ∧ List.Forall₂ R zs ys := by
  induction steps with
  | nil => exact ⟨[], rfl, .nil⟩
  | cons head _ ih =>
    obtain ⟨z, first, here⟩ := head
    obtain ⟨zs, rest, others⟩ := ih
    exact ⟨z :: zs, by rw [List.mapM_cons, first, rest]; rfl, .cons here others⟩

theorem Forall₂.rel_findSome? {R : α → β → Prop} {S : γ → δ → Prop} {f : α → Option γ}
    {g : β → Option δ} {xs : List α} {ys : List β} (related : List.Forall₂ R xs ys)
    (same : ∀ x y, R x y → Option.Rel S (f x) (g y)) :
    Option.Rel S (xs.findSome? f) (ys.findSome? g) := by
  induction related with
  | nil => exact .none
  | @cons x y xs ys head _ ih =>
    have first := same x y head
    rw [List.findSome?_cons, List.findSome?_cons]
    generalize f x = a at first
    generalize g y = b at first
    cases first with
    | none => exact ih
    | some first => exact .some first

end List
