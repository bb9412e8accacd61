import CallContract.Document.Reading
import CallContract.Proofs.Traversal
import Mathlib.Data.List.Nodup

/-!
# Structures read from objects

A structure is read from an object field by field. As long as no key comes twice, what has been seen
before does not matter, and reading is a fold over the fields.

* `Document.readMember` is one step of the fold; `Document.Shape.read_obj_eq_ok` says that an object
  is read if the fold succeeds and no required member is left out.
* `Document.ReadsBack` relates a reader to a writer; lists and values that may be absent inherit it,
  and `Document.Shape.read_of_foldlM` is how a structure gets it.
-/

namespace CallContract.Document

variable {S α : Type}

/-! ## Objects as folds -/

/-- Reads one field of an object into a structure; names that no member has are passed over. -/
def readMember (members : List (Member Json S)) (path : Path) (state : S) (field : String × Json) :
    Except ReadError S :=
  match members.find? fun m => m.name = field.1 with
  | none => .ok state
  | some m => m.read state (path ++ [.key field.1]) field.2

/-- Whether a structure has a member of a name. -/
def isMember (members : List (Member Json S)) (name : String) : Bool :=
  (members.find? fun m => m.name = name).isSome

/-- Fields with distinct keys, none of them seen before, are read by the fold, and the names of
members among them become seen. -/
theorem readFields_eq (members : List (Member Json S)) (path : Path)
    {fields : List (String × Json)} (distinct : (fields.map Prod.fst).Nodup) :
    ∀ (state : S) (seen : List String), (∀ key ∈ fields.map Prod.fst, key ∉ seen) →
      readFields members path state seen (fields.map fun (key, value) => (.ok key, value)) =
        (fun s => (s, ((fields.map Prod.fst).filter (isMember members)).reverse ++ seen)) <$>
          fields.foldlM (readMember members path) state := by
  induction fields with
  | nil => exact fun _ _ _ => rfl
  | cons field rest ih =>
    rcases field with ⟨key, value⟩
    rw [List.map_cons, List.nodup_cons] at distinct
    intro state seen fresh
    rw [List.map_cons, List.forall_mem_cons] at fresh
    have skipped : Source.skippable value = true := rfl
    rw [List.map_cons, readFields, List.foldlM_cons, readMember, List.map_cons, List.filter_cons,
      isMember]
    dsimp only
    cases found : members.find? fun m => m.name = key with
    | none =>
      dsimp only
      rw [if_pos skipped, ih distinct.2 state seen fresh.2]
      rfl
    | some m =>
      have unseen : seen.contains key = false := by simpa using fresh.1
      dsimp only
      rw [unseen, if_neg Bool.false_ne_true]
      cases m.read state (path ++ [.key key]) value with
      | error e => rfl
      | ok next =>
        have fresh' : ∀ k ∈ rest.map Prod.fst, k ∉ key :: seen := by
          intro k member
          rw [List.mem_cons, not_or]
          exact ⟨fun same => distinct.1 (same ▸ member), fresh.2 k member⟩
        have names : ((rest.map Prod.fst).filter (isMember members)).reverse ++ key :: seen =
            (key :: (rest.map Prod.fst).filter (isMember members)).reverse ++ seen := by simp
        dsimp only
        rw [ih distinct.2 next (key :: seen) fresh', names]
        rfl

/-- A field that is read, with those behind it: it is passed over, or it is a member that has not been
seen before. -/
theorem readFields_cons_eq_ok {σ : Type} [Source σ] {members : List (Member σ S)} {path : Path}
    {state : S} {seen : List String} {key : Except Json.SyntaxError String} {s : σ}
    {rest : List (Except Json.SyntaxError String × σ)} {result : S × List String}
    (read : readFields members path state seen ((key, s) :: rest) = .ok result) :
    ∃ name, key = .ok name ∧
      ((members.find? (fun m => m.name = name) = none ∧ Source.skippable s = true ∧
          readFields members path state seen rest = .ok result) ∨
        ∃ m next, members.find? (fun m => m.name = name) = some m ∧ name ∉ seen ∧
          m.read state (path ++ [.key name]) s = .ok next ∧
          readFields members path next (name :: seen) rest = .ok result) := by
  cases key with
  | error e => cases read
  | ok name =>
    refine ⟨name, rfl, ?_⟩
    rw [readFields] at read
    split at read
    · rename_i unknown
      split at read
      · rename_i skippable
        exact .inl ⟨unknown, skippable, read⟩
      · cases read
    · rename_i m known
      split at read
      · cases read
      rename_i unseen
      split at read
      · cases read
      rename_i next taken
      exact .inr ⟨m, next, known, by simpa using unseen, taken, read⟩

/-- An object without repeated keys is read if each of its fields is, and if it has every required
member. -/
theorem Shape.read_obj_eq_ok {shape : Shape Json S} {path : Path} {fields : List (String × Json)}
    {s : S} (distinct : (fields.map Prod.fst).Nodup) :
    shape.read path (.obj fields) = .ok s ↔
      fields.foldlM (readMember shape.members path) shape.blank = .ok s ∧
        ∀ m ∈ shape.members, m.isOptional = false → m.name ∈ fields.map Prod.fst := by
  have read := readFields_eq shape.members path distinct shape.blank []
    fun _ _ => List.not_mem_nil
  rw [Shape.read]
  dsimp only [Source.view]
  rw [read]
  cases fields.foldlM (readMember shape.members path) shape.blank with
  | error e => exact iff_of_false nofun nofun
  | ok state =>
    have complete : (shape.members.find? fun m => !m.isOptional &&
        !(((fields.map Prod.fst).filter (isMember shape.members)).reverse ++ []).contains m.name) =
          none ↔ ∀ m ∈ shape.members, m.isOptional = false → m.name ∈ fields.map Prod.fst := by
      rw [List.find?_eq_none]
      refine forall₂_congr fun m member => ?_
      have known : isMember shape.members m.name = true :=
        List.find?_isSome.2 ⟨m, member, decide_eq_true rfl⟩
      simp [known]
    rw [← complete]
    dsimp only [Functor.map, Except.map, bind, Except.bind, checkStop]
    split
    · rename_i absent
      exact iff_of_false nofun fun given => by rw [given.2] at absent; cases absent
    · rename_i none
      exact (and_iff_left none).symm

/-! ## Reading back -/

/-- A first field that is read, and the fields behind it. -/
theorem foldlM_cons_eq_ok {members : List (Member Json S)} {path : Path} {field : String × Json}
    {fields : List (String × Json)} {first next last : S}
    (step : readMember members path first field = .ok next)
    (rest : fields.foldlM (readMember members path) next = .ok last) :
    (field :: fields).foldlM (readMember members path) first = .ok last := by
  rw [List.foldlM_cons, step]
  exact rest

/-- A structure is read from an object of distinct keys that has its required members and whose
fields fill it. -/
theorem Shape.read_of_foldlM {shape : Shape Json S} {path : Path} {fields : List (String × Json)}
    {s : S} (distinct : (fields.map Prod.fst).Nodup)
    (complete : (shape.members.all fun m =>
      m.isOptional || (fields.map Prod.fst).contains m.name) = true)
    (filled : fields.foldlM (readMember shape.members path) shape.blank = .ok s) :
    shape.read path (.obj fields) = .ok s := by
  refine (read_obj_eq_ok distinct).2 ⟨filled, fun m member mandatory => ?_⟩
  have listed := List.all_eq_true.1 complete m member
  rwa [mandatory, Bool.false_or, List.contains_iff_mem] at listed

/-- What a writer writes is read as what was written, wherever it stands. -/
def ReadsBack (read : Reader Json α) (write : α → Json) : Prop :=
  ∀ path a, read path (write a) = .ok a

namespace ReadsBack

variable {read : Reader Json α} {write : α → Json}

theorem string : ReadsBack string Json.str :=
  fun _ _ => rfl

theorem boolean : ReadsBack boolean Json.bool :=
  fun _ _ => rfl

theorem fields : ReadsBack fields Json.obj :=
  fun _ _ => rfl

theorem integer : ReadsBack integer Json.ofSignedWord :=
  fun _ i => dif_pos i.property

theorem list (item : ReadsBack read write) :
    ReadsBack (list read) fun xs => .arr (xs.map write) := by
  intro path xs
  have values (start : Nat) : ((xs.map write).zipIdx start).mapM
      (fun x => read (path ++ [.index x.2]) x.1) = .ok xs := by
    induction xs generalizing start with
    | nil => rfl
    | cons x xs ih =>
      rw [List.map_cons, List.zipIdx_cons, List.mapM_cons, item, ih]
      rfl
  rw [Document.list]
  dsimp only [Source.view]
  rw [values 0]
  rfl

/-- What is never written as null may be absent. -/
theorem orNull (back : ReadsBack read write) (notNull : ∀ a, write a ≠ .null) :
    ReadsBack (orNull read) (Json.orNull write) := by
  intro path x
  cases x with
  | none => rfl
  | some a =>
    have written := back path a
    have given := notNull a
    rw [Document.orNull, Json.orNull]
    generalize write a = j at written given
    cases j with
    | null => exact absurd rfl given
    | _ =>
      dsimp only [Source.view]
      rw [written]
      rfl

/-- Text that may be absent is read back. -/
theorem textOrNull : ReadsBack (Document.orNull Document.string) (Json.orNull Json.str) :=
  string.orNull fun _ => nofun

end ReadsBack

/-- A choice that carries something is read from an object of its one field. -/
theorem choice_obj {known : List (String × Reader Json α)}
    {bare : String → Path → Except ReadError α} {name : String} {read : Reader Json α}
    (found : Keyed.get? name known = some read) (path : Path) (item : Json) :
    choice known bare path (.obj [(name, item)]) = read (path ++ [.key name]) item := by
  rw [choice]
  dsimp only [Source.view, List.map]
  rw [choiceName, found]
  exact bind_pure (read (path ++ [.key name]) item)

end CallContract.Document
