import CallContract.Declaration.Basic
import CallContract.Proofs.KeyedLists
import CallContract.Proofs.Outlines
import CallContract.Proofs.Structures
import Mathlib

/-!
# Manifests read from texts

A manifest is read straight from its text, and reading stops when it has what it needs.

* `Document.Agrees` relates a reader of texts to a reader of values: what the first one reads, the
  second one reads from the value of the text, if it has one; and the form of the text holds up to
  the end of the value. Lists, structures and choices inherit it from their parts.
* `Manifest.ofText_agrees`: so a text that is read as a manifest starts with a whole value. It is
  read as a document too, and as that manifest, but for what goes unnoticed: what stands behind the
  value, and, in what is passed over, literals that denote nothing and deep nesting.
-/

namespace CallContract.Document

open Json (Outline SyntaxError)

variable {S α β : Type}

/-- What one reader reads from a text another one reads from the value of the text, if it has one,
and the form of the text holds up to the end of the value. -/
def Agrees (ofText : Reader Place α) (ofValue : Reader Json α) : Prop :=
  ∀ path place a, ofText path place = .ok a →
    place.outline.wellFormed = true ∧
      ∀ v, place.outline.valueWithin place.depth = .ok v → ofValue path v = .ok a

/-- What is seen of an outline that may open so many containers. -/
inductive Shows (depth : Nat) : Outline → View Place → Prop
  | null : Shows depth .null .null
  | bool (b : Bool) : Shows depth (.bool b) (.bool b)
  | num (n : Json.Number) : Shows depth (.num (.ok n)) (.num n)
  | str (text : String) : Shows depth (.str (.ok text)) (.str text)
  | arr (parts : List Outline) (stop : Option SyntaxError) (room : ¬depth ≤ 1) :
      Shows depth (.arr parts stop) (.arr (parts.map fun part => ⟨part, depth - 1⟩) stop)
  | obj (parts : List (Except SyntaxError String × Outline)) (stop : Option SyntaxError)
      (room : ¬depth ≤ 1) :
      Shows depth (.obj parts stop)
        (.obj (parts.map fun part => (part.1, ⟨part.2, depth - 1⟩)) stop)
  | broken {outline : Outline} (other : outline ≠ .null) : Shows depth outline .broken

theorem shows_view (outline : Outline) (depth : Nat) :
    Shows depth outline (Source.view (⟨outline, depth⟩ : Place)) := by
  cases outline with
  | null => exact .null
  | bool b => exact .bool b
  | num n =>
    cases n with
    | error e => exact .broken nofun
    | ok n => exact .num n
  | str text =>
    cases text with
    | error e => exact .broken nofun
    | ok text => exact .str text
  | arr parts stop =>
    dsimp only [Source.view]
    split
    · exact .broken nofun
    · rename_i room
      exact .arr parts stop room
  | obj parts stop =>
    dsimp only [Source.view]
    split
    · exact .broken nofun
    · rename_i room
      exact .obj parts stop room
  | broken e => exact .broken nofun

namespace Agrees

variable {ofText : Reader Place α} {ofValue : Reader Json α}

theorem string : Agrees string string := by
  rintro path ⟨outline, depth⟩ a read
  have shown := shows_view outline depth
  rw [Document.string] at read
  generalize Source.view (⟨outline, depth⟩ : Place) = view at read shown
  cases shown with
  | str text =>
    cases read
    refine ⟨rfl, fun v value => ?_⟩
    cases value
    rfl
  | _ => cases read

theorem nothing : Agrees nothing nothing := by
  rintro path ⟨outline, depth⟩ a read
  have shown := shows_view outline depth
  rw [Document.nothing] at read
  generalize Source.view (⟨outline, depth⟩ : Place) = view at read shown
  cases shown with
  | null =>
    refine ⟨rfl, fun v value => ?_⟩
    cases value
    rfl
  | _ => cases read

theorem value : Agrees value value := by
  rintro path ⟨outline, depth⟩ a read
  have found : outline.valueWithin depth = .ok a := by
    rw [Document.value] at read
    split at read
    · rename_i j found
      cases read
      exact found
    · cases read
  refine ⟨Outline.wellFormed_of_valueWithin found, fun v value => ?_⟩
  cases found.symm.trans value
  rfl

theorem map (item : Agrees ofText ofValue) (f : α → β) :
    Agrees (fun path s => f <$> ofText path s) (fun path s => f <$> ofValue path s) := by
  intro path place b read
  obtain ⟨a, first, rfl⟩ := Except.map_eq_ok.1 read
  obtain ⟨formed, same⟩ := item path place a first
  refine ⟨formed, fun v value => ?_⟩
  exact Except.map_eq_ok.2 ⟨a, same v value, rfl⟩

theorem orNull (item : Agrees ofText ofValue) : Agrees (orNull ofText) (orNull ofValue) := by
  rintro path ⟨outline, depth⟩ a read
  by_cases null : outline = .null
  · subst null
    cases read
    refine ⟨rfl, fun v value => ?_⟩
    cases value
    rfl
  · have some_read : (some <$> ofText path ⟨outline, depth⟩) = .ok a := by
      have shown := shows_view outline depth
      rw [Document.orNull] at read
      generalize Source.view (⟨outline, depth⟩ : Place) = view at read shown
      cases shown with
      | null => exact absurd rfl null
      | _ => exact read
    obtain ⟨formed, same⟩ := item.map some path ⟨outline, depth⟩ a some_read
    refine ⟨formed, fun v value => ?_⟩
    cases v with
    | null => exact absurd (Outline.eq_null_of_valueWithin value) null
    | _ => exact same _ value

/-- The items of an array, which are read one after the other. -/
theorem items (item : Agrees ofText ofValue) (path : Path) (depth : Nat) {parts : List Outline} :
    ∀ {start : Nat} {as : List α},
      ((parts.map fun part => (⟨part, depth⟩ : Place)).zipIdx start).mapM
          (fun x => ofText (path ++ [.index x.2]) x.1) = .ok as →
        Outline.wellFormedItems parts = true ∧
          ∀ vs, Outline.valuesWithin depth parts = .ok vs →
            (vs.zipIdx start).mapM (fun x => ofValue (path ++ [.index x.2]) x.1) = .ok as := by
  induction parts with
  | nil =>
    intro start as read
    refine ⟨rfl, fun vs values => ?_⟩
    cases values
    exact read
  | cons part rest ih =>
    intro start as read
    rw [List.map_cons, List.zipIdx_cons, List.mapM_cons] at read
    obtain ⟨a, first, others⟩ := Except.bind_eq_ok.1 read
    obtain ⟨as', tail, result⟩ := Except.bind_eq_ok.1 others
    obtain ⟨formed, same⟩ := item _ _ a first
    obtain ⟨restFormed, restSame⟩ := ih tail
    refine ⟨Bool.and_eq_true_iff.2 ⟨formed, restFormed⟩, fun vs values => ?_⟩
    obtain ⟨v, value, behind⟩ := Except.bind_eq_ok.1 values
    obtain ⟨vs', restValues, pair⟩ := Except.bind_eq_ok.1 behind
    cases pair
    rw [List.zipIdx_cons, List.mapM_cons, same v value, restSame vs' restValues]
    exact result

theorem list (item : Agrees ofText ofValue) : Agrees (list ofText) (list ofValue) := by
  rintro path ⟨outline, depth⟩ a read
  have shown := shows_view outline depth
  rw [Document.list] at read
  generalize Source.view (⟨outline, depth⟩ : Place) = view at read shown
  cases shown with
  | arr parts stop =>
    obtain ⟨as, itemsRead, ended⟩ := Except.bind_eq_ok.1 read
    obtain ⟨formed, same⟩ := item.items path (depth - 1) itemsRead
    cases stop with
    | some e => cases ended
    | none =>
      cases ended
      refine ⟨Bool.and_eq_true_iff.2 ⟨formed, rfl⟩, fun v value => ?_⟩
      obtain ⟨vs, values, rfl⟩ := Outline.exists_of_valueWithin_arr value
      exact Except.bind_eq_ok.2 ⟨_, same vs values, rfl⟩
  | _ => cases read

end Agrees

/-! ## Structures -/

/-- A member is read from texts and from values alike. -/
structure Member.Agrees (m : Member Place S) (m' : Member Json S) : Prop where
  name : m.name = m'.name
  isOptional : m.isOptional = m'.isOptional
  read : ∀ state, Document.Agrees (m.read state) (m'.read state)

section Members

variable {ofText : Reader Place α} {ofValue : Reader Json α}

theorem Agrees.required (part : Agrees ofText ofValue) (name : String) (set : S → α → S) :
    Member.Agrees (required name ofText set) (required name ofValue set) :=
  ⟨rfl, rfl, fun state => part.map (set state)⟩

theorem Agrees.optional (part : Agrees ofText ofValue) (name : String) (set : S → α → S) :
    Member.Agrees (optional name ofText set) (optional name ofValue set) :=
  ⟨rfl, rfl, fun state => part.map (set state)⟩

end Members

/-- The pairs that are named for members. -/
def memberPairs (members : List (Member Json S)) (pairs : List (String × Json)) :
    List (String × Json) :=
  pairs.filter fun pair => isMember members pair.1

theorem memberPairs_cons_of_isMember {members : List (Member Json S)} {pair : String × Json}
    (known : isMember members pair.1 = true) (rest : List (String × Json)) :
    memberPairs members (pair :: rest) = pair :: memberPairs members rest :=
  List.filter_cons_of_pos known

theorem memberPairs_cons_of_not_isMember {members : List (Member Json S)} {pair : String × Json}
    (unknown : ¬isMember members pair.1 = true) (rest : List (String × Json)) :
    memberPairs members (pair :: rest) = memberPairs members rest :=
  List.filter_cons_of_neg unknown

/-- Only members are read. -/
theorem foldlM_memberPairs (members : List (Member Json S)) (path : Path)
    (pairs : List (String × Json)) (state : S) :
    (memberPairs members pairs).foldlM (readMember members path) state =
      pairs.foldlM (readMember members path) state := by
  induction pairs generalizing state with
  | nil => rfl
  | cons pair rest ih =>
    rw [List.foldlM_cons]
    by_cases known : isMember members pair.1 = true
    · rw [memberPairs_cons_of_isMember known, List.foldlM_cons]
      exact congrArg _ (funext ih)
    · rw [memberPairs_cons_of_not_isMember known, ih]
      rw [isMember, Option.not_isSome_iff_eq_none] at known
      rw [readMember, known]
      rfl

section Structures

variable {members : List (Member Place S)} {members' : List (Member Json S)}
  (related : List.Forall₂ Member.Agrees members members')

include related

theorem rel_find?_members (name : String) :
    Option.Rel Member.Agrees (members.find? fun m => m.name = name)
      (members'.find? fun m => m.name = name) := by
  induction related with
  | nil => exact .none
  | @cons m m' ms ms' head _ ih =>
    rw [List.find?_cons, List.find?_cons, head.name]
    split
    · exact .some head
    · exact ih

/-- The fields of an object in a text: members come once and are read, and other fields are passed
over. -/
theorem readFields_agrees (path : Path) (depth : Nat)
    {parts : List (Except SyntaxError String × Outline)} :
    ∀ {state last : S} {seen seen' : List String},
      readFields members path state seen
          (parts.map fun part => (part.1, (⟨part.2, depth⟩ : Place))) = .ok (last, seen') →
        Outline.wellFormedFields parts = true ∧
          ∀ pairs, Outline.fieldsWithin depth parts = .ok pairs →
            (memberPairs members' pairs).foldlM (readMember members' path) state = .ok last ∧
              seen' = ((memberPairs members' pairs).map Prod.fst).reverse ++ seen ∧
              ((memberPairs members' pairs).map Prod.fst).Nodup ∧
              ∀ key ∈ (memberPairs members' pairs).map Prod.fst, key ∉ seen := by
  induction parts with
  | nil =>
    intro state last seen seen' read
    cases read
    refine ⟨rfl, fun pairs values => ?_⟩
    cases values
    exact ⟨rfl, rfl, List.nodup_nil, List.forall_mem_nil _⟩
  | cons part rest ih =>
    intro state last seen seen' read
    obtain ⟨name, keyed, step⟩ := readFields_cons_eq_ok read
    obtain ⟨key, part⟩ := part
    cases keyed
    have found := rel_find?_members related name
    generalize known' : members'.find? (fun m => m.name = name) = result at found
    rcases step with ⟨unknown, formed, read⟩ | ⟨m, next, known, unseen, partRead, read⟩
    · rw [unknown] at found
      cases found
      have notMember : ¬isMember members' name = true := by
        rw [isMember, known']
        exact Bool.false_ne_true
      obtain ⟨restFormed, same⟩ := ih read
      refine ⟨Bool.and_eq_true_iff.2 ⟨formed, restFormed⟩, fun pairs values => ?_⟩
      obtain ⟨v, others, _, restValues, rfl⟩ := Outline.exists_of_fieldsWithin_cons values
      rw [memberPairs_cons_of_not_isMember notMember]
      exact same others restValues
    · rw [known] at found
      cases found with
      | @some _ m' agrees =>
      have isThere : isMember members' name = true := by
        rw [isMember, known']
        rfl
      obtain ⟨partFormed, partSame⟩ := agrees.read state _ _ next partRead
      obtain ⟨restFormed, same⟩ := ih read
      refine ⟨Bool.and_eq_true_iff.2 ⟨partFormed, restFormed⟩, fun pairs values => ?_⟩
      obtain ⟨v, others, partValue, restValues, rfl⟩ := Outline.exists_of_fieldsWithin_cons values
      obtain ⟨folded, rfl, distinct, fresh⟩ := same others restValues
      have taken : readMember members' path state (name, v) = .ok next := by
        rw [readMember, known']
        exact partSame v partValue
      rw [memberPairs_cons_of_isMember isThere, List.map_cons]
      refine ⟨foldlM_cons_eq_ok taken folded, by simp,
        List.nodup_cons.2 ⟨fun again => ?_, distinct⟩,
        List.forall_mem_cons.2 ⟨unseen, fun key there again => ?_⟩⟩
      · exact fresh name again List.mem_cons_self
      · exact fresh key there (List.mem_cons_of_mem _ again)

/-- The items of an array in a text that are members of a structure. -/
theorem readItems_agrees {shape : Shape Place S} (shape' : Shape Json S) {total : Nat}
    (path : Path) (depth : Nat) {stop : Option SyntaxError} :
    ∀ {parts : List Outline} {state last : S} {position : Nat},
      readItems shape total path stop state position members
          (parts.map fun part => (⟨part, depth⟩ : Place)) = .ok last →
        (Outline.wellFormedItems parts = true ∧ stop = none) ∧
          ∀ total' vs, Outline.valuesWithin depth parts = .ok vs →
            readItems shape' total' path none state position members' vs = .ok last := by
  induction related with
  | nil =>
    intro parts state last position read
    cases parts with
    | nil =>
      cases stop with
      | some e => cases read
      | none =>
        cases read
        refine ⟨⟨rfl, rfl⟩, fun total' vs values => ?_⟩
        cases values
        rfl
    | cons part rest => cases read
  | @cons m m' ms ms' head _ ih =>
    intro parts state last position read
    cases parts with
    | nil =>
      cases stop with
      | some e => cases read
      | none =>
        rw [List.map_nil, readItems] at read
        split at read
        · rename_i optional
          rw [← List.map_nil (f := fun part => (⟨part, depth⟩ : Place))] at read
          obtain ⟨formed, same⟩ := ih read
          refine ⟨formed, fun total' vs values => ?_⟩
          cases values
          rw [head.isOptional] at optional
          rw [readItems, if_pos optional]
          exact same total' [] rfl
        · cases read
    | cons part rest =>
      rw [List.map_cons, readItems] at read
      split at read
      · cases read
      · rename_i next partRead
        obtain ⟨partFormed, partSame⟩ := head.read state _ _ next partRead
        obtain ⟨⟨restFormed, ended⟩, same⟩ := ih read
        refine ⟨⟨Bool.and_eq_true_iff.2 ⟨partFormed, restFormed⟩, ended⟩,
          fun total' vs values => ?_⟩
        obtain ⟨v, value, behind⟩ := Except.bind_eq_ok.1 values
        obtain ⟨others, restValues, result⟩ := Except.bind_eq_ok.1 behind
        cases result
        rw [readItems, partSame v value]
        exact same total' others restValues

end Structures

/-- A structure is read from a text as from its value. Fields that are passed over may come more
than once, and the value has one of them; but members may not. -/
theorem Shape.agrees {shape : Shape Place S} {shape' : Shape Json S}
    (blank : shape.blank = shape'.blank)
    (related : List.Forall₂ Member.Agrees shape.members shape'.members) :
    Agrees shape.read shape'.read := by
  rintro path ⟨outline, depth⟩ a read
  have shown := shows_view outline depth
  rw [Shape.read] at read
  generalize Source.view (⟨outline, depth⟩ : Place) = view at read shown
  cases shown with
  | obj parts stop =>
    obtain ⟨⟨last, seen⟩, fieldsRead, behind⟩ := Except.bind_eq_ok.1 read
    obtain ⟨_, stopped, ended⟩ := Except.bind_eq_ok.1 behind
    obtain ⟨formed, same⟩ := readFields_agrees related path (depth - 1) fieldsRead
    cases stop with
    | some e => cases stopped
    | none =>
      refine ⟨Bool.and_eq_true_iff.2 ⟨formed, rfl⟩, fun v value => ?_⟩
      obtain ⟨pairs, values, rfl⟩ := Outline.exists_of_valueWithin_obj value
      obtain ⟨folded, rfl, distinct, _⟩ := same pairs values
      have kept : memberPairs shape'.members (Keyed.ofPairs pairs) =
          memberPairs shape'.members pairs :=
        (Keyed.filter_ofPairs (isMember shape'.members) pairs).trans
          (Keyed.ofPairs_of_nodup distinct)
      split at ended
      · cases ended
      · rename_i complete
        cases ended
        refine (Shape.read_obj_eq_ok (Keyed.nodup_keys_ofPairs pairs)).2
          ⟨?_, fun m' there must => ?_⟩
        · rw [← foldlM_memberPairs, kept, ← blank]
          exact folded
        · obtain ⟨m, member, agrees⟩ := related.exists_of_mem_right there
          have listed := List.find?_eq_none.1 complete m member
          rw [agrees.isOptional, must, agrees.name] at listed
          have named : m'.name ∈ (memberPairs shape'.members pairs).map Prod.fst := by
            simpa using listed
          obtain ⟨pair, among, same⟩ := List.mem_map.1 named
          exact Keyed.mem_keys_ofPairs.2 (List.mem_map.2 ⟨pair, List.mem_of_mem_filter among, same⟩)
  | arr parts stop =>
    obtain ⟨⟨formed, rfl⟩, same⟩ := readItems_agrees related shape' path (depth - 1) read
    refine ⟨Bool.and_eq_true_iff.2 ⟨formed, rfl⟩, fun v value => ?_⟩
    obtain ⟨vs, values, rfl⟩ := Outline.exists_of_valueWithin_arr value
    rw [Shape.read, ← blank]
    exact same vs.length vs values
  | _ => cases read

/-! ## Choices -/

section Choices

variable {known : List (String × Reader Place α)} {known' : List (String × Reader Json α)}
  (related : List.Forall₂ (fun p q => p.1 = q.1 ∧ Agrees p.2 q.2) known known')

include related

/-- A name that one reader of a choice knows is known to the other one. -/
theorem exists_get?_of_choiceName {path : Path} {name : String} {read : Reader Place α}
    (found : choiceName known path name = .ok read) :
    ∃ read', Keyed.get? name known' = some read' ∧ Agrees read read' := by
  have parts := Keyed.rel_get? related name
  rw [choiceName] at found
  split at found
  · rename_i read' there
    cases found
    rw [there] at parts
    generalize Keyed.get? name known' = result at parts
    cases parts with
    | some agrees => exact ⟨_, rfl, agrees⟩
  · cases found

theorem Agrees.choice (bare : String → Path → Except ReadError α) :
    Agrees (choice known bare) (choice known' bare) := by
  rintro path ⟨outline, depth⟩ a read
  have shown := shows_view outline depth
  rw [Document.choice] at read
  generalize Source.view (⟨outline, depth⟩ : Place) = view at read shown
  cases shown with
  | str name =>
    obtain ⟨_, named, behind⟩ := Except.bind_eq_ok.1 read
    obtain ⟨reader, found, _⟩ := Except.map_eq_ok.1 named
    obtain ⟨reader', there, _⟩ := exists_get?_of_choiceName related found
    refine ⟨rfl, fun v value => ?_⟩
    cases value
    rw [Document.choice]
    refine Except.bind_eq_ok.2 ⟨(), ?_, behind⟩
    rw [choiceName, there]
    rfl
  | obj parts stop =>
    cases parts with
    | nil => cases read
    | cons part rest =>
      obtain ⟨key, part⟩ := part
      cases key with
      | error e => cases read
      | ok name =>
        obtain ⟨reader, found, behind⟩ := Except.bind_eq_ok.1 read
        obtain ⟨result, partRead, ended⟩ := Except.bind_eq_ok.1 behind
        obtain ⟨reader', there, agrees⟩ := exists_get?_of_choiceName related found
        obtain ⟨formed, same⟩ := agrees _ _ result partRead
        split at ended
        · rename_i alone
          cases ended
          rw [Bool.and_eq_true, List.isEmpty_map, List.isEmpty_iff] at alone
          obtain ⟨rfl, closed⟩ := alone
          refine ⟨Bool.and_eq_true_iff.2 ⟨Bool.and_eq_true_iff.2 ⟨formed, rfl⟩, closed⟩, ?_⟩
          intro v value
          obtain ⟨pairs, values, rfl⟩ := Outline.exists_of_valueWithin_obj value
          obtain ⟨v, others, partValue, restValues, rfl⟩ := Outline.exists_of_fieldsWithin_cons values
          cases restValues
          exact (choice_obj there path v).trans (same v partValue)
        · cases ended
  | _ => cases read

end Choices

end CallContract.Document

namespace CallContract

open Document (Agrees Shape Place)

/-! ## Declarations -/

theorem EnumMember.read_agrees : Agrees (EnumMember.read (σ := Place)) EnumMember.read :=
  Shape.agrees rfl (.cons (Agrees.string.required "label" _)
    (.cons (Agrees.value.required "value" _) .nil))

theorem Field.readDecl_agrees : Agrees (Field.readDecl (σ := Place)) Field.readDecl :=
  Shape.agrees rfl (.cons (Agrees.string.required "name" _)
    (.cons (Agrees.string.required "annotation" _)
      (.cons (Agrees.value.optional "default" _) .nil)))

theorem RecordDecl.read_agrees : Agrees (RecordDecl.read (σ := Place)) RecordDecl.read :=
  Shape.agrees rfl (.cons (Agrees.string.required "name" _)
    (.cons (Field.readDecl_agrees.list.optional "fields" _) .nil))

theorem EnumDecl.read_agrees : Agrees (EnumDecl.read (σ := Place)) EnumDecl.read :=
  Shape.agrees rfl (.cons (Agrees.string.required "name" _)
    (.cons (EnumMember.read_agrees.list.required "members" _) .nil))

theorem Declaration.read_agrees : Agrees (Declaration.read (σ := Place)) Declaration.read :=
  Agrees.choice (.cons ⟨rfl, RecordDecl.read_agrees.map _⟩
    (.cons ⟨rfl, EnumDecl.read_agrees.map _⟩ .nil)) _

theorem ParamKind.read_agrees : Agrees (ParamKind.read (σ := Place)) ParamKind.read := by
  refine Agrees.choice ?_ _
  rw [List.forall₂_map_left_iff, List.forall₂_map_right_iff, List.forall₂_same]
  exact fun _ _ => ⟨rfl, Agrees.nothing.map _⟩

theorem ParamDecl.read_agrees : Agrees (ParamDecl.read (σ := Place)) ParamDecl.read :=
  Shape.agrees rfl (.cons (Agrees.string.required "name" _)
    (.cons (Agrees.string.orNull.optional "annotation" _)
      (.cons (Agrees.value.optional "default" _)
        (.cons (ParamKind.read_agrees.optional "kind" _) .nil))))

theorem SignatureDecl.read_agrees : Agrees (SignatureDecl.read (σ := Place)) SignatureDecl.read :=
  Shape.agrees rfl (.cons (Agrees.string.required "name" _)
    (.cons (ParamDecl.read_agrees.list.optional "params" _)
      (.cons (Agrees.string.orNull.optional "returns" _) .nil)))

theorem Manifest.read_agrees : Agrees (Manifest.read (σ := Place)) Manifest.read :=
  Shape.agrees rfl (.cons (Declaration.read_agrees.list.optional "types" _)
    (.cons (SignatureDecl.read_agrees.required "function" _) .nil))

/-- A text that is read as a manifest starts with a value whose form holds up to its end. The reader
of all other documents accepts the text too, unless literals of the value denote nothing, the value
is nested too deep or something other than blanks stands behind it; and from the value that it
gives, the same manifest is read. -/
theorem Manifest.ofText_agrees {text : String} {m : Manifest}
    (read : Manifest.ofText text = .ok m) :
    (Json.Outline.read text.toList).1.wellFormed = true ∧
      ((∃ v, Json.ofText text = .ok v) ↔
        (Json.Outline.read text.toList).1.denotes = true ∧
          (Json.Outline.read text.toList).1.nesting < Json.Outline.depthLimit ∧
          Json.Outline.skipSpace (Json.Outline.read text.toList).2 = []) ∧
      ∀ v, Json.ofText text = .ok v → Manifest.read [] v = .ok m := by
  obtain ⟨formed, same⟩ := Manifest.read_agrees [] _ m read
  refine ⟨formed, ?_, fun v value => same v (Json.ofText_eq_ok_iff.1 value).1⟩
  rw [Json.exists_ofText_iff, formed, and_assoc, and_assoc]
  exact and_iff_right rfl

/-- The text of a manifest with a member that no manifest has, and with blanks around its value. -/
def noteText : String :=
  "\n\x7b\"note\": [\"draft\", \x7b\"by\": []\x7d],\n" ++
    "\"types\": [\x7b\"record\": \x7b\"name\": \"Pair\"\x7d\x7d],\n" ++
    "\"function\": \x7b\"name\": \"f\", \"returns\": \"Pair\"\x7d\x7d \n"

/-- The manifest of `noteText`, which passes the member over. -/
def noteManifest : Manifest where
  types := [.record { name := "Pair" }]
  function := { name := "f", returns := some "Pair" }

/-- The value of `noteText`, which has the member. -/
def noteDocument : Json :=
  .obj [("note", .arr [.str "draft", .obj [("by", .arr [])]]),
    ("types", .arr [.obj [("record", .obj [("name", .str "Pair")])]]),
    ("function", .obj [("name", .str "f"), ("returns", .str "Pair")])]

/-- The member and the blanks do no harm: the same manifest is read from the value. -/
theorem Manifest.ofText_agrees_note :
    (Manifest.ofText noteText = .ok noteManifest ∧ Json.ofText noteText = .ok noteDocument) ∧
      (Json.Outline.read noteText.toList).1.wellFormed = true ∧
      Json.Outline.skipSpace (Json.Outline.read noteText.toList).2 = [] ∧
      Manifest.read [] noteDocument = .ok noteManifest := by
  have read : Manifest.ofText noteText = .ok noteManifest := by cbv
  have value : Json.ofText noteText = .ok noteDocument := by cbv
  obtain ⟨formed, whole, same⟩ := Manifest.ofText_agrees read
  obtain ⟨_, _, blanks⟩ := whole.1 ⟨noteDocument, value⟩
  exact ⟨⟨read, value⟩, formed, blanks, same noteDocument value⟩

/-- The text of a manifest that declares a function and no types. -/
def shortManifest : String :=
  "\x7b\"function\": \x7b\"name\": \"f\"\x7d\x7d"

/-- What stands behind a manifest goes unnoticed. -/
theorem Manifest.not_ofText_whole :
    ¬∀ text m, Manifest.ofText text = .ok m →
      ∃ v, Json.ofText text = .ok v ∧ Manifest.read [] v = .ok m := by
  intro whole
  have read : Manifest.ofText (shortManifest ++ " x") = .ok { function := { name := "f" } } := by
    cbv
  obtain ⟨v, value, _⟩ := whole _ _ read
  have blank :
      Json.Outline.skipSpace (Json.Outline.read (shortManifest ++ " x").toList).2 = ['x'] := by
    cbv
  cases blank.symm.trans (Json.ofText_eq_ok_iff.1 value).2

end CallContract
