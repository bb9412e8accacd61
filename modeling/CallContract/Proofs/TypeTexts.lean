import CallContract.Descriptor.Text
import CallContract.Proofs.DeclarationOrder

/-!
# Types resolved from their own text

* `Descriptor.toTypeExpr` is the annotation that a type is shown as, and `Descriptor.Shows` leads to
  the types whose names or brackets stand in its text.
* `Registry.Presents`: what a type has to be to be shown so that it can be read back; everything
  that is shown of a resolved type is.
* `Text.bracketDepth` counts open brackets; in the text of a type it is the nesting of generics.
* `resolve_text`: a resolved type is what its text is resolved to.
-/

namespace CallContract

/-! ## Brackets -/

namespace Text

/-- The most brackets open at once in a text, behind so many open ones. -/
def bracketDepth (opened : Nat) : List Char → Nat
  | [] => opened
  | c :: rest =>
    max opened
      (bracketDepth (if c = '[' then opened + 1 else if c = ']' then opened - 1 else opened) rest)

/-- Characters that close what they open, and open so many brackets at once. -/
def IsBalanced (cs : List Char) (depth : Nat) : Prop :=
  ∀ opened rest,
    bracketDepth opened (cs ++ rest) = max (opened + depth) (bracketDepth opened rest)

theorem le_bracketDepth (opened : Nat) (cs : List Char) : opened ≤ bracketDepth opened cs := by
  cases cs with
  | nil => exact Nat.le_refl _
  | cons c cs => exact Nat.le_max_left _ _

theorem isBalanced_nil : IsBalanced [] 0 := fun opened rest =>
  (Nat.max_eq_right (le_bracketDepth opened rest)).symm

theorem IsBalanced.append {cs ds : List Char} {m n : Nat} (first : IsBalanced cs m)
    (next : IsBalanced ds n) : IsBalanced (cs ++ ds) (max m n) := by
  intro opened rest
  rw [List.append_assoc, first, next]
  omega

theorem isBalanced_of_plain {cs : List Char} (plain : ∀ c ∈ cs, c ≠ '[' ∧ c ≠ ']') :
    IsBalanced cs 0 := by
  induction cs with
  | nil => exact isBalanced_nil
  | cons c cs ih =>
    intro opened rest
    obtain ⟨noOpen, noClose⟩ := plain c List.mem_cons_self
    have others := ih fun d member => plain d (List.mem_cons_of_mem c member)
    rw [List.cons_append, bracketDepth, if_neg noOpen, if_neg noClose, others]
    omega

theorem IsBalanced.brackets {cs : List Char} {n : Nat} (inner : IsBalanced cs n) :
    IsBalanced ('[' :: (cs ++ [']'])) (1 + n) := by
  intro opened rest
  have closed : bracketDepth (opened + 1) (']' :: rest) =
      max (opened + 1) (bracketDepth opened rest) := rfl
  rw [List.cons_append, List.append_assoc, List.singleton_append, bracketDepth, if_pos rfl, inner,
    closed]
  omega

end Text

/-! ## The annotation of a type -/

namespace Descriptor

mutual
/-- The annotation that a type is shown as. -/
def toTypeExpr : Descriptor → TypeExpr
  | .primitive kind => .name kind.word
  | .none => .name "None"
  | .any => .name "Any"
  | .optional inner => .generic "Optional" [toTypeExpr inner]
  | .union members => .generic "Union" (toTypeExprs members)
  | .list element => .generic "list" [toTypeExpr element]
  | .mapping key value => .generic "dict" [toTypeExpr key, toTypeExpr value]
  | .record name _ => .name name
  | .enumeration name _ => .name name
  | .path => .name "Path"
  | .fileData => .name "FileData"

/-- The annotations of several types. -/
def toTypeExprs : List Descriptor → List TypeExpr
  | [] => []
  | t :: rest => toTypeExpr t :: toTypeExprs rest
end

/-- The types inside a type that its text shows. Of records and enumerations there is the name
only. -/
def shownParts : Descriptor → List Descriptor
  | .optional inner => [inner]
  | .union members => members
  | .list element => [element]
  | .mapping key value => [key, value]
  | _ => []

/-- The text of a type shows another one: as a part, a part of a part, and so on. -/
def Shows : Descriptor → Descriptor → Prop :=
  Relation.ReflTransGen fun t u => u ∈ t.shownParts

theorem toTypeExprs_eq_map (ts : List Descriptor) : toTypeExprs ts = ts.map toTypeExpr := by
  induction ts with
  | nil => rfl
  | cons t ts ih => rw [toTypeExprs, ih, List.map_cons]

theorem forall_shows_iff {P : Descriptor → Prop} {t : Descriptor} :
    (∀ u, t.Shows u → P u) ↔ P t ∧ ∀ part ∈ t.shownParts, ∀ u, part.Shows u → P u :=
  Relation.forall_reflTransGen_iff

theorem sizeOf_lt_of_mem_shownParts {t u : Descriptor} (member : u ∈ t.shownParts) :
    sizeOf u < sizeOf t := by
  cases t with
  | optional inner =>
    cases List.mem_singleton.1 member
    rw [optional.sizeOf_spec]
    omega
  | list element =>
    cases List.mem_singleton.1 member
    rw [list.sizeOf_spec]
    omega
  | union members =>
    have among : u ∈ members := member
    have smaller := List.sizeOf_lt_of_mem among
    rw [union.sizeOf_spec]
    omega
  | mapping key value =>
    rw [mapping.sizeOf_spec]
    rcases List.mem_pair.1 member with rfl | rfl
    · omega
    · omega
  | _ => cases member

/-- Induction over what the text of a type shows. -/
theorem shownInduction {motive : Descriptor → Prop}
    (step : ∀ t, (∀ part ∈ t.shownParts, motive part) → motive t) (t : Descriptor) : motive t :=
  step t fun part member =>
    have := sizeOf_lt_of_mem_shownParts member
    shownInduction step part
termination_by sizeOf t

/-- Types with commas between them have the characters of their annotations so. -/
theorem charsOfAll_toTypeExprs {ts : List Descriptor}
    (each : ∀ t ∈ ts, t.toTypeExpr.chars = t.chars) :
    TypeExpr.charsOfAll [',', ' '] (toTypeExprs ts) = charsOfAll ts := by
  rw [TypeExpr.charsOfAll_eq, toTypeExprs_eq_map, List.map_map]
  induction ts with
  | nil => rfl
  | cons t ts ih =>
    have first := each t List.mem_cons_self
    have others := ih fun u member => each u (List.mem_cons_of_mem t member)
    cases ts with
    | nil =>
      rw [charsOfAll, ← first]
      simp
    | cons u us =>
      rw [charsOfAll, ← others, ← first, List.map_cons, List.map_cons, List.intercalate_cons_cons]
      · rfl
      · exact List.cons_ne_nil u us

theorem chars_generic (head : String) (args : List TypeExpr) :
    (TypeExpr.generic head args).chars =
      head.toList ++ ['['] ++ TypeExpr.charsOfAll [',', ' '] args ++ [']'] := by
  rw [TypeExpr.chars]
  simp

theorem chars_generic_toTypeExprs (head : String) {ts : List Descriptor}
    (each : ∀ t ∈ ts, t.toTypeExpr.chars = t.chars) :
    (TypeExpr.generic head (toTypeExprs ts)).chars =
      head.toList ++ ['['] ++ charsOfAll ts ++ [']'] := by
  rw [chars_generic, charsOfAll_toTypeExprs each]

/-- The characters of a type are those of its annotation. -/
theorem chars_toTypeExpr (t : Descriptor) : t.toTypeExpr.chars = t.chars := by
  induction t using shownInduction with
  | step t parts =>
    cases t with
    | optional inner => exact chars_generic_toTypeExprs "Optional" parts
    | list element => exact chars_generic_toTypeExprs "list" parts
    | mapping key value =>
      have inside : charsOfAll [key, value] = key.chars ++ ", ".toList ++ value.chars := by
        rw [charsOfAll, charsOfAll]
        exact List.cons_ne_nil value []
      have written : (mapping key value).chars =
          "dict[".toList ++ key.chars ++ ", ".toList ++ value.chars ++ [']'] := rfl
      have head : "dict".toList ++ ['['] = "dict[".toList := rfl
      have whole := chars_generic_toTypeExprs "dict" parts
      rw [head, shownParts, inside] at whole
      rw [written]
      refine whole.trans ?_
      -- unification would look into the texts
      generalize "dict[".toList = opening, ", ".toList = comma
      simp only [List.append_assoc]
    | union members => exact chars_generic_toTypeExprs "Union" parts
    | _ => rfl

end Descriptor

/-! ## Types that are shown as they can be read -/

namespace Registry

open Descriptor (toTypeExpr)

/-- What a type has to be to be shown so that it can be read back: a record is what its name is
resolved to, an enumeration has a name that can be read, and a union has two members or more. -/
def Presents (reg : Registry) : Descriptor → Prop
  | .record name fields =>
    Token.isDotted name.toList = true ∧ reg.typeOf? [] (.name name) = some (.record name fields)
  | .enumeration name _ => Token.isDotted name.toList = true
  | .union members => 2 ≤ members.length
  | _ => True

/-- All that the text of a type shows can be read back. -/
def PresentsAll (reg : Registry) (t : Descriptor) : Prop :=
  ∀ u, t.Shows u → reg.Presents u

variable {reg : Registry}

theorem presentsAll_iff {t : Descriptor} :
    reg.PresentsAll t ↔ reg.Presents t ∧ ∀ part ∈ t.shownParts, reg.PresentsAll part :=
  Descriptor.forall_shows_iff

/-- A type that shows no other. -/
theorem presentsAll_of_shownParts {t : Descriptor} (noParts : t.shownParts = [])
    (presents : reg.Presents t) : reg.PresentsAll t := by
  rw [presentsAll_iff, noParts]
  exact ⟨presents, fun _ member => by cases member⟩

theorem eq_some_of_ite {α : Type} {c : Prop} [Decidable c] {x y : Option α} {a : α}
    (found : (if c then x else y) = some a) : x = some a ∨ y = some a := by
  split at found
  · exact Or.inl found
  · exact Or.inr found

/-- The builtin types show no others, but for lists and mappings of anything. -/
theorem shownParts_builtin {name : String} {t : Descriptor} (found : builtin? name = some t) :
    (t.shownParts = [] ∧ reg.Presents t) ∨ t = .list .any ∨ t = .mapping .string .any := by
  unfold builtin? at found
  dsimp only at found
  iterate 8
    obtain same | found := eq_some_of_ite found
    · cases same
      exact Or.inl ⟨rfl, trivial⟩
  obtain same | found := eq_some_of_ite found
  · cases same
    exact Or.inr (Or.inl rfl)
  obtain same | found := eq_some_of_ite found
  · cases same
    exact Or.inr (Or.inr rfl)
  · cases found

theorem presentsAll_builtin {name : String} {t : Descriptor} (found : builtin? name = some t) :
    reg.PresentsAll t := by
  have any : reg.PresentsAll .any := presentsAll_of_shownParts rfl trivial
  have string : reg.PresentsAll .string := presentsAll_of_shownParts rfl trivial
  rcases shownParts_builtin found with ⟨noParts, presents⟩ | rfl | rfl
  · exact presentsAll_of_shownParts noParts presents
  · exact presentsAll_iff.2 ⟨trivial, List.forall_mem_singleton.2 any⟩
  · exact presentsAll_iff.2
      ⟨trivial, List.forall_mem_cons.2 ⟨string, List.forall_mem_singleton.2 any⟩⟩

/-- A generic makes one of four types of its arguments, or is its only argument. -/
theorem ofGeneric_eq_ok {head : String} {types : List Descriptor} {t : Descriptor}
    (made : ofGeneric head types = .ok t) :
    (∃ u, types = [u] ∧ (t = u ∨ t = .optional u ∨ t = .list u)) ∨
      (types.length ≠ 1 ∧ t = .union types) ∨ ∃ key value, types = [key, value] ∧
        t = .mapping key value := by
  unfold ofGeneric at made
  dsimp only at made
  split at made
  · split at made
    · cases made
      exact Or.inl ⟨_, rfl, Or.inr (Or.inl rfl)⟩
    · cases made
  · split at made
    · split at made
      · cases made
        exact Or.inl ⟨_, rfl, Or.inl rfl⟩
      · rename_i several
        cases made
        refine Or.inr (Or.inl ⟨fun one => ?_, rfl⟩)
        obtain ⟨u, single⟩ := List.length_eq_one_iff.1 one
        exact several u single
    · split at made
      · split at made
        · cases made
          exact Or.inl ⟨_, rfl, Or.inr (Or.inr rfl)⟩
        · cases made
      · split at made
        · split at made
          · cases made
            exact Or.inr (Or.inr ⟨_, _, rfl, rfl⟩)
          · cases made
        · cases made

theorem presentsAll_ofGeneric {head : String} {types : List Descriptor} (inhabited : types ≠ [])
    (each : ∀ t ∈ types, reg.PresentsAll t) {t : Descriptor}
    (made : ofGeneric head types = .ok t) : reg.PresentsAll t := by
  rcases ofGeneric_eq_ok made with
    ⟨u, rfl, rfl | rfl | rfl⟩ | ⟨several, rfl⟩ | ⟨key, value, rfl, rfl⟩
  · exact each t List.mem_cons_self
  · exact presentsAll_iff.2 ⟨trivial, each⟩
  · exact presentsAll_iff.2 ⟨trivial, each⟩
  · have positive := List.length_pos_iff.2 inhabited
    have two : 2 ≤ types.length := by omega
    exact presentsAll_iff.2 ⟨two, each⟩
  · exact presentsAll_iff.2 ⟨trivial, each⟩

/-- A declared type is shown by its name. -/
theorem presentsAll_declared (sound : reg.IsSound) {name : String} (free : builtin? name = none)
    (dotted : Token.isDotted name.toList = true) {t : Descriptor}
    (resolved : reg.typeOf? [] (.name name) = some t) : reg.PresentsAll t := by
  have found := resolved
  rw [typeOf?_name free] at found
  obtain ⟨d, known, declared⟩ := Option.bind_eq_some_iff.1 found
  have named : name = d.name := sound.named name d (Keyed.mem_of_get? known)
  rw [if_neg (by simp)] at declared
  cases d with
  | enumeration e =>
    cases declared
    subst named
    exact presentsAll_of_shownParts rfl dotted
  | record r =>
    obtain ⟨fields, _, rfl⟩ := Option.map_eq_some_iff.1 declared
    subst named
    exact presentsAll_of_shownParts rfl ⟨dotted, resolved⟩

theorem forall_mem_of_mapM {stack : List String} {as : List TypeExpr} {types : List Descriptor}
    (made : as.mapM (reg.typeOf? stack) = some types)
    (each : ∀ a ∈ as, ∀ t, reg.typeOf? stack a = some t → reg.PresentsAll t) :
    ∀ t ∈ types, reg.PresentsAll t := by
  intro t member
  obtain ⟨a, memberOf, resolved⟩ := (List.mapM_eq_some.1 made).exists_of_mem_right member
  exact each a memberOf t resolved

/-- All that a resolved type shows can be read back. -/
theorem presentsAll_of_typeOf? (sound : reg.IsSound) (stack : List String) (a : TypeExpr) :
    stack = [] → a.isWellFormed = true → ∀ t, reg.typeOf? stack a = some t →
      reg.PresentsAll t := by
  induction stack, a using resolveInduction reg with
  | forward stack text inner =>
    intro first _ t resolved
    rw [typeOf?_forward, typeOfText?] at resolved
    obtain ⟨a, parsed, others⟩ := Option.bind_eq_some_iff.1 resolved
    have parsed' := Except.toOption_eq_some.1 parsed
    exact inner a parsed' first (formed_of_parse parsed').1 t others
  | name stack name _ =>
    intro first formed t resolved
    subst first
    cases free : builtin? name with
    | some u =>
      rw [typeOf?_builtin free] at resolved
      cases resolved
      exact presentsAll_builtin free
    | none => exact presentsAll_declared sound free formed resolved
  | generic stack head args parts =>
    intro first formed t resolved
    obtain ⟨_, inhabited, formedArgs⟩ := TypeExpr.isWellFormed_generic_iff.1 formed
    rw [typeOf?_generic] at resolved
    split at resolved
    · obtain ⟨values, _, rfl⟩ := Option.map_eq_some_iff.1 resolved
      have dotted : Token.isDotted "Literal".toList = true := by decide
      exact presentsAll_of_shownParts rfl dotted
    · rename_i types
      rw [if_neg types] at formedArgs
      obtain ⟨types, made, others⟩ := Option.bind_eq_some_iff.1 resolved
      have each := forall_mem_of_mapM made fun arg member =>
        parts arg member first (formedArgs arg member)
      have same := (List.mapM_eq_some.1 made).length_eq
      have inhabitedTypes : types ≠ [] := by
        intro none
        rw [none] at same
        exact inhabited (List.length_eq_zero_iff.1 same)
      exact presentsAll_ofGeneric inhabitedTypes each (Except.toOption_eq_some.1 others)
  | union stack arms parts =>
    intro first formed t resolved
    obtain ⟨several, formedArms⟩ := TypeExpr.isWellFormed_union_iff.1 formed
    rw [typeOf?_union] at resolved
    obtain ⟨members, made, rfl⟩ := Option.map_eq_some_iff.1 resolved
    have same := (List.mapM_eq_some.1 made).length_eq
    have each := forall_mem_of_mapM made fun arm member =>
      parts arm member first (formedArms arm member).2
    have two : 2 ≤ members.length := by omega
    exact presentsAll_iff.2 ⟨two, each⟩
  | literal stack v =>
    intro _ formed
    cases formed

/-! ## Reading a type back -/

theorem isWellFormed_generic {head : String} (dotted : Token.isDotted head.toList = true)
    (types : TypeExpr.isLiteralHead head = false) {ts : List Descriptor} (inhabited : ts ≠ [])
    (each : ∀ t ∈ ts, t.toTypeExpr.isWellFormed = true) :
    (TypeExpr.generic head (ts.map toTypeExpr)).isWellFormed = true := by
  refine TypeExpr.isWellFormed_generic_iff.2 ⟨dotted, by simpa using inhabited, ?_⟩
  rw [if_neg (by simp [types])]
  exact List.forall_mem_map.2 each

/-- The annotation of a type that is shown so that it can be read back. -/
theorem isWellFormed_toTypeExpr (t : Descriptor) :
    reg.PresentsAll t → t.toTypeExpr.isWellFormed = true := by
  induction t using Descriptor.shownInduction with
  | step t parts =>
    intro presents
    obtain ⟨here, others⟩ := presentsAll_iff.1 presents
    have each : ∀ part ∈ t.shownParts, part.toTypeExpr.isWellFormed = true :=
      fun part member => parts part member (others part member)
    cases t with
    | primitive kind => cases kind <;> decide
    | record name fields => exact here.1
    | enumeration name members => exact here
    | optional inner => exact isWellFormed_generic (by decide) rfl (List.cons_ne_nil _ _) each
    | list element => exact isWellFormed_generic (by decide) rfl (List.cons_ne_nil _ _) each
    | mapping key value => exact isWellFormed_generic (by decide) rfl (List.cons_ne_nil _ _) each
    | union members =>
      have several : 2 ≤ members.length := here
      have inhabited : members ≠ [] := List.ne_nil_of_length_pos (by omega)
      rw [Descriptor.toTypeExpr, Descriptor.toTypeExprs_eq_map]
      exact isWellFormed_generic (by decide) rfl inhabited each
    | _ => decide

theorem haveIntegersOnly_toTypeExprs {ts : List Descriptor}
    (each : ∀ t ∈ ts, t.toTypeExpr.hasIntegersOnly = true) :
    TypeExpr.haveIntegersOnly (ts.map toTypeExpr) = true :=
  TypeExpr.haveIntegersOnly_iff.2 (List.forall_mem_map.2 each)

theorem hasIntegersOnly_toTypeExpr (t : Descriptor) : t.toTypeExpr.hasIntegersOnly = true := by
  induction t using Descriptor.shownInduction with
  | step t parts =>
    have each := haveIntegersOnly_toTypeExprs parts
    cases t with
    | union members =>
      rw [Descriptor.toTypeExpr, Descriptor.toTypeExprs_eq_map]
      exact each
    | optional inner => exact each
    | list element => exact each
    | mapping key value => exact each
    | _ => rfl

theorem mapM_toTypeExpr {ts : List Descriptor}
    (each : ∀ t ∈ ts, reg.typeOf? [] t.toTypeExpr = some t) :
    (ts.map toTypeExpr).mapM (reg.typeOf? []) = some ts :=
  List.mapM_map_eq_some each

theorem typeOf?_toTypeExpr_generic {head : String} (types : TypeExpr.isLiteralHead head = false)
    {ts : List Descriptor} (each : ∀ t ∈ ts, reg.typeOf? [] t.toTypeExpr = some t)
    {t : Descriptor} (made : ofGeneric head ts = .ok t) :
    reg.typeOf? [] (.generic head (ts.map toTypeExpr)) = some t := by
  rw [typeOf?_generic, if_neg (by simp [types]), mapM_toTypeExpr each]
  exact Except.toOption_eq_some.2 made

/-- The enumerations that a type shows are declared ones. -/
def Declares (reg : Registry) (t : Descriptor) : Prop :=
  ∀ name members, t.Shows (.enumeration name members) →
    Keyed.get? name reg.declarations = some (.enumeration ⟨name, members⟩)

theorem declares_iff {t : Descriptor} :
    reg.Declares t ↔
      (∀ name members, t = .enumeration name members →
        Keyed.get? name reg.declarations = some (.enumeration ⟨name, members⟩)) ∧
        ∀ part ∈ t.shownParts, reg.Declares part := by
  constructor
  · intro declares
    refine ⟨fun name members same => ?_, fun part member name members shows => ?_⟩
    · rw [same] at declares
      exact declares name members .refl
    · exact declares name members (.head member shows)
  · intro given name members shows
    obtain ⟨here, others⟩ := given
    rcases Relation.ReflTransGen.cases_head shows with same | ⟨part, member, rest⟩
    · exact here name members same
    · exact others part member name members rest

/-- A type that can be read back is what its annotation is resolved to. -/
theorem typeOf?_toTypeExpr (sound : reg.IsSound) (t : Descriptor) :
    reg.PresentsAll t → reg.Declares t → reg.typeOf? [] t.toTypeExpr = some t := by
  induction t using Descriptor.shownInduction with
  | step t parts =>
    intro presents declares
    obtain ⟨here, others⟩ := presentsAll_iff.1 presents
    obtain ⟨declared, othersDeclared⟩ := declares_iff.1 declares
    have each : ∀ part ∈ t.shownParts, reg.typeOf? [] part.toTypeExpr = some part :=
      fun part member => parts part member (others part member) (othersDeclared part member)
    cases t with
    | primitive kind => cases kind <;> exact typeOf?_builtin rfl []
    | record name fields => exact here.2
    | enumeration name members =>
      have known := declared name members rfl
      have free := sound.builtin?_eq_none known
      rw [Descriptor.toTypeExpr, typeOf?_name free, known]
      rfl
    | optional inner => exact typeOf?_toTypeExpr_generic rfl each rfl
    | list element => exact typeOf?_toTypeExpr_generic rfl each rfl
    | mapping key value => exact typeOf?_toTypeExpr_generic rfl each rfl
    | union members =>
      have several : 2 ≤ members.length := here
      have made : ofGeneric "Union" members = .ok (.union members) := by
        match members with
        | first :: second :: more => rfl
      rw [Descriptor.toTypeExpr, Descriptor.toTypeExprs_eq_map]
      exact typeOf?_toTypeExpr_generic rfl each made
    | _ => exact typeOf?_builtin rfl []

/-! ## Brackets in the text of a type -/

open Text (IsBalanced isBalanced_nil isBalanced_of_plain)

theorem isBalanced_of_isDotted {name : List Char} (dotted : Token.isDotted name = true) :
    IsBalanced name 0 := by
  have plain : ∀ {c : Char}, Token.isIdentPart c = true → c ≠ '[' ∧ c ≠ ']' := by
    intro c part
    constructor
    · intro same
      rw [same] at part
      cases part
    · intro same
      rw [same] at part
      cases part
  obtain ⟨c, cs, rfl, start, tail⟩ := Token.exists_cons_of_isDotted dotted
  refine isBalanced_of_plain (List.forall_mem_cons.2 ⟨?_, ?_⟩)
  · exact plain (Token.isIdentPart_of_isIdentStart start)
  · clear start dotted
    induction cs with
    | nil => exact fun _ member => by cases member
    | cons d ds ih =>
      rw [Token.goesOn, Bool.and_eq_true] at tail
      refine List.forall_mem_cons.2 ⟨?_, ih tail.2⟩
      simp only [Bool.or_eq_true, Bool.and_eq_true, beq_iff_eq] at tail
      rcases tail.1 with part | ⟨point, _⟩
      · exact plain part
      · rw [point]
        decide

theorem isBalanced_charsBehind {as : List TypeExpr}
    (each : ∀ a ∈ as, IsBalanced a.chars a.nesting) :
    IsBalanced (TypeExpr.charsBehind [',', ' '] as) (TypeExpr.nestingOfAll as) := by
  induction as with
  | nil => exact isBalanced_nil
  | cons a as ih =>
    have first := each a List.mem_cons_self
    have others := ih fun b member => each b (List.mem_cons_of_mem a member)
    have comma : IsBalanced [',', ' '] 0 := isBalanced_of_plain (by simp)
    have whole := comma.append (first.append others)
    rw [Nat.zero_max] at whole
    rw [TypeExpr.charsBehind, TypeExpr.nestingOfAll]
    exact whole

theorem isBalanced_generic {head : String} (dotted : Token.isDotted head.toList = true)
    {as : List TypeExpr} (each : ∀ a ∈ as, IsBalanced a.chars a.nesting) :
    IsBalanced (TypeExpr.generic head as).chars (TypeExpr.generic head as).nesting := by
  have args : IsBalanced (TypeExpr.charsOfAll [',', ' '] as) (TypeExpr.nestingOfAll as) := by
    cases as with
    | nil => exact isBalanced_nil
    | cons a as =>
      have first := each a List.mem_cons_self
      have others := isBalanced_charsBehind fun b member => each b (List.mem_cons_of_mem a member)
      exact first.append others
  have whole := (isBalanced_of_isDotted dotted).append args.brackets
  rw [Nat.zero_max] at whole
  rw [TypeExpr.chars, TypeExpr.nesting]
  exact whole

/-- The brackets in the text of a type are those of its generics. -/
theorem isBalanced_toTypeExpr (t : Descriptor) :
    reg.PresentsAll t → IsBalanced t.toTypeExpr.chars t.toTypeExpr.nesting := by
  induction t using Descriptor.shownInduction with
  | step t parts =>
    intro presents
    obtain ⟨here, others⟩ := presentsAll_iff.1 presents
    have each : ∀ a ∈ t.shownParts.map toTypeExpr, IsBalanced a.chars a.nesting :=
      List.forall_mem_map.2 fun part member => parts part member (others part member)
    cases t with
    | primitive kind => cases kind <;> exact isBalanced_of_isDotted (by decide)
    | record name fields => exact isBalanced_of_isDotted here.1
    | enumeration name members => exact isBalanced_of_isDotted here
    | optional inner => exact isBalanced_generic (by decide) each
    | list element => exact isBalanced_generic (by decide) each
    | mapping key value => exact isBalanced_generic (by decide) each
    | union members =>
      rw [Descriptor.toTypeExpr, Descriptor.toTypeExprs_eq_map]
      exact isBalanced_generic (by decide) each
    | _ => exact isBalanced_of_isDotted (by decide)

end Registry

/-! ## Types as annotations -/

theorem Descriptor.text_eq_render (t : Descriptor) : t.text = t.toTypeExpr.render := by
  rw [text, TypeExpr.render, chars_toTypeExpr]

/-- A resolved type is what its own text is resolved to, if the enumerations that the text shows are
declared ones, and no more than 128 brackets are open at once in it. -/
theorem resolve_text (steps : List Registry.Registration) (reg : Registry)
    (reached : Registry.empty.run steps = reg) (text : String) (t : Descriptor)
    (resolved : reg.resolve text = .ok t) (declares : reg.Declares t)
    (shallow : Text.bracketDepth 0 t.text.toList ≤ 128) : reg.resolve t.text = .ok t := by
  have sound := Registry.isSound_run Registry.isSound_empty steps
  rw [reached] at sound
  obtain ⟨a, parsed, made⟩ := Registry.exists_parse_of_resolve resolved
  have formed := (Registry.formed_of_parse parsed).1
  have presents := Registry.presentsAll_of_typeOf? sound [] a rfl formed t made
  have nested : t.toTypeExpr.nesting ≤ 128 := by
    have balanced := Registry.isBalanced_toTypeExpr t presents 0 []
    rw [t.text_eq_render, TypeExpr.render, String.toList_ofList] at shallow
    rw [List.append_nil] at balanced
    omega
  have again := Registry.parse_eq_ok t.toTypeExpr (Registry.isWellFormed_toTypeExpr t presents)
    (Registry.hasIntegersOnly_toTypeExpr t) nested
  rw [t.text_eq_render, Registry.resolve_eq_ok_iff again]
  exact Registry.typeOf?_toTypeExpr sound t presents declares

/-- An enumeration. -/
def color : EnumDecl :=
  { name := "Color", members := [⟨"RED", .str "red"⟩] }

/-- The registry of `nested` with an enumeration. -/
def painted : Registry :=
  ⟨[("Outer", outer), ("Inner", inner), ("Color", .enumeration color)]⟩

/-- A mapping to records or members of the enumeration. -/
def paintedType : Descriptor :=
  .mapping .string (.union [outerType, .enumeration "Color" color.members])

theorem resolve_painted : painted.resolve "dict[str, Outer | Color]" = .ok paintedType := by
  have outerResolved : painted.typeOf? [] (.name "Outer") = some outerType := by
    have grows := Registry.grows_run nested [.declare (.enumeration color)]
    have resolved : painted.resolve "Outer" = .ok outerType :=
      (Registry.sameUnless_resolve grows "Outer").eq_ok resolve_outer
    have parsed : Registry.parse "Outer" = .ok (.name "Outer") :=
      Registry.parse_eq_ok (.name "Outer") rfl rfl (by decide)
    exact (Registry.resolve_eq_ok_iff parsed).1 resolved
  have colorResolved : painted.typeOf? [] (.name "Color") =
      some (.enumeration "Color" color.members) := by
    rw [Registry.typeOf?_name rfl]
    rfl
  have parsed : Registry.parse "dict[str, Outer | Color]" =
      .ok (.generic "dict" [.name "str", .union [.name "Outer", .name "Color"]]) :=
    Registry.parse_eq_ok (.generic "dict" [.name "str", .union [.name "Outer", .name "Color"]])
      rfl rfl (by decide)
  have value : painted.typeOf? [] (.union [.name "Outer", .name "Color"]) =
      some (.union [outerType, .enumeration "Color" color.members]) := by
    rw [Registry.typeOf?_union, List.mapM_cons, List.mapM_cons, outerResolved, colorResolved]
    rfl
  rw [Registry.resolve_eq_ok_iff parsed, Registry.typeOf?_generic, if_neg (by decide),
    List.mapM_cons, List.mapM_cons, Registry.typeOf?_builtin rfl, value]
  rfl

/-- Bars between types come back as a generic union, with the same type. -/
theorem resolve_text_painted :
    painted.Declares paintedType ∧ Text.bracketDepth 0 paintedType.text.toList = 2 ∧
      paintedType.text = "dict[str, Union[Outer, Color]]" ∧
      painted.resolve "dict[str, Union[Outer, Color]]" = .ok paintedType := by
  have composed {t : Descriptor} (other : ∀ name members, t ≠ .enumeration name members)
      (parts : ∀ part ∈ t.shownParts, painted.Declares part) : painted.Declares t :=
    Registry.declares_iff.2 ⟨fun name members same => absurd same (other name members), parts⟩
  have string : painted.Declares .string := composed nofun nofun
  have record : painted.Declares outerType := composed nofun nofun
  have enumeration : painted.Declares (.enumeration "Color" color.members) := by
    refine Registry.declares_iff.2 ⟨fun name members same => ?_, nofun⟩
    cases same
    rfl
  have value : painted.Declares (.union [outerType, .enumeration "Color" color.members]) :=
    composed nofun (List.forall_mem_cons.2 ⟨record, List.forall_mem_singleton.2 enumeration⟩)
  have declares : painted.Declares paintedType :=
    composed nofun (List.forall_mem_cons.2 ⟨string, List.forall_mem_singleton.2 value⟩)
  have brackets : Text.bracketDepth 0 paintedType.text.toList = 2 := by decide
  have shown : paintedType.text = "dict[str, Union[Outer, Color]]" := rfl
  have again := resolve_text [.declareAll [outer, inner], .declare (.enumeration color)] painted rfl
    "dict[str, Outer | Color]" paintedType resolve_painted declares (by rw [brackets]; decide)
  rw [shown] at again
  exact ⟨declares, brackets, shown, again⟩

end CallContract
