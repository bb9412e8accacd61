import CallContract.Proofs.Decoding
import CallContract.Proofs.Pointers
import CallContract.Schema.Node

/-!
# Names of decoded types

A document has no names for its records and enumerations: their names tell the path to them.

* `Descriptor.StepsTo` is one step from a type to a type that it is made of, `Descriptor.Occurs` a
  path of them, and `Descriptor.nameWords` the words that a path puts behind the document's name.
* `namedFrom_of_decodeNode`: each name is that of the document with the words of its path, joined by
  underscores.
* `Occurs.eq_of_nameWords_eq`: the words tell the path, where names of fields are distinct; and
  `qualify_inj`: the name tells the words, where they have no underscores.
* `decode_names`: so types of one name have a field with an underscore in its name on their paths.
-/

namespace CallContract

namespace Descriptor

/-! ## Paths inside types -/

/-- The ways from a type to a type that it is made of. -/
inductive Step where
  | inner
  | member (index : Nat)
  | element
  | key
  | value
  | field (name : String)
  deriving DecidableEq

/-- A way leads from a type to a part of it. -/
inductive StepsTo : Descriptor → Step → Descriptor → Prop
  | inner {inner : Descriptor} : StepsTo (.optional inner) .inner inner
  | member {members : List Descriptor} {index : Nat} {m : Descriptor}
      (there : members[index]? = some m) : StepsTo (.union members) (.member index) m
  | element {element : Descriptor} : StepsTo (.list element) .element element
  | key {key value : Descriptor} : StepsTo (.mapping key value) .key key
  | value {key value : Descriptor} : StepsTo (.mapping key value) .value value
  | field {name : String} {fields : List (Field Descriptor)} {f : Field Descriptor}
      (member : f ∈ fields) : StepsTo (.record name fields) (.field f.name) f.type

/-- A type occurs in another at the end of a path. -/
inductive Occurs : Descriptor → List Step → Descriptor → Prop
  | here (t : Descriptor) : Occurs t [] t
  | inside {t part u : Descriptor} {step : Step} {path : List Step} (leads : StepsTo t step part)
      (rest : Occurs part path u) : Occurs t (step :: path) u

/-! ## Names -/

/-- The name of a record or an enumeration. -/
def name? : Descriptor → Option String
  | .record name _ | .enumeration name _ => some name
  | _ => Option.none

/-- The words that a way puts into names. -/
def Step.words : Step → List String
  | .inner => []
  | .member index => [Decimal.natText index]
  | .element => ["type"]
  | .key => ["key"]
  | .value => ["value"]
  | .field name => [name]

/-- The words that a type has in its name behind those of the path to it. -/
def ownWords : Descriptor → List String
  | .enumeration _ _ => ["enum"]
  | _ => []

/-- The words in the name of a type at the end of a path. -/
def nameWords (path : List Step) (u : Descriptor) : List String :=
  path.flatMap Step.words ++ u.ownWords

/-- A name with words behind it. -/
def qualify (name : String) (words : List String) : String :=
  words.foldl (fun n word => n ++ "_" ++ word) name

theorem qualify_single (name word : String) : qualify name [word] = name ++ "_" ++ word := rfl

/-- The names inside a type tell the paths to them. -/
def NamedFrom (name : String) (t : Descriptor) : Prop :=
  ∀ path u n, Occurs t path u → u.name? = some n → n = qualify name (nameWords path u)

theorem namedFrom_of_parts {name : String} {t : Descriptor}
    (itself : ∀ n, t.name? = some n → n = qualify name t.ownWords)
    (parts : ∀ step part, StepsTo t step part → NamedFrom (qualify name step.words) part) :
    NamedFrom name t := by
  intro path u n occurs named
  cases occurs with
  | here => exact itself n named
  | @inside _ part _ step path leads rest =>
    rw [parts step part leads path u n rest named, nameWords, nameWords, List.flatMap_cons,
      List.append_assoc]
    exact List.foldl_append.symm

section NamedFrom

variable {name : String}

/-- Types without parts and names. -/
theorem namedFrom_of_isPlain {t : Descriptor} (unnamed : t.name? = Option.none)
    (plain : ∀ step part, ¬StepsTo t step part) : NamedFrom name t :=
  namedFrom_of_parts (fun n named => by rw [unnamed] at named; cases named)
    fun step part leads => absurd leads (plain step part)

theorem namedFrom_optional {inner : Descriptor} (part : NamedFrom name inner) :
    NamedFrom name (.optional inner) := by
  refine namedFrom_of_parts nofun fun step part leads => ?_
  cases leads
  assumption

theorem namedFrom_union {members : List Descriptor}
    (parts : ∀ index m, members[index]? = some m →
      NamedFrom (name ++ "_" ++ Decimal.natText index) m) : NamedFrom name (.union members) := by
  refine namedFrom_of_parts nofun fun step part leads => ?_
  cases leads with
  | member there => exact parts _ part there

theorem namedFrom_list {element : Descriptor} (part : NamedFrom (name ++ "_type") element) :
    NamedFrom name (.list element) := by
  refine namedFrom_of_parts nofun fun step part' leads => ?_
  cases leads
  rwa [Step.words, qualify_single, String.append_assoc]

theorem namedFrom_mapping {key value : Descriptor} (keyNamed : NamedFrom (name ++ "_key") key)
    (valueNamed : NamedFrom (name ++ "_value") value) : NamedFrom name (.mapping key value) := by
  refine namedFrom_of_parts nofun fun step part leads => ?_
  cases leads with
  | key => rwa [Step.words, qualify_single, String.append_assoc]
  | value => rwa [Step.words, qualify_single, String.append_assoc]

theorem namedFrom_record {fields : List (Field Descriptor)}
    (parts : ∀ f ∈ fields, NamedFrom (name ++ "_" ++ f.name) f.type) :
    NamedFrom name (.record name fields) := by
  refine namedFrom_of_parts (fun n named => (Option.some.inj named).symm) fun step part leads => ?_
  cases leads with
  | field member => exact parts _ member

theorem namedFrom_ofValues (values : List Json) :
    NamedFrom name (.ofValues (name ++ "_enum") values) := by
  refine namedFrom_of_parts (fun n named => ?_) nofun
  cases named
  rw [ofValues, ownWords, qualify_single, String.append_assoc]
  rfl

theorem namedFrom_widen {t : Descriptor} (itself : NamedFrom name t) : NamedFrom name t.widen := by
  rw [widen]
  split
  · exact itself
  · exact namedFrom_optional itself

theorem namedFrom_decodedUnion {hadNull : Bool} {types : List Descriptor}
    (parts : ∀ index t, types[index]? = some t →
      NamedFrom (armName name (types.length = 1) index) t) :
    NamedFrom name (decodedUnion hadNull types) := by
  rcases types with _ | ⟨t, _ | ⟨u, rest⟩⟩
  · exact namedFrom_of_isPlain rfl nofun
  · have itself : NamedFrom name t := parts 0 t rfl
    cases hadNull with
    | false => exact itself
    | true => exact namedFrom_optional itself
  · refine namedFrom_union fun index m there => ?_
    have member : (t :: u :: rest)[index]? = some m ∨ m = .none := by
      cases hadNull with
      | false => exact .inl there
      | true =>
        rcases Nat.lt_or_ge index (t :: u :: rest).length with inside | behind
        · exact .inl ((List.getElem?_append_left inside).symm.trans there)
        · have added := (List.getElem?_append_right behind).symm.trans there
          exact .inr (List.mem_singleton.1 (List.mem_of_getElem? added))
    rcases member with among | rfl
    · exact parts index m among
    · exact namedFrom_of_isPlain rfl nofun

end NamedFrom

end Descriptor

open Descriptor (NamedFrom)

/-! ## Names come from paths -/

theorem namedFrom_decodeField {name key : String} {node : Json} {t : Descriptor}
    (required : Option (List String)) (itself : NamedFrom name t) :
    NamedFrom name (decodeField required key node t).type := by
  rw [decodeField]
  split
  · exact Descriptor.namedFrom_widen itself
  · exact itself
  · split
    · exact itself
    · exact Descriptor.namedFrom_widen itself

theorem DecodeRule.namedFrom {name : String} {fields : List (String × Json)} {t : Descriptor}
    (rule : DecodeRule (fun name _ u => NamedFrom name u) name fields t) : NamedFrom name t := by
  cases rule with
  | anyOf _ _ types_eq =>
    refine Descriptor.namedFrom_decodedUnion fun index u there => ?_
    obtain ⟨bound, rfl⟩ := List.getElem?_eq_some_iff.1 there
    have number := (List.forall₂_iff_get.1 types_eq).2 index (types_eq.length_eq ▸ bound) bound
    rwa [List.get_eq_getElem, List.getElem_zipIdx, Nat.zero_add] at number
  | enumeration => exact Descriptor.namedFrom_ofValues _
  | record _ _ _ _ parts_eq =>
    refine Descriptor.namedFrom_record fun f member => ?_
    obtain ⟨property, _, u, named, rfl⟩ := parts_eq.exists_of_mem_right member
    rw [decodeField_name]
    exact namedFrom_decodeField _ named
  | mapping _ _ _ _ _ _ keyNamed valueNamed =>
    exact Descriptor.namedFrom_mapping keyNamed valueNamed
  | list _ _ itemsNamed => exact Descriptor.namedFrom_list itemsNamed
  | anyList => exact Descriptor.namedFrom_list (Descriptor.namedFrom_of_isPlain rfl nofun)
  | bare | null | fileData | path | primitive => exact Descriptor.namedFrom_of_isPlain rfl nofun

/-- The names of a decoded node are from the name it is decoded under. -/
theorem namedFrom_of_decodeNode {node : Json} {name : String} {place : Pointer} {t : Descriptor}
    (decoded : decodeNode name place node = .ok t) : NamedFrom name t :=
  decodeInduction (R := fun name _ u => NamedFrom name u) (fun _ _ _ rule => rule.namedFrom) decoded

theorem namedFrom_of_decode {doc : Json} {name : String} {t : Descriptor}
    (decoded : decode doc name = .ok t) : NamedFrom name t := by
  rw [decode] at decoded
  split at decoded
  · cases decoded
    exact Descriptor.namedFrom_record nofun
  · exact namedFrom_of_decodeNode decoded

/-! ## Words tell paths -/

theorem distinctFields_decodedUnion {hadNull : Bool} {types : List Descriptor}
    (parts : ∀ t ∈ types, t.DistinctFields) : (decodedUnion hadNull types).DistinctFields := by
  rcases types with _ | ⟨t, _ | ⟨u, rest⟩⟩
  · trivial
  · have itself := parts t List.mem_cons_self
    cases hadNull <;> exact itself
  · refine Descriptor.everyRecordOfAll_iff.2 fun m member => ?_
    cases hadNull with
    | false => exact parts m member
    | true =>
      rcases List.mem_append.1 member with among | added
      · exact parts m among
      · rw [List.mem_singleton.1 added]
        trivial

theorem distinctFields_decodeField {required : Option (List String)} {key : String} {node : Json}
    {t : Descriptor} (itself : t.DistinctFields) :
    (decodeField required key node t).type.DistinctFields := by
  rw [decodeField]
  split
  · exact Descriptor.everyRecord_widen.2 itself
  · exact itself
  · split
    · exact itself
    · exact Descriptor.everyRecord_widen.2 itself

theorem DecodeRule.distinctFields {name : String} {fields : List (String × Json)} {t : Descriptor}
    (rule : DecodeRule (fun _ part u => part.DistinctKeys → u.DistinctFields) name fields t)
    (distinct : (Json.obj fields).DistinctKeys) : t.DistinctFields := by
  cases rule with
  | anyOf arms_eq _ types_eq =>
    refine distinctFields_decodedUnion fun u member => ?_
    obtain ⟨arm, there, given⟩ := types_eq.exists_of_mem_right member
    have among := List.mem_of_mem_filter (List.fst_mem_of_mem_zipIdx there)
    exact given (Json.distinctKeys_arr_iff.1 (distinct.of_get? arms_eq) arm.1 among)
  | record _ _ properties_eq _ parts_eq =>
    obtain ⟨keys, values⟩ := Json.distinctKeys_obj_iff.1 (distinct.of_get? properties_eq)
    refine Descriptor.everyRecord_record.2 ⟨?_, fun f member => ?_⟩
    · have names := parts_eq.imp (S := fun property f => property.1 = f.name) <| by
        rintro property _ ⟨u, _, rfl⟩
        exact (decodeField_name _ property.1 property.2 u).symm
      rwa [← List.map_eq_map_iff_forall₂.2 names]
    · obtain ⟨property, there, u, given, rfl⟩ := parts_eq.exists_of_mem_right member
      exact distinctFields_decodeField (given (values property there))
  | mapping _ _ _ items_eq key_eq value_eq keyGiven valueGiven =>
    have items := distinct.of_get? items_eq
    exact ⟨keyGiven (items.of_get? key_eq), valueGiven (items.of_get? value_eq)⟩
  | list _ items_eq itemsGiven => exact itemsGiven (distinct.of_get? items_eq)
  | bare | null | fileData | anyList | path | primitive | enumeration => trivial

theorem distinctFields_of_decode {doc : Json} {name : String} {t : Descriptor}
    (distinct : doc.DistinctKeys) (decoded : decode doc name = .ok t) : t.DistinctFields := by
  rw [decode] at decoded
  split at decoded
  · cases decoded
    exact ⟨List.nodup_nil, trivial⟩
  · exact decodeInduction (R := fun _ part u => part.DistinctKeys → u.DistinctFields)
      (fun _ _ _ rule => rule.distinctFields) decoded distinct

namespace Descriptor

section Words

variable {t part u : Descriptor} {step : Step}

theorem StepsTo.distinctFields (leads : StepsTo t step part) (distinct : t.DistinctFields) :
    part.DistinctFields := by
  cases leads with
  | inner => exact distinct
  | member there => exact everyRecordOfAll_iff.1 distinct part (List.mem_of_getElem? there)
  | element => exact distinct
  | key => exact distinct.1
  | value => exact distinct.2
  | field member => exact (everyRecord_record.1 distinct).2 _ member

/-- The words of a way tell the part that it leads to. -/
theorem StepsTo.eq_of_words {part' : Descriptor} {step' : Step} {rest rest' : List String}
    (distinct : t.DistinctFields) (leads : StepsTo t step part) (leads' : StepsTo t step' part')
    (same : step.words ++ rest = step'.words ++ rest') :
    step = step' ∧ part = part' ∧ rest = rest' := by
  cases leads with
  | inner =>
    cases leads'
    exact ⟨rfl, rfl, same⟩
  | member there =>
    cases leads' with
    | member there' =>
      obtain ⟨index, rest_eq⟩ := List.cons.inj same
      cases Pointer.natText_inj.1 index
      exact ⟨rfl, Option.some.inj (there.symm.trans there'), rest_eq⟩
  | element =>
    cases leads'
    exact ⟨rfl, rfl, (List.cons.inj same).2⟩
  | key =>
    cases leads' with
    | key => exact ⟨rfl, rfl, (List.cons.inj same).2⟩
    | value => exact absurd (List.cons.inj same).1 (by decide)
  | value =>
    cases leads' with
    | key => exact absurd (List.cons.inj same).1 (by decide)
    | value => exact ⟨rfl, rfl, (List.cons.inj same).2⟩
  | field member =>
    cases leads' with
    | field member' =>
      obtain ⟨name, rest_eq⟩ := List.cons.inj same
      cases List.inj_on_of_nodup_map distinct.1 member member' name
      exact ⟨rfl, rfl, rest_eq⟩

/-- The words of a type itself are not those of a part of it. -/
theorem StepsTo.words_ne {rest : List String} (leads : StepsTo t step part)
    (named : t.name?.isSome = true) : step.words ++ rest ≠ t.ownWords := by
  cases leads with
  | field => exact List.cons_ne_nil _ _
  | _ => cases named

theorem nameWords_cons (step : Step) (path : List Step) (u : Descriptor) :
    nameWords (step :: path) u = step.words ++ nameWords path u := by
  rw [nameWords, nameWords, List.flatMap_cons, List.append_assoc]

/-- Records and enumerations in two places have other words in their names. -/
theorem Occurs.eq_of_nameWords_eq {u' : Descriptor} {path path' : List Step}
    (distinct : t.DistinctFields) (occurs : Occurs t path u) (occurs' : Occurs t path' u')
    (named : u.name?.isSome = true) (named' : u'.name?.isSome = true)
    (same : nameWords path u = nameWords path' u') : path = path' := by
  induction occurs generalizing path' with
  | here t =>
    cases occurs' with
    | here => rfl
    | inside leads' rest' =>
      rw [nameWords_cons] at same
      exact absurd same.symm (leads'.words_ne named)
  | inside leads rest ih =>
    rw [nameWords_cons] at same
    cases occurs' with
    | here => exact absurd same (leads.words_ne named')
    | inside leads' rest' =>
      rw [nameWords_cons] at same
      obtain ⟨rfl, rfl, words⟩ := leads.eq_of_words distinct leads' same
      rw [ih (leads.distinctFields distinct) rest' named words]

end Words

/-! ## Names tell words -/

/-- Whether a word has no underscore. -/
def IsPlainWord (word : String) : Prop :=
  '_' ∉ word.toList

theorem toList_qualify (name : String) (words : List String) :
    (qualify name words).toList =
      name.toList ++ (words.map String.toList).flatMap fun word => '_' :: word := by
  induction words generalizing name with
  | nil => exact (List.append_nil _).symm
  | cons word rest ih =>
    rw [qualify, List.foldl_cons, ← qualify, ih]
    simp

theorem splitOn_words {words : List String} (plain : ∀ word ∈ words, IsPlainWord word) :
    ((words.map String.toList).flatMap fun word => '_' :: word).splitOn '_' =
      [] :: words.map String.toList := by
  rw [← List.nil_append (List.flatMap _ _)]
  refine splitOn_tokens fun word member => ?_
  rcases List.mem_cons.1 member with rfl | member
  · exact List.not_mem_nil
  · obtain ⟨w, there, rfl⟩ := List.mem_map.1 member
    exact plain w there

/-- Words without underscores are told by the name that they make. -/
theorem qualify_inj {name : String} {words words' : List String}
    (plain : ∀ word ∈ words, IsPlainWord word) (plain' : ∀ word ∈ words', IsPlainWord word) :
    qualify name words = qualify name words' ↔ words = words' := by
  refine ⟨fun same => ?_, congrArg (qualify name)⟩
  have texts := congrArg String.toList same
  rw [toList_qualify, toList_qualify] at texts
  have split := congrArg (List.splitOn '_') (List.append_cancel_left texts)
  rw [splitOn_words plain, splitOn_words plain'] at split
  exact List.map_injective_iff.2 (fun _ _ => String.toList_injective) (List.cons.inj split).2

theorem isPlainWord_natText (n : Nat) : IsPlainWord (Decimal.natText n) := by
  rw [IsPlainWord, Decimal.natText, String.toList_ofList]
  intro member
  exact absurd (Decimal.isDigit_of_mem_numeral _ member) (by decide)

/-- Only names of fields bring underscores into the words of a path. -/
theorem isPlainWord_of_mem_nameWords {path : List Step} {u : Descriptor}
    (plain : ∀ key, Step.field key ∈ path → IsPlainWord key) :
    ∀ word ∈ nameWords path u, IsPlainWord word := by
  intro word member
  rcases List.mem_append.1 member with along | own
  · obtain ⟨step, there, inside⟩ := List.mem_flatMap.1 along
    cases step with
    | inner => cases inside
    | field key =>
      rw [List.mem_singleton.1 inside]
      exact plain key there
    | member index =>
      rw [List.mem_singleton.1 inside]
      exact isPlainWord_natText index
    | element | key | value =>
      rw [List.mem_singleton.1 inside, IsPlainWord]
      decide
  · cases u with
    | enumeration =>
      rw [List.mem_singleton.1 own, IsPlainWord]
      decide
    | _ => cases own

end Descriptor

open Descriptor (Step Occurs nameWords qualify IsPlainWord)

/-- The name of a record or an enumeration that is decoded is the name of the document with the
words of its path behind it. No other one has these words; but only underscores tell words from each
other, so another one may have the name if a property has an underscore in its name. -/
theorem decode_names {doc : Json} (distinct : doc.DistinctKeys) {name : String} {t : Descriptor}
    (decoded : decode doc name = .ok t) :
    (∀ path u n, Occurs t path u → u.name? = some n → n = qualify name (nameWords path u)) ∧
      ∀ path u n path' u' n', Occurs t path u → u.name? = some n →
        Occurs t path' u' → u'.name? = some n' → path ≠ path' →
        nameWords path u ≠ nameWords path' u' ∧
          (n = n' →
            ∃ key, (Step.field key ∈ path ∨ Step.field key ∈ path') ∧ ¬IsPlainWord key) := by
  have fromPaths := namedFrom_of_decode decoded
  refine ⟨fromPaths, fun path u n path' u' n' occurs named occurs' named' apart => ?_⟩
  have words_ne : nameWords path u ≠ nameWords path' u' := fun same =>
    apart (occurs.eq_of_nameWords_eq (distinctFields_of_decode distinct decoded) occurs'
      (Option.isSome_of_eq_some named) (Option.isSome_of_eq_some named') same)
  refine ⟨words_ne, fun alike => ?_⟩
  by_contra none
  have plain : ∀ key, (Step.field key ∈ path ∨ Step.field key ∈ path') → IsPlainWord key :=
    fun key there => by_contra fun underscore => none ⟨key, there, underscore⟩
  have names : qualify name (nameWords path u) = qualify name (nameWords path' u') :=
    (fromPaths path u n occurs named).symm.trans
      (alike.trans (fromPaths path' u' n' occurs' named'))
  exact words_ne ((Descriptor.qualify_inj
    (Descriptor.isPlainWord_of_mem_nameWords fun key there => plain key (.inl there))
    (Descriptor.isPlainWord_of_mem_nameWords fun key there => plain key (.inr there))).1 names)

/-- A document with two properties, the first one of one value and the second one a record. -/
def siblingsNode (first second : String) : Json :=
  .obj [("type", .str "object"),
    ("properties",
      .obj [(first, Node.enumeration .string [.str "a"]), (second, Node.record [] [])])]

/-- The enumeration that the first property makes. -/
def firstSibling (first : String) : Descriptor :=
  .ofValues ("m" ++ "_" ++ first ++ "_enum") [.str "a"]

/-- The record that the second property makes. -/
def secondSibling (second : String) : Descriptor :=
  .record ("m" ++ "_" ++ second) []

/-- The type of the document. -/
def siblings (first second : String) : Descriptor :=
  .record "m" [{ name := first, type := firstSibling first },
    { name := second, type := secondSibling second }]

theorem distinctKeys_siblingsNode {first second : String} (apart : first ≠ second) :
    (siblingsNode first second).DistinctKeys := by
  simp [siblingsNode, Node.enumeration, Node.record, Json.DistinctKeys, Json.DistinctKeysOfFields,
    Json.DistinctKeysOfItems, apart]

theorem decode_siblingsNode (first second : String) :
    decode (siblingsNode first second) "m" = .ok (siblings first second) := by
  have enumeration (name : String) (place : Pointer) :
      decodeNode name place (Node.enumeration .string [.str "a"]) =
        .ok (.ofValues (name ++ "_enum") [.str "a"]) := by
    rw [Node.enumeration, decodeNode_obj]
    rfl
  have record (name : String) (place : Pointer) :
      decodeNode name place (Node.record [] []) = .ok (.record name []) := by
    rw [Node.record, decodeNode_of_hasPlainType ⟨⟨rfl, rfl⟩, rfl⟩]
    refine Except.bind_eq_ok.2 ⟨some [], rfl, Except.bind_eq_ok.2 ⟨[], ?_, rfl⟩⟩
    rw [decodeProperties]
  have properties (place : Pointer) :
      decodeProperties "m" place none
        [(first, Node.enumeration .string [.str "a"]), (second, Node.record [] [])] =
        .ok [{ name := first, type := firstSibling first },
          { name := second, type := secondSibling second }] := by
    rw [decodeProperties, enumeration, decodeProperties, record, decodeProperties]
    rfl
  have notNull : Node.isNull (siblingsNode first second) = false := rfl
  rw [decode, notNull, if_neg Bool.false_ne_true, siblingsNode,
    decodeNode_of_hasPlainType ⟨⟨rfl, rfl⟩, rfl⟩]
  exact Except.bind_eq_ok.2 ⟨none, rfl, Except.bind_eq_ok.2 ⟨_, properties _, rfl⟩⟩

theorem occurs_siblings (first second : String) :
    Occurs (siblings first second) [.field first] (firstSibling first) ∧
      Occurs (siblings first second) [.field second] (secondSibling second) := by
  refine ⟨.inside ?_ (.here _), .inside ?_ (.here _)⟩
  · exact .field (f := { name := first, type := firstSibling first }) List.mem_cons_self
  · exact .field (f := { name := second, type := secondSibling second })
      (List.mem_cons_of_mem _ List.mem_cons_self)

/-- Two properties whose types have one name: one of them has an underscore in its name. -/
theorem decode_names_siblings :
    (siblingsNode "x" "x_enum").DistinctKeys ∧
      decode (siblingsNode "x" "x_enum") "m" = .ok (siblings "x" "x_enum") ∧
      (firstSibling "x").name? = some "m_x_enum" ∧
      (secondSibling "x_enum").name? = some "m_x_enum" ∧
      nameWords [.field "x"] (firstSibling "x") ≠
        nameWords [.field "x_enum"] (secondSibling "x_enum") ∧
      ∃ key, (Step.field key ∈ [Step.field "x"] ∨ Step.field key ∈ [Step.field "x_enum"]) ∧
        ¬IsPlainWord key := by
  have distinct := distinctKeys_siblingsNode (by decide : "x" ≠ "x_enum")
  have decoded := decode_siblingsNode "x" "x_enum"
  obtain ⟨first, second⟩ := occurs_siblings "x" "x_enum"
  have told := (decode_names distinct decoded).2 _ _ "m_x_enum" _ _ "m_x_enum" first rfl second rfl
    (by decide)
  exact ⟨distinct, decoded, rfl, rfl, told.1, told.2 rfl⟩

/-- Records and enumerations of a document may have one name. -/
theorem not_decode_names_distinct :
    ¬∀ doc name t, doc.DistinctKeys → decode doc name = .ok t → ∀ path u n path' u' n',
      Occurs t path u → u.name? = some n → Occurs t path' u' → u'.name? = some n' →
        path ≠ path' → n ≠ n' := by
  intro distinctNames
  obtain ⟨first, second⟩ := occurs_siblings "x" "x_enum"
  exact distinctNames _ "m" _ (distinctKeys_siblingsNode (by decide : "x" ≠ "x_enum"))
    (decode_siblingsNode "x" "x_enum") _ _ "m_x_enum" _ _ "m_x_enum" first rfl second rfl
    (by decide) rfl

end CallContract
