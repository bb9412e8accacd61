import CallContract.Proofs.DeclarationOrder
import CallContract.Proofs.Spelling
import Mathlib.Logic.Function.Iterate
import Mathlib.Tactic.Choose

/-!
# Quoted parts of annotations

* `TypeExpr.Quotes`: one annotation is another one with some parts quoted, at any depth;
  `Registry.typeOf?_of_quotes` is that both have the same type.
* `TypeExpr.Requoted` is the same of texts, and `TypeExpr.exists_quotes` leads from texts to
  annotations. `Registry.Requoted` has quoted parts in the annotations of declared records, which
  `Registry.typeOf?_of_requoted` is about.
* `resolve_requoted` has all of it: quotes make no difference.
-/

namespace CallContract

/-! ## Quoted parts -/

namespace TypeExpr

/-- An annotation, and the same with parts put in quotes: any part but a literal value can be
replaced by a text that parses to it, and this goes on in the quoted texts. -/
inductive Quotes : TypeExpr → TypeExpr → Prop where
  | same (a : TypeExpr) : Quotes a a
  | quoted {a a' : TypeExpr} {text : String} (noValue : ∀ v, a ≠ .literal v)
    (parsed : Registry.parse text = .ok a') (part : Quotes a a') : Quotes a (.forward text)
  | inside {a a' : TypeExpr} {text text' : String} (parsed : Registry.parse text = .ok a)
    (parsed' : Registry.parse text' = .ok a') (part : Quotes a a') :
    Quotes (.forward text) (.forward text')
  | generic {head : String} {parts : List (TypeExpr × TypeExpr)}
    (each : ∀ part ∈ parts, Quotes part.1 part.2) :
    Quotes (.generic head (parts.map Prod.fst)) (.generic head (parts.map Prod.snd))
  | union {parts : List (TypeExpr × TypeExpr)} (each : ∀ part ∈ parts, Quotes part.1 part.2) :
    Quotes (.union (parts.map Prod.fst)) (.union (parts.map Prod.snd))

/-- Literal values stay, and nothing else becomes one. -/
theorem Quotes.literal_iff {a a' : TypeExpr} (quotes : Quotes a a') (v : Json) :
    a = .literal v ↔ a' = .literal v := by
  cases quotes with
  | same => exact Iff.rfl
  | quoted noValue => exact iff_of_false (noValue v) nofun
  | inside => exact iff_of_false nofun nofun
  | generic => exact iff_of_false nofun nofun
  | union => exact iff_of_false nofun nofun

end TypeExpr

namespace Registry

open TypeExpr (Quotes)

theorem literalValues_of_ne {a : TypeExpr} (noValue : ∀ v, a ≠ .literal v) (rest : List TypeExpr) :
    literalValues (a :: rest) = none := by
  cases a with
  | literal v => exact absurd rfl (noValue v)
  | _ => rfl

theorem literalValues_of_quotes {parts : List (TypeExpr × TypeExpr)}
    (each : ∀ part ∈ parts, Quotes part.1 part.2) :
    literalValues (parts.map Prod.fst) = literalValues (parts.map Prod.snd) := by
  induction parts with
  | nil => rfl
  | cons part parts ih =>
    have first := (each part List.mem_cons_self).literal_iff
    have others := ih fun p member => each p (List.mem_cons_of_mem part member)
    obtain ⟨a, a'⟩ := part
    dsimp only at first
    rw [List.map_cons, List.map_cons]
    by_cases value : ∃ v, a = .literal v
    · obtain ⟨v, rfl⟩ := value
      rw [(first v).1 rfl, literalValues, literalValues, others]
    · have noValue : ∀ v, a ≠ .literal v := fun v same => value ⟨v, same⟩
      have noValue' : ∀ v, a' ≠ .literal v := fun v same => noValue v ((first v).2 same)
      rw [literalValues_of_ne noValue, literalValues_of_ne noValue']

theorem mapM_typeOf?_of_quotes {reg : Registry} {stack : List String}
    {parts : List (TypeExpr × TypeExpr)}
    (each : ∀ part ∈ parts, reg.typeOf? stack part.1 = reg.typeOf? stack part.2) :
    (parts.map Prod.fst).mapM (reg.typeOf? stack) =
      (parts.map Prod.snd).mapM (reg.typeOf? stack) := by
  simp only [List.mapM_map]
  exact List.mapM_congr_of_mem each

/-- Quoting parts of an annotation leaves its type as it is. -/
theorem typeOf?_of_quotes {reg : Registry} {a a' : TypeExpr} (quotes : Quotes a a')
    (stack : List String) : reg.typeOf? stack a = reg.typeOf? stack a' := by
  induction quotes with
  | same => rfl
  | quoted _ parsed _ ih =>
    rw [typeOf?_forward, typeOfText?, parsed]
    exact ih
  | inside parsed parsed' _ ih =>
    rw [typeOf?_forward, typeOf?_forward, typeOfText?, typeOfText?, parsed, parsed']
    exact ih
  | generic each ih =>
    rw [typeOf?_generic, typeOf?_generic, literalValues_of_quotes each, mapM_typeOf?_of_quotes ih]
  | union _ ih => rw [typeOf?_union, typeOf?_union, mapM_typeOf?_of_quotes ih]

end Registry

/-! ## Quoted parts of texts -/

namespace TypeExpr

open Token (AreBlank IsLexeme)

/-- Characters that spell an annotation, and the same with parts of it in quotes. A part is anything
that spells an annotation inside, but for literal values; what stands in quotes may have quoted
parts itself. -/
inductive Requoted : TypeExpr → List Char → List Char → Prop where
  | same {a : TypeExpr} {cs : List Char} (spelled : a.SpelledAs cs) : Requoted a cs cs
  | quoted {a : TypeExpr} {cs cs' written : List Char} (noValue : ∀ v, a ≠ .literal v)
    (lexeme : IsLexeme (.text (String.ofList cs')) written) (part : Requoted a cs cs') :
    Requoted a cs written
  | inside {a : TypeExpr} {text text' : String} {cs cs' : List Char}
    (lexeme : IsLexeme (.text text) cs) (parsed : Registry.parse text = .ok a)
    (lexeme' : IsLexeme (.text text') cs') (part : Requoted a text.toList text'.toList) :
    Requoted (.forward text) cs cs'
  | generic {head : String} {gap : List Char} {parts : List (TypeExpr × List Char × List Char)}
    (dotted : Token.isDotted head.toList = true) (blank : AreBlank gap)
    (each : ∀ part ∈ parts, Requoted part.1 part.2.1 part.2.2) :
    Requoted (.generic head (parts.map fun part => part.1))
      (head.toList ++ gap ++ '[' :: ([','].intercalate (parts.map fun part => part.2.1) ++ [']']))
      (head.toList ++ gap ++ '[' :: ([','].intercalate (parts.map fun part => part.2.2) ++ [']']))
  | union {parts : List (TypeExpr × List Char × List Char)}
    (each : ∀ part ∈ parts, Requoted part.1 part.2.1 part.2.2) :
    Requoted (.union (parts.map fun part => part.1))
      (['|'].intercalate (parts.map fun part => part.2.1))
      (['|'].intercalate (parts.map fun part => part.2.2))
  | spaced {a : TypeExpr} {before cs cs' behind : List Char} (blankBefore : AreBlank before)
    (blankBehind : AreBlank behind) (part : Requoted a cs cs') :
    Requoted a (before ++ cs ++ behind) (before ++ cs' ++ behind)

theorem Requoted.quote {a : TypeExpr} {cs cs' : List Char} (noValue : ∀ v, a ≠ .literal v)
    (part : Requoted a cs cs') : Requoted a cs (Json.quote cs') :=
  .quoted noValue (Token.isLexeme_quote cs') part

/-- What an annotation keeps when parts are quoted. -/
structure Keeps (a a' : TypeExpr) : Prop where
  formed : a.isWellFormed = true → a'.isWellFormed = true
  literal : a.isLiteral = true → a'.isLiteral = true
  noUnion : a.isUnion = false → a'.isUnion = false
  nesting : a'.nesting ≤ a.nesting

/-- An annotation can stand in a text or in a generic: it is well formed or a literal value, and not
nested too deep. -/
def IsPart (a : TypeExpr) : Prop :=
  (a.isWellFormed = true ∨ a.isLiteral = true) ∧ a.nesting ≤ 128

theorem Keeps.refl (a : TypeExpr) : Keeps a a :=
  ⟨id, id, id, Nat.le_refl _⟩

theorem keeps_forward {a : TypeExpr} (noValue : ∀ v, a ≠ .literal v) (text : String) :
    Keeps a (.forward text) where
  formed _ := rfl
  literal value := by
    obtain ⟨v, same⟩ := exists_of_isLiteral value
    exact absurd same (noValue v)
  noUnion _ := rfl
  nesting := Nat.zero_le _

theorem nestingOfAll_le_of_keeps {α : Type} {parts : List α} {f g : α → TypeExpr}
    (keeps : ∀ part ∈ parts, Keeps (f part) (g part)) :
    nestingOfAll (parts.map g) ≤ nestingOfAll (parts.map f) := by
  induction parts with
  | nil => exact Nat.le_refl _
  | cons part parts ih =>
    have first := (keeps part List.mem_cons_self).nesting
    have others := ih fun p member => keeps p (List.mem_cons_of_mem part member)
    rw [List.map_cons, List.map_cons, nestingOfAll, nestingOfAll]
    omega

section Parts

variable {α : Type} {parts : List α} {f g : α → TypeExpr}
  (keeps : ∀ part ∈ parts, Keeps (f part) (g part))

include keeps

theorem keeps_generic (head : String) :
    Keeps (.generic head (parts.map f)) (.generic head (parts.map g)) where
  formed formed := by
    obtain ⟨dotted, inhabited, args⟩ := isWellFormed_generic_iff.1 formed
    refine isWellFormed_generic_iff.2 ⟨dotted, by simpa using inhabited, ?_⟩
    split at args
    · rename_i literals
      rw [if_pos literals]
      rw [List.forall_mem_map] at args ⊢
      exact fun part member => (keeps part member).literal (args part member)
    · rename_i types
      rw [if_neg types]
      rw [List.forall_mem_map] at args ⊢
      exact fun part member => (keeps part member).formed (args part member)
  literal value := by cases value
  noUnion _ := rfl
  nesting := by
    have inner := nestingOfAll_le_of_keeps keeps
    rw [nesting, nesting]
    omega

theorem keeps_union : Keeps (.union (parts.map f)) (.union (parts.map g)) where
  formed formed := by
    obtain ⟨several, arms⟩ := isWellFormed_union_iff.1 formed
    refine isWellFormed_union_iff.2 ⟨by simpa using several, ?_⟩
    rw [List.forall_mem_map] at arms ⊢
    intro part member
    have kept := keeps part member
    exact ⟨kept.noUnion (arms part member).1, kept.formed (arms part member).2⟩
  literal value := by cases value
  noUnion isNone := by cases isNone
  nesting := by
    rw [nesting, nesting]
    exact nestingOfAll_le_of_keeps keeps

end Parts

theorem isPart_of_generic {head : String} {args : List TypeExpr}
    (isPart : IsPart (.generic head args)) {arg : TypeExpr} (member : arg ∈ args) : IsPart arg := by
  obtain ⟨formed | value, shallow⟩ := isPart
  · obtain ⟨_, _, parts⟩ := isWellFormed_generic_iff.1 formed
    have flat : nestingOfAll args ≤ 128 := by
      rw [nesting] at shallow
      omega
    refine ⟨?_, nestingOfAll_le_iff.1 flat arg member⟩
    split at parts
    · exact Or.inr (parts arg member)
    · exact Or.inl (parts arg member)
  · cases value

theorem isPart_of_union {arms : List TypeExpr} (isPart : IsPart (.union arms)) {arm : TypeExpr}
    (member : arm ∈ arms) : IsPart arm := by
  obtain ⟨formed | value, shallow⟩ := isPart
  · obtain ⟨_, parts⟩ := isWellFormed_union_iff.1 formed
    rw [nesting] at shallow
    exact ⟨Or.inl (parts arm member).2, nestingOfAll_le_iff.1 shallow arm member⟩
  · cases value

theorem parse_of_keeps {a a' : TypeExpr} (isPart : IsPart a) (noValue : ∀ v, a ≠ .literal v)
    (keeps : Keeps a a') {text : String} (spelled : a'.SpelledAs text.toList) :
    Registry.parse text = .ok a' := by
  obtain ⟨formed | value, shallow⟩ := isPart
  · have within := Nat.le_trans keeps.nesting shallow
    exact Registry.parse_eq_ok_iff.2 ⟨keeps.formed formed, within, spelled⟩
  · obtain ⟨v, same⟩ := exists_of_isLiteral value
    exact absurd same (noValue v)

theorem isPart_of_parse {text : String} {a : TypeExpr} (parsed : Registry.parse text = .ok a) :
    IsPart a ∧ ∀ v, a ≠ .literal v := by
  obtain ⟨formed, shallow⟩ := Registry.formed_of_parse parsed
  refine ⟨⟨Or.inl formed, shallow⟩, fun v same => ?_⟩
  subst same
  cases formed

/-- A text with quoted parts spells the annotation with quoted parts. -/
theorem exists_quotes {a : TypeExpr} {cs cs' : List Char} (requoted : a.Requoted cs cs') :
    IsPart a → ∃ a', Quotes a a' ∧ Keeps a a' ∧ a'.SpelledAs cs' := by
  induction requoted with
  | @same a cs spelled => exact fun _ => ⟨a, .same a, Keeps.refl a, spelled⟩
  | @quoted a cs cs' written noValue lexeme _ ih =>
    intro isPart
    obtain ⟨a', quotes, keeps, spelled⟩ := ih isPart
    rw [← String.toList_ofList (l := cs')] at spelled
    have parsed := parse_of_keeps isPart noValue keeps spelled
    exact ⟨_, .quoted noValue parsed quotes, keeps_forward noValue _, .forward lexeme⟩
  | inside lexeme parsed lexeme' _ ih =>
    intro _
    obtain ⟨isPart, noValue⟩ := isPart_of_parse parsed
    obtain ⟨a', quotes, keeps, spelled⟩ := ih isPart
    have parsed' := parse_of_keeps isPart noValue keeps spelled
    refine ⟨_, .inside parsed parsed' quotes, ?_, .forward lexeme'⟩
    exact keeps_forward (fun _ => TypeExpr.noConfusion) _
  | @generic head gap parts dotted blank _ ih =>
    intro isPart
    have each : ∀ part ∈ parts, ∃ a', Quotes part.1 a' ∧ Keeps part.1 a' ∧ a'.SpelledAs part.2.2 :=
      fun part member => ih part member (isPart_of_generic isPart (List.mem_map_of_mem member))
    choose! tree quotes keeps spelled using each
    have quoted : Quotes (.generic head ((parts.map fun part => (part.1, tree part)).map Prod.fst))
        (.generic head ((parts.map fun part => (part.1, tree part)).map Prod.snd)) :=
      .generic (List.forall_mem_map.2 quotes)
    have written := SpelledAs.generic dotted blank
      (List.forall_mem_map (f := fun part => (tree part, part.2.2)).2 spelled)
    rw [List.map_map, List.map_map] at quoted written
    exact ⟨_, quoted, keeps_generic keeps head, written⟩
  | @union parts _ ih =>
    intro isPart
    have each : ∀ part ∈ parts, ∃ a', Quotes part.1 a' ∧ Keeps part.1 a' ∧ a'.SpelledAs part.2.2 :=
      fun part member => ih part member (isPart_of_union isPart (List.mem_map_of_mem member))
    choose! tree quotes keeps spelled using each
    have quoted : Quotes (.union ((parts.map fun part => (part.1, tree part)).map Prod.fst))
        (.union ((parts.map fun part => (part.1, tree part)).map Prod.snd)) :=
      .union (List.forall_mem_map.2 quotes)
    have written := SpelledAs.union
      (List.forall_mem_map (f := fun part => (tree part, part.2.2)).2 spelled)
    rw [List.map_map, List.map_map] at quoted written
    exact ⟨_, quoted, keeps_union keeps, written⟩
  | spaced blankBefore blankBehind _ ih =>
    intro isPart
    obtain ⟨a', quotes, keeps, spelled⟩ := ih isPart
    exact ⟨a', quotes, keeps, .spaced blankBefore blankBehind spelled⟩

end TypeExpr

/-! ## Quoted parts in declared records -/

/-- A text, and the same with parts in quotes. A text that is no annotation has no parts. -/
def RequotedText (text text' : String) : Prop :=
  text' = text ∨ ∃ a, Registry.parse text = .ok a ∧ a.Requoted text.toList text'.toList

/-- A field, and the same with parts of its annotation in quotes. -/
def Field.Requoted (f f' : Field String) : Prop :=
  f'.name = f.name ∧ f'.default = f.default ∧ RequotedText f.type f'.type

/-- A declared type, and the same with parts of the annotations of its fields in quotes. -/
inductive Declaration.Requoted : Declaration → Declaration → Prop where
  | enumeration (e : EnumDecl) : Requoted (.enumeration e) (.enumeration e)
  | record {name : String} {fields fields' : List (Field String)}
    (each : List.Forall₂ Field.Requoted fields fields') :
    Requoted (.record ⟨name, fields⟩) (.record ⟨name, fields'⟩)

namespace Registry

/-- A registry, and the same with parts of the annotations in declared records in quotes. -/
def Requoted (reg reg' : Registry) : Prop :=
  List.Forall₂ (fun entry entry' => entry.1 = entry'.1 ∧ entry.2.Requoted entry'.2)
    reg.declarations reg'.declarations

variable {reg reg' : Registry}

theorem typeOfText?_of_requoted {text text' : String} (requoted : RequotedText text text')
    {stack : List String}
    (same : ∀ a, parse text = .ok a → reg.typeOf? stack a = reg'.typeOf? stack a) :
    reg.typeOfText? stack text = reg'.typeOfText? stack text' := by
  rcases requoted with rfl | ⟨a, parsed, part⟩
  · rw [typeOfText?, typeOfText?]
    cases parsed : parse text' with
    | error e => rfl
    | ok a => exact same a parsed
  · obtain ⟨isPart, noValue⟩ := TypeExpr.isPart_of_parse parsed
    obtain ⟨a', quotes, keeps, spelled⟩ := TypeExpr.exists_quotes part isPart
    have parsed' := TypeExpr.parse_of_keeps isPart noValue keeps spelled
    rw [typeOfText?, typeOfText?, parsed, parsed']
    exact (same a parsed).trans (typeOf?_of_quotes quotes stack)

theorem declaredType?_of_requoted {d d' : Declaration} (requoted : d.Requoted d')
    {stack : List String}
    (same : ∀ r, d = .record r → ∀ f ∈ r.fields, ∀ a, parse f.type = .ok a →
      reg.typeOf? stack a = reg'.typeOf? stack a) :
    reg.declaredType? stack d = reg'.declaredType? stack d' := by
  cases requoted with
  | enumeration e => rfl
  | record each =>
    have fields := each.mapM_eq (f := reg.fieldType? stack) (g := reg'.fieldType? stack)
      fun f member f' requoted => by
        obtain ⟨name, default, type⟩ := requoted
        rw [fieldType?, fieldType?, name, default,
          typeOfText?_of_requoted type (same _ rfl f member)]
    rw [declaredType?, declaredType?, fields]

/-- Quoting parts of the annotations in declared records leaves every type as it is. -/
theorem typeOf?_of_requoted (requoted : reg.Requoted reg') (stack : List String) (a : TypeExpr) :
    reg.typeOf? stack a = reg'.typeOf? stack a := by
  induction stack, a using resolveInduction reg with
  | forward stack text inner =>
    rw [typeOf?_forward, typeOf?_forward]
    exact typeOfText?_of_requoted (Or.inl rfl) inner
  | name stack name fields =>
    cases free : builtin? name with
    | some t => rw [typeOf?_builtin free, typeOf?_builtin free]
    | none =>
      have known := Keyed.rel_get? requoted name
      rw [typeOf?_name free, typeOf?_name free]
      generalize Keyed.get? name reg.declarations = entry at known fields
      generalize Keyed.get? name reg'.declarations = entry' at known
      cases known with
      | none => rfl
      | some related =>
        dsimp only [Option.bind]
        split
        · rfl
        · rename_i fresh
          refine declaredType?_of_requoted related fun r same => ?_
          exact fields r (congrArg some same) fresh
  | generic stack head args parts =>
    rw [typeOf?_generic, typeOf?_generic, List.mapM_congr_of_mem parts]
  | union stack arms parts => rw [typeOf?_union, typeOf?_union, List.mapM_congr_of_mem parts]
  | literal stack v => rw [typeOf?_literal, typeOf?_literal]

theorem requoted_refl (reg : Registry) : reg.Requoted reg := by
  refine List.forall₂_same.2 fun entry _ => ⟨rfl, ?_⟩
  cases entry.2 with
  | enumeration e => exact .enumeration e
  | record r => exact .record (List.forall₂_same.2 fun f _ => ⟨rfl, rfl, Or.inl rfl⟩)

theorem resolve_eq_ok_iff_of_requoted (requoted : reg.Requoted reg') {text text' : String}
    (requotedText : RequotedText text text') (t : Descriptor) :
    reg.resolve text = .ok t ↔ reg'.resolve text' = .ok t := by
  rw [← Except.toOption_eq_some, ← Except.toOption_eq_some, toOption_resolve, toOption_resolve,
    typeOfText?_of_requoted requotedText fun a _ => typeOf?_of_requoted requoted [] a]

theorem resolve_quote (reg : Registry) (text : String) :
    reg.resolve (Json.str text).compact = reg.resolve text := by
  have lexeme := Token.isLexeme_quote text.toList
  rw [String.ofList_toList] at lexeme
  have parsed : parse (Json.str text).compact = .ok (.forward text) := parse_quoted lexeme
  rw [resolve, parsed]
  exact resolveTree_forward reg [] (Json.str text).compact text

end Registry

/-- A text in quotes is resolved as the text is, to the same type or with the same error, however
often it is quoted. Each text that is an annotation is put together from its parts, and if any of
these are put in quotes, but for literal values, it is resolved to the same type, if to any; so it
is also if parts are put in quotes in the annotations of declared records. -/
theorem resolve_requoted :
    (∀ (reg : Registry) (text : String) (n : Nat),
      reg.resolve ((fun s => (Json.str s).compact)^[n] text) = reg.resolve text) ∧
      (∀ (text : String) (a : TypeExpr), Registry.parse text = .ok a →
        a.SpelledAs text.toList ∧
          ∀ text', a.Requoted text.toList text'.toList → ∀ (reg : Registry) (t : Descriptor),
            reg.resolve text = .ok t ↔ reg.resolve text' = .ok t) ∧
      ∀ reg reg' : Registry, reg.Requoted reg' → ∀ (text : String) (t : Descriptor),
        reg.resolve text = .ok t ↔ reg'.resolve text = .ok t := by
  refine ⟨?_, ?_, ?_⟩
  · intro reg text n
    induction n with
    | zero => rfl
    | succ n ih => rw [Function.iterate_succ_apply', Registry.resolve_quote, ih]
  · intro text a parsed
    refine ⟨(Registry.parse_eq_ok_iff.1 parsed).2.2, fun text' part reg t => ?_⟩
    exact Registry.resolve_eq_ok_iff_of_requoted reg.requoted_refl (Or.inr ⟨a, parsed, part⟩) t
  · intro reg reg' requoted text t
    exact Registry.resolve_eq_ok_iff_of_requoted requoted (Or.inl rfl) t

/-- The registry of `nested` without quotes. -/
def unquoted : Registry :=
  ⟨[("Outer", .record { name := "Outer", fields := [⟨"inner", "Inner", some .null⟩] }),
    ("Inner", inner)]⟩

theorem requoted_unquoted : unquoted.Requoted nested := by
  have part : (TypeExpr.name "Inner").Requoted "Inner".toList "\"Inner\"".toList :=
    .quote (fun _ => TypeExpr.noConfusion) (.same (.name (by decide)))
  have parsed := Registry.parse_eq_ok (.name "Inner") rfl rfl (by decide)
  have field : Field.Requoted ⟨"inner", "Inner", some .null⟩ ⟨"inner", "\"Inner\"", some .null⟩ :=
    ⟨rfl, rfl, Or.inr ⟨_, parsed, part⟩⟩
  have same : inner.Requoted inner :=
    .record (List.forall₂_same.2 fun _ _ => ⟨rfl, rfl, Or.inl rfl⟩)
  exact .cons ⟨rfl, .record (.cons field .nil)⟩ (.cons ⟨rfl, same⟩ .nil)

/-- Quotes around a whole text, around an argument, and in a declared record. -/
theorem resolve_requoted_nested :
    nested.resolve "\"\\\"Outer\\\"\"" = .ok outerType ∧
      nested.resolve "list[\"Outer\"]" = .ok (.list outerType) ∧
      unquoted.resolve "Outer" = .ok outerType := by
  obtain ⟨whole, parts, records⟩ := resolve_requoted
  have outerParsed : Registry.parse "Outer" = .ok (.name "Outer") :=
    Registry.parse_eq_ok (.name "Outer") rfl rfl (by decide)
  have outerResolved := (Registry.resolve_eq_ok_iff outerParsed).1 resolve_outer
  have parsed : Registry.parse "list[Outer]" = .ok (.generic "list" [.name "Outer"]) :=
    Registry.parse_eq_ok (.generic "list" [.name "Outer"]) rfl rfl (by decide)
  have listed : nested.resolve "list[Outer]" = .ok (.list outerType) := by
    rw [Registry.resolve_eq_ok_iff parsed, Registry.typeOf?_generic, if_neg (by decide),
      List.mapM_cons, outerResolved]
    rfl
  have part : (TypeExpr.generic "list" [.name "Outer"]).Requoted "list[Outer]".toList
      "list[\"Outer\"]".toList := by
    have each : ∀ part ∈ [(TypeExpr.name "Outer", "Outer".toList, "\"Outer\"".toList)],
        part.1.Requoted part.2.1 part.2.2 := by
      refine List.forall_mem_singleton.2 (.quote (fun _ => TypeExpr.noConfusion) (.same ?_))
      exact .name (by decide)
    exact TypeExpr.Requoted.generic (by decide) Token.areBlank_nil each
  refine ⟨?_, ?_, ?_⟩
  · exact (whole nested "Outer" 2).trans resolve_outer
  · exact ((parts "list[Outer]" _ parsed).2 _ part nested _).1 listed
  · exact (records unquoted nested requoted_unquoted "Outer" outerType).2 resolve_outer

end CallContract
