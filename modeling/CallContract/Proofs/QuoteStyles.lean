import CallContract.Proofs.Spelling

/-!
# The two styles of quotes

A text can stand in double or in single quotes, with a backslash before each backslash and each
quote of its style. Only in double quotes do both escapes go away again.

* `Token.inQuotes` puts a text in quotes; `Token.doubled` is what comes back from single quotes,
  each backslash twice.
* `Token.isLexeme_double` and `Token.isLexeme_single`: either is read as one token.
* `ValuePlace` is a place among the values of a generic, and `ValuePlace.parse_text` what it parses
  to with a quoted text there.
* `parse_inQuotes` says what annotations with quoted parts and quoted values parse to, in either
  style; `not_parse_inQuotes_alike` is a value with a backslash, which comes back changed.
-/

namespace CallContract

namespace Token

/-- A character inside quotes: a backslash stands before backslashes and quotes. -/
def escapeFor (quote c : Char) : List Char :=
  if c = '\\' ∨ c = quote then ['\\', c] else [c]

/-- A text in quotes. -/
def inQuotes (quote : Char) (s : List Char) : List Char :=
  quote :: s.flatMap (escapeFor quote) ++ [quote]

/-- A text with each backslash twice. -/
def doubled (s : List Char) : List Char :=
  s.flatMap fun c => if c = '\\' then ['\\', '\\'] else [c]

/-- Whether a text has no control characters. -/
def HasNoControl (s : List Char) : Prop :=
  ∀ c ∈ s, 0x20 ≤ c.toNat

instance (s : List Char) : Decidable (HasNoControl s) :=
  List.decidableBAll (fun c : Char => 0x20 ≤ c.toNat) s

theorem doubled_cons (c : Char) (s : List Char) :
    doubled (c :: s) = (if c = '\\' then ['\\', '\\'] else [c]) ++ doubled s :=
  List.flatMap_cons

theorem length_le_length_doubled (s : List Char) : s.length ≤ (doubled s).length := by
  induction s with
  | nil => exact Nat.le_refl 0
  | cons c s ih =>
    rw [doubled_cons, List.length_append, List.length_cons]
    split
    · simp
      omega
    · simp
      omega

/-- Doubling the backslashes changes a text exactly if it has one. -/
theorem doubled_eq_self_iff {s : List Char} : doubled s = s ↔ '\\' ∉ s := by
  induction s with
  | nil => simp [doubled]
  | cons c s ih =>
    have longer := length_le_length_doubled s
    rw [doubled_cons, List.mem_cons]
    split
    · rename_i backslash
      refine iff_of_false (fun same => ?_) (fun free => free (Or.inl backslash.symm))
      have lengths := congrArg List.length same
      simp at lengths
      omega
    · rename_i plain
      rw [List.singleton_append, List.cons.injEq, ih]
      exact ⟨fun rest => not_or.2 ⟨Ne.symm plain, rest.2⟩, fun free => ⟨rfl, (not_or.1 free).2⟩⟩

/-! ## Double quotes -/

theorem escape_of_le {c : Char} (noControl : 0x20 ≤ c.toNat) :
    Json.escape c = escapeFor '"' c := by
  have others : ∀ d : Char, d.toNat < 0x20 → c ≠ d := by
    intro d control same
    rw [same] at noControl
    omega
  unfold Json.escape escapeFor
  split
  · rename_i quote
    rw [if_pos (Or.inr quote), quote]
  · rename_i noQuote
    split
    · rename_i backslash
      rw [if_pos (Or.inl backslash), backslash]
    · rename_i noBackslash
      rw [if_neg (others _ (by decide)), if_neg (others _ (by decide)),
        if_neg (others _ (by decide)), if_neg (others _ (by decide)),
        if_neg (others _ (by decide)), if_neg (by omega), if_neg (by simp [noQuote, noBackslash])]

/-- In double quotes a text without control characters is the JSON string. -/
theorem inQuotes_double {s : List Char} (noControl : HasNoControl s) :
    inQuotes '"' s = Json.quote s := by
  have escaped : s.flatMap (escapeFor '"') = s.flatMap Json.escape :=
    List.flatMap_congr fun c member => (escape_of_le (noControl c member)).symm
  rw [inQuotes, escaped, Json.quote]

/-! ## Single quotes -/

/-- The quotes inside are escaped, so that the last one closes the text. -/
theorem spanQuoted_inQuotes {quote : Char} (noBackslash : quote ≠ '\\') (noBreak : quote ≠ '\n')
    (s rest : List Char) :
    spanQuoted quote (s.flatMap (escapeFor quote) ++ quote :: rest) =
      some (s.flatMap (escapeFor quote), rest) := by
  induction s with
  | nil => exact spanQuoted_close quote rest
  | cons c s ih =>
    rw [List.flatMap_cons, List.append_assoc, escapeFor]
    split
    · rename_i special
      have visible : c ≠ '\n' := by
        intro same
        subst same
        rcases special with backslash | same
        · exact absurd backslash (by decide)
        · exact noBreak same.symm
      rw [List.cons_append, List.singleton_append, spanQuoted_escape noBackslash visible, ih]
      rfl
    · rename_i plain
      obtain ⟨plainBackslash, plainQuote⟩ := not_or.1 plain
      rw [List.singleton_append, spanQuoted_plain plainQuote plainBackslash, ih]
      rfl

theorem unescapeQuote_cons {c : Char} {rest : List Char}
    (noEscape : c ≠ '\\' ∨ rest.head? ≠ some '\'') :
    unescapeQuote (c :: rest) = c :: unescapeQuote rest := by
  rw [unescapeQuote]
  intro behind backslash follows
  rcases noEscape with plain | other
  · exact plain backslash
  · exact other (by rw [follows]; rfl)

/-- No escaped text starts with a quote. -/
theorem head?_escaped (s : List Char) : (s.flatMap (escapeFor '\'')).head? ≠ some '\'' := by
  cases s with
  | nil => nofun
  | cons c s =>
    rw [List.flatMap_cons, escapeFor]
    split
    · exact fun quote => absurd (Option.some.inj quote) (by decide)
    · rename_i plain
      exact fun quote => plain (Or.inr (Option.some.inj quote))

/-- In single quotes only the quotes are unescaped. -/
theorem unescapeQuote_escaped (s : List Char) :
    unescapeQuote (s.flatMap (escapeFor '\'')) = doubled s := by
  induction s with
  | nil => rfl
  | cons c s ih =>
    have noQuote := head?_escaped s
    rw [List.flatMap_cons, doubled_cons, escapeFor]
    by_cases backslash : c = '\\'
    · subst backslash
      have noEscape : ('\\' :: s.flatMap (escapeFor '\'')).head? ≠ some '\'' := fun quote =>
        absurd (Option.some.inj quote) (by decide)
      rw [if_pos (Or.inl rfl), if_pos rfl, List.cons_append, List.singleton_append,
        unescapeQuote_cons (Or.inr noEscape), unescapeQuote_cons (Or.inr noQuote), ih]
      rfl
    · rw [if_neg backslash]
      by_cases quote : c = '\''
      · subst quote
        rw [if_pos (Or.inr rfl), List.cons_append, List.singleton_append, unescapeQuote, ih]
        rfl
      · rw [if_neg (not_or.2 ⟨backslash, quote⟩), List.singleton_append,
          unescapeQuote_cons (Or.inl backslash), ih]
        rfl

/-! ## Quoted texts as tokens -/

theorem isLexeme_double {s : String} (noControl : HasNoControl s.toList) :
    IsLexeme (.text s) (inQuotes '"' s.toList) := by
  have lexeme := isLexeme_quote s.toList
  rw [String.ofList_toList] at lexeme
  rw [inQuotes_double noControl]
  exact lexeme

theorem isLexeme_single (s : List Char) :
    IsLexeme (.text (String.ofList (doubled s))) (inQuotes '\'' s) := by
  have spanned : spanQuoted '\'' (s.flatMap (escapeFor '\'') ++ ['\'']) =
      some (s.flatMap (escapeFor '\''), []) :=
    spanQuoted_inQuotes (by decide) (by decide) s []
  have whole := isLexeme_of_spanQuoted (Or.inr rfl) spanned (if_neg (by decide))
  rw [unescapeQuote_escaped] at whole
  exact whole.2

end Token

open Token (AreBlank HasNoControl IsLexeme areBlank_nil doubled inQuotes)

/-! ## Quoted values among others -/

/-- A place for a quoted text in a generic of literal values, with other values and blanks around
it. -/
structure ValuePlace where
  head : String
  gap : List Char
  before : List (TypeExpr × List Char)
  left : List Char
  right : List Char
  after : List (TypeExpr × List Char)
  literals : TypeExpr.isLiteralHead head = true
  blank : AreBlank gap ∧ AreBlank left ∧ AreBlank right
  values : ∀ part ∈ before ++ after, part.1.isLiteral = true ∧ part.1.SpelledAs part.2

namespace ValuePlace

/-- The text of the generic, with characters at the place. -/
def text (place : ValuePlace) (cs : List Char) : String :=
  String.ofList (place.head.toList ++ place.gap ++
    '[' :: ([','].intercalate (place.before.map Prod.snd ++
      (place.left ++ cs ++ place.right) :: place.after.map Prod.snd) ++ [']']))

/-- The generic, with a text as the value at the place. -/
def tree (place : ValuePlace) (value : String) : TypeExpr :=
  .generic place.head
    (place.before.map Prod.fst ++ .literal (.str value) :: place.after.map Prod.fst)

end ValuePlace

theorem isDotted_of_isLiteralHead {head : String} (literals : TypeExpr.isLiteralHead head = true) :
    Token.isDotted head.toList = true := by
  simp only [TypeExpr.isLiteralHead, Bool.or_eq_true, beq_iff_eq] at literals
  rcases literals with (rfl | rfl) | rfl <;> decide

/-- A generic of literal values parses to them. -/
theorem Registry.parse_values {head : String} (literals : TypeExpr.isLiteralHead head = true)
    {gap : List Char} (blank : AreBlank gap) {parts : List (TypeExpr × List Char)}
    (inhabited : parts ≠ [])
    (values : ∀ part ∈ parts, part.1.isLiteral = true ∧ part.1.SpelledAs part.2) :
    Registry.parse (String.ofList (head.toList ++ gap ++
        '[' :: ([','].intercalate (parts.map Prod.snd) ++ [']']))) =
      .ok (.generic head (parts.map Prod.fst)) := by
  have areLiteral : ∀ arg ∈ parts.map Prod.fst, arg.isLiteral = true :=
    List.forall_mem_map.2 fun part member => (values part member).1
  have dotted := isDotted_of_isLiteralHead literals
  refine Registry.parse_eq_ok_iff.2 ⟨?_, ?_, ?_⟩
  · refine TypeExpr.isWellFormed_generic_iff.2 ⟨dotted, by simpa using inhabited, ?_⟩
    rw [if_pos literals]
    exact areLiteral
  · rw [TypeExpr.nesting, TypeExpr.nestingOfAll_of_areLiteral areLiteral]
    decide
  · rw [String.toList_ofList]
    exact .generic dotted blank fun part member => (values part member).2

/-- A quoted text among other values. -/
theorem ValuePlace.parse_text (place : ValuePlace) {value : String} {cs : List Char}
    (lexeme : IsLexeme (.text value) cs) :
    Registry.parse (place.text cs) = .ok (place.tree value) := by
  obtain ⟨gap, left, right⟩ := place.blank
  have here : (TypeExpr.literal (.str value)).SpelledAs (place.left ++ cs ++ place.right) :=
    .spaced left right (.literal rfl lexeme)
  have values : ∀ part ∈ place.before ++
      (.literal (.str value), place.left ++ cs ++ place.right) :: place.after,
      part.1.isLiteral = true ∧ part.1.SpelledAs part.2 := by
    have others := List.forall_mem_append.1 place.values
    rw [List.forall_mem_append, List.forall_mem_cons]
    exact ⟨others.1, ⟨rfl, here⟩, others.2⟩
  have parsed := Registry.parse_values place.literals gap (by simp) values
  rw [List.map_append, List.map_append, List.map_cons, List.map_cons] at parsed
  exact parsed

theorem ValuePlace.tree_eq_iff (place : ValuePlace) {value value' : String} :
    place.tree value = place.tree value' ↔ value = value' := by
  simp [tree]

/-! ## Annotations with quotes -/

theorem ofList_doubled_eq_iff {s : String} :
    String.ofList (doubled s.toList) = s ↔ '\\' ∉ s.toList := by
  rw [← Token.doubled_eq_self_iff]
  constructor
  · intro same
    rw [← String.toList_ofList (l := doubled s.toList), same]
  · intro same
    rw [same, String.ofList_toList]

/-- A text without control characters in double quotes parses to a quoted part with that text; in
single quotes each of its backslashes comes back twice. So it is with values of a generic of
literals, at any place among others. The two styles mean the same for texts without backslashes
only. -/
theorem parse_inQuotes (s : String) (noControl : HasNoControl s.toList) :
    (Registry.parse (String.ofList (inQuotes '"' s.toList)) = .ok (.forward s) ∧
      Registry.parse (String.ofList (inQuotes '\'' s.toList)) =
        .ok (.forward (String.ofList (doubled s.toList))) ∧
      (Registry.parse (String.ofList (inQuotes '\'' s.toList)) =
        Registry.parse (String.ofList (inQuotes '"' s.toList)) ↔ '\\' ∉ s.toList)) ∧
      ∀ place : ValuePlace,
        Registry.parse (place.text (inQuotes '"' s.toList)) = .ok (place.tree s) ∧
          Registry.parse (place.text (inQuotes '\'' s.toList)) =
            .ok (place.tree (String.ofList (doubled s.toList))) ∧
          (Registry.parse (place.text (inQuotes '\'' s.toList)) =
            Registry.parse (place.text (inQuotes '"' s.toList)) ↔ '\\' ∉ s.toList) := by
  have double := Token.isLexeme_double noControl
  have single := Token.isLexeme_single s.toList
  refine ⟨⟨Registry.parse_quoted double, Registry.parse_quoted single, ?_⟩, fun place => ?_⟩
  · rw [Registry.parse_quoted double, Registry.parse_quoted single, ← ofList_doubled_eq_iff]
    simp
  · refine ⟨place.parse_text double, place.parse_text single, ?_⟩
    rw [place.parse_text double, place.parse_text single, ← ofList_doubled_eq_iff,
      Except.ok.injEq, place.tree_eq_iff]

/-- Between two other values. -/
def betweenValues : ValuePlace where
  head := "Literal"
  gap := []
  before := [(.literal (.str "do"), Json.quote "do".toList)]
  left := [' ']
  right := []
  after := [(.literal .null, " None".toList)]
  literals := rfl
  blank := ⟨areBlank_nil, List.forall_mem_singleton.2 rfl, areBlank_nil⟩
  values := by
    have first : (TypeExpr.literal (.str "do")).SpelledAs (Json.quote "do".toList) :=
      .literal rfl (Token.isLexeme_quote "do".toList)
    have word : IsLexeme (.ident "None") "None".toList := Token.isLexeme_ident (by decide)
    have last : (TypeExpr.literal .null).SpelledAs " None".toList :=
      .spaced (List.forall_mem_singleton.2 rfl) areBlank_nil (.literal rfl word)
    exact List.forall_mem_cons.2 ⟨⟨rfl, first⟩, List.forall_mem_singleton.2 ⟨rfl, last⟩⟩

/-- An apostrophe in single quotes, as a quoted part and as a value. -/
theorem parse_inQuotes_apostrophe :
    HasNoControl "don't".toList ∧
      Registry.parse "'don\\'t'" = .ok (.forward "don't") ∧
      Registry.parse "Literal[\"do\", 'don\\'t', None]" =
        .ok (.generic "Literal"
          [.literal (.str "do"), .literal (.str "don't"), .literal .null]) := by
  have noControl : HasNoControl "don't".toList := by decide
  obtain ⟨⟨_, single, _⟩, values⟩ := parse_inQuotes "don't" noControl
  obtain ⟨_, value, _⟩ := values betweenValues
  exact ⟨noControl, single, value⟩

/-- The only value. -/
def onlyValue : ValuePlace where
  head := "Literal"
  gap := []
  before := []
  left := []
  right := []
  after := []
  literals := rfl
  blank := ⟨areBlank_nil, areBlank_nil, areBlank_nil⟩
  values := List.forall_mem_nil _

/-- A backslash comes back from double quotes as it was, and from single quotes twice. -/
theorem not_parse_inQuotes_alike :
    HasNoControl "a\\b".toList ∧
      Registry.parse "\"a\\\\b\"" = .ok (.forward "a\\b") ∧
      Registry.parse "'a\\\\b'" ≠ .ok (.forward "a\\b") ∧
      Registry.parse "Literal['a\\\\b']" ≠ .ok (.generic "Literal" [.literal (.str "a\\b")]) := by
  have noControl : HasNoControl "a\\b".toList := by decide
  have double := Registry.parse_quoted (Token.isLexeme_double noControl)
  have lexeme : IsLexeme (.text "a\\\\b") (inQuotes '\'' "a\\b".toList) :=
    Token.isLexeme_single "a\\b".toList
  have single := Registry.parse_quoted lexeme
  have value := onlyValue.parse_text lexeme
  have doubleText : String.ofList (inQuotes '"' "a\\b".toList) = "\"a\\\\b\"" := rfl
  have singleText : String.ofList (inQuotes '\'' "a\\b".toList) = "'a\\\\b'" := rfl
  have valueText : onlyValue.text (inQuotes '\'' "a\\b".toList) = "Literal['a\\\\b']" := rfl
  rw [doubleText] at double
  rw [singleText] at single
  rw [valueText] at value
  refine ⟨noControl, double, ?_, ?_⟩
  · rw [single]
    simp
  · rw [value]
    simp [ValuePlace.tree, onlyValue]

end CallContract
