import CallContract.Declaration.Registry
import CallContract.Json.Printer
import CallContract.Proofs.Lexemes
import CallContract.Proofs.ParsedForms

/-!
# Annotations written as text

* `TypeExpr.render` is the text of an annotation: bars between arms, commas between arguments, text
  in double quotes.
* `TypeExpr.scans_chars`: the characters of an annotation are cut into its tokens.
* `Registry.parse_of_isWellFormed` and `Registry.formed_of_parse` put scanning and parsing together,
  in both directions.
-/

namespace CallContract

namespace TypeExpr

/-! ## Texts -/

/-- The characters of a literal value. -/
def literalChars : Json → List Char
  | .null => "None".toList
  | .bool true => "True".toList
  | .bool false => "False".toList
  | .num n => n.write
  | .str s => Json.quote s.toList
  | .arr items => (Json.arr items).compactChars
  | .obj fields => (Json.obj fields).compactChars

mutual
/-- The characters of an annotation. -/
def chars : TypeExpr → List Char
  | .name word => word.toList
  | .generic head args => head.toList ++ '[' :: (charsOfAll [',', ' '] args ++ [']'])
  | .union arms => charsOfAll [' ', '|', ' '] arms
  | .forward text => Json.quote text.toList
  | .literal v => literalChars v

/-- The characters of annotations with a separator between them. -/
def charsOfAll (sep : List Char) : List TypeExpr → List Char
  | [] => []
  | a :: rest => chars a ++ charsBehind sep rest

/-- The characters of annotations with a separator before each. -/
def charsBehind (sep : List Char) : List TypeExpr → List Char
  | [] => []
  | a :: rest => sep ++ (chars a ++ charsBehind sep rest)
end

/-- The text of an annotation. -/
def render (a : TypeExpr) : String :=
  String.ofList a.chars

mutual
/-- Whether the numbers in an annotation are integers of a word. -/
def hasIntegersOnly : TypeExpr → Bool
  | .literal (.num (.float _)) => false
  | .generic _ args => haveIntegersOnly args
  | .union arms => haveIntegersOnly arms
  | .name _ | .forward _ | .literal _ => true

/-- Whether the numbers in several annotations are integers of a word. -/
def haveIntegersOnly : List TypeExpr → Bool
  | [] => true
  | a :: rest => hasIntegersOnly a && haveIntegersOnly rest
end

theorem haveIntegersOnly_iff {as : List TypeExpr} :
    haveIntegersOnly as = true ↔ ∀ a ∈ as, a.hasIntegersOnly = true := by
  induction as with
  | nil => simp [haveIntegersOnly]
  | cons a rest ih => rw [haveIntegersOnly, Bool.and_eq_true, ih, List.forall_mem_cons]

/-! ## Scanning -/

open Token (Scans ScansAs EndsLexeme Separates endsLexeme_mark endsLexeme_nil scansAs_intercalate
  scans_blank scans_of_lexeme)

/-- An annotation is cut into its tokens, whatever stands behind it. -/
def ScansAsTokens (a : TypeExpr) : Prop :=
  ∀ rest ts, EndsLexeme rest → Scans rest ts → Scans (a.chars ++ rest) (a.tokens ++ ts)

theorem separates_comma : Separates [',', ' '] .comma where
  scans scanned := scans_of_lexeme (Token.lexeme?_mark .comma _) (scans_blank scanned)
  ends _ := by
    rintro c ⟨⟩
    decide

theorem separates_bar : Separates [' ', '|', ' '] .bar where
  scans scanned := scans_blank (scans_of_lexeme (Token.lexeme?_mark .bar _) (scans_blank scanned))
  ends _ := by
    rintro c ⟨⟩
    decide

theorem charsOfAll_eq (sep : List Char) (as : List TypeExpr) :
    charsOfAll sep as = sep.intercalate (as.map chars) := by
  have behind : ∀ (a : TypeExpr) (more : List TypeExpr),
      chars a ++ charsBehind sep more = sep.intercalate (chars a :: more.map chars) := by
    intro a more
    induction more generalizing a with
    | nil => rw [charsBehind, List.append_nil, List.map_nil, List.intercalate_singleton]
    | cons b more ih =>
      rw [charsBehind, ih, List.map_cons, List.intercalate_cons_cons, List.append_assoc]
  cases as with
  | nil => rfl
  | cons a more => exact behind a more

/-- Parts that are cut into their tokens are so with a separator between them. -/
theorem scansAs_charsOfAll {sep : List Char} {m : Mark} (separates : Separates sep m)
    {as : List TypeExpr} (parts : ∀ a ∈ as, ScansAsTokens a) :
    ScansAs (charsOfAll sep as) (tokensOfAll m as) := by
  rw [charsOfAll_eq, tokensOfAll_eq]
  exact scansAs_intercalate separates parts

theorem scans_word (word : String) (dotted : Token.isDotted word.toList = true) {rest : List Char}
    {ts : List Token} (ends : EndsLexeme rest) (scanned : Scans rest ts) :
    Scans (word.toList ++ rest) (.ident word :: ts) := by
  have found := Token.lexeme?_ident dotted ends
  rw [String.ofList_toList] at found
  exact scans_of_lexeme found scanned

theorem scans_quote (text : String) {rest : List Char} {ts : List Token} (scanned : Scans rest ts) :
    Scans (Json.quote text.toList ++ rest) (.text text :: ts) := by
  have found := Token.lexeme?_quote text.toList rest
  rw [String.ofList_toList] at found
  exact scans_of_lexeme found scanned

theorem scansAsTokens_literal {v : Json} (value : (literal v).isLiteral = true)
    (integers : (literal v).hasIntegersOnly = true) : ScansAsTokens (literal v) := by
  intro rest ts ends scanned
  rw [chars, tokens, List.singleton_append]
  cases v with
  | null => exact scans_word "None" (by decide) ends scanned
  | bool b =>
    cases b with
    | true => exact scans_word "True" (by decide) ends scanned
    | false => exact scans_word "False" (by decide) ends scanned
  | str s => exact scans_quote s scanned
  | num n =>
    cases n with
    | int i word => exact scans_of_lexeme (Token.lexeme?_intNumeral word ends) scanned
    | float x => cases integers
  | arr items => cases value
  | obj fields => cases value

theorem scansAsTokens_generic {head : String} {args : List TypeExpr}
    (dotted : Token.isDotted head.toList = true) (parts : ∀ arg ∈ args, ScansAsTokens arg) :
    ScansAsTokens (generic head args) := by
  intro rest ts ends scanned
  have closed : Scans (']' :: rest) (.mark .closeBracket :: ts) :=
    scans_of_lexeme (Token.lexeme?_mark .closeBracket rest) scanned
  have inner := scansAs_charsOfAll separates_comma parts _ _ (endsLexeme_mark .closeBracket rest)
    closed
  have opened := scans_of_lexeme (Token.lexeme?_mark .openBracket _) inner
  have whole := scans_word head dotted (endsLexeme_mark .openBracket _) opened
  rw [chars, tokens]
  simpa [Mark.char] using whole

/-- The characters of a well-formed annotation whose numbers are integers are cut into its
tokens. -/
theorem scans_chars (a : TypeExpr) : a.isWellFormed = true → a.hasIntegersOnly = true →
    ScansAsTokens a := by
  induction a using partInduction with
  | name word =>
    intro formed _ rest ts ends scanned
    rw [isWellFormed] at formed
    rw [chars, tokens]
    exact scans_word word formed ends scanned
  | forward text =>
    intro _ _ rest ts _ scanned
    rw [chars, tokens]
    exact scans_quote text scanned
  | literal v =>
    intro formed
    rw [isWellFormed] at formed
    cases formed
  | generic head args ih =>
    intro formed integers
    obtain ⟨dotted, _, parts⟩ := isWellFormed_generic_iff.1 formed
    rw [hasIntegersOnly, haveIntegersOnly_iff] at integers
    refine scansAsTokens_generic dotted fun arg member => ?_
    split at parts
    · obtain ⟨v, rfl⟩ := exists_of_isLiteral (parts arg member)
      exact scansAsTokens_literal (parts _ member) (integers _ member)
    · exact ih arg member (parts arg member) (integers arg member)
  | union arms ih =>
    intro formed integers rest ts ends scanned
    obtain ⟨_, parts⟩ := isWellFormed_union_iff.1 formed
    rw [hasIntegersOnly, haveIntegersOnly_iff] at integers
    rw [chars, tokens]
    have armsScan : ∀ arm ∈ arms, ScansAsTokens arm := fun arm member =>
      ih arm member (parts arm member).2 (integers arm member)
    exact scansAs_charsOfAll separates_bar armsScan rest ts ends scanned

theorem scan_render {a : TypeExpr} (formed : a.isWellFormed = true)
    (integers : a.hasIntegersOnly = true) : Token.scan a.render = .ok a.tokens := by
  have scanned := scans_chars a formed integers [] [] endsLexeme_nil (Token.scans_of_blank rfl)
  rw [List.append_nil, List.append_nil] at scanned
  rw [Token.scan, render, String.toList_ofList]
  exact scanned 0

end TypeExpr

/-! ## Texts and annotations -/

/-- A text that is cut into the tokens of a well-formed annotation parses to it, unless too many
generics are nested in each other. -/
theorem Registry.parse_of_scan {text : String} {a : TypeExpr} (formed : a.isWellFormed = true)
    (scanned : Token.scan text = .ok a.tokens) :
    Registry.parse text = if a.nesting ≤ 128 then .ok a else .error ⟨text, .tooDeep⟩ := by
  rw [Registry.parse, TypeExpr.parse, scanned]
  have parsed : (Except.ok a.tokens >>= TypeExpr.ofTokens) = TypeExpr.ofTokens a.tokens := rfl
  rw [parsed, TypeExpr.ofTokens_tokens formed, TypeExpr.maxDepth]
  split <;> rfl

theorem Registry.parse_of_isWellFormed {a : TypeExpr} (formed : a.isWellFormed = true)
    (integers : a.hasIntegersOnly = true) :
    Registry.parse a.render =
      if a.nesting ≤ 128 then .ok a else .error ⟨a.render, .tooDeep⟩ :=
  Registry.parse_of_scan formed (TypeExpr.scan_render formed integers)

theorem Registry.parse_eq_ok (a : TypeExpr) (formed : a.isWellFormed = true)
    (integers : a.hasIntegersOnly = true) (shallow : a.nesting ≤ 128) :
    Registry.parse a.render = .ok a := by
  rw [Registry.parse_of_isWellFormed formed integers, if_pos shallow]

theorem Registry.formed_of_parse {text : String} {a : TypeExpr}
    (found : Registry.parse text = .ok a) : a.isWellFormed = true ∧ a.nesting ≤ 128 := by
  obtain ⟨ts, scanned, made⟩ := Except.bind_eq_ok.1 (Except.mapError_eq_ok.1 found)
  exact TypeExpr.formed_of_ofTokens made (Token.areDotted_of_scan scanned)

/-- A well-formed annotation whose numbers are integers is what its text is parsed to, unless more
than 128 generics are nested in each other; and whatever a text is parsed to is well formed and not
nested deeper. -/
theorem parse_render :
    (∀ a : TypeExpr, a.isWellFormed = true → a.hasIntegersOnly = true →
      Registry.parse a.render =
        if a.nesting ≤ 128 then .ok a else .error ⟨a.render, .tooDeep⟩) ∧
      ∀ (text : String) (a : TypeExpr), Registry.parse text = .ok a →
        a.isWellFormed = true ∧ a.nesting ≤ 128 := by
  constructor
  · intro a formed integers
    exact Registry.parse_of_isWellFormed formed integers
  · intro text a found
    exact Registry.formed_of_parse found

/-- An annotation with a quoted part and with literal values of each kind. -/
def shapes : TypeExpr :=
  .union [
    .generic "dict" [.name "str", .generic "typing.Literal" [.literal (.str "a\"b"),
      .literal (.num (.int (-3) (by decide))), .literal (.bool true), .literal .null]],
    .forward "Input",
    .name "None"]

theorem render_shapes : shapes.render =
    "dict[str, typing.Literal[\"a\\\"b\", -3, True, None]] | \"Input\" | None" := by
  have numeral : Decimal.intNumeral (-3) = ['-', '3'] := by
    rw [Decimal.intNumeral, if_pos (by decide), Decimal.numeral]
    rfl
  have written : TypeExpr.literalChars (.num (.int (-3) (by decide))) = ['-', '3'] := numeral
  simp only [shapes, TypeExpr.render, TypeExpr.chars, TypeExpr.charsOfAll, TypeExpr.charsBehind,
    written]
  rfl

/-- Lists of lists, so many deep. -/
def lists : Nat → TypeExpr
  | 0 => .name "int"
  | n + 1 => .generic "list" [lists n]

theorem isWellFormed_lists (n : Nat) :
    (lists n).isWellFormed = true ∧ (lists n).hasIntegersOnly = true ∧ (lists n).nesting = n := by
  induction n with
  | zero => decide
  | succ n ih =>
    obtain ⟨formed, integers, nested⟩ := ih
    refine ⟨TypeExpr.isWellFormed_generic_iff.2 ⟨by decide, List.cons_ne_nil _ _, ?_⟩, ?_, ?_⟩
    · rw [if_neg (by decide)]
      exact List.forall_mem_singleton.2 formed
    · rw [lists, TypeExpr.hasIntegersOnly, TypeExpr.haveIntegersOnly, integers]
      rfl
    · rw [lists, TypeExpr.nesting, TypeExpr.nestingOfAll, TypeExpr.nestingOfAll, nested]
      omega

theorem parse_render_shapes :
    (shapes.isWellFormed = true ∧ shapes.hasIntegersOnly = true ∧ shapes.nesting = 2) ∧
      Registry.parse "dict[str, typing.Literal[\"a\\\"b\", -3, True, None]] | \"Input\" | None" =
        .ok shapes ∧
      Registry.parse (lists 129).render = .error ⟨(lists 129).render, .tooDeep⟩ := by
  have formed :
      shapes.isWellFormed = true ∧ shapes.hasIntegersOnly = true ∧ shapes.nesting = 2 := by
    decide
  obtain ⟨deepFormed, deepIntegers, deep⟩ := isWellFormed_lists 129
  have parsed := parse_render.1 shapes formed.1 formed.2.1
  have refused := parse_render.1 (lists 129) deepFormed deepIntegers
  rw [formed.2.2, if_pos (by decide), render_shapes] at parsed
  rw [deep, if_neg (by decide)] at refused
  have kept := parse_render.2 _ shapes parsed
  exact ⟨⟨kept.1, formed.2⟩, parsed, refused⟩

end CallContract
