import CallContract.Proofs.Rendering

/-!
# How annotations can be spelled

`TypeExpr.SpelledAs` relates an annotation to the characters that it can be written with: the
lexemes of its parts with marks between them, and blanks anywhere around a part.

* `TypeExpr.scansAs_of_spelledAs`: characters that spell an annotation are cut into its tokens.
* `TypeExpr.spelledAs_of_scans`: whatever is cut into the tokens of an annotation spells it.
* `Registry.parse_eq_ok_iff`: a text parses to the well-formed annotations that it spells, up to the
  depth of nesting, and to no others.
-/

namespace CallContract

namespace TypeExpr

open Token (AreBlank EndsLexeme IsLexeme Scans ScansAs endsLexeme_append endsLexeme_mark
  exists_blanks isLexeme_ident scansAs_append_blanks scansAs_intercalate scansAs_of_isLexeme
  scans_append_blanks scans_of_lexeme scans_of_skipBlanks separates_mark skipBlanks
  skipBlanks_append skipBlanks_skipBlanks)

/-- An annotation and characters that it is written with. -/
inductive SpelledAs : TypeExpr → List Char → Prop where
  /-- a name is an identifier with points -/
  | name {word : String} (dotted : Token.isDotted word.toList = true) :
    SpelledAs (.name word) word.toList
  /-- a quoted part is any quotation of its text -/
  | forward {text : String} {cs : List Char} (lexeme : IsLexeme (.text text) cs) :
    SpelledAs (.forward text) cs
  | literal {t : Token} {v : Json} {cs : List Char} (value : literalValue? t = some v)
    (lexeme : IsLexeme t cs) : SpelledAs (.literal v) cs
  /-- the arguments of a generic stand in brackets, with commas between them -/
  | generic {head : String} {gap : List Char} {parts : List (TypeExpr × List Char)}
    (dotted : Token.isDotted head.toList = true) (blank : AreBlank gap)
    (each : ∀ part ∈ parts, SpelledAs part.1 part.2) :
    SpelledAs (.generic head (parts.map Prod.fst))
      (head.toList ++ gap ++ '[' :: ([','].intercalate (parts.map Prod.snd) ++ [']']))
  /-- the arms of a union stand with bars between them -/
  | union {parts : List (TypeExpr × List Char)} (each : ∀ part ∈ parts, SpelledAs part.1 part.2) :
    SpelledAs (.union (parts.map Prod.fst)) (['|'].intercalate (parts.map Prod.snd))
  | spaced {a : TypeExpr} {before cs behind : List Char} (blankBefore : AreBlank before)
    (blankBehind : AreBlank behind) (spelled : SpelledAs a cs) :
    SpelledAs a (before ++ cs ++ behind)

/-! ## From the spelling to the tokens -/

/-- Parts that are cut into their tokens are so with a mark between them. -/
theorem scansAs_parts (m : Mark) {parts : List (TypeExpr × List Char)}
    (each : ∀ part ∈ parts, ScansAs part.2 part.1.tokens) :
    ScansAs ([m.char].intercalate (parts.map Prod.snd)) (tokensOfAll m (parts.map Prod.fst)) := by
  rw [tokensOfAll_eq, List.map_map]
  exact scansAs_intercalate (separates_mark m) each

theorem scansAs_generic {head : String} {gap inner : List Char} {args : List TypeExpr}
    (dotted : Token.isDotted head.toList = true) (blank : AreBlank gap)
    (scans : ScansAs inner (tokensOfAll .comma args)) :
    ScansAs (head.toList ++ gap ++ '[' :: (inner ++ [']'])) (generic head args).tokens := by
  intro rest us ends others
  have closed : Scans (']' :: rest) (.mark .closeBracket :: us) :=
    scans_of_lexeme (Token.lexeme?_mark .closeBracket rest) others
  have filled := scans _ _ (endsLexeme_mark .closeBracket rest) closed
  have opened : Scans ('[' :: (inner ++ ']' :: rest))
      (.mark .openBracket :: (tokensOfAll .comma args ++ .mark .closeBracket :: us)) :=
    scans_of_lexeme (Token.lexeme?_mark .openBracket _) filled
  have endsHead := endsLexeme_append blank (endsLexeme_mark .openBracket (inner ++ ']' :: rest))
  have whole := scans_word head dotted endsHead (scans_append_blanks blank opened)
  rw [tokens]
  simpa [Mark.char] using whole

/-- Characters that spell an annotation are cut into its tokens. -/
theorem scansAs_of_spelledAs {a : TypeExpr} {cs : List Char} (spelled : a.SpelledAs cs) :
    ScansAs cs a.tokens := by
  induction spelled with
  | name dotted =>
    have lexeme := isLexeme_ident dotted
    rw [String.ofList_toList] at lexeme
    rw [tokens]
    exact scansAs_of_isLexeme lexeme
  | forward lexeme =>
    rw [tokens]
    exact scansAs_of_isLexeme lexeme
  | literal value lexeme =>
    rw [tokens, literalToken_of_literalValue? value]
    exact scansAs_of_isLexeme lexeme
  | generic dotted blank _ ih => exact scansAs_generic dotted blank (scansAs_parts .comma ih)
  | union _ ih =>
    rw [tokens]
    exact scansAs_parts .bar ih
  | spaced blankBefore blankBehind _ ih => exact scansAs_append_blanks blankBefore blankBehind ih

/-! ## From the tokens to the spelling -/

/-- Whatever is cut into the tokens of an annotation, and more, starts with a spelling of it, which
takes along the blanks behind it. -/
def IsSpelledFirst (a : TypeExpr) : Prop :=
  ∀ (cs : List Char) (us : List Token), Scans cs (a.tokens ++ us) →
    ∃ body after, cs = body ++ after ∧ a.SpelledAs body ∧ skipBlanks after = after ∧ Scans after us

theorem exists_spelled {a : TypeExpr} {blanks body after : List Char} {us : List Token}
    (blank : AreBlank blanks) (spelled : a.SpelledAs body) (others : Scans after us) :
    ∃ body' after', blanks ++ (body ++ after) = body' ++ after' ∧ a.SpelledAs body' ∧
      skipBlanks after' = after' ∧ Scans after' us := by
  obtain ⟨behind, blankBehind, split⟩ := exists_blanks after
  refine ⟨blanks ++ body ++ behind, skipBlanks after, ?_, .spaced blank blankBehind spelled,
    skipBlanks_skipBlanks after, ?_⟩
  · rw [List.append_assoc, List.append_assoc, ← split]
  · exact scans_of_skipBlanks (skipBlanks_skipBlanks after) others

/-- Where no blanks come first, a mark does. -/
theorem exists_of_mark {after : List Char} {m : Mark} {us : List Token}
    (visible : skipBlanks after = after) (scans : Scans after (.mark m :: us)) :
    ∃ behind, after = m.char :: behind ∧ Scans behind us := by
  obtain ⟨blanks, behind, blank, split, others⟩ := Token.exists_of_scans_mark scans
  refine ⟨behind, ?_, others⟩
  rw [← visible, split, skipBlanks_append blank]
  cases m <;> rfl

theorem exists_parts_of_scans (m : Mark) {as : List TypeExpr} (inhabited : as ≠ [])
    (each : ∀ a ∈ as, a.IsSpelledFirst) {cs : List Char} {us : List Token}
    (scans : Scans cs (tokensOfAll m as ++ us)) :
    ∃ (parts : List (TypeExpr × List Char)) (after : List Char), parts.map Prod.fst = as ∧
      (∀ part ∈ parts, part.1.SpelledAs part.2) ∧
      cs = [m.char].intercalate (parts.map Prod.snd) ++ after ∧ skipBlanks after = after ∧
      Scans after us := by
  induction as generalizing cs with
  | nil => exact absurd rfl inhabited
  | cons a as ih =>
    have first : a.IsSpelledFirst := each a List.mem_cons_self
    cases as with
    | nil =>
      rw [tokensOfAll, tokensBehind, List.append_nil] at scans
      obtain ⟨body, after, split, spelled, others⟩ := first cs us scans
      exact ⟨[(a, body)], after, rfl, List.forall_mem_singleton.2 spelled, by simpa using split,
        others⟩
    | cons b more =>
      rw [tokensOfAll_cons a (List.cons_ne_nil b more), List.append_assoc,
        List.cons_append] at scans
      obtain ⟨body, after, split, spelled, visible, scansMark⟩ := first _ _ scans
      obtain ⟨behind, splitMark, others⟩ := exists_of_mark visible scansMark
      obtain ⟨parts, rest, names, spelledParts, splitParts, scansRest⟩ :=
        ih (List.cons_ne_nil b more) (fun c member => each c (List.mem_cons_of_mem a member)) others
      cases parts with
      | nil => cases names
      | cons part parts =>
        refine ⟨(a, body) :: part :: parts, rest, ?_, ?_, ?_, scansRest⟩
        · rw [List.map_cons, names]
        · exact List.forall_mem_cons.2 ⟨spelled, spelledParts⟩
        · rw [split, splitMark, splitParts]
          simp [List.intercalate_cons_cons]

theorem isSpelledFirst_name (word : String) : (name word).IsSpelledFirst := by
  intro cs us scans
  rw [tokens, List.singleton_append] at scans
  obtain ⟨blanks, after, blank, dotted, split, others⟩ := Token.exists_of_scans_ident scans
  rw [split]
  exact exists_spelled blank (.name dotted) others

theorem isSpelledFirst_forward (text : String) : (forward text).IsSpelledFirst := by
  intro cs us scans
  rw [tokens, List.singleton_append] at scans
  obtain ⟨blanks, body, after, blank, split, lexeme, others⟩ := Token.exists_lexeme_of_scans scans
  rw [split]
  exact exists_spelled blank (.forward lexeme) others

theorem isSpelledFirst_literal {v : Json} (value : (literal v).isLiteral = true) :
    (literal v).IsSpelledFirst := by
  intro cs us scans
  obtain ⟨_, same, written, meant⟩ := literalValue?_literalToken value
  cases same
  rw [written, List.singleton_append] at scans
  obtain ⟨blanks, body, after, blank, split, lexeme, others⟩ := Token.exists_lexeme_of_scans scans
  rw [split]
  exact exists_spelled blank (.literal meant lexeme) others

theorem isSpelledFirst_generic (head : String) {args : List TypeExpr} (inhabited : args ≠ [])
    (each : ∀ arg ∈ args, arg.IsSpelledFirst) : (generic head args).IsSpelledFirst := by
  intro cs us scans
  rw [tokens, List.cons_append, List.cons_append, List.append_assoc] at scans
  obtain ⟨blanks, behind, blank, dotted, split, scansOpen⟩ := Token.exists_of_scans_ident scans
  obtain ⟨gap, inner, blankGap, splitOpen, scansArgs⟩ := Token.exists_of_scans_mark scansOpen
  obtain ⟨parts, close, names, spelled, splitArgs, visible, scansClose⟩ :=
    exists_parts_of_scans .comma inhabited each scansArgs
  obtain ⟨after, splitClose, others⟩ := exists_of_mark visible scansClose
  have whole := exists_spelled blank (.generic dotted blankGap spelled) others
  rw [names] at whole
  rw [split, splitOpen, splitArgs, splitClose]
  simpa [Mark.char] using whole

theorem isSpelledFirst_union {arms : List TypeExpr} (inhabited : arms ≠ [])
    (each : ∀ arm ∈ arms, arm.IsSpelledFirst) : (union arms).IsSpelledFirst := by
  intro cs us scans
  rw [tokens] at scans
  obtain ⟨parts, after, names, spelled, split, others⟩ :=
    exists_parts_of_scans .bar inhabited each scans
  subst names
  exact ⟨_, after, split, .union spelled, others⟩

/-- Whatever is cut into the tokens of a well-formed annotation spells it. -/
theorem isSpelledFirst (a : TypeExpr) :
    a.isWellFormed = true ∨ a.isLiteral = true → a.IsSpelledFirst := by
  induction a using partInduction with
  | name word => exact fun _ => isSpelledFirst_name word
  | forward text => exact fun _ => isSpelledFirst_forward text
  | literal v =>
    intro formed
    rcases formed with formed | value
    · cases formed
    · exact isSpelledFirst_literal value
  | generic head args ih =>
    intro formed
    rcases formed with formed | value
    · obtain ⟨_, inhabited, parts⟩ := isWellFormed_generic_iff.1 formed
      refine isSpelledFirst_generic head inhabited fun arg member => ih arg member ?_
      split at parts
      · exact Or.inr (parts arg member)
      · exact Or.inl (parts arg member)
    · cases value
  | union arms ih =>
    intro formed
    rcases formed with formed | value
    · obtain ⟨several, parts⟩ := isWellFormed_union_iff.1 formed
      have inhabited : arms ≠ [] := List.ne_nil_of_length_pos (by omega)
      exact isSpelledFirst_union inhabited fun arm member =>
        ih arm member (Or.inl (parts arm member).2)
    · cases value

theorem spelledAs_of_scans {a : TypeExpr} (formed : a.isWellFormed = true) {cs : List Char}
    (scans : Scans cs a.tokens) : a.SpelledAs cs := by
  rw [← List.append_nil a.tokens] at scans
  obtain ⟨body, after, split, spelled, visible, none⟩ := isSpelledFirst a (Or.inl formed) _ _ scans
  rw [split]
  exact .spaced Token.areBlank_nil (Token.areBlank_of_scans_nil none) spelled

end TypeExpr

/-! ## Parsing -/

/-- A text parses to the well-formed annotations that it spells, up to the depth of nesting, and to
no others. -/
theorem Registry.parse_eq_ok_iff {text : String} {a : TypeExpr} :
    Registry.parse text = .ok a ↔
      a.isWellFormed = true ∧ a.nesting ≤ 128 ∧ a.SpelledAs text.toList := by
  constructor
  · intro found
    obtain ⟨formed, shallow⟩ := Registry.formed_of_parse found
    obtain ⟨ts, scanned, made⟩ := Except.bind_eq_ok.1 (Except.mapError_eq_ok.1 found)
    refine ⟨formed, shallow, TypeExpr.spelledAs_of_scans formed ?_⟩
    rw [TypeExpr.tokens_of_ofTokens made]
    exact Token.scans_of_scanFrom scanned
  · intro spelled
    obtain ⟨formed, shallow, spelled⟩ := spelled
    have scans := TypeExpr.scansAs_of_spelledAs spelled [] [] Token.endsLexeme_nil
      (Token.scans_of_blank rfl)
    rw [List.append_nil, List.append_nil] at scans
    rw [Registry.parse_of_scan formed (scans 0), if_pos shallow]

/-- A quoted text parses to a quoted part. -/
theorem Registry.parse_quoted {text : String} {cs : List Char}
    (lexeme : Token.IsLexeme (.text text) cs) :
    Registry.parse (String.ofList cs) = .ok (.forward text) := by
  refine Registry.parse_eq_ok_iff.2 ⟨rfl, Nat.zero_le _, ?_⟩
  rw [String.toList_ofList]
  exact .forward lexeme

end CallContract
