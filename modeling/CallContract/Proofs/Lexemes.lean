import CallContract.Proofs.Scanning
import Mathlib.Data.List.DropRight
import Mathlib.Data.List.TakeWhile

/-!
# Lexemes by themselves

A lexeme is taken from the front of a text, as much of it as there is. Most of the time what stands
behind it does not matter.

* `Token.IsLexeme`: characters that are read as a token in front of anything that does not go on
  with a name or a number.
* `Token.exists_lexeme`: whatever is read from the front of a text is such a lexeme.
* `Token.exists_lexeme_of_scans`: the first token of a text comes from a lexeme behind blanks.
* `Token.ScansAs` is scanning in context; `Token.scansAs_intercalate` puts parts together with a
  mark between them.
-/

namespace CallContract

namespace Json

theorem spanDigits_eq (cs : List Char) :
    spanDigits cs = (cs.takeWhile Char.isDigit, cs.dropWhile Char.isDigit) := by
  induction cs with
  | nil => rfl
  | cons c cs ih =>
    rw [spanDigits, List.takeWhile_cons, List.dropWhile_cons, ih]
    cases c.isDigit <;> rfl

/-- A run of digits is followed by what was behind it. -/
theorem of_spanDigits {cs digits rest : List Char} (spanned : spanDigits cs = (digits, rest)) :
    cs = digits ++ rest ∧ ∀ c ∈ digits, c.isDigit = true := by
  rw [spanDigits_eq] at spanned
  cases spanned
  exact ⟨List.takeWhile_append_dropWhile.symm, fun c member => List.mem_takeWhile_imp member⟩

end Json

namespace Token

open Json (spanDigits spanDigits_append EndsNumber)

/-! ## Blanks and ends -/

/-- Whether characters are all blank. -/
def AreBlank (cs : List Char) : Prop :=
  ∀ c ∈ cs, Text.isBlank c = true

theorem areBlank_nil : AreBlank [] :=
  List.forall_mem_nil _

theorem skipBlanks_append {blanks : List Char} (blank : AreBlank blanks) (cs : List Char) :
    skipBlanks (blanks ++ cs) = skipBlanks cs :=
  List.dropWhile_append_of_pos blank

theorem skipBlanks_skipBlanks (cs : List Char) : skipBlanks (skipBlanks cs) = skipBlanks cs :=
  List.dropWhile_idempotent _ cs

theorem exists_blanks (cs : List Char) : ∃ blanks, AreBlank blanks ∧ cs = blanks ++ skipBlanks cs :=
  ⟨cs.takeWhile Text.isBlank, fun _ member => List.mem_takeWhile_imp member,
    List.takeWhile_append_dropWhile.symm⟩

theorem endsLexeme_nil : EndsLexeme [] := by
  intro c none
  cases none

theorem endsLexeme_mark (m : Mark) (cs : List Char) : EndsLexeme (m.char :: cs) := by
  intro c first
  cases first
  cases m <;> decide

theorem endsLexeme_append {blanks cs : List Char} (blank : AreBlank blanks) (ends : EndsLexeme cs) :
    EndsLexeme (blanks ++ cs) := by
  cases blanks with
  | nil => exact ends
  | cons c blanks =>
    intro d first
    cases first
    have isBlank : Text.isBlank c = true := blank c List.mem_cons_self
    constructor
    · refine eq_false_of_ne_true fun part => ?_
      rw [isBlank_of_isIdentPart part] at isBlank
      cases isBlank
    · intro point
      rw [point] at isBlank
      cases isBlank

/-! ## Numbers -/

/-- The fraction of a number, which may be missing. -/
def IsFraction (cs : List Char) : Prop :=
  cs = [] ∨ ∃ digits, cs = '.' :: digits ∧ digits ≠ [] ∧ ∀ c ∈ digits, c.isDigit = true

/-- The exponent of a number, which may be missing. -/
def IsExponent (cs : List Char) : Prop :=
  cs = [] ∨ ∃ e sign digits, cs = e :: sign ++ digits ∧ (e = 'e' ∨ e = 'E') ∧
    (sign = [] ∨ sign = ['+'] ∨ sign = ['-']) ∧ digits ≠ [] ∧ ∀ c ∈ digits, c.isDigit = true

theorem of_spanFraction (cs : List Char) :
    cs = (spanFraction cs).1 ++ (spanFraction cs).2 ∧ IsFraction (spanFraction cs).1 := by
  unfold spanFraction
  split
  · rename_i rest
    split
    · exact ⟨rfl, Or.inl rfl⟩
    · rename_i digits after nonempty spanned
      obtain ⟨split, all⟩ := Json.of_spanDigits spanned
      refine ⟨by rw [split]; rfl, Or.inr ⟨digits, rfl, ?_, all⟩⟩
      intro none
      exact nonempty none
  · exact ⟨rfl, Or.inl rfl⟩

theorem spanFraction_append {fraction rest : List Char} (isFraction : IsFraction fraction)
    (ends : ∀ c ∈ rest.head?, c.isDigit = false ∧ c ≠ '.') :
    spanFraction (fraction ++ rest) = (fraction, rest) := by
  rcases isFraction with none | ⟨digits, written, nonempty, all⟩
  · subst none
    cases rest with
    | nil => rfl
    | cons c rest =>
      rw [List.nil_append, spanFraction]
      intro others same
      cases same
      exact (ends _ rfl).2 rfl
  · subst written
    have spanned := spanDigits_append all fun c first => (ends c first).1
    rw [List.cons_append, spanFraction, spanned]
    split
    · rename_i none
      cases none
      exact absurd rfl nonempty
    · rename_i found
      cases found
      rfl

theorem of_spanSign (cs : List Char) :
    cs = (spanSign cs).1 ++ (spanSign cs).2 ∧
      ((spanSign cs).1 = [] ∨ (spanSign cs).1 = ['+'] ∨ (spanSign cs).1 = ['-']) := by
  unfold spanSign
  split
  · rename_i c rest
    split
    · rename_i sign
      rcases sign with rfl | rfl
      · exact ⟨rfl, Or.inr (Or.inl rfl)⟩
      · exact ⟨rfl, Or.inr (Or.inr rfl)⟩
    · exact ⟨rfl, Or.inl rfl⟩
  · exact ⟨rfl, Or.inl rfl⟩

theorem spanSign_append {sign digits : List Char}
    (isSign : sign = [] ∨ sign = ['+'] ∨ sign = ['-']) (nonempty : digits ≠ [])
    (all : ∀ c ∈ digits, c.isDigit = true) (rest : List Char) :
    spanSign (sign ++ (digits ++ rest)) = (sign, digits ++ rest) := by
  rcases isSign with rfl | rfl | rfl
  · obtain ⟨d, others, rfl⟩ := List.exists_cons_of_ne_nil nonempty
    have digit := all d List.mem_cons_self
    have noSign : ¬(d = '+' ∨ d = '-') := by
      intro sign
      rcases sign with rfl | rfl <;> cases digit
    rw [List.nil_append, List.cons_append, spanSign, if_neg noSign]
  · rfl
  · rfl

theorem of_spanExponent (cs : List Char) :
    cs = (spanExponent cs).1 ++ (spanExponent cs).2 ∧ IsExponent (spanExponent cs).1 := by
  unfold spanExponent
  split
  · exact ⟨rfl, Or.inl rfl⟩
  · rename_i c rest
    split
    · rename_i letter
      obtain ⟨signSplit, isSign⟩ := of_spanSign rest
      generalize spanSign rest = signed at signSplit isSign
      obtain ⟨sign, behind⟩ := signed
      dsimp only at signSplit isSign ⊢
      split
      · exact ⟨rfl, Or.inl rfl⟩
      · rename_i digits after nonempty spanned
        obtain ⟨digitSplit, all⟩ := Json.of_spanDigits spanned
        have inhabited : digits ≠ [] := nonempty
        refine ⟨?_, Or.inr ⟨c, sign, digits, rfl, letter, isSign, inhabited, all⟩⟩
        rw [signSplit, digitSplit]
        simp
    · exact ⟨rfl, Or.inl rfl⟩

theorem spanExponent_append {exponent rest : List Char} (isExponent : IsExponent exponent)
    (ends : EndsNumber rest) : spanExponent (exponent ++ rest) = (exponent, rest) := by
  rcases isExponent with none | ⟨e, sign, digits, written, letter, isSign, nonempty, all⟩
  · subst none
    exact spanExponent_none ends
  · subst written
    have digitsSpanned := spanDigits_append all fun c first => (ends c first).1
    have signSpanned := spanSign_append isSign nonempty all rest
    rw [List.append_assoc, List.cons_append, spanExponent, if_pos letter, signSpanned]
    dsimp only
    rw [digitsSpanned]
    split
    · rename_i none
      cases none
      exact absurd rfl nonempty
    · rename_i found
      cases found
      rfl

/-- An exponent is no more part of the fraction before it than what ends a number. -/
theorem noFraction_append {exponent rest : List Char} (isExponent : IsExponent exponent)
    (ends : EndsNumber rest) :
    ∀ c ∈ (exponent ++ rest).head?, c.isDigit = false ∧ c ≠ '.' := by
  intro c first
  rcases isExponent with none | ⟨e, sign, digits, written, letter, _⟩
  · subst none
    exact ⟨(ends c first).1, (ends c first).2.1⟩
  · subst written
    cases first
    rcases letter with rfl | rfl <;> decide

theorem of_spanMinus (cs : List Char) :
    cs = (spanMinus cs).1 ++ (spanMinus cs).2 ∧
      ((spanMinus cs).1 = ['-'] ∨ (spanMinus cs).1 = []) := by
  unfold spanMinus
  split
  · split
    · rename_i minus
      subst minus
      exact ⟨rfl, Or.inl rfl⟩
    · exact ⟨rfl, Or.inr rfl⟩
  · exact ⟨rfl, Or.inr rfl⟩

theorem spanMinus_append {minus digits rest : List Char} (isMinus : minus = ['-'] ∨ minus = [])
    (nonempty : digits ≠ []) (all : ∀ c ∈ digits, c.isDigit = true) :
    spanMinus (minus ++ (digits ++ rest)) = (minus, digits ++ rest) := by
  rcases isMinus with rfl | rfl
  · rfl
  · obtain ⟨d, others, rfl⟩ := List.exists_cons_of_ne_nil nonempty
    have digit := all d List.mem_cons_self
    have noMinus : d ≠ '-' := by
      intro same
      subst same
      cases digit
    rw [List.nil_append, List.cons_append, spanMinus, if_neg noMinus]

/-- A number that is taken from the front of a text is taken from the front of any text in which
nothing goes on with it. -/
theorem of_spanNumber {cs number after : List Char}
    (spanned : spanNumber cs = some (number, after)) :
    cs = number ++ after ∧ (∃ c rest, number = c :: rest ∧ (c = '-' ∨ c.isDigit = true)) ∧
      ∀ rest, EndsNumber rest → spanNumber (number ++ rest) = some (number, rest) := by
  unfold spanNumber at spanned
  obtain ⟨minusSplit, isMinus⟩ := of_spanMinus cs
  generalize spanMinus cs = signed at spanned minusSplit isMinus
  obtain ⟨minus, behind⟩ := signed
  dsimp only at spanned minusSplit isMinus
  split at spanned
  · cases spanned
  · rename_i digits afterDigits nonempty digitsSpanned
    obtain ⟨digitSplit, all⟩ := Json.of_spanDigits digitsSpanned
    have inhabited : digits ≠ [] := nonempty
    obtain ⟨fractionSplit, isFraction⟩ := of_spanFraction afterDigits
    generalize spanFraction afterDigits = fractioned at spanned fractionSplit isFraction
    obtain ⟨fraction, afterFraction⟩ := fractioned
    obtain ⟨exponentSplit, isExponent⟩ := of_spanExponent afterFraction
    dsimp only at spanned fractionSplit isFraction
    generalize spanExponent afterFraction = exponented at spanned exponentSplit isExponent
    obtain ⟨exponent, afterExponent⟩ := exponented
    cases spanned
    refine ⟨?_, ?_, ?_⟩
    · rw [minusSplit, digitSplit, fractionSplit, exponentSplit]
      simp
    · obtain ⟨d, others, rfl⟩ := List.exists_cons_of_ne_nil inhabited
      rcases isMinus with rfl | rfl
      · exact ⟨'-', _, rfl, Or.inl rfl⟩
      · exact ⟨d, _, rfl, Or.inr (all d List.mem_cons_self)⟩
    · intro rest ends
      have noFraction := noFraction_append isExponent ends
      have noDigit : ∀ c ∈ (fraction ++ (exponent ++ rest)).head?, c.isDigit = false := by
        rcases isFraction with none | ⟨_, written, _⟩
        · subst none
          exact fun c first => (noFraction c first).1
        · subst written
          intro c first
          cases first
          rfl
      have joined : minus ++ digits ++ fraction ++ exponent ++ rest =
          minus ++ (digits ++ (fraction ++ (exponent ++ rest))) := by
        simp
      unfold spanNumber
      rw [joined, spanMinus_append isMinus inhabited all]
      dsimp only
      rw [spanDigits_append all noDigit]
      split
      · rename_i none
        cases none
        exact absurd rfl inhabited
      · rename_i found
        cases found
        rw [spanFraction_append isFraction noFraction]
        dsimp only
        rw [spanExponent_append isExponent ends]

/-! ## Quoted texts -/

/-- A quoted text is closed by the same quote whatever stands behind it. -/
theorem of_spanQuoted {quote : Char} (noBackslash : quote ≠ '\\') {cs inner after : List Char}
    (spanned : spanQuoted quote cs = some (inner, after)) :
    cs = inner ++ quote :: after ∧
      ∀ rest, spanQuoted quote (inner ++ quote :: rest) = some (inner, rest) := by
  fun_induction spanQuoted quote cs generalizing inner after with
  | case1 => cases spanned
  | case2 rest =>
    cases spanned
    exact ⟨rfl, spanQuoted_close quote⟩
  | case3 => cases spanned
  | case4 => cases spanned
  | case5 d rest noBreak _ ih =>
    obtain ⟨⟨inner', after'⟩, found, same⟩ := Option.map_eq_some_iff.1 spanned
    cases same
    obtain ⟨split, closes⟩ := ih found
    refine ⟨by rw [split]; rfl, fun rest => ?_⟩
    rw [List.cons_append, List.cons_append, spanQuoted_escape noBackslash noBreak, closes]
    rfl
  | case6 c rest noQuote noBackslash ih =>
    obtain ⟨⟨inner', after'⟩, found, same⟩ := Option.map_eq_some_iff.1 spanned
    cases same
    obtain ⟨split, closes⟩ := ih found
    refine ⟨by rw [split]; rfl, fun rest => ?_⟩
    rw [List.cons_append, spanQuoted_plain noQuote noBackslash, closes]
    rfl

/-! ## Single lexemes -/

/-- Characters that are read as a token, in front of anything that does not go on with it. -/
def IsLexeme (t : Token) (cs : List Char) : Prop :=
  ∀ rest, EndsLexeme rest → lexeme? (skipBlanks (cs ++ rest)) = some (.ok t, rest)

theorem isLexeme_ident {name : List Char} (dotted : isDotted name = true) :
    IsLexeme (.ident (String.ofList name)) name :=
  fun _ ends => lexeme?_ident dotted ends

theorem isLexeme_mark (m : Mark) : IsLexeme (.mark m) [m.char] :=
  fun rest _ => lexeme?_mark m rest

theorem isLexeme_quote (s : List Char) : IsLexeme (.text (String.ofList s)) (Json.quote s) :=
  fun rest _ => lexeme?_quote s rest

/-- What a quote of either style starts is read up to the quote that closes it. -/
theorem lexeme?_quoted (inner : List Char) {quote : Char} {rest : List Char}
    (closes : spanQuoted quote (inner ++ quote :: rest) = some (inner, rest))
    (style : quote = '"' ∨ quote = '\'') :
    lexeme? (skipBlanks (quote :: inner ++ quote :: rest)) =
      some (if quote = '"' then ofDoubleQuoted inner
        else .ok (.text (String.ofList (unescapeQuote inner))), rest) := by
  rcases style with rfl | rfl
  · rw [List.cons_append, skipBlanks_cons (by decide)]
    simp only [lexeme?]
    rw [if_neg (by decide), if_pos trivial, closes]
    rfl
  · rw [List.cons_append, skipBlanks_cons (by decide)]
    simp only [lexeme?]
    rw [if_neg (by decide), if_neg (by decide), if_pos trivial, closes]
    rfl

theorem isLexeme_of_spanQuoted {quote : Char} (style : quote = '"' ∨ quote = '\'')
    {cs inner after : List Char} {t : Token} (spanned : spanQuoted quote cs = some (inner, after))
    (meant : (if quote = '"' then ofDoubleQuoted inner
      else .ok (.text (String.ofList (unescapeQuote inner)))) = .ok t) :
    quote :: cs = (quote :: inner ++ [quote]) ++ after ∧
      IsLexeme t (quote :: inner ++ [quote]) := by
  have noBackslash : quote ≠ '\\' := by
    rcases style with rfl | rfl <;> decide
  obtain ⟨split, closes⟩ := of_spanQuoted noBackslash spanned
  refine ⟨by rw [split]; simp, fun rest _ => ?_⟩
  have found := lexeme?_quoted inner (closes rest) style
  rw [meant] at found
  rw [List.append_assoc, List.singleton_append]
  exact found

theorem spanIdent_append_self (cs : List Char) : (spanIdent cs).1 ++ (spanIdent cs).2 = cs := by
  induction cs with
  | nil => rfl
  | cons c cs ih =>
    rw [spanIdent_cons]
    split
    · rw [List.cons_append, ih]
    · rfl

theorem char_of_mark? {c : Char} {m : Mark} (found : mark? c = some m) : m.char = c := by
  unfold mark? at found
  split at found
  · cases found
    exact Eq.symm ‹_›
  · split at found
    · cases found
      exact Eq.symm ‹_›
    · split at found
      · cases found
        exact Eq.symm ‹_›
      · split at found
        · cases found
          exact Eq.symm ‹_›
        · cases found

theorem exists_text_of_ofDoubleQuoted {inner : List Char} {t : Token}
    (meant : ofDoubleQuoted inner = .ok t) : ∃ s, t = .text s := by
  unfold ofDoubleQuoted at meant
  split at meant
  · cases meant
    exact ⟨_, rfl⟩
  · cases meant
  · cases meant

theorem exists_number_of_ofNumber {digits : List Char} {t : Token}
    (meant : ofNumber digits = .ok t) : ∃ n, t = .number n := by
  unfold ofNumber at meant
  split at meant
  · cases meant
    exact ⟨_, rfl⟩
  · cases meant
  · cases meant

/-- What is read from the front of a text: a name, a quoted text, a number or a mark. -/
theorem lexeme?_eq_ok {cs after : List Char} {t : Token}
    (found : lexeme? cs = some (.ok t, after)) :
    (∃ name, t = .ident name ∧ isDotted name.toList = true ∧ cs = name.toList ++ after) ∨
      (∃ s body, t = .text s ∧ cs = body ++ after ∧ IsLexeme t body) ∨
      (∃ n body, t = .number n ∧ cs = body ++ after ∧ IsLexeme t body) ∨
      ∃ m, t = .mark m ∧ cs = m.char :: after := by
  unfold lexeme? at found
  split at found
  · cases found
  · rename_i c rest
    split at found
    · rename_i start
      have dotted : isDotted (c :: (spanIdent rest).1) = true := by
        rw [isDotted_cons, start, goesOn_spanIdent]
        rfl
      have split := spanIdent_append_self rest
      cases found
      refine Or.inl ⟨_, rfl, ?_, ?_⟩
      · rw [String.toList_ofList]
        exact dotted
      · rw [String.toList_ofList, List.cons_append, split]
    · split at found
      · rename_i quote
        subst quote
        obtain ⟨⟨inner, _⟩, spanned, same⟩ := Option.map_eq_some_iff.1 found
        obtain ⟨meant, rfl⟩ := Prod.mk.inj same
        obtain ⟨s, rfl⟩ := exists_text_of_ofDoubleQuoted meant
        have whole := isLexeme_of_spanQuoted (Or.inl rfl) spanned ((if_pos rfl).trans meant)
        exact Or.inr (Or.inl ⟨s, _, rfl, whole⟩)
      · split at found
        · rename_i quote
          subst quote
          obtain ⟨⟨inner, _⟩, spanned, same⟩ := Option.map_eq_some_iff.1 found
          obtain ⟨meant, rfl⟩ := Prod.mk.inj same
          have whole :=
            isLexeme_of_spanQuoted (Or.inr rfl) spanned ((if_neg (by decide)).trans meant)
          cases meant
          exact Or.inr (Or.inl ⟨_, _, rfl, whole⟩)
        · split at found
          · obtain ⟨⟨digits, _⟩, spanned, same⟩ := Option.map_eq_some_iff.1 found
            obtain ⟨meant, rfl⟩ := Prod.mk.inj same
            obtain ⟨n, rfl⟩ := exists_number_of_ofNumber meant
            obtain ⟨split, ⟨d, others, written, start⟩, again⟩ := of_spanNumber spanned
            refine Or.inr (Or.inr (Or.inl ⟨n, digits, rfl, split, fun rest ends => ?_⟩))
            have spannedAgain := again rest (endsNumber_of_endsLexeme ends)
            rw [written, List.cons_append] at spannedAgain ⊢
            rw [lexeme?_number start, spannedAgain, Option.map_some, ← written, meant]
          · obtain ⟨m, isMark, same⟩ := Option.map_eq_some_iff.1 found
            cases same
            exact Or.inr (Or.inr (Or.inr ⟨m, rfl, by rw [char_of_mark? isMark]⟩))

/-- What is read from the front of a text is a lexeme. -/
theorem exists_lexeme {cs after : List Char} {t : Token}
    (found : lexeme? cs = some (.ok t, after)) : ∃ body, cs = body ++ after ∧ IsLexeme t body := by
  rcases lexeme?_eq_ok found with
    ⟨name, same, dotted, split⟩ | ⟨_, body, _, split, lexeme⟩ | ⟨_, body, _, split, lexeme⟩ |
      ⟨m, same, split⟩
  · subst same
    refine ⟨name.toList, split, ?_⟩
    have lexeme := isLexeme_ident dotted
    rwa [String.ofList_toList] at lexeme
  · exact ⟨body, split, lexeme⟩
  · exact ⟨body, split, lexeme⟩
  · subst same
    exact ⟨[m.char], split, isLexeme_mark m⟩

/-! ## Scanning lexeme by lexeme -/

theorem areBlank_of_scans_nil {cs : List Char} (scans : Scans cs []) : AreBlank cs := by
  rcases scans_eq scans with ⟨blank, _⟩ | ⟨_, _, _, _, _, same⟩
  · obtain ⟨blanks, areBlank, split⟩ := exists_blanks cs
    rw [blank, List.append_nil] at split
    rw [split]
    exact areBlank
  · cases same

/-- The first token of a text is read behind blanks. -/
theorem exists_of_scans_cons {cs : List Char} {t : Token} {ts : List Token}
    (scans : Scans cs (t :: ts)) :
    ∃ blanks behind after, AreBlank blanks ∧ cs = blanks ++ behind ∧
      lexeme? behind = some (.ok t, after) ∧ Scans after ts := by
  obtain ⟨blanks, areBlank, split⟩ := exists_blanks cs
  rcases scans_eq scans with ⟨_, same⟩ | ⟨_, after, _, found, others, same⟩
  · cases same
  · cases same
    exact ⟨blanks, skipBlanks cs, after, areBlank, split, found, others⟩

theorem exists_of_scans_mark {cs : List Char} {m : Mark} {ts : List Token}
    (scans : Scans cs (.mark m :: ts)) :
    ∃ blanks after, AreBlank blanks ∧ cs = blanks ++ m.char :: after ∧ Scans after ts := by
  obtain ⟨blanks, behind, after, blank, split, found, others⟩ := exists_of_scans_cons scans
  rcases lexeme?_eq_ok found with
    ⟨_, same, _⟩ | ⟨_, _, same, _⟩ | ⟨_, _, same, _⟩ | ⟨m', same, splitBehind⟩
  · cases same
  · cases same
  · cases same
  · cases same
    exact ⟨blanks, after, blank, by rw [split, splitBehind], others⟩

theorem exists_of_scans_ident {cs : List Char} {name : String} {ts : List Token}
    (scans : Scans cs (.ident name :: ts)) :
    ∃ blanks after, AreBlank blanks ∧ isDotted name.toList = true ∧
      cs = blanks ++ (name.toList ++ after) ∧ Scans after ts := by
  obtain ⟨blanks, behind, after, blank, split, found, others⟩ := exists_of_scans_cons scans
  rcases lexeme?_eq_ok found with
    ⟨_, same, dotted, splitBehind⟩ | ⟨_, _, same, _⟩ | ⟨_, _, same, _⟩ | ⟨_, same, _⟩
  · cases same
    exact ⟨blanks, after, blank, dotted, by rw [split, splitBehind], others⟩
  · cases same
  · cases same
  · cases same

theorem exists_lexeme_of_scans {cs : List Char} {t : Token} {ts : List Token}
    (scans : Scans cs (t :: ts)) :
    ∃ blanks body after, AreBlank blanks ∧ cs = blanks ++ (body ++ after) ∧ IsLexeme t body ∧
      Scans after ts := by
  obtain ⟨blanks, behind, after, blank, split, found, others⟩ := exists_of_scans_cons scans
  obtain ⟨body, splitBehind, lexeme⟩ := exists_lexeme found
  exact ⟨blanks, body, after, blank, by rw [split, splitBehind], lexeme, others⟩

theorem scans_append_blanks {blanks cs : List Char} {ts : List Token} (blank : AreBlank blanks)
    (scans : Scans cs ts) : Scans (blanks ++ cs) ts :=
  scans_of_skipBlanks (skipBlanks_append blank cs) scans

/-- Characters that are cut into tokens in front of anything that does not go on with the last
one. -/
def ScansAs (cs : List Char) (ts : List Token) : Prop :=
  ∀ rest us, EndsLexeme rest → Scans rest us → Scans (cs ++ rest) (ts ++ us)

/-- A separator is cut into one mark, and it ends the lexeme before it. -/
structure Separates (sep : List Char) (m : Mark) : Prop where
  scans : ∀ {rest ts}, Scans rest ts → Scans (sep ++ rest) (.mark m :: ts)
  ends : ∀ rest, EndsLexeme (sep ++ rest)

theorem separates_mark (m : Mark) : Separates [m.char] m where
  scans scans := scans_of_lexeme (lexeme?_mark m _) scans
  ends rest := endsLexeme_mark m rest

theorem scansAs_of_isLexeme {t : Token} {cs : List Char} (lexeme : IsLexeme t cs) :
    ScansAs cs [t] :=
  fun rest _ ends scans => scans_of_lexeme (lexeme rest ends) scans

theorem scansAs_append_blanks {before cs behind : List Char} {ts : List Token}
    (blankBefore : AreBlank before) (blankBehind : AreBlank behind) (scans : ScansAs cs ts) :
    ScansAs (before ++ cs ++ behind) ts := by
  intro rest us ends others
  have inner := scans (behind ++ rest) us (endsLexeme_append blankBehind ends)
    (scans_append_blanks blankBehind others)
  rw [List.append_assoc, List.append_assoc]
  exact scans_append_blanks blankBefore inner

/-- Parts with a separator between them are cut into their tokens with a mark between them. -/
theorem scansAs_intercalate {α : Type} {sep : List Char} {m : Mark} (separates : Separates sep m)
    {text : α → List Char} {tokens : α → List Token} {parts : List α}
    (each : ∀ part ∈ parts, ScansAs (text part) (tokens part)) :
    ScansAs (sep.intercalate (parts.map text)) ([.mark m].intercalate (parts.map tokens)) := by
  induction parts with
  | nil => exact fun rest us _ scans => scans
  | cons part parts ih =>
    have first := each part List.mem_cons_self
    cases parts with
    | nil => simpa using first
    | cons next more =>
      have others := ih fun part member => each part (List.mem_cons_of_mem _ member)
      intro rest us ends scans
      have behind := separates.scans (others rest us ends scans)
      have whole := first _ _ (separates.ends _) behind
      simpa [List.intercalate_cons_cons] using whole

end Token

end CallContract
