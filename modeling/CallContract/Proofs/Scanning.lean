import CallContract.Proofs.Literals
import CallContract.Proofs.Traversal
import CallContract.TypeExpr.Token

/-!
# Scanning what was written

* `Token.isDotted` tells the names that tokens have: identifiers with points between them.
* `Token.Scans` relates the characters of an annotation to its tokens; a lexeme that is written
  scans as its token whatever stands behind it, as long as that does not go on with the lexeme.
* `Token.areDotted_of_scan`: the names among scanned tokens are dotted identifiers.
-/

namespace CallContract.Token

open Json (escape escape_cases spanDigits spanDigits_append)

/-! ## Identifiers -/

/-- Whether characters are one identifier, without points. -/
def isWord : List Char → Bool
  | [] => false
  | c :: rest => isIdentStart c && rest.all isIdentPart

/-- Whether characters are identifiers with points between them. -/
def isDotted (cs : List Char) : Bool :=
  (cs.splitOn '.').all isWord

/-- Whether an identifier goes on with characters to their end. -/
def goesOn : List Char → Bool
  | [] => true
  | c :: rest =>
    (isIdentPart c || (c == '.' && rest.head?.any isIdentStart)) && goesOn rest

theorem isIdentPart_of_isIdentStart {c : Char} (start : isIdentStart c = true) :
    isIdentPart c = true := by
  rw [isIdentPart, start, Bool.true_or]

theorem splitOn_cons (c : Char) (cs : List Char) :
    (c :: cs).splitOn '.' =
      if c = '.' then [] :: cs.splitOn '.' else (cs.splitOn '.').modifyHead (c :: ·) := by
  rw [List.splitOn, List.splitOnP_cons_eq_if_modifyHead]
  simp only [beq_iff_eq]
  rfl

/-- An identifier goes on to the first point, and behind each point another one starts. -/
theorem goesOn_eq (cs : List Char) :
    ∃ first others, cs.splitOn '.' = first :: others ∧
      goesOn cs = (first.all isIdentPart && others.all isWord) ∧
      (cs.head?.any isIdentStart && first.all isIdentPart) = isWord first := by
  induction cs with
  | nil => exact ⟨[], [], rfl, rfl, rfl⟩
  | cons c cs ih =>
    obtain ⟨first, others, split, tail, head⟩ := ih
    rw [splitOn_cons, split, goesOn, tail]
    split
    · rename_i point
      subst point
      refine ⟨[], first :: others, rfl, ?_, rfl⟩
      rw [List.all_cons, ← head]
      simp [isIdentPart, isIdentStart, Bool.and_assoc]
    · rename_i other
      refine ⟨c :: first, others, rfl, ?_, ?_⟩
      · rw [beq_eq_false_iff_ne.2 other, Bool.false_and, Bool.or_false, List.all_cons,
          Bool.and_assoc]
      · rw [isWord, List.head?_cons, Option.any_some, List.all_cons]
        cases start : isIdentStart c with
        | false => rfl
        | true => rw [isIdentPart_of_isIdentStart start, Bool.true_and]

theorem isDotted_cons (c : Char) (cs : List Char) :
    isDotted (c :: cs) = (isIdentStart c && goesOn cs) := by
  obtain ⟨first, others, split, tail, _⟩ := goesOn_eq cs
  rw [isDotted, splitOn_cons, split, tail]
  split
  · rename_i point
    rw [point]
    rfl
  · rw [List.modifyHead_cons, List.all_cons, isWord, Bool.and_assoc]

theorem exists_cons_of_isDotted {name : List Char} (dotted : isDotted name = true) :
    ∃ c cs, name = c :: cs ∧ isIdentStart c = true ∧ goesOn cs = true := by
  cases name with
  | nil => cases dotted
  | cons c cs =>
    rw [isDotted_cons, Bool.and_eq_true] at dotted
    exact ⟨c, cs, rfl, dotted⟩

theorem spanIdent_cons (c : Char) (cs : List Char) :
    spanIdent (c :: cs) =
      if isIdentPart c || (c == '.' && cs.head?.any isIdentStart) then
        (c :: (spanIdent cs).1, (spanIdent cs).2)
      else ([], c :: cs) := by
  cases cs with
  | nil => simp [spanIdent]
  | cons d rest => simp [spanIdent]

theorem head?_spanIdent {cs : List Char} (start : cs.head?.any isIdentStart = true) :
    (spanIdent cs).1.head?.any isIdentStart = true := by
  cases cs with
  | nil => cases start
  | cons c cs =>
    have part : isIdentPart c = true := isIdentPart_of_isIdentStart start
    rw [spanIdent_cons, part, Bool.true_or, if_pos rfl]
    exact start

theorem goesOn_spanIdent (cs : List Char) : goesOn (spanIdent cs).1 = true := by
  induction cs with
  | nil => rfl
  | cons c cs ih =>
    rw [spanIdent_cons]
    split
    · rename_i accepted
      rw [goesOn, ih, Bool.and_true]
      simp only [Bool.or_eq_true, Bool.and_eq_true] at accepted ⊢
      exact accepted.imp_right (And.imp_right head?_spanIdent)
    · rfl

/-- A rest of a text that goes on with neither an identifier nor a number. -/
def EndsLexeme (rest : List Char) : Prop :=
  ∀ c ∈ rest.head?, isIdentPart c = false ∧ c ≠ '.'

theorem spanIdent_append {cs rest : List Char} (tail : goesOn cs = true)
    (ends : EndsLexeme rest) : spanIdent (cs ++ rest) = (cs, rest) := by
  induction cs with
  | nil =>
    cases rest with
    | nil => rfl
    | cons c rest =>
      obtain ⟨noPart, noPoint⟩ := ends c rfl
      rw [List.nil_append, spanIdent_cons, noPart]
      simp [noPoint]
  | cons c cs ih =>
    rw [goesOn, Bool.and_eq_true] at tail
    obtain ⟨accepted, others⟩ := tail
    have next : (isIdentPart c || (c == '.' && (cs ++ rest).head?.any isIdentStart)) = true := by
      cases cs with
      | nil =>
        rw [List.head?_nil, Option.any_none, Bool.and_false, Bool.or_false] at accepted
        rw [accepted, Bool.true_or]
      | cons d cs => exact accepted
    rw [List.cons_append, spanIdent_cons, if_pos next, ih others]

/-! ## Single lexemes -/

theorem isBlank_eq_false {c : Char} (above : 0x20 < c.toNat) (below : c.toNat < 0x80) :
    Text.isBlank c = false := by
  simp [Text.isBlank]
  omega

theorem skipBlanks_cons {c : Char} (visible : Text.isBlank c = false) (cs : List Char) :
    skipBlanks (c :: cs) = c :: cs := by
  rw [skipBlanks, List.dropWhile_cons, visible]
  rfl

theorem isIdentStart_iff {c : Char} : isIdentStart c = true ↔
    (65 ≤ c.toNat ∧ c.toNat ≤ 90) ∨ (97 ≤ c.toNat ∧ c.toNat ≤ 122) ∨ c = '_' := by
  have upper : c.isUpper = true ↔ 65 ≤ c.toNat ∧ c.toNat ≤ 90 := decide_eq_true_iff
  have lower : c.isLower = true ↔ 97 ≤ c.toNat ∧ c.toNat ≤ 122 := by
    change (decide (97 ≤ c.toNat) && decide (c.toNat ≤ 122)) = true ↔ _
    rw [Bool.and_eq_true, decide_eq_true_eq, decide_eq_true_eq]
  have letter : c.isAlpha = true ↔ c.isUpper = true ∨ c.isLower = true := Bool.or_eq_true_iff
  rw [isIdentStart, Bool.or_eq_true, letter, upper, lower, beq_iff_eq, or_assoc]

theorem isDigit_iff {c : Char} : c.isDigit = true ↔ 48 ≤ c.toNat ∧ c.toNat ≤ 57 := by
  simp only [Char.isDigit, Bool.and_eq_true, decide_eq_true_eq, UInt32.le_iff_toNat_le, ge_iff_le]
  rfl

theorem isBlank_of_isIdentPart {c : Char} (part : isIdentPart c = true) :
    Text.isBlank c = false := by
  rw [isIdentPart, Bool.or_eq_true, isIdentStart_iff, isDigit_iff] at part
  rcases part with (upper | lower | rfl) | digit
  · exact isBlank_eq_false (by omega) (by omega)
  · exact isBlank_eq_false (by omega) (by omega)
  · decide
  · exact isBlank_eq_false (by omega) (by omega)

theorem skipBlanks_of_isIdentPart {c : Char} (part : isIdentPart c = true) (cs : List Char) :
    skipBlanks (c :: cs) = c :: cs :=
  skipBlanks_cons (isBlank_of_isIdentPart part) cs

theorem lexeme?_ident {name rest : List Char} (dotted : isDotted name = true)
    (ends : EndsLexeme rest) :
    lexeme? (skipBlanks (name ++ rest)) = some (.ok (.ident (String.ofList name)), rest) := by
  obtain ⟨c, cs, rfl, start, tail⟩ := exists_cons_of_isDotted dotted
  rw [List.cons_append, skipBlanks_of_isIdentPart (isIdentPart_of_isIdentStart start)]
  simp only [lexeme?, start, if_true, spanIdent_append tail ends]

theorem lexeme?_mark (m : Mark) (rest : List Char) :
    lexeme? (skipBlanks (m.char :: rest)) = some (.ok (.mark m), rest) := by
  cases m <;> rfl

theorem spanQuoted_close (quote : Char) (rest : List Char) :
    spanQuoted quote (quote :: rest) = some ([], rest) := by
  rw [spanQuoted.eq_def]
  exact if_pos rfl

theorem spanQuoted_plain {quote c : Char} (noQuote : c ≠ quote) (noBackslash : c ≠ '\\')
    (cs : List Char) :
    spanQuoted quote (c :: cs) = (spanQuoted quote cs).map fun x => (c :: x.1, x.2) := by
  rw [spanQuoted.eq_def]
  dsimp only
  rw [if_neg noQuote, if_neg noBackslash]

theorem spanQuoted_escape {quote d : Char} (noBackslash : quote ≠ '\\') (noBreak : d ≠ '\n')
    (cs : List Char) :
    spanQuoted quote ('\\' :: d :: cs) =
      (spanQuoted quote cs).map fun x => ('\\' :: d :: x.1, x.2) := by
  rw [spanQuoted.eq_def]
  dsimp only
  rw [if_neg noBackslash.symm, if_pos rfl, if_neg noBreak]

theorem hexDigit_plain {n : Nat} (digit : n < 16) :
    Json.hexDigit n ≠ '"' ∧ Json.hexDigit n ≠ '\\' := by
  have all : ∀ k : Fin 16, Json.hexDigit k.val ≠ '"' ∧ Json.hexDigit k.val ≠ '\\' := by decide
  exact all ⟨n, digit⟩

/-- A string literal is closed by its last quote: the quotes inside are escaped. -/
theorem spanQuoted_quote (s rest : List Char) :
    spanQuoted '"' (s.flatMap escape ++ '"' :: rest) = some (s.flatMap escape, rest) := by
  induction s with
  | nil => exact spanQuoted_close '"' rest
  | cons c s ih =>
    rw [List.flatMap_cons, List.append_assoc]
    rcases escape_cases c with
      ⟨written, noQuote, noBackslash, _⟩ | ⟨d, written, _, _, noBreak⟩ | ⟨written, control⟩
    · rw [written, List.singleton_append, spanQuoted_plain noQuote noBackslash, ih]
      rfl
    · rw [written, List.cons_append, List.singleton_append,
        spanQuoted_escape (by decide) noBreak, ih]
      rfl
    · have high := hexDigit_plain (n := c.toNat / 16) (by omega)
      have low := hexDigit_plain (n := c.toNat % 16) (by omega)
      rw [written]
      simp only [List.cons_append, List.nil_append]
      rw [spanQuoted_escape (by decide) (by decide),
        spanQuoted_plain (by decide) (by decide), spanQuoted_plain (by decide) (by decide),
        spanQuoted_plain high.1 high.2, spanQuoted_plain low.1 low.2, ih]
      rfl

theorem lexeme?_quote (s rest : List Char) :
    lexeme? (skipBlanks (Json.quote s ++ rest)) = some (.ok (.text (String.ofList s)), rest) := by
  obtain ⟨_, read, _⟩ := Json.readString_quote s []
  have inner : ofDoubleQuoted (s.flatMap escape) = .ok (.text (String.ofList s)) := by
    rw [ofDoubleQuoted, read]
  rw [Json.quote, List.cons_append, List.cons_append, List.append_assoc, List.singleton_append,
    skipBlanks_cons (by decide)]
  simp only [lexeme?]
  rw [if_neg (by decide), if_pos trivial, spanQuoted_quote, Option.map_some, inner]

/-! ## Numbers -/

theorem endsNumber_of_endsLexeme {rest : List Char} (ends : EndsLexeme rest) :
    Json.EndsNumber rest := by
  intro c first
  obtain ⟨noPart, noPoint⟩ := ends c first
  refine ⟨?_, noPoint, ?_, ?_⟩
  · rw [isIdentPart, Bool.or_eq_false_iff] at noPart
    exact noPart.2
  · rintro rfl
    cases noPart
  · rintro rfl
    cases noPart

theorem spanFraction_none {rest : List Char} (ends : Json.EndsNumber rest) :
    spanFraction rest = ([], rest) := by
  cases rest with
  | nil => rfl
  | cons c rest =>
    rw [spanFraction]
    rintro _ same
    cases same
    exact (ends _ rfl).2.1 rfl

theorem spanExponent_none {rest : List Char} (ends : Json.EndsNumber rest) :
    spanExponent rest = ([], rest) := by
  cases rest with
  | nil => rfl
  | cons c rest =>
    obtain ⟨_, _, lower, upper⟩ := ends c rfl
    rw [spanExponent, if_neg (by simp [lower, upper])]

/-- The sign of a numeral, and what stands behind it. -/
theorem spanMinus_intNumeral (i : Int) (rest : List Char) :
    ∃ sign, Decimal.intNumeral i = sign ++ Decimal.numeral i.natAbs ∧
      spanMinus (Decimal.intNumeral i ++ rest) = (sign, Decimal.numeral i.natAbs ++ rest) := by
  by_cases negative : i < 0
  · have written : Decimal.intNumeral i = '-' :: Decimal.numeral i.natAbs := if_pos negative
    rw [written]
    exact ⟨['-'], rfl, rfl⟩
  · have written : Decimal.intNumeral i = Decimal.numeral i.natAbs := if_neg negative
    obtain ⟨d, digits, split, digit⟩ := Decimal.exists_cons_numeral i.natAbs
    rw [written, split]
    refine ⟨[], rfl, ?_⟩
    rw [List.cons_append, spanMinus, if_neg (by rintro rfl; cases digit)]

theorem spanNumber_intNumeral (i : Int) {rest : List Char} (ends : Json.EndsNumber rest) :
    spanNumber (Decimal.intNumeral i ++ rest) = some (Decimal.intNumeral i, rest) := by
  obtain ⟨sign, written, minus⟩ := spanMinus_intNumeral i rest
  have digits : spanDigits (Decimal.numeral i.natAbs ++ rest) = (Decimal.numeral i.natAbs, rest) :=
    spanDigits_append Decimal.isDigit_of_mem_numeral fun c first => (ends c first).1
  rw [spanNumber, minus, digits]
  split
  · rename_i none
    exact absurd (Prod.mk.inj none).1 (Decimal.numeral_ne_nil _)
  · rename_i found
    cases found
    simp only [spanFraction_none ends, spanExponent_none ends, List.append_nil, written]

/-- A numeral starts with a minus sign or a digit. -/
theorem head_intNumeral (i : Int) :
    ∃ c cs, Decimal.intNumeral i = c :: cs ∧ (c = '-' ∨ c.isDigit = true) := by
  by_cases negative : i < 0
  · exact ⟨'-', _, if_pos negative, Or.inl rfl⟩
  · have written : Decimal.intNumeral i = Decimal.numeral i.natAbs := if_neg negative
    obtain ⟨d, digits, split, digit⟩ := Decimal.exists_cons_numeral i.natAbs
    exact ⟨d, digits, by rw [written, split], Or.inr digit⟩

/-- A minus sign or a digit starts a number and nothing else. -/
theorem lexeme?_number {c : Char} (start : c = '-' ∨ c.isDigit = true) (cs : List Char) :
    lexeme? (skipBlanks (c :: cs)) =
      (spanNumber (c :: cs)).map fun x => (ofNumber x.1, x.2) := by
  have others : isIdentStart c = false ∧ c ≠ '"' ∧ c ≠ '\'' ∧ Text.isBlank c = false := by
    rcases start with rfl | digit
    · decide
    · have noStart : ¬ isIdentStart c = true := by
        rw [isDigit_iff] at digit
        rw [isIdentStart_iff]
        rintro (upper | lower | rfl)
        · omega
        · omega
        · exact absurd digit (by decide)
      have visible : Text.isBlank c = false :=
        isBlank_of_isIdentPart (by rw [isIdentPart, digit, Bool.or_true])
      refine ⟨eq_false_of_ne_true noStart, ?_, ?_, visible⟩
      · rintro rfl
        cases digit
      · rintro rfl
        cases digit
  obtain ⟨noIdent, noQuote, noSingle, visible⟩ := others
  rw [skipBlanks_cons visible]
  simp only [lexeme?, noIdent, Bool.false_eq_true, if_false, if_neg noQuote, if_neg noSingle,
    if_pos start]

theorem lexeme?_intNumeral {i : Int} (word : Json.IsWord i) {rest : List Char}
    (ends : EndsLexeme rest) :
    lexeme? (skipBlanks (Decimal.intNumeral i ++ rest)) =
      some (.ok (.number (.int i word)), rest) := by
  have ended := endsNumber_of_endsLexeme ends
  have meant : ofNumber (Decimal.intNumeral i) = .ok (.number (.int i word)) := by
    have last : Json.EndsNumber [] := fun _ none => by cases none
    have whole := Json.readNumber_intNumeral word last
    rw [List.append_nil] at whole
    obtain ⟨_, read, _⟩ := whole
    rw [ofNumber, read]
  have spanned := spanNumber_intNumeral i ended
  obtain ⟨c, cs, written, start⟩ := head_intNumeral i
  rw [written, List.cons_append] at spanned ⊢
  rw [lexeme?_number start, spanned, Option.map_some, ← written, meant]

/-! ## Whole texts -/

/-- Characters and the tokens that they are cut into. -/
def Scans (cs : List Char) (ts : List Token) : Prop :=
  ∀ offset, scanFrom offset cs = .ok ts

theorem scans_of_blank {cs : List Char} (blank : skipBlanks cs = []) : Scans cs [] := by
  intro offset
  rw [scanFrom, if_pos blank]

theorem scans_of_lexeme {cs after : List Char} {t : Token} {ts : List Token}
    (found : lexeme? (skipBlanks cs) = some (.ok t, after)) (others : Scans after ts) :
    Scans cs (t :: ts) := by
  intro offset
  have visible : skipBlanks cs ≠ [] := by
    intro blank
    rw [blank] at found
    cases found
  rw [scanFrom, if_neg visible]
  split
  · rename_i none
    rw [found] at none
    cases none
  · rename_i fault
    rw [found] at fault
    cases fault
  · rename_i same
    rw [found] at same
    cases same
    rw [others]
    rfl

/-- Where a text starts in a larger one matters for messages only. -/
theorem scans_of_scanFrom {offset : Nat} {cs : List Char} {ts : List Token}
    (scanned : scanFrom offset cs = .ok ts) : Scans cs ts := by
  fun_induction scanFrom offset cs generalizing ts with
  | case1 offset cs blank =>
    cases scanned
    exact scans_of_blank blank
  | case2 => cases scanned
  | case3 => cases scanned
  | case4 offset cs _ t after found ih =>
    obtain ⟨others, scannedOthers, same⟩ := Except.bind_eq_ok.1 scanned
    cases same
    exact scans_of_lexeme found (ih scannedOthers)

/-- Scanning ends at the end of the text, up to blanks, or goes on behind a lexeme. -/
theorem scans_eq {cs : List Char} {ts : List Token} (scans : Scans cs ts) :
    (skipBlanks cs = [] ∧ ts = []) ∨
      ∃ t after others, lexeme? (skipBlanks cs) = some (.ok t, after) ∧ Scans after others ∧
        ts = t :: others := by
  have scanned := scans 0
  rw [scanFrom] at scanned
  split at scanned
  · rename_i blank
    cases scanned
    exact Or.inl ⟨blank, rfl⟩
  · split at scanned
    · cases scanned
    · cases scanned
    · rename_i t after found
      obtain ⟨others, scannedOthers, same⟩ := Except.bind_eq_ok.1 scanned
      cases same
      exact Or.inr ⟨t, after, others, found, scans_of_scanFrom scannedOthers, rfl⟩

/-- Blanks before a text do not matter. -/
theorem scans_of_skipBlanks {cs cs' : List Char} {ts : List Token}
    (same : skipBlanks cs' = skipBlanks cs) (scans : Scans cs ts) : Scans cs' ts := by
  rcases scans_eq scans with ⟨none, rfl⟩ | ⟨t, after, others, found, scansOthers, rfl⟩
  · exact scans_of_blank (same.trans none)
  · rw [← same] at found
    exact scans_of_lexeme found scansOthers

theorem scans_blank {cs : List Char} {ts : List Token} (scans : Scans cs ts) :
    Scans (' ' :: cs) ts := by
  have same : skipBlanks (' ' :: cs) = skipBlanks cs := rfl
  exact scans_of_skipBlanks same scans

/-- The names among tokens are dotted identifiers. -/
def AreDotted (ts : List Token) : Prop :=
  ∀ name, .ident name ∈ ts → isDotted name.toList = true

theorem AreDotted.tail {t : Token} {ts : List Token} (dotted : AreDotted (t :: ts)) :
    AreDotted ts :=
  fun name member => dotted name (List.mem_cons_of_mem t member)

theorem isDotted_of_lexeme? {cs after : List Char} {name : String}
    (found : lexeme? cs = some (.ok (.ident name), after)) : isDotted name.toList = true := by
  unfold lexeme? at found
  split at found
  · cases found
  · split at found
    · rename_i start
      cases found
      rw [String.toList_ofList, isDotted_cons, start, goesOn_spanIdent]
      rfl
    · split at found
      · obtain ⟨⟨inner, _⟩, _, same⟩ := Option.map_eq_some_iff.1 found
        have read := (Prod.mk.inj same).1
        rw [ofDoubleQuoted] at read
        split at read <;> cases read
      · split at found
        · obtain ⟨_, _, same⟩ := Option.map_eq_some_iff.1 found
          cases same
        · split at found
          · obtain ⟨⟨digits, _⟩, _, same⟩ := Option.map_eq_some_iff.1 found
            have read := (Prod.mk.inj same).1
            rw [ofNumber] at read
            split at read <;> cases read
          · obtain ⟨_, _, same⟩ := Option.map_eq_some_iff.1 found
            cases same

theorem areDotted_of_scanFrom {offset : Nat} {cs : List Char} {ts : List Token}
    (scanned : scanFrom offset cs = .ok ts) : AreDotted ts := by
  fun_induction scanFrom offset cs generalizing ts with
  | case1 =>
    cases scanned
    intro name member
    cases member
  | case2 => cases scanned
  | case3 => cases scanned
  | case4 offset cs _ t after found ih =>
    obtain ⟨others, scannedOthers, same⟩ := Except.bind_eq_ok.1 scanned
    cases same
    intro name member
    rcases List.mem_cons.1 member with rfl | member
    · exact isDotted_of_lexeme? found
    · exact ih scannedOthers name member

/-- The names among the tokens of a text are dotted identifiers. -/
theorem areDotted_of_scan {text : String} {ts : List Token} (scanned : scan text = .ok ts) :
    AreDotted ts :=
  areDotted_of_scanFrom scanned

end CallContract.Token
