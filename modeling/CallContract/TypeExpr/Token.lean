import CallContract.TypeExpr.Basic

/-!
# Tokens of annotations

* `Token.scan` cuts a text into tokens; blanks between them do not count.
* Text in double quotes is a JSON string. In single quotes only `\'` is an escape, for the quote.
* `Token.weightOfAll_le_of_scan` says that tokens weigh no more than the text has characters.
-/

namespace CallContract.Token

/-- The least length of a text that a token comes from. -/
def weight : Token → Nat
  | .text value => value.toList.length + 2
  | _ => 1

/-- The weights of several tokens together. -/
def weightOfAll : List Token → Nat
  | [] => 0
  | t :: rest => weight t + weightOfAll rest

theorem weight_pos (t : Token) : 0 < t.weight := by
  cases t <;> simp [weight]

/-! ## Lexemes -/

/-- Whether an identifier can start with a character. -/
def isIdentStart (c : Char) : Bool :=
  c.isAlpha || c == '_'

/-- Whether an identifier can go on with a character. -/
def isIdentPart (c : Char) : Bool :=
  isIdentStart c || c.isDigit

/-- Splits a text behind its longest run of parts of identifiers, joined by points. A point belongs
to it if an identifier starts behind the point. -/
def spanIdent : List Char → List Char × List Char
  | [] => ([], [])
  | [c] => if isIdentPart c then ([c], []) else ([], [c])
  | c :: d :: rest =>
    if isIdentPart c || (c == '.' && isIdentStart d) then
      let (name, after) := spanIdent (d :: rest)
      (c :: name, after)
    else ([], c :: d :: rest)

/-- Splits a quoted text at its closing quote, behind the opening one. A backslash takes the next
character with it, which may not be a line break. -/
def spanQuoted (quote : Char) : List Char → Option (List Char × List Char)
  | [] => none
  | c :: rest =>
    if c = quote then some ([], rest)
    else if c = '\\' then
      match rest with
      | [] => none
      | d :: rest' =>
        if d = '\n' then none
        else (spanQuoted quote rest').map fun (inner, after) => (c :: d :: inner, after)
    else (spanQuoted quote rest).map fun (inner, after) => (c :: inner, after)

/-- The text inside single quotes: an escaped quote stands for the quote. -/
def unescapeQuote : List Char → List Char
  | '\\' :: '\'' :: rest => '\'' :: unescapeQuote rest
  | c :: rest => c :: unescapeQuote rest
  | [] => []

/-- The fraction of a number at the front of a text, and the text behind it. -/
def spanFraction (cs : List Char) : List Char × List Char :=
  match cs with
  | '.' :: rest =>
    match Json.spanDigits rest with
    | ([], _) => ([], cs)
    | (digits, after) => ('.' :: digits, after)
  | _ => ([], cs)

/-- The sign of an exponent at the front of a text, and the text behind it. -/
def spanSign : List Char → List Char × List Char
  | c :: rest => if c = '+' ∨ c = '-' then ([c], rest) else ([], c :: rest)
  | [] => ([], [])

/-- The exponent of a number at the front of a text, and the text behind it. -/
def spanExponent (cs : List Char) : List Char × List Char :=
  match cs with
  | [] => ([], [])
  | c :: rest =>
    if c = 'e' ∨ c = 'E' then
      let (sign, rest') := spanSign rest
      match Json.spanDigits rest' with
      | ([], _) => ([], cs)
      | (digits, after) => (c :: sign ++ digits, after)
    else ([], cs)

/-- The minus sign at the front of a text, and the text behind it. -/
def spanMinus : List Char → List Char × List Char
  | c :: rest => if c = '-' then ([c], rest) else ([], c :: rest)
  | [] => ([], [])

/-- The characters of a number at the front of a text, and the text behind it; leading zeros are
taken along. -/
def spanNumber (cs : List Char) : Option (List Char × List Char) :=
  match Json.spanDigits (spanMinus cs).2 with
  | ([], _) => none
  | (digits, rest) =>
    let (fraction, rest) := spanFraction rest
    let (exponent, rest) := spanExponent rest
    some ((spanMinus cs).1 ++ digits ++ fraction ++ exponent, rest)

/-- The string that the characters between double quotes stand for. -/
def ofDoubleQuoted (inner : List Char) : Except TypeExpr.Fault Token :=
  match Json.readString (inner ++ ['"']) with
  | .ok (.ok value, _) => .ok (.text (String.ofList value))
  | .ok (.error e, _) => .error (.badString e)
  | .error e => .error (.badString e)

/-- The number that characters stand for. -/
def ofNumber (digits : List Char) : Except TypeExpr.Fault Token :=
  match Json.readNumber digits with
  | .ok (.ok n, _) => .ok (.number n)
  | .ok (.error e, _) => .error (.badNumber e)
  | .error e => .error (.badNumber e)

/-- The mark that a character is. -/
def mark? (c : Char) : Option Mark :=
  if c = '[' then some .openBracket
  else if c = ']' then some .closeBracket
  else if c = ',' then some .comma
  else if c = '|' then some .bar
  else none

/-- The lexeme at the front of a text, and the text behind it. -/
def lexeme? (cs : List Char) : Option (Except TypeExpr.Fault Token × List Char) :=
  match cs with
  | [] => none
  | c :: rest =>
    if isIdentStart c then
      let (name, after) := spanIdent rest
      some (.ok (.ident (String.ofList (c :: name))), after)
    else if c = '"' then
      (spanQuoted '"' rest).map fun (inner, after) => (ofDoubleQuoted inner, after)
    else if c = '\'' then
      (spanQuoted '\'' rest).map fun (inner, after) =>
        (.ok (.text (String.ofList (unescapeQuote inner))), after)
    else if c = '-' ∨ c.isDigit then
      (spanNumber cs).map fun (digits, after) => (ofNumber digits, after)
    else (mark? c).map fun m => (.ok (.mark m), rest)

/-! ## Lexemes are not longer than their text -/

theorem length_spanIdent (cs : List Char) :
    (spanIdent cs).1.length + (spanIdent cs).2.length = cs.length := by
  fun_induction spanIdent cs with
  | case1 => rfl
  | case2 => rfl
  | case3 => rfl
  | case4 c d rest h name after heq ih =>
    simp [heq] at ih ⊢
    omega
  | case5 => simp

theorem length_spanQuoted {quote : Char} {cs inner after : List Char}
    (h : spanQuoted quote cs = some (inner, after)) :
    inner.length + after.length + 1 = cs.length := by
  fun_induction spanQuoted quote cs generalizing inner after with
  | case1 => simp at h
  | case2 rest =>
    simp at h
    obtain ⟨rfl, rfl⟩ := h
    simp
  | case3 => simp at h
  | case4 => simp at h
  | case5 d rest' _ _ ih =>
    simp only [Option.map_eq_some_iff, Prod.mk.injEq, Prod.exists] at h
    obtain ⟨i, a, hi, rfl, rfl⟩ := h
    have := ih hi
    simp
    omega
  | case6 c rest _ _ ih =>
    simp only [Option.map_eq_some_iff, Prod.mk.injEq, Prod.exists] at h
    obtain ⟨i, a, hi, rfl, rfl⟩ := h
    have := ih hi
    simp
    omega

theorem length_unescapeQuote_le (cs : List Char) : (unescapeQuote cs).length ≤ cs.length := by
  fun_induction unescapeQuote cs with
  | case1 rest ih =>
    simp
    omega
  | case2 c rest _ ih =>
    simp
    omega
  | case3 => simp

theorem length_spanFraction (cs : List Char) :
    (spanFraction cs).1.length + (spanFraction cs).2.length = cs.length := by
  unfold spanFraction
  split
  · rename_i rest
    have := Json.length_spanDigits rest
    split <;> rename_i h <;> simp [h] at this ⊢
    omega
  · simp

theorem length_spanSign (cs : List Char) :
    (spanSign cs).1.length + (spanSign cs).2.length = cs.length := by
  unfold spanSign
  split
  · split <;> simp
    omega
  · simp

theorem length_spanExponent (cs : List Char) :
    (spanExponent cs).1.length + (spanExponent cs).2.length = cs.length := by
  unfold spanExponent
  split
  · simp
  · rename_i c rest
    split
    · have hsign := length_spanSign rest
      generalize spanSign rest = s at hsign
      obtain ⟨sign, rest'⟩ := s
      have := Json.length_spanDigits rest'
      simp only at hsign ⊢
      split <;> rename_i h <;> simp [h] at this ⊢
      omega
    · simp

theorem length_spanMinus (cs : List Char) :
    (spanMinus cs).1.length + (spanMinus cs).2.length = cs.length := by
  unfold spanMinus
  split
  · split <;> simp
    omega
  · simp

theorem length_spanNumber {cs digits after : List Char}
    (h : spanNumber cs = some (digits, after)) : after.length < cs.length := by
  have hs := length_spanMinus cs
  have hd := Json.length_spanDigits (spanMinus cs).2
  unfold spanNumber at h
  split at h
  · simp at h
  · rename_i ds rest hne heq
    have hf := length_spanFraction rest
    have he := length_spanExponent (spanFraction rest).2
    simp only [Option.some.injEq, Prod.mk.injEq] at h
    obtain ⟨_, rfl⟩ := h
    rw [heq] at hd
    have hpos : 0 < ds.length := by
      cases ds with
      | nil => exact (hne rfl).elim
      | cons => simp
    simp only at hd
    omega

theorem length_lexeme? {cs after : List Char} {t : Except TypeExpr.Fault Token}
    (h : lexeme? cs = some (t, after)) : after.length < cs.length := by
  unfold lexeme? at h
  split at h
  · simp at h
  · rename_i c rest
    split at h
    · have := length_spanIdent rest
      simp only [Option.some.injEq, Prod.mk.injEq] at h
      obtain ⟨_, rfl⟩ := h
      simp
      omega
    · split at h
      · simp only [Option.map_eq_some_iff, Prod.mk.injEq, Prod.exists] at h
        obtain ⟨i, a, hi, _, rfl⟩ := h
        have := length_spanQuoted hi
        simp
        omega
      · split at h
        · simp only [Option.map_eq_some_iff, Prod.mk.injEq, Prod.exists] at h
          obtain ⟨i, a, hi, _, rfl⟩ := h
          have := length_spanQuoted hi
          simp
          omega
        · split at h
          · simp only [Option.map_eq_some_iff, Prod.mk.injEq, Prod.exists] at h
            obtain ⟨i, a, hi, _, rfl⟩ := h
            exact length_spanNumber hi
          · simp only [Option.map_eq_some_iff, Prod.mk.injEq] at h
            obtain ⟨m, _, _, rfl⟩ := h
            simp

theorem weight_ofDoubleQuoted {inner : List Char} {t : Token} (h : ofDoubleQuoted inner = .ok t) :
    t.weight ≤ inner.length + 2 := by
  unfold ofDoubleQuoted at h
  split at h
  · rename_i value rest heq
    have := Json.length_readString heq
    cases h
    simp [weight] at this ⊢
    omega
  · cases h
  · cases h

theorem weight_ofNumber {digits : List Char} {t : Token} (h : ofNumber digits = .ok t) :
    t.weight = 1 := by
  unfold ofNumber at h
  split at h <;> cases h
  rfl

/-- A token weighs no more than its lexeme has characters. -/
theorem weight_lexeme? {cs after : List Char} {t : Token}
    (h : lexeme? cs = some (.ok t, after)) : t.weight + after.length ≤ cs.length := by
  have hlen := length_lexeme? h
  unfold lexeme? at h
  split at h
  · simp at h
  · rename_i c rest
    split at h
    · simp only [Option.some.injEq, Prod.mk.injEq, Except.ok.injEq] at h
      obtain ⟨rfl, rfl⟩ := h
      simp [weight] at hlen ⊢
      omega
    · split at h
      · simp only [Option.map_eq_some_iff, Prod.mk.injEq, Prod.exists] at h
        obtain ⟨i, a, hi, ht, rfl⟩ := h
        have := length_spanQuoted hi
        have := weight_ofDoubleQuoted ht
        simp
        omega
      · split at h
        · simp only [Option.map_eq_some_iff, Prod.mk.injEq, Prod.exists, Except.ok.injEq] at h
          obtain ⟨i, a, hi, rfl, rfl⟩ := h
          have := length_spanQuoted hi
          have := length_unescapeQuote_le i
          simp [weight]
          omega
        · split at h
          · simp only [Option.map_eq_some_iff, Prod.mk.injEq, Prod.exists] at h
            obtain ⟨i, a, _, ht, rfl⟩ := h
            have := weight_ofNumber ht
            omega
          · simp only [Option.map_eq_some_iff, Prod.mk.injEq, Except.ok.injEq] at h
            obtain ⟨m, _, rfl, rfl⟩ := h
            simp [weight]
            omega

/-! ## Scanning -/

/-- A text behind its leading blanks. -/
def skipBlanks (cs : List Char) : List Char :=
  cs.dropWhile Text.isBlank

theorem length_skipBlanks_le (cs : List Char) : (skipBlanks cs).length ≤ cs.length :=
  (List.dropWhile_sublist _).length_le

/-- The tokens of the rest of a text, which starts `offset` bytes behind the start of the whole. -/
def scanFrom (offset : Nat) (cs : List Char) : Except TypeExpr.Fault (List Token) :=
  if skipBlanks cs = [] then .ok []
  else
    match _h : lexeme? (skipBlanks cs) with
    | none => .error (.unexpectedCharacter offset)
    | some (.error e, _) => .error e
    | some (.ok t, after) => do
      let ts ← scanFrom (offset + (Text.byteLength cs - Text.byteLength after)) after
      return t :: ts
termination_by cs.length
decreasing_by exact Nat.lt_of_lt_of_le (length_lexeme? _h) (length_skipBlanks_le cs)

/-- The tokens of a text. -/
def scan (text : String) : Except TypeExpr.Fault (List Token) :=
  scanFrom 0 text.toList

theorem weightOfAll_le_of_scanFrom {offset : Nat} {cs : List Char} {ts : List Token}
    (h : scanFrom offset cs = .ok ts) : weightOfAll ts ≤ cs.length := by
  fun_induction scanFrom offset cs generalizing ts with
  | case1 =>
    cases h
    simp [weightOfAll]
  | case2 => cases h
  | case3 => cases h
  | case4 offset cs _ t after hlex ih =>
    simp only [bind, Except.bind] at h
    split at h
    · cases h
    · rename_i ts' heq
      cases h
      have := weight_lexeme? hlex
      have := ih heq
      have := length_skipBlanks_le cs
      simp [weightOfAll]
      omega

/-- The tokens of a text weigh no more than it has characters. -/
theorem weightOfAll_le_of_scan {text : String} {ts : List Token} (h : scan text = .ok ts) :
    weightOfAll ts ≤ text.toList.length :=
  weightOfAll_le_of_scanFrom h

end CallContract.Token
