import CallContract.TypeExpr.Token

/-!
# Parsing annotations

* `TypeExpr.parse` reads the tree of an annotation from its text. Arms of a union stand between
  bars, arguments of a generic between commas; a generic of literals takes literal values only.
* Each step returns the rest of the tokens, with a proof that tree and rest weigh no more than what
  was read. So parsing ends, and `TypeExpr.weight_le_of_parse` bounds the tree by its text.
-/

namespace CallContract.TypeExpr

/-- Something read from the front of tokens, and the rest of them. -/
structure Parsed {α : Type} (weight : α → Nat) (ts : List Token) where
  value : α
  rest : List Token
  bound : weight value + Token.weightOfAll rest ≤ Token.weightOfAll ts

/-- Arms of a union behind its first arm, each with a bar. -/
abbrev ParsedArms (ts : List Token) : Type :=
  Parsed (fun arms => weightOfAll arms + arms.length) ts

/-- An annotation of one or more arms. -/
def ofArms (first : TypeExpr) (more : List TypeExpr) : TypeExpr :=
  if more.isEmpty then first else .union (first :: more)

theorem weight_ofArms_le (first : TypeExpr) (more : List TypeExpr) :
    (ofArms first more).weight ≤ first.weight + weightOfAll more + more.length := by
  unfold ofArms
  split
  · omega
  · rename_i h
    cases more with
    | nil => simp at h
    | cons a rest =>
      simp [weight, weightOfAll]
      omega

/-- The literal value that a token is. -/
def literalValue? : Token → Option Json
  | .text s => some (.str s)
  | .number n => some (.num n)
  | .ident word =>
    if word = "True" then some (.bool true)
    else if word = "False" then some (.bool false)
    else if word = "None" then some .null
    else none
  | .mark _ => none

/-- Literal values with commas between them. -/
def parseLiterals : (ts : List Token) → Except Fault (Parsed weightOfAll ts)
  | [] => .error .unterminatedLiteral
  | t :: rest =>
    have ht := Token.weight_pos t
    match literalValue? t with
    | none => .error (.unsupportedLiteral t)
    | some v =>
      match rest with
      | .mark .comma :: rest' =>
        match parseLiterals rest' with
        | .error e => .error e
        | .ok more => .ok ⟨.literal v :: more.value, more.rest, by
            have := more.bound
            simp [weightOfAll, weight, Token.weightOfAll]
            omega⟩
      | rest => .ok ⟨[.literal v], rest, by simp [weightOfAll, weight, Token.weightOfAll]; omega⟩

/-- Closes the argument list of a generic. -/
def closeGeneric (head : String) {ts : List Token} (args : Parsed weightOfAll ts) :
    Except Fault (Parsed weight ts) :=
  match args with
  | ⟨values, .mark .closeBracket :: rest, h⟩ =>
    .ok ⟨.generic head values, rest, by
      simp [weight, Token.weightOfAll, Token.weight] at h ⊢
      omega⟩
  | _ => .error (.expected .closeBracket)

mutual
/-- A name, a generic or a quoted part; `depth` generics are open around it. -/
def parseTerm (depth : Nat) (ts : List Token) : Except Fault (Parsed weight ts) :=
  match ts with
  | [] => .error .endOfText
  | .text s :: rest =>
    .ok ⟨.forward s, rest, by simp [weight, Token.weightOfAll, Token.weight]⟩
  | .number _ :: _ => .error .numberOutsideLiteral
  | .mark m :: _ => .error (.unexpected m)
  | .ident head :: .mark .openBracket :: rest =>
    if maxDepth ≤ depth then .error .tooDeep
    else
      match if isLiteralHead head then parseLiterals rest else parseArgs (depth + 1) rest with
      | .error e => .error e
      | .ok args =>
        match closeGeneric head args with
        | .error e => .error e
        | .ok ⟨value, rest', h⟩ => .ok ⟨value, rest', by
            simp [Token.weightOfAll, Token.weight]
            omega⟩
  | .ident word :: rest =>
    .ok ⟨.name word, rest, by simp [weight, Token.weightOfAll, Token.weight]⟩
termination_by (Token.weightOfAll ts, 0)
decreasing_by
  apply Prod.Lex.left
  simp [Token.weightOfAll, Token.weight]
  omega

/-- The arms of a union that follow, each behind a bar. -/
def parseArms (depth : Nat) (ts : List Token) : Except Fault (ParsedArms ts) :=
  match ts with
  | .mark .bar :: rest =>
    match parseTerm depth rest with
    | .error e => .error e
    | .ok ⟨arm, rest', h⟩ =>
      have hrest : Token.weightOfAll rest' ≤ Token.weightOfAll rest :=
        Nat.le_trans (Nat.le_add_left _ _) h
      match parseArms depth rest' with
      | .error e => .error e
      | .ok ⟨more, rest'', h'⟩ => .ok ⟨arm :: more, rest'', by
          simp [weightOfAll, Token.weightOfAll, Token.weight]
          omega⟩
  | ts => .ok ⟨[], ts, by simp [weightOfAll]⟩
termination_by (Token.weightOfAll ts, 1)
decreasing_by
  all_goals
    apply Prod.Lex.left
    simp [Token.weightOfAll, Token.weight]
    try omega

/-- Arguments with commas between them, each one or more arms. -/
def parseArgs (depth : Nat) (ts : List Token) : Except Fault (Parsed weightOfAll ts) :=
  match parseTerm depth ts with
  | .error e => .error e
  | .ok ⟨first, rest, h⟩ =>
    have hfirst := weight_pos first
    match parseArms depth rest with
    | .error e => .error e
    | .ok ⟨more, rest', h'⟩ =>
      have harg := weight_ofArms_le first more
      match hr : rest' with
      | .mark .comma :: rest'' =>
        have hlt : Token.weightOfAll rest'' < Token.weightOfAll ts := by
          simp [Token.weightOfAll, Token.weight] at *
          omega
        match parseArgs depth rest'' with
        | .error e => .error e
        | .ok ⟨args, rest''', h''⟩ => .ok ⟨ofArms first more :: args, rest''', by
            simp [weightOfAll, Token.weightOfAll, Token.weight] at *
            omega⟩
      | rest' => .ok ⟨[ofArms first more], rest', by
          simp [weightOfAll] at *
          omega⟩
termination_by (Token.weightOfAll ts, 2)
end

/-- An annotation of one or more arms. -/
def parseUnion (depth : Nat) (ts : List Token) : Except Fault (Parsed weight ts) :=
  match parseTerm depth ts with
  | .error e => .error e
  | .ok ⟨first, rest, h⟩ =>
    match parseArms depth rest with
    | .error e => .error e
    | .ok ⟨more, rest', h'⟩ => .ok ⟨ofArms first more, rest', by
        have := weight_ofArms_le first more
        simp at *
        omega⟩

/-- The annotation that all of the tokens make. -/
def ofTokens (ts : List Token) : Except Fault TypeExpr :=
  match parseUnion 0 ts with
  | .error e => .error e
  | .ok ⟨a, rest, _⟩ =>
    if rest.isEmpty then .ok a else .error (.trailingInput (ts.length - rest.length + 1))

/-- The annotation that a text makes. -/
def parse (text : String) : Except Fault TypeExpr := do
  ofTokens (← Token.scan text)

theorem weight_le_of_ofTokens {ts : List Token} {a : TypeExpr} (h : ofTokens ts = .ok a) :
    a.weight ≤ Token.weightOfAll ts := by
  unfold ofTokens at h
  split at h
  · cases h
  · rename_i value rest bound _
    split at h
    · cases h
      omega
    · cases h

/-- An annotation weighs no more than its text has characters. -/
theorem weight_le_of_parse {text : String} {a : TypeExpr} (h : parse text = .ok a) :
    a.weight ≤ text.toList.length := by
  simp only [parse, bind, Except.bind] at h
  split at h
  · cases h
  · rename_i ts heq
    exact Nat.le_trans (weight_le_of_ofTokens h) (Token.weightOfAll_le_of_scan heq)

end CallContract.TypeExpr
