import CallContract.Proofs.Parsing
import CallContract.Proofs.Traversal

/-!
# What parsing gives

* `TypeExpr.readTerm_eq_ok` and its neighbours say what a part that was read consists of.
* `TypeExpr.readInduction` is the induction over what is read from tokens, by their weight.
* `TypeExpr.formed_of_read`: what is read at some depth is well formed and, with the generics around
  it, not nested too deep.
* `TypeExpr.tokens_of_read`: what is read has the tokens it is read from, no more and no less.
* `TypeExpr.formed_of_ofTokens` and `TypeExpr.tokens_of_ofTokens` are that of whole annotations.
-/

namespace CallContract.TypeExpr

/-! ## What was read -/

theorem exists_of_pair {α : Type} {weight : α → Nat} {ts rest : List Token} {value : α}
    {result : Except Fault (Parsed weight ts)}
    (found : result.map Parsed.pair = .ok (value, rest)) :
    weight value + Token.weightOfAll rest ≤ Token.weightOfAll ts := by
  cases result with
  | error e => cases found
  | ok parsed =>
    cases found
    exact parsed.bound

theorem weight_of_readTerm {depth : Nat} {ts rest : List Token} {a : TypeExpr}
    (found : readTerm depth ts = .ok (a, rest)) :
    Token.weightOfAll rest < Token.weightOfAll ts :=
  Nat.lt_of_lt_of_le (Nat.lt_add_of_pos_left a.weight_pos) (exists_of_pair found)

theorem weight_of_readArms {depth : Nat} {ts rest : List Token} {arms : List TypeExpr}
    (found : readArms depth ts = .ok (arms, rest)) :
    Token.weightOfAll rest ≤ Token.weightOfAll ts :=
  Nat.le_trans (Nat.le_add_left _ _) (exists_of_pair found)

/-- A term is a name, a quoted part, or a generic that a bracket closes. -/
theorem readTerm_eq_ok {depth : Nat} {ts rest : List Token} {a : TypeExpr}
    (found : readTerm depth ts = .ok (a, rest)) :
    (∃ word, ts = .ident word :: rest ∧ a = .name word) ∨
      (∃ text, ts = .text text :: rest ∧ a = .forward text) ∨
      ∃ head args inner, ts = .ident head :: .mark .openBracket :: inner ∧ depth < maxDepth ∧
        (if isLiteralHead head then readLiterals inner else readArgs (depth + 1) inner) =
          .ok (args, .mark .closeBracket :: rest) ∧ a = .generic head args := by
  cases ts with
  | nil =>
    rw [readTerm, parseTerm] at found
    cases found
  | cons t inner =>
    cases t with
    | text text =>
      rw [readTerm_text] at found
      cases found
      exact Or.inr (Or.inl ⟨text, rfl, rfl⟩)
    | number n =>
      rw [readTerm, parseTerm] at found
      cases found
    | mark m =>
      rw [readTerm, parseTerm] at found
      cases found
    | ident word =>
      by_cases bracket : inner.head? = some (.mark .openBracket)
      · obtain ⟨inner, rfl⟩ : ∃ others, inner = .mark .openBracket :: others := by
          cases inner with
          | nil => cases bracket
          | cons t others =>
            cases bracket
            exact ⟨others, rfl⟩
        rw [readTerm_generic] at found
        split at found
        · cases found
        · rename_i shallow
          obtain ⟨⟨args, behind⟩, read, closes⟩ := Except.bind_eq_ok.1 found
          unfold closed at closes
          split at closes
          · rename_i same
            cases same
            cases closes
            exact Or.inr (Or.inr ⟨word, _, inner, rfl, by omega, read, rfl⟩)
          · cases closes
      · rw [readTerm_name bracket] at found
        cases found
        exact Or.inl ⟨word, rfl, rfl⟩

theorem readArms_eq_ok {depth : Nat} {ts rest : List Token} {arms : List TypeExpr}
    (found : readArms depth ts = .ok (arms, rest)) :
    (arms = [] ∧ rest = ts) ∨
      ∃ inner arm behind more, ts = .mark .bar :: inner ∧
        readTerm depth inner = .ok (arm, behind) ∧ readArms depth behind = .ok (more, rest) ∧
        arms = arm :: more := by
  by_cases bar : ts.head? = some (.mark .bar)
  · obtain ⟨inner, rfl⟩ : ∃ others, ts = .mark .bar :: others := by
      cases ts with
      | nil => cases bar
      | cons t others =>
        cases bar
        exact ⟨others, rfl⟩
    rw [readArms_bar] at found
    obtain ⟨⟨arm, behind⟩, first, others⟩ := Except.bind_eq_ok.1 found
    obtain ⟨⟨more, _⟩, readMore, same⟩ := Except.map_eq_ok.1 others
    cases same
    exact Or.inr ⟨inner, arm, behind, more, rfl, first, readMore, rfl⟩
  · rw [readArms_end bar] at found
    cases found
    exact Or.inl ⟨rfl, rfl⟩

theorem readUnion_eq_ok {depth : Nat} {ts rest : List Token} {a : TypeExpr}
    (found : readUnion depth ts = .ok (a, rest)) :
    ∃ first behind more, readTerm depth ts = .ok (first, behind) ∧
      readArms depth behind = .ok (more, rest) ∧ a = ofArms first more := by
  rw [readUnion_eq] at found
  obtain ⟨⟨first, behind⟩, readFirst, others⟩ := Except.bind_eq_ok.1 found
  obtain ⟨⟨more, _⟩, readMore, same⟩ := Except.map_eq_ok.1 others
  cases same
  exact ⟨first, behind, more, readFirst, readMore, rfl⟩

theorem readArgs_eq_ok {depth : Nat} {ts rest : List Token} {args : List TypeExpr}
    (found : readArgs depth ts = .ok (args, rest)) :
    ∃ arg behind, readUnion depth ts = .ok (arg, behind) ∧
      ((args = [arg] ∧ rest = behind) ∨
        ∃ inner more, behind = .mark .comma :: inner ∧ readArgs depth inner = .ok (more, rest) ∧
          args = arg :: more) := by
  rw [readArgs_eq] at found
  obtain ⟨⟨arg, behind⟩, first, others⟩ := Except.bind_eq_ok.1 found
  refine ⟨arg, behind, first, ?_⟩
  unfold moreArgs at others
  split at others
  · rename_i inner same
    cases same
    obtain ⟨⟨more, _⟩, readMore, same⟩ := Except.map_eq_ok.1 others
    cases same
    exact Or.inr ⟨inner, more, rfl, readMore, rfl⟩
  · rename_i same
    cases same
    cases others
    exact Or.inl ⟨rfl, rfl⟩

/-! ## Induction over what is read -/

/-- Tokens that weigh less than others. -/
def Lighter (ts us : List Token) : Prop :=
  Token.weightOfAll ts < Token.weightOfAll us

theorem lighter_cons (t : Token) (ts : List Token) : Lighter ts (t :: ts) :=
  Nat.lt_add_of_pos_left t.weight_pos

/-- Induction over tokens by their weight: terms, arms and arguments are read from tokens by reading
terms, arms and arguments from lighter ones, the first argument starting with a term. -/
theorem readInduction {terms arms args : List Token → Prop}
    (ofTerms : ∀ ts, (∀ us, Lighter us ts → args us) → terms ts)
    (ofArms : ∀ ts, (∀ us, Lighter us ts → terms us) → (∀ us, Lighter us ts → arms us) → arms ts)
    (ofArgs : ∀ ts, terms ts → (∀ us, Lighter us ts → arms us) → (∀ us, Lighter us ts → args us) →
      args ts) (ts : List Token) : terms ts ∧ arms ts ∧ args ts := by
  induction weight : Token.weightOfAll ts using Nat.strongRecOn generalizing ts with
  | _ n ih =>
    subst weight
    have termsHere : terms ts := ofTerms ts fun us lighter => (ih _ lighter us rfl).2.2
    refine ⟨termsHere, ofArms ts ?_ ?_, ofArgs ts termsHere ?_ ?_⟩
    · exact fun us lighter => (ih _ lighter us rfl).1
    · exact fun us lighter => (ih _ lighter us rfl).2.1
    · exact fun us lighter => (ih _ lighter us rfl).2.1
    · exact fun us lighter => (ih _ lighter us rfl).2.2

/-! ## What is read is well formed -/

/-- A well-formed annotation that is no union and not nested too deep for a depth. -/
def IsTermAt (depth : Nat) (a : TypeExpr) : Prop :=
  a.isWellFormed = true ∧ a.isUnion = false ∧ depth + a.nesting ≤ maxDepth

/-- A well-formed annotation that is not nested too deep for a depth. -/
def IsFormedAt (depth : Nat) (a : TypeExpr) : Prop :=
  a.isWellFormed = true ∧ depth + a.nesting ≤ maxDepth

theorem isFormedAt_ofArms {depth : Nat} {first : TypeExpr} {more : List TypeExpr}
    (head : IsTermAt depth first) (tail : ∀ arm ∈ more, IsTermAt depth arm) :
    IsFormedAt depth (ofArms first more) := by
  cases more with
  | nil => exact ⟨head.1, head.2.2⟩
  | cons second more =>
    have parts : ∀ arm ∈ first :: second :: more, IsTermAt depth arm :=
      List.forall_mem_cons.2 ⟨head, tail⟩
    refine ⟨isWellFormed_union_iff.2 ⟨by simp, fun arm member => ?_⟩, ?_⟩
    · exact ⟨(parts arm member).2.1, (parts arm member).1⟩
    · have shallow : nestingOfAll (first :: second :: more) ≤ maxDepth - depth :=
        nestingOfAll_le_iff.2 fun arm member => by
          have := (parts arm member).2.2
          omega
      have bound := head.2.2
      rw [ofArms, if_neg (by simp), nesting]
      omega

theorem isLiteral_of_literalValue? {t : Token} {v : Json} (value : literalValue? t = some v) :
    (literal v).isLiteral = true := by
  unfold literalValue? at value
  split at value
  · cases value
    rfl
  · cases value
    rfl
  · split at value
    · cases value
      rfl
    · split at value
      · cases value
        rfl
      · split at value
        · cases value
          rfl
        · cases value
  · cases value

theorem readLiterals_eq_ok {ts rest : List Token} {args : List TypeExpr}
    (found : readLiterals ts = .ok (args, rest)) :
    ∃ t behind v, ts = t :: behind ∧ literalValue? t = some v ∧
      ((args = [.literal v] ∧ rest = behind) ∨
        ∃ inner more, behind = .mark .comma :: inner ∧ readLiterals inner = .ok (more, rest) ∧
          args = .literal v :: more) := by
  cases ts with
  | nil => cases found
  | cons t behind =>
    rw [readLiterals_cons] at found
    split at found
    · cases found
    · rename_i v value
      refine ⟨t, behind, v, rfl, value, ?_⟩
      split at found
      · obtain ⟨⟨more, _⟩, readMore, same⟩ := Except.map_eq_ok.1 found
        cases same
        exact Or.inr ⟨_, more, rfl, readMore, rfl⟩
      · cases found
        exact Or.inl ⟨rfl, rfl⟩

theorem formed_of_readLiterals {ts rest : List Token} {args : List TypeExpr}
    (found : readLiterals ts = .ok (args, rest)) (dotted : Token.AreDotted ts) :
    args ≠ [] ∧ (∀ arg ∈ args, arg.isLiteral = true) ∧ Token.AreDotted rest := by
  obtain ⟨t, behind, v, same, value, others⟩ := readLiterals_eq_ok found
  subst same
  have first := isLiteral_of_literalValue? value
  rcases others with ⟨rfl, rfl⟩ | ⟨inner, more, rfl, readMore, rfl⟩
  · exact ⟨List.cons_ne_nil _ _, List.forall_mem_singleton.2 first, dotted.tail⟩
  · obtain ⟨_, values, dottedRest⟩ := formed_of_readLiterals readMore dotted.tail.tail
    exact ⟨List.cons_ne_nil _ _, List.forall_mem_cons.2 ⟨first, values⟩, dottedRest⟩
termination_by ts.length

/-- What is read from tokens as a term is a well-formed one, not nested too deep. -/
def TermsFormed (ts : List Token) : Prop :=
  ∀ {depth : Nat} {rest : List Token} {a : TypeExpr}, readTerm depth ts = .ok (a, rest) →
    Token.AreDotted ts → depth ≤ maxDepth → IsTermAt depth a ∧ Token.AreDotted rest

/-- What is read from tokens as further arms are well-formed ones, not nested too deep. -/
def ArmsFormed (ts : List Token) : Prop :=
  ∀ {depth : Nat} {rest : List Token} {arms : List TypeExpr}, readArms depth ts = .ok (arms, rest) →
    Token.AreDotted ts → depth ≤ maxDepth →
      (∀ arm ∈ arms, IsTermAt depth arm) ∧ Token.AreDotted rest

/-- What is read from tokens as arguments are well-formed ones, not nested too deep. -/
def ArgsFormed (ts : List Token) : Prop :=
  ∀ {depth : Nat} {rest : List Token} {args : List TypeExpr}, readArgs depth ts = .ok (args, rest) →
    Token.AreDotted ts → depth ≤ maxDepth →
      args ≠ [] ∧ (∀ arg ∈ args, IsFormedAt depth arg) ∧ Token.AreDotted rest

theorem termsFormed_step {ts : List Token} (args : ∀ us, Lighter us ts → ArgsFormed us) :
    TermsFormed ts := by
  intro depth rest a found dotted shallow
  rcases readTerm_eq_ok found with
    ⟨word, rfl, rfl⟩ | ⟨text, rfl, rfl⟩ | ⟨head, args', inner, rfl, deeper, read, rfl⟩
  · exact ⟨⟨dotted word List.mem_cons_self, rfl, shallow⟩, dotted.tail⟩
  · exact ⟨⟨rfl, rfl, shallow⟩, dotted.tail⟩
  · have headDotted : Token.isDotted head.toList = true := dotted head List.mem_cons_self
    split at read
    · rename_i values
      obtain ⟨inhabited, parts, dottedRest⟩ := formed_of_readLiterals read dotted.tail.tail
      have flat := nestingOfAll_of_areLiteral parts
      refine ⟨⟨isWellFormed_generic_iff.2 ⟨headDotted, inhabited, ?_⟩, rfl, ?_⟩, dottedRest.tail⟩
      · rw [if_pos values]
        exact parts
      · rw [nesting]
        omega
    · rename_i types
      have lighter : Lighter inner (.ident head :: .mark .openBracket :: inner) :=
        Nat.lt_trans (lighter_cons _ inner) (lighter_cons _ _)
      obtain ⟨inhabited, parts, dottedRest⟩ := args inner lighter read dotted.tail.tail deeper
      have fits : nestingOfAll args' ≤ maxDepth - (depth + 1) :=
        nestingOfAll_le_iff.2 fun arg member => by
          have := (parts arg member).2
          omega
      refine ⟨⟨isWellFormed_generic_iff.2 ⟨headDotted, inhabited, ?_⟩, rfl, ?_⟩, dottedRest.tail⟩
      · rw [if_neg types]
        exact fun arg member => (parts arg member).1
      · rw [nesting]
        omega

theorem armsFormed_step {ts : List Token} (terms : ∀ us, Lighter us ts → TermsFormed us)
    (arms : ∀ us, Lighter us ts → ArmsFormed us) : ArmsFormed ts := by
  intro depth rest found' found dotted shallow
  rcases readArms_eq_ok found with ⟨rfl, rfl⟩ | ⟨inner, arm, behind, more, rfl, first, others, rfl⟩
  · exact ⟨(fun _ member => by cases member), dotted⟩
  · have lighter := lighter_cons (.mark .bar) inner
    obtain ⟨term, dottedBehind⟩ := terms inner lighter first dotted.tail shallow
    obtain ⟨formed, dottedRest⟩ :=
      arms behind (Nat.lt_trans (weight_of_readTerm first) lighter) others dottedBehind shallow
    exact ⟨List.forall_mem_cons.2 ⟨term, formed⟩, dottedRest⟩

theorem argsFormed_step {ts : List Token} (terms : TermsFormed ts)
    (arms : ∀ us, Lighter us ts → ArmsFormed us) (args : ∀ us, Lighter us ts → ArgsFormed us) :
    ArgsFormed ts := by
  intro depth rest found' found dotted shallow
  obtain ⟨arg, behind, readArg, others⟩ := readArgs_eq_ok found
  obtain ⟨first, middle, more, readFirst, readMore, rfl⟩ := readUnion_eq_ok readArg
  have lighter : Lighter middle ts := weight_of_readTerm readFirst
  obtain ⟨term, dottedMiddle⟩ := terms readFirst dotted shallow
  obtain ⟨moreTerms, dottedBehind⟩ := arms middle lighter readMore dottedMiddle shallow
  have formed := isFormedAt_ofArms term moreTerms
  rcases others with ⟨rfl, rfl⟩ | ⟨inner, args', rfl, readOthers, rfl⟩
  · exact ⟨List.cons_ne_nil _ _, List.forall_mem_singleton.2 formed, dottedBehind⟩
  · have lighterInner : Lighter inner ts :=
      Nat.lt_trans (Nat.lt_of_lt_of_le (lighter_cons _ inner) (weight_of_readArms readMore)) lighter
    obtain ⟨_, parts, dottedRest⟩ := args inner lighterInner readOthers dottedBehind.tail shallow
    exact ⟨List.cons_ne_nil _ _, List.forall_mem_cons.2 ⟨formed, parts⟩, dottedRest⟩

/-- Whatever is read is well formed and not nested too deep. -/
theorem formed_of_read (ts : List Token) : TermsFormed ts ∧ ArmsFormed ts ∧ ArgsFormed ts :=
  readInduction (fun _ => termsFormed_step) (fun _ => armsFormed_step) (fun _ => argsFormed_step) ts

/-- An annotation that tokens make is well formed and not nested too deep. -/
theorem formed_of_ofTokens {ts : List Token} {a : TypeExpr} (found : ofTokens ts = .ok a)
    (dotted : Token.AreDotted ts) : a.isWellFormed = true ∧ a.nesting ≤ maxDepth := by
  rw [ofTokens_eq] at found
  split at found
  · cases found
  · rename_i b rest read
    split at found
    · cases found
      obtain ⟨first, middle, more, readFirst, readMore, rfl⟩ := readUnion_eq_ok read
      obtain ⟨term, dottedMiddle⟩ := (formed_of_read ts).1 readFirst dotted (Nat.zero_le _)
      obtain ⟨terms, _⟩ := (formed_of_read middle).2.1 readMore dottedMiddle (Nat.zero_le _)
      obtain ⟨formed, shallow⟩ := isFormedAt_ofArms term terms
      exact ⟨formed, by rwa [Nat.zero_add] at shallow⟩
    · cases found

/-! ## What is read has the tokens it is read from -/

/-- A term is read from its tokens. -/
def TermsKept (ts : List Token) : Prop :=
  ∀ {depth : Nat} {rest : List Token} {a : TypeExpr}, readTerm depth ts = .ok (a, rest) →
    ts = a.tokens ++ rest

/-- Further arms are read from their tokens. -/
def ArmsKept (ts : List Token) : Prop :=
  ∀ {depth : Nat} {rest : List Token} {arms : List TypeExpr}, readArms depth ts = .ok (arms, rest) →
    ts = tokensBehind .bar arms ++ rest

/-- Arguments are read from their tokens. -/
def ArgsKept (ts : List Token) : Prop :=
  ∀ {depth : Nat} {rest : List Token} {args : List TypeExpr}, readArgs depth ts = .ok (args, rest) →
    args ≠ [] ∧ ts = tokensOfAll .comma args ++ rest

theorem tokens_ofArms (first : TypeExpr) (more : List TypeExpr) :
    (ofArms first more).tokens = first.tokens ++ tokensBehind .bar more := by
  cases more with
  | nil => exact (List.append_nil _).symm
  | cons second more =>
    rw [ofArms, if_neg (by simp), tokens, tokensOfAll]

/-- A further argument stands behind a comma. -/
theorem tokensOfAll_cons {m : Mark} (a : TypeExpr) {more : List TypeExpr} (inhabited : more ≠ []) :
    tokensOfAll m (a :: more) = a.tokens ++ .mark m :: tokensOfAll m more := by
  cases more with
  | nil => exact absurd rfl inhabited
  | cons b more => rw [tokensOfAll, tokensBehind, tokensOfAll]

theorem literalToken_of_literalValue? {t : Token} {v : Json} (value : literalValue? t = some v) :
    literalToken v = t := by
  unfold literalValue? at value
  split at value
  · cases value
    rfl
  · cases value
    rfl
  · split at value
    · rename_i same
      cases value
      rw [same]
      rfl
    · split at value
      · rename_i same
        cases value
        rw [same]
        rfl
      · split at value
        · rename_i same
          cases value
          rw [same]
          rfl
        · cases value
  · cases value

theorem tokens_of_readLiterals {ts rest : List Token} {args : List TypeExpr}
    (found : readLiterals ts = .ok (args, rest)) :
    args ≠ [] ∧ ts = tokensOfAll .comma args ++ rest := by
  obtain ⟨t, behind, v, same, value, others⟩ := readLiterals_eq_ok found
  subst same
  have first : (literal v).tokens = [t] := by
    rw [tokens, literalToken_of_literalValue? value]
  rcases others with ⟨rfl, rfl⟩ | ⟨inner, more, rfl, readMore, rfl⟩
  · refine ⟨List.cons_ne_nil _ _, ?_⟩
    rw [tokensOfAll, first]
    rfl
  · obtain ⟨inhabited, split⟩ := tokens_of_readLiterals readMore
    refine ⟨List.cons_ne_nil _ _, ?_⟩
    rw [tokensOfAll_cons _ inhabited, first, split]
    rfl
termination_by ts.length

theorem termsKept_step {ts : List Token} (args : ∀ us, Lighter us ts → ArgsKept us) :
    TermsKept ts := by
  intro depth rest a found
  rcases readTerm_eq_ok found with
    ⟨word, rfl, rfl⟩ | ⟨text, rfl, rfl⟩ | ⟨head, args', inner, rfl, _, read, rfl⟩
  · rw [tokens, List.singleton_append]
  · rw [tokens, List.singleton_append]
  · have split : inner = tokensOfAll .comma args' ++ .mark .closeBracket :: rest := by
      split at read
      · exact (tokens_of_readLiterals read).2
      · have lighter : Lighter inner (.ident head :: .mark .openBracket :: inner) :=
          Nat.lt_trans (lighter_cons _ inner) (lighter_cons _ _)
        exact (args inner lighter read).2
    rw [tokens, split]
    simp

theorem armsKept_step {ts : List Token} (terms : ∀ us, Lighter us ts → TermsKept us)
    (arms : ∀ us, Lighter us ts → ArmsKept us) : ArmsKept ts := by
  intro depth rest found' found
  rcases readArms_eq_ok found with ⟨rfl, rfl⟩ | ⟨inner, arm, behind, more, rfl, first, others, rfl⟩
  · rfl
  · have lighter := lighter_cons (.mark .bar) inner
    have lighterBehind : Lighter behind (.mark .bar :: inner) :=
      Nat.lt_trans (weight_of_readTerm first) lighter
    rw [tokensBehind, List.cons_append, List.append_assoc, ← arms behind lighterBehind others,
      ← terms inner lighter first]

theorem argsKept_step {ts : List Token} (terms : TermsKept ts)
    (arms : ∀ us, Lighter us ts → ArmsKept us) (args : ∀ us, Lighter us ts → ArgsKept us) :
    ArgsKept ts := by
  intro depth rest found' found
  obtain ⟨arg, behind, readArg, others⟩ := readArgs_eq_ok found
  obtain ⟨first, middle, more, readFirst, readMore, rfl⟩ := readUnion_eq_ok readArg
  have lighter : Lighter middle ts := weight_of_readTerm readFirst
  have split : ts = (ofArms first more).tokens ++ behind := by
    rw [tokens_ofArms, List.append_assoc, ← arms middle lighter readMore]
    exact terms readFirst
  rcases others with ⟨rfl, rfl⟩ | ⟨inner, args', rfl, readOthers, rfl⟩
  · refine ⟨List.cons_ne_nil _ _, ?_⟩
    rw [tokensOfAll, tokensBehind, List.append_nil]
    exact split
  · have lighterInner : Lighter inner ts :=
      Nat.lt_trans (Nat.lt_of_lt_of_le (lighter_cons _ inner) (weight_of_readArms readMore)) lighter
    obtain ⟨inhabited, splitInner⟩ := args inner lighterInner readOthers
    refine ⟨List.cons_ne_nil _ _, ?_⟩
    rw [tokensOfAll_cons _ inhabited, List.append_assoc, List.cons_append, ← splitInner]
    exact split

/-- Whatever is read has the tokens it is read from. -/
theorem tokens_of_read (ts : List Token) : TermsKept ts ∧ ArmsKept ts ∧ ArgsKept ts :=
  readInduction (fun _ => termsKept_step) (fun _ => armsKept_step) (fun _ => argsKept_step) ts

/-- The tokens that make an annotation are those it is written with. -/
theorem tokens_of_ofTokens {ts : List Token} {a : TypeExpr} (found : ofTokens ts = .ok a) :
    a.tokens = ts := by
  rw [ofTokens_eq] at found
  split at found
  · cases found
  · rename_i b rest read
    split at found
    · rename_i last
      cases found
      obtain ⟨first, middle, more, readFirst, readMore, rfl⟩ := readUnion_eq_ok read
      have none : rest = [] := List.isEmpty_iff.1 last
      have splitMiddle := (tokens_of_read middle).2.1 readMore
      rw [none, List.append_nil] at splitMiddle
      rw [tokens_ofArms, ← splitMiddle]
      exact ((tokens_of_read ts).1 readFirst).symm
    · cases found

end CallContract.TypeExpr
