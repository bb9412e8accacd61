import CallContract.Proofs.AnnotationTrees
import CallContract.TypeExpr.Parser

/-!
# Parsing the tokens of an annotation

* `TypeExpr.readTerm` and its neighbours are the parser without the bounds that it ends by; each has
  its equations.
* `TypeExpr.tokens` are the tokens that an annotation is written with.
* `TypeExpr.ofTokens_tokens`: the tokens of a well-formed annotation make the annotation, or tell
  that its generics are nested too deep.
-/

namespace CallContract.TypeExpr

/-! ## The parser without its bounds -/

/-- What was read and the rest, without the bound on their weights. -/
def Parsed.pair {α : Type} {weight : α → Nat} {ts : List Token} (p : Parsed weight ts) :
    α × List Token :=
  (p.value, p.rest)

/-- Reads a name, a generic or a quoted part. -/
def readTerm (depth : Nat) (ts : List Token) : Except Fault (TypeExpr × List Token) :=
  (parseTerm depth ts).map Parsed.pair

/-- Reads the arms that follow, each behind a bar. -/
def readArms (depth : Nat) (ts : List Token) : Except Fault (List TypeExpr × List Token) :=
  (parseArms depth ts).map Parsed.pair

/-- Reads arguments with commas between them. -/
def readArgs (depth : Nat) (ts : List Token) : Except Fault (List TypeExpr × List Token) :=
  (parseArgs depth ts).map Parsed.pair

/-- Reads an annotation of one or more arms. -/
def readUnion (depth : Nat) (ts : List Token) : Except Fault (TypeExpr × List Token) :=
  (parseUnion depth ts).map Parsed.pair

/-- Reads literal values with commas between them. -/
def readLiterals (ts : List Token) : Except Fault (List TypeExpr × List Token) :=
  (parseLiterals ts).map Parsed.pair

theorem readLiterals_cons (t : Token) (rest : List Token) :
    readLiterals (t :: rest) =
      match literalValue? t with
      | none => .error (.unsupportedLiteral t)
      | some v =>
        match rest with
        | .mark .comma :: rest' => (readLiterals rest').map fun x => (.literal v :: x.1, x.2)
        | rest => .ok ([.literal v], rest) := by
  rw [readLiterals, parseLiterals]
  cases literalValue? t with
  | none => rfl
  | some v =>
    cases rest with
    | nil => rfl
    | cons next rest' =>
      cases next with
      | mark m =>
        cases m with
        | comma =>
          dsimp only [readLiterals]
          cases parseLiterals rest' <;> rfl
        | _ => rfl
      | _ => rfl

/-- The generic that arguments make, if a bracket closes them. -/
def closed (head : String) : List TypeExpr × List Token → Except Fault (TypeExpr × List Token)
  | (args, .mark .closeBracket :: rest) => .ok (.generic head args, rest)
  | _ => .error (.expected .closeBracket)

theorem readTerm_generic (depth : Nat) (head : String) (rest : List Token) :
    readTerm depth (.ident head :: .mark .openBracket :: rest) =
      if maxDepth ≤ depth then .error .tooDeep
      else
        (if isLiteralHead head then readLiterals rest else readArgs (depth + 1) rest) >>=
          closed head := by
  rw [readTerm, parseTerm]
  split
  · rfl
  · rw [readLiterals, readArgs, ← apply_ite]
    cases (if isLiteralHead head then parseLiterals rest else parseArgs (depth + 1) rest) with
    | error e => rfl
    | ok args =>
      obtain ⟨args, rest', bound⟩ := args
      cases rest' with
      | nil => rfl
      | cons next rest'' =>
        cases next with
        | mark m => cases m <;> rfl
        | _ => rfl

theorem readTerm_name {depth : Nat} {word : String} {rest : List Token}
    (last : rest.head? ≠ some (.mark .openBracket)) :
    readTerm depth (.ident word :: rest) = .ok (.name word, rest) := by
  rw [readTerm, parseTerm]
  · rfl
  · rintro _ rfl
    exact last rfl

theorem readTerm_text (depth : Nat) (s : String) (rest : List Token) :
    readTerm depth (.text s :: rest) = .ok (.forward s, rest) := by
  rw [readTerm, parseTerm]
  rfl

theorem readArms_bar (depth : Nat) (rest : List Token) :
    readArms depth (.mark .bar :: rest) =
      readTerm depth rest >>= fun x =>
        (readArms depth x.2).map fun y => (x.1 :: y.1, y.2) := by
  rw [readArms, parseArms, readTerm]
  cases parseTerm depth rest with
  | error e => rfl
  | ok arm =>
    dsimp only [Except.map, bind, Except.bind, Parsed.pair]
    rw [readArms]
    cases parseArms depth arm.rest <;> rfl

theorem readArms_end {depth : Nat} {ts : List Token} (last : ts.head? ≠ some (.mark .bar)) :
    readArms depth ts = .ok ([], ts) := by
  rw [readArms, parseArms]
  · rfl
  · rintro _ rfl
    exact last rfl

theorem readUnion_eq (depth : Nat) (ts : List Token) :
    readUnion depth ts =
      readTerm depth ts >>= fun x =>
        (readArms depth x.2).map fun y => (ofArms x.1 y.1, y.2) := by
  rw [readUnion, parseUnion, readTerm]
  cases parseTerm depth ts with
  | error e => rfl
  | ok first =>
    dsimp only [Except.map, bind, Except.bind, Parsed.pair]
    rw [readArms]
    cases parseArms depth first.rest <;> rfl

/-- The arguments that follow one, if there is a comma. -/
def moreArgs (depth : Nat) : TypeExpr × List Token → Except Fault (List TypeExpr × List Token)
  | (arg, .mark .comma :: rest) => (readArgs depth rest).map fun y => (arg :: y.1, y.2)
  | (arg, rest) => .ok ([arg], rest)

theorem readArgs_eq (depth : Nat) (ts : List Token) :
    readArgs depth ts = readUnion depth ts >>= moreArgs depth := by
  rw [readArgs, parseArgs, readUnion_eq, readTerm]
  cases parseTerm depth ts with
  | error e => rfl
  | ok first =>
    obtain ⟨first, rest, bound⟩ := first
    dsimp only [Except.map, bind, Except.bind, Parsed.pair]
    rw [readArms]
    cases parseArms depth rest with
    | error e => rfl
    | ok more =>
      obtain ⟨more, rest', bound'⟩ := more
      cases rest' with
      | nil => rfl
      | cons next rest'' =>
        cases next with
        | mark m =>
          cases m with
          | comma =>
            dsimp only [moreArgs, readArgs, Except.map, Parsed.pair]
            cases parseArgs depth rest'' <;> rfl
          | _ => rfl
        | _ => rfl

theorem ofTokens_eq (ts : List Token) :
    ofTokens ts =
      match readUnion 0 ts with
      | .error e => .error e
      | .ok (a, rest) =>
        if rest.isEmpty then .ok a else .error (.trailingInput (ts.length - rest.length + 1)) := by
  rw [ofTokens, readUnion]
  cases parseUnion 0 ts <;> rfl

/-! ## The tokens of an annotation -/

/-- The token of a literal value. -/
def literalToken : Json → Token
  | .bool true => .ident "True"
  | .bool false => .ident "False"
  | .num n => .number n
  | .str s => .text s
  | _ => .ident "None"

mutual
/-- The tokens that an annotation is written with. -/
def tokens : TypeExpr → List Token
  | .name word => [.ident word]
  | .generic head args =>
    .ident head :: .mark .openBracket :: (tokensOfAll .comma args ++ [.mark .closeBracket])
  | .union arms => tokensOfAll .bar arms
  | .forward text => [.text text]
  | .literal v => [literalToken v]

/-- The tokens of annotations with a mark between them. -/
def tokensOfAll (sep : Mark) : List TypeExpr → List Token
  | [] => []
  | a :: rest => tokens a ++ tokensBehind sep rest

/-- The tokens of annotations with a mark before each. -/
def tokensBehind (sep : Mark) : List TypeExpr → List Token
  | [] => []
  | a :: rest => .mark sep :: (tokens a ++ tokensBehind sep rest)
end

theorem tokensOfAll_eq (sep : Mark) (as : List TypeExpr) :
    tokensOfAll sep as = [.mark sep].intercalate (as.map tokens) := by
  have behind : ∀ (a : TypeExpr) (more : List TypeExpr),
      tokens a ++ tokensBehind sep more =
        [.mark sep].intercalate (tokens a :: more.map tokens) := by
    intro a more
    induction more generalizing a with
    | nil => rw [tokensBehind, List.append_nil, List.map_nil, List.intercalate_singleton]
    | cons b more ih =>
      rw [tokensBehind, ih, List.map_cons, List.intercalate_cons_cons, List.append_assoc,
        List.singleton_append]
  cases as with
  | nil => rfl
  | cons a more => exact behind a more

/-! ## Reading what was written -/

/-- What reading gives at a depth of nesting: an annotation, unless it is nested too deep. -/
def within {α : Type} (depth : Nat) (read : α × List Token) : Except Fault (α × List Token) :=
  if depth ≤ maxDepth then .ok read else .error .tooDeep

/-- The rest of tokens does not start with a mark. -/
def NotMark (m : Mark) (rest : List Token) : Prop :=
  rest.head? ≠ some (.mark m)

/-- An annotation is read as a term from its tokens, at each depth. -/
def ReadsTerm (a : TypeExpr) : Prop :=
  ∀ depth rest, depth ≤ maxDepth → NotMark .openBracket rest →
    readTerm depth (a.tokens ++ rest) = within (depth + a.nesting) (a, rest)

/-- An annotation is read as a union of one or more arms from its tokens, at each depth. -/
def ReadsUnion (a : TypeExpr) : Prop :=
  ∀ depth rest, depth ≤ maxDepth → NotMark .openBracket rest → NotMark .bar rest →
    readUnion depth (a.tokens ++ rest) = within (depth + a.nesting) (a, rest)

theorem notMark_tokensBehind {m sep : Mark} {rest : List Token} (other : sep ≠ m)
    (last : NotMark m rest) (as : List TypeExpr) : NotMark m (tokensBehind sep as ++ rest) := by
  cases as with
  | nil => exact last
  | cons a as =>
    intro same
    rw [tokensBehind] at same
    exact other (Token.mark.inj (Option.some.inj same))

section Within

variable {α β γ : Type} {depth m n : Nat} {first : α × List Token}

theorem within_of_le (shallow : depth ≤ maxDepth) : within depth first = .ok first :=
  if_pos shallow

theorem within_map (f : α × List Token → β × List Token) :
    (within depth first).map f = within depth (f first) := by
  rw [within, within]
  split <;> rfl

/-- Reading two parts one after the other goes as deep as the deeper one. -/
theorem within_bind {next : α × List Token → Except Fault (β × List Token)} {last : β × List Token}
    (follows : next first = within (depth + n) last) :
    (within (depth + m) first >>= next) = within (depth + max m n) last := by
  by_cases fits : depth + m ≤ maxDepth
  · rw [within_of_le fits, within]
    refine follows.trans ?_
    rw [within]
    exact if_congr (by omega) rfl rfl
  · have refused : within (depth + m) first = .error .tooDeep := if_neg fits
    rw [refused, within, if_neg (by omega)]
    rfl

end Within

theorem readArms_tokens {arms : List TypeExpr} (reads : ∀ arm ∈ arms, ReadsTerm arm) {depth : Nat}
    {rest : List Token} (shallow : depth ≤ maxDepth) (noGeneric : NotMark .openBracket rest)
    (noArm : NotMark .bar rest) :
    readArms depth (tokensBehind .bar arms ++ rest) =
      within (depth + nestingOfAll arms) (arms, rest) := by
  induction arms with
  | nil => exact (readArms_end noArm).trans (within_of_le shallow).symm
  | cons arm arms ih =>
    have others := ih fun a member => reads a (List.mem_cons_of_mem arm member)
    have first := reads arm List.mem_cons_self depth (tokensBehind .bar arms ++ rest) shallow
      (notMark_tokensBehind (by decide) noGeneric arms)
    rw [tokensBehind, List.cons_append, List.append_assoc, readArms_bar, first, nestingOfAll]
    exact within_bind (by rw [others, within_map])

/-- What holds of a first arm and of the arms behind it holds of the union. -/
theorem readUnion_tokens {first : TypeExpr} {more : List TypeExpr} (head : ReadsTerm first)
    (tail : ∀ arm ∈ more, ReadsTerm arm) {depth : Nat} {rest : List Token}
    (shallow : depth ≤ maxDepth) (noGeneric : NotMark .openBracket rest)
    (noArm : NotMark .bar rest) :
    readUnion depth (first.tokens ++ tokensBehind .bar more ++ rest) =
      within (depth + max first.nesting (nestingOfAll more)) (ofArms first more, rest) := by
  have others := readArms_tokens tail shallow noGeneric noArm
  rw [List.append_assoc, readUnion_eq,
    head depth _ shallow (notMark_tokensBehind (by decide) noGeneric more)]
  exact within_bind (by rw [others, within_map])

theorem readsUnion_of_readsTerm {a : TypeExpr} (reads : ReadsTerm a) : ReadsUnion a := by
  intro depth rest shallow noGeneric noArm
  have none : ∀ arm ∈ ([] : List TypeExpr), ReadsTerm arm := fun _ member => by cases member
  have single := readUnion_tokens reads none shallow noGeneric noArm
  rw [tokensBehind, List.append_nil, nestingOfAll, Nat.max_zero] at single
  exact single

theorem readsUnion_union {arms : List TypeExpr} (several : 2 ≤ arms.length)
    (reads : ∀ arm ∈ arms, ReadsTerm arm) : ReadsUnion (.union arms) := by
  intro depth rest shallow noGeneric noArm
  match arms with
  | first :: second :: more =>
    rw [tokens, tokensOfAll, nesting, nestingOfAll]
    exact readUnion_tokens (reads first List.mem_cons_self)
      (fun arm member => reads arm (List.mem_cons_of_mem first member)) shallow noGeneric noArm

theorem readArgs_tokens {args : List TypeExpr} (inhabited : args ≠ [])
    (reads : ∀ arg ∈ args, ReadsUnion arg) {depth : Nat} (shallow : depth ≤ maxDepth)
    (rest : List Token) :
    readArgs depth (tokensOfAll .comma args ++ .mark .closeBracket :: rest) =
      within (depth + nestingOfAll args) (args, .mark .closeBracket :: rest) := by
  have closes (m : Mark) (other : m ≠ .closeBracket) : NotMark m (.mark .closeBracket :: rest) :=
    fun same => other (Token.mark.inj (Option.some.inj same)).symm
  induction args with
  | nil => exact absurd rfl inhabited
  | cons arg args ih =>
    have first := reads arg List.mem_cons_self depth
      (tokensBehind .comma args ++ .mark .closeBracket :: rest) shallow
      (notMark_tokensBehind (by decide) (closes _ (by decide)) args)
      (notMark_tokensBehind (by decide) (closes _ (by decide)) args)
    rw [tokensOfAll, List.append_assoc, readArgs_eq, first, nestingOfAll]
    cases args with
    | nil => exact within_bind (within_of_le shallow).symm
    | cons next more =>
      have others := ih (List.cons_ne_nil next more) fun a member =>
        reads a (List.mem_cons_of_mem arg member)
      refine within_bind ?_
      rw [tokensBehind, List.cons_append, moreArgs, ← tokensOfAll, others, within_map]

theorem literalValue?_literalToken {a : TypeExpr} (value : a.isLiteral = true) :
    ∃ v, a = .literal v ∧ a.tokens = [literalToken v] ∧
      literalValue? (literalToken v) = some v := by
  cases a with
  | literal v =>
    refine ⟨v, rfl, by rw [tokens], ?_⟩
    cases v with
    | bool b => cases b <;> rfl
    | arr items => cases value
    | obj fields => cases value
    | _ => rfl
  | _ => cases value

theorem readLiterals_tokens {args : List TypeExpr} (inhabited : args ≠ [])
    (values : ∀ arg ∈ args, arg.isLiteral = true) (rest : List Token) :
    readLiterals (tokensOfAll .comma args ++ .mark .closeBracket :: rest) =
      .ok (args, .mark .closeBracket :: rest) := by
  induction args with
  | nil => exact absurd rfl inhabited
  | cons arg args ih =>
    obtain ⟨v, rfl, written, meant⟩ := literalValue?_literalToken (values arg List.mem_cons_self)
    rw [tokensOfAll, written, List.append_assoc, List.singleton_append, readLiterals_cons, meant]
    cases args with
    | nil => rfl
    | cons next more =>
      have others := ih (List.cons_ne_nil next more) fun a member =>
        values a (List.mem_cons_of_mem _ member)
      rw [tokensBehind, List.cons_append, ← tokensOfAll]
      dsimp only
      rw [others]
      rfl

theorem readsTerm_generic {head : String} {args : List TypeExpr} (inhabited : args ≠ [])
    (reads : if isLiteralHead head then ∀ arg ∈ args, arg.isLiteral = true
      else ∀ arg ∈ args, ReadsUnion arg) : ReadsTerm (.generic head args) := by
  intro depth rest _ _
  have appended : (tokens (.generic head args)) ++ rest = .ident head :: .mark .openBracket ::
      (tokensOfAll .comma args ++ .mark .closeBracket :: rest) := by
    rw [tokens]
    simp
  rw [appended, readTerm_generic, nesting, within]
  by_cases deep : maxDepth ≤ depth
  · rw [if_pos deep, if_neg (by omega)]
  · rw [if_neg deep]
    by_cases values : isLiteralHead head = true
    · rw [if_pos values] at reads ⊢
      rw [readLiterals_tokens inhabited reads, nestingOfAll_of_areLiteral reads, if_pos (by omega)]
      rfl
    · rw [if_neg values] at reads ⊢
      rw [readArgs_tokens inhabited reads (by omega)]
      by_cases fits : depth + 1 + nestingOfAll args ≤ maxDepth
      · rw [within_of_le fits, if_pos (by omega)]
        rfl
      · rw [within, if_neg fits, if_neg (by omega)]
        rfl

/-- A well-formed annotation is read from its tokens, and as a term unless it is a union. -/
theorem reads_of_isWellFormed (a : TypeExpr) : a.isWellFormed = true →
    ReadsUnion a ∧ (a.isUnion = false → ReadsTerm a) := by
  have single {a : TypeExpr} (reads : ReadsTerm a) :
      ReadsUnion a ∧ (a.isUnion = false → ReadsTerm a) :=
    ⟨readsUnion_of_readsTerm reads, fun _ => reads⟩
  induction a using partInduction with
  | name word =>
    intro _
    refine single fun depth rest shallow noGeneric => ?_
    rw [tokens, List.singleton_append, readTerm_name noGeneric, nesting]
    exact (within_of_le shallow).symm
  | forward text =>
    intro _
    refine single fun depth rest shallow _ => ?_
    rw [tokens, List.singleton_append, readTerm_text, nesting]
    exact (within_of_le shallow).symm
  | literal v =>
    intro formed
    rw [isWellFormed] at formed
    cases formed
  | generic head args ih =>
    intro formed
    obtain ⟨_, inhabited, parts⟩ := isWellFormed_generic_iff.1 formed
    refine single (readsTerm_generic inhabited ?_)
    split at parts
    · rw [if_pos ‹_›]
      exact parts
    · rw [if_neg ‹_›]
      exact fun arg member => (ih arg member (parts arg member)).1
  | union arms ih =>
    intro formed
    obtain ⟨several, parts⟩ := isWellFormed_union_iff.1 formed
    refine ⟨readsUnion_union several fun arm member => ?_, fun other => by cases other⟩
    exact (ih arm member (parts arm member).2).2 (parts arm member).1

/-- The tokens of a well-formed annotation make the annotation, unless it is nested too deep. -/
theorem ofTokens_tokens {a : TypeExpr} (formed : a.isWellFormed = true) :
    ofTokens a.tokens = if a.nesting ≤ maxDepth then .ok a else .error .tooDeep := by
  have read := (reads_of_isWellFormed a formed).1 0 [] (Nat.zero_le _) (fun none => by cases none)
    fun none => by cases none
  rw [List.append_nil, Nat.zero_add] at read
  rw [ofTokens_eq, read]
  by_cases shallow : a.nesting ≤ maxDepth
  · rw [within_of_le shallow, if_pos shallow]
    rfl
  · rw [within, if_neg shallow, if_neg shallow]

end CallContract.TypeExpr
