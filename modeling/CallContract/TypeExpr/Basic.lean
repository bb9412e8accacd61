import CallContract.Json.Literal
import CallContract.Json.Printer
import CallContract.Text.Quoted

/-!
# Annotations

An annotation is the tree of a type as it is written in text. Quoted parts are kept as text, so that
they can refer to types that are declared later.

* `TypeExpr.weight` bounds how long a text an annotation can come from; a quoted part weighs as
  much as its text with its quotes.
* `Token` is a lexeme of the text; `TypeExpr.Fault` is what can be wrong with an annotation.
-/

namespace CallContract

/-- A type as it is written. -/
inductive TypeExpr where
  | name (name : String)
  | generic (head : String) (args : List TypeExpr)
  | union (arms : List TypeExpr)
  | forward (text : String)
  | literal (value : Json)

namespace TypeExpr

instance : Inhabited TypeExpr := ⟨.name ""⟩

mutual
/-- The least length of a text that an annotation comes from, by a coarse count. -/
def weight : TypeExpr → Nat
  | .name _ => 1
  | .generic _ args => 1 + weightOfAll args
  | .union arms => 1 + weightOfAll arms
  | .forward text => text.toList.length + 2
  | .literal _ => 1

/-- The weights of several annotations together. -/
def weightOfAll : List TypeExpr → Nat
  | [] => 0
  | a :: rest => weight a + weightOfAll rest
end

theorem weight_pos (a : TypeExpr) : 0 < a.weight := by
  cases a <;> unfold weight <;> omega

theorem weight_le_of_mem {a : TypeExpr} {as : List TypeExpr} (h : a ∈ as) :
    a.weight ≤ weightOfAll as := by
  induction as with
  | nil => simp at h
  | cons b rest ih =>
    simp only [List.mem_cons] at h
    simp only [weightOfAll]
    rcases h with rfl | h
    · omega
    · have := ih h
      omega

/-- Whether a generic takes literal values. -/
def isLiteralHead (head : String) : Bool :=
  head == "Literal" || head == "typing.Literal" || head == "typing_extensions.Literal"

/-- The deepest nesting of generics in an annotation. -/
def maxDepth : Nat := 128

end TypeExpr

/-- The punctuation of annotations. -/
inductive Mark where
  | openBracket
  | closeBracket
  | comma
  | bar
  deriving DecidableEq

/-- The character of a mark. -/
def Mark.char : Mark → Char
  | .openBracket => '['
  | .closeBracket => ']'
  | .comma => ','
  | .bar => '|'

/-- A lexeme of an annotation. -/
inductive Token where
  | ident (name : String)
  | text (value : String)
  | number (value : Json.Number)
  | mark (mark : Mark)
  deriving DecidableEq

/-- A token as messages show it. -/
def Token.shown : Token → String
  | .ident name => "Ident(" ++ Text.quoted name ++ ")"
  | .text value => "Str(" ++ Text.quoted value ++ ")"
  | .number value => "Num(" ++ String.ofList value.write ++ ")"
  | .mark m => "Punct('" ++ m.char.toString ++ "')"

/-- What can be wrong with an annotation. -/
inductive TypeExpr.Fault where
  | unexpectedCharacter (offset : Nat)
  | badString (error : Json.SyntaxError)
  | badNumber (error : Json.SyntaxError)
  | endOfText
  | trailingInput (token : Nat)
  | expected (mark : Mark)
  | unexpected (mark : Mark)
  | numberOutsideLiteral
  | tooDeep
  | unterminatedLiteral
  | unsupportedLiteral (token : Token)
  | literalOutsideLiteral
  | literalTakesValues
  | arity (head : String) (takes got : Nat)
  | unsupportedGeneric (name : String)
  | unresolved (name : String)
  | recursive (name : String) (stack : List String)
  | shadowsBuiltin
  | declaredTwice
  | missing
  deriving DecidableEq

/-- The text of a fault. -/
def TypeExpr.Fault.message : TypeExpr.Fault → String
  | .unexpectedCharacter offset => "unexpected character at offset " ++ Decimal.natText offset
  | .badString e => "bad string literal: " ++ e.message
  | .badNumber e => "bad number literal: " ++ e.message
  | .endOfText => "unexpected end of annotation"
  | .trailingInput token => "unexpected trailing input at token " ++ Decimal.natText token
  | .expected m => "expected `" ++ m.char.toString ++ "`"
  | .unexpected m => "unexpected `" ++ m.char.toString ++ "`"
  | .numberOutsideLiteral => "numbers are only allowed inside Literal[...]"
  | .tooDeep => "nested deeper than " ++ Decimal.natText TypeExpr.maxDepth ++ " levels"
  | .unterminatedLiteral => "unterminated Literal[...]"
  | .unsupportedLiteral token => "unsupported literal value " ++ token.shown
  | .literalOutsideLiteral => "literal value outside Literal[...]"
  | .literalTakesValues => "Literal[...] accepts values only"
  | .arity head takes got =>
    head ++ "[...] takes " ++ Decimal.natText takes ++ " argument(s), got " ++
      Decimal.natText got
  | .unsupportedGeneric head => "`" ++ head ++ "` is not a supported generic"
  | .unresolved ref => "unresolved name `" ++ ref ++ "`"
  | .recursive ref stack =>
    "recursive reference to `" ++ ref ++ "` (" ++ " -> ".intercalate stack ++ " -> " ++ ref ++
      ")"
  | .shadowsBuiltin => "shadows a builtin type name"
  | .declaredTwice => "declared more than once"
  | .missing => "parameter has no type annotation"

end CallContract
