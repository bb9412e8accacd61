import CallContract.Value.Error
import CallContract.Value.Basic
import CallContract.Json.Equality

/-!
# Members and keys

* `EnumMember.find?` looks a value up among the members of an enumeration.
* `checkKey` tells whether a key of an object fits the key type of a mapping. Keys of numbers are
  read as text: `isIntegerText` and `isNumberText` are the grammars.
-/

namespace CallContract

/-- The first member that has a value. -/
def EnumMember.find? (value : Json) (members : List EnumMember) : Option EnumMember :=
  members.find? fun m => m.value.equal value

/-- The member of an enumeration that a payload is the value of. -/
def validateEnum (name : String) (members : List EnumMember) (v : Json) :
    Except ConstructionError EnumMember :=
  match EnumMember.find? v members with
  | some member => .ok member
  | none => .error (.invalidEnumValue name v)

namespace Text

/-- A text without a sign in front, and whether there was a minus sign. -/
def splitSign : List Char → Bool × List Char
  | '-' :: rest => (true, rest)
  | '+' :: rest => (false, rest)
  | cs => (false, cs)

/-- Whether a text is digits, at least one. -/
def isDigits (cs : List Char) : Bool :=
  !cs.isEmpty && cs.all Char.isDigit

/-- Whether a text is an integer of a signed 64-bit word: digits, perhaps behind a sign. -/
def isIntegerText (s : String) : Bool :=
  let (negative, digits) := splitSign s.toList
  isDigits digits &&
    decide (Json.IsSignedWord (if negative then -(Decimal.valueOf digits) else Decimal.valueOf digits))

/-- Whether a text is empty or an exponent: `e`, perhaps a sign, and digits. -/
def isExponent : List Char → Bool
  | [] => true
  | c :: rest => (c = 'e' ∨ c = 'E') && isDigits (splitSign rest).2

/-- Whether a text is a decimal numeral: digits, a point if there is one with digits on one of its
sides, and perhaps an exponent. -/
def isNumeral (cs : List Char) : Bool :=
  let whole := cs.takeWhile Char.isDigit
  match cs.dropWhile Char.isDigit with
  | '.' :: rest =>
    (!whole.isEmpty || !(rest.takeWhile Char.isDigit).isEmpty) &&
      isExponent (rest.dropWhile Char.isDigit)
  | rest => !whole.isEmpty && isExponent rest

/-- Whether a text is a number: a decimal numeral, an infinity or the word for no number, whose
letters may be capital, perhaps behind a sign. -/
def isNumberText (s : String) : Bool :=
  let (_, cs) := splitSign s.toList
  let word := String.ofList (cs.map Char.toLower)
  word = "inf" || word = "infinity" || word = "nan" || isNumeral cs

end Text

/-- Checks a key of an object against the key type of a mapping. The place is that of the value
under the key. -/
def checkKey (place : Pointer) (type : Descriptor) (key : String) : Except ConstructionError Unit :=
  let fits (ok : Bool) : Except ConstructionError Unit :=
    if ok then .ok () else .error (.typeMismatch place (.key type) .string)
  match type with
  | .primitive .string | .path | .any => .ok ()
  | .primitive .integer => fits (Text.isIntegerText key)
  | .primitive .number => fits (Text.isNumberText key)
  | .primitive .boolean => fits (key = "true" || key = "false")
  | .enumeration name members => discard (validateEnum name members (.str key))
  | _ => fits false

end CallContract
