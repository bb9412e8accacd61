import CallContract.Decimal.Binary64
import CallContract.Decimal.Numeral
import CallContract.Json.Basic
import CallContract.Text.Blank

/-!
# String and number literals of JSON

The literals are read in two degrees of strictness at once. A literal whose form is broken stops the
reading of the text (`Except` outside); a literal of good form may still denote nothing (`Except`
inside), as an escape of half a surrogate pair or a number beyond binary64 does: a reader that only
skips it goes on behind it.

* `readString` reads what follows an opening quote, `readNumber` a number.
* `Scaled.float?` computes floats the fast way, from a word and a power of ten. Of long literals, and
  of such with large powers, it need not be the nearest float, and the greatest floats may be out of
  range when they are written with all their digits.
* The rest of the text comes back with a proof that it is shorter.
-/

namespace CallContract.Json

/-- What can be wrong with the form of a JSON text. -/
inductive SyntaxError where
  | endOfValue
  | endOfObject
  | endOfArray
  | endOfString
  | expectedValue
  | expectedWord
  | expectedColon
  | expectedObjectEnd
  | expectedArrayEnd
  | keyNotString
  | trailingComma
  | trailingCharacters
  | invalidNumber
  | numberOutOfRange
  | invalidEscape
  | controlCharacter
  | unfinishedSurrogate
  | loneSurrogate
  | tooDeep
  deriving DecidableEq

/-- The text of a syntax error. -/
def SyntaxError.message : SyntaxError → String
  | .endOfValue => "EOF while parsing a value"
  | .endOfObject => "EOF while parsing an object"
  | .endOfArray => "EOF while parsing a list"
  | .endOfString => "EOF while parsing a string"
  | .expectedValue => "expected value"
  | .expectedWord => "expected ident"
  | .expectedColon => "expected `:`"
  | .expectedObjectEnd => "expected `,` or `\x7d`"
  | .expectedArrayEnd => "expected `,` or `]`"
  | .keyNotString => "key must be a string"
  | .trailingComma => "trailing comma"
  | .trailingCharacters => "trailing characters"
  | .invalidNumber => "invalid number"
  | .numberOutOfRange => "number out of range"
  | .invalidEscape => "invalid escape"
  | .controlCharacter => "control character (\\u0000-\\u001F) found while parsing a string"
  | .unfinishedSurrogate => "unexpected end of hex escape"
  | .loneSurrogate => "lone leading surrogate in hex escape"
  | .tooDeep => "recursion limit exceeded"

/-- A text shorter than another. -/
abbrev Shorter (cs : List Char) : Type :=
  { rest : List Char // rest.length < cs.length }

/-- A rest of a rest. -/
def Shorter.widen {cs ds : List Char} (h : ds.length ≤ cs.length) (rest : Shorter ds) :
    Shorter cs :=
  ⟨rest.val, Nat.lt_of_lt_of_le rest.property h⟩

/-- What reading a literal gives: the literal's meaning, if it has one, and the rest of the text. -/
abbrev LiteralRead (α : Type) (cs : List Char) : Type :=
  Except SyntaxError (Except SyntaxError α × Shorter cs)

/-! ## Strings -/

/-- The value of a hexadecimal digit. -/
def hexValue? (c : Char) : Option Nat :=
  if c.isDigit then some (c.toNat - 48)
  else if 'a' ≤ c ∧ c ≤ 'f' then some (c.toNat - 87)
  else if 'A' ≤ c ∧ c ≤ 'F' then some (c.toNat - 55)
  else none

/-- The number that four hexadecimal digits stand for. -/
def hexValue4? (a b c d : Char) : Option Nat := do
  return ((← hexValue? a) * 16 + (← hexValue? b)) * 256 + (← hexValue? c) * 16 + (← hexValue? d)

/-- Reads four hexadecimal digits. A text of fewer than four bytes has ended before them. -/
def readHex : (cs : List Char) → Except SyntaxError (Nat × Shorter cs)
  | a :: b :: c :: d :: rest =>
    match hexValue4? a b c d with
    | some n => .ok (n, ⟨rest, by simp; omega⟩)
    | none => .error .invalidEscape
  | cs => .error (if Text.byteLength cs < 4 then .endOfString else .invalidEscape)

/-- Whether a code unit is the first half of a surrogate pair. -/
def isHighSurrogate (n : Nat) : Bool :=
  0xD800 ≤ n && n < 0xDC00

/-- Whether a code unit is the second half of a surrogate pair. -/
def isLowSurrogate (n : Nat) : Bool :=
  0xDC00 ≤ n && n < 0xE000

/-- The character that a surrogate pair stands for. -/
def ofSurrogates (high low : Nat) : Char :=
  Char.ofNat (0x10000 + (high - 0xD800) * 0x400 + (low - 0xDC00))

/-- The character of an escape of one letter. -/
def shortEscape? (c : Char) : Option Char :=
  if c = '"' ∨ c = '\\' ∨ c = '/' then some c
  else if c = 'b' then some '\x08'
  else if c = 'f' then some '\x0c'
  else if c = 'n' then some '\n'
  else if c = 'r' then some '\r'
  else if c = 't' then some '\t'
  else none

/-- Reads an escape by code unit, behind its `u`. The first half of a surrogate pair needs the
escape of the second half right behind it. -/
def readCodeUnit (cs : List Char) : LiteralRead Char cs :=
  match readHex cs with
  | .error e => .error e
  | .ok (n, rest) =>
    if isLowSurrogate n then .ok (.error .loneSurrogate, rest)
    else if isHighSurrogate n then
      match hr : rest.val with
      | [] => .error .endOfString
      | ['\\'] => .error .endOfString
      | '\\' :: 'u' :: tail =>
        match readHex tail with
        | .error e => .error e
        | .ok (low, after) =>
          if isLowSurrogate low then
            .ok (.ok (ofSurrogates n low), after.widen (by
              have := rest.property
              rw [hr] at this
              simp at this
              omega))
          else .ok (.error .loneSurrogate, rest)
      | _ => .ok (.error .unfinishedSurrogate, rest)
    else .ok (.ok (Char.ofNat n), rest)

/-- Reads an escape, behind its backslash. -/
def readEscape : (cs : List Char) → LiteralRead Char cs
  | [] => .error .endOfString
  | c :: rest =>
    if c = 'u' then
      match readCodeUnit rest with
      | .error e => .error e
      | .ok (read, after) => .ok (read, after.widen (by simp))
    else
      match shortEscape? c with
      | some d => .ok (.ok d, ⟨rest, by simp⟩)
      | none => .error .invalidEscape

/-- Puts a character before the string that follows it. Of two errors the first one counts. -/
def consRead {cs ds : List Char} (first : Except SyntaxError Char)
    (h : ds.length ≤ cs.length) : LiteralRead (List Char) ds → LiteralRead (List Char) cs
  | .error e =>
    match first with
    | .error e' => .error e'
    | .ok _ => .error e
  | .ok (more, rest) => .ok (do return (← first) :: (← more), rest.widen h)

/-- Reads a string up to its closing quote, behind the opening one. -/
def readString (cs : List Char) : LiteralRead (List Char) cs :=
  match cs with
  | [] => .error .endOfString
  | c :: rest =>
    if c = '"' then .ok (.ok [], ⟨rest, by simp⟩)
    else if c = '\\' then
      match readEscape rest with
      | .error e => .error e
      | .ok (d, ⟨after, hafter⟩) => consRead d (by simp; omega) (readString after)
    else if c.toNat < 0x20 then .error .controlCharacter
    else consRead (.ok c) (by simp) (readString rest)
termination_by cs.length
decreasing_by all_goals simp; try omega

theorem length_of_consRead {cs ds : List Char} {first : Except SyntaxError Char}
    {h : ds.length ≤ cs.length} {read : LiteralRead (List Char) ds} {s : List Char}
    {rest : Shorter cs} (hread : consRead first h read = .ok (.ok s, rest)) :
    ∃ c more rest', s = c :: more ∧ read = .ok (.ok more, rest') ∧ rest.val = rest'.val := by
  match read with
  | .error e => cases first <;> simp [consRead] at hread
  | .ok (more, rest') =>
    cases first with
    | error e => simp [consRead, bind, Except.bind] at hread
    | ok c =>
      cases more with
      | error e => simp [consRead, bind, Except.bind] at hread
      | ok more =>
        simp [consRead, bind, Except.bind, pure, Except.pure] at hread
        exact ⟨c, more, rest', hread.1.symm, rfl, by rw [← hread.2]; rfl⟩

/-- A string has no more characters than its literal. -/
theorem length_readString {cs : List Char} {s : List Char} {rest : Shorter cs}
    (h : readString cs = .ok (.ok s, rest)) : s.length + 1 + rest.val.length ≤ cs.length := by
  fun_induction readString cs generalizing s with
  | case1 => simp at h
  | case2 tail =>
    simp at h
    obtain ⟨rfl, rfl⟩ := h
    simp
    omega
  | case3 => simp at h
  | case4 tail _ d after hafter _ ih =>
    obtain ⟨c, more, rest', rfl, hread, hrest⟩ := length_of_consRead h
    have := ih hread
    rw [hrest]
    simp
    omega
  | case5 => simp at h
  | case6 c tail _ _ _ ih =>
    obtain ⟨c, more, rest', rfl, hread, hrest⟩ := length_of_consRead h
    have := ih hread
    rw [hrest]
    simp
    omega

/-! ## Numbers -/

/-- Splits a text behind its leading digits. -/
def spanDigits : List Char → List Char × List Char
  | [] => ([], [])
  | c :: rest =>
    if c.isDigit then
      let (digits, after) := spanDigits rest
      (c :: digits, after)
    else ([], c :: rest)

theorem length_spanDigits (cs : List Char) :
    (spanDigits cs).1.length + (spanDigits cs).2.length = cs.length := by
  induction cs with
  | nil => rfl
  | cons c rest ih =>
    simp only [spanDigits]
    split
    · simp
      omega
    · simp

/-- The digits that have to stand at some place of a number. -/
def readDigits (cs : List Char) : Except SyntaxError (List Char × Shorter cs) :=
  match h : spanDigits cs with
  | ([], []) => .error .endOfValue
  | ([], _ :: _) => .error .invalidNumber
  | (d :: digits, rest) => .ok (d :: digits, ⟨rest, by
      have := length_spanDigits cs
      rw [h] at this
      simp at this
      omega⟩)

/-- A text not longer than another. -/
abbrev NotLonger (cs : List Char) : Type :=
  { rest : List Char // rest.length ≤ cs.length }

/-- The whole part of a number: it starts with no zero unless it is zero. -/
def readWhole (cs : List Char) : Except SyntaxError (List Char × Shorter cs) :=
  match readDigits cs with
  | .error e => .error e
  | .ok (digits, rest) =>
    if digits.head? = some '0' ∧ 1 < digits.length then .error .invalidNumber
    else .ok (digits, rest)

/-- The digits behind the point, if there is one. -/
def readPlaces : (cs : List Char) → Except SyntaxError (Option (List Char) × NotLonger cs)
  | [] => .ok (none, ⟨[], by simp⟩)
  | c :: rest =>
    if c = '.' then
      match readDigits rest with
      | .error e => .error e
      | .ok (digits, after) =>
        .ok (some digits, ⟨after.val, by have := after.property; simp; omega⟩)
    else .ok (none, ⟨c :: rest, by simp⟩)

/-- The digits of an exponent behind its letter, with a sign before them or none. -/
def readSignedDigits : (cs : List Char) → Except SyntaxError (Int × Shorter cs)
  | [] => .error .endOfValue
  | c :: rest =>
    if c = '+' ∨ c = '-' then
      match readDigits rest with
      | .error e => .error e
      | .ok (digits, after) =>
        let n : Int := Decimal.valueOf digits
        .ok (if c = '-' then -n else n, after.widen (by simp))
    else
      match readDigits (c :: rest) with
      | .error e => .error e
      | .ok (digits, after) => .ok (Decimal.valueOf digits, after)

/-- The exponent of a number, if there is one. -/
def readExponent : (cs : List Char) → Except SyntaxError (Option Int × NotLonger cs)
  | [] => .ok (none, ⟨[], by simp⟩)
  | c :: rest =>
    if c = 'e' ∨ c = 'E' then
      match readSignedDigits rest with
      | .error e => .error e
      | .ok (n, after) => .ok (some n, ⟨after.val, by have := after.property; simp; omega⟩)
    else .ok (none, ⟨c :: rest, by simp⟩)

/-- What the digits of a number come to: a word, and the power of ten to multiply it by. -/
structure Scaled where
  significand : Nat := 0
  exponent : Int := 0

/-- Appends digits before the point. The first one that makes the word too long, and all behind it,
only raise the power. -/
def Scaled.appendWhole (x : Scaled) : List Char → Scaled
  | [] => x
  | c :: rest =>
    let n := 10 * x.significand + Decimal.digitValue c
    if n < Nat.pow 2 64 then appendWhole { x with significand := n } rest
    else { x with exponent := x.exponent + (rest.length + 1 : Nat) }

/-- Appends digits behind the point. The first one that makes the word too long, and all behind it,
are left out. -/
def Scaled.appendPlaces (x : Scaled) : List Char → Scaled
  | [] => x
  | c :: rest =>
    let n := 10 * x.significand + Decimal.digitValue c
    if n < Nat.pow 2 64 then appendPlaces { significand := n, exponent := x.exponent - 1 } rest
    else x

/-- The power of ten that floats are scaled by at most, as there is no float for the next one. -/
def maxTens : Nat := 308

/-- The float for a power of ten. -/
def tens (power : Nat) : Binary64 :=
  Binary64.ofInt (Nat.pow 10 power)

/-- Divides a float by a power of ten, by at most the greatest one at a time. -/
def divTens (x : Binary64) (power : Nat) : Option Binary64 :=
  if power ≤ maxTens then x.div (tens power)
  else if x.isZero then some x
  else do divTens (← x.div (tens maxTens)) (power - maxTens)
termination_by power
decreasing_by simp only [maxTens] at *; omega

/-- Multiplies a float by a power of ten. -/
def mulTens (x : Binary64) (power : Nat) : Option Binary64 :=
  if power ≤ maxTens then x.mul (tens power)
  else if x.isZero then some x
  else none

/-- The float for scaled digits. The word, the power of ten and what they make are rounded each, so
it is not always the float nearest to what is written. -/
def Scaled.float? (x : Scaled) : Option Binary64 :=
  let word := Binary64.ofInt x.significand
  if 0 ≤ x.exponent then mulTens word x.exponent.toNat else divTens word (-x.exponent).toNat

/-- The number of a literal that is a float. -/
def Number.ofScaled (negative : Bool) (x : Scaled) : Except SyntaxError Number :=
  match x.float? with
  | some y => .ok (.float { y with negative := negative })
  | none => .error .numberOutOfRange

/-- The number that an integer literal stands for: an integer if it is in range, else a float, and a
negative zero is a float. -/
def Number.ofIntLiteral (negative : Bool) (digits : List Char) : Except SyntaxError Number :=
  let n := Decimal.valueOf digits
  let i : Int := if negative then -(n : Int) else n
  if h : IsWord i ∧ ¬ (negative = true ∧ n = 0) then .ok (.int i h.1)
  else Number.ofScaled negative (Scaled.appendWhole {} digits)

/-- The number that a literal stands for. -/
def Number.ofLiteral (negative : Bool) (whole : List Char) (places : Option (List Char))
    (exponent : Option Int) : Except SyntaxError Number :=
  match places, exponent with
  | none, none => Number.ofIntLiteral negative whole
  | _, _ =>
    let x := (Scaled.appendWhole {} whole).appendPlaces (places.getD [])
    Number.ofScaled negative { x with exponent := x.exponent + exponent.getD 0 }

/-- Reads a number without its sign. -/
def readUnsigned (negative : Bool) (cs : List Char) : LiteralRead Number cs :=
  match readWhole cs with
  | .error e => .error e
  | .ok (whole, rest) =>
    match readPlaces rest.val with
    | .error e => .error e
    | .ok (places, rest') =>
      match readExponent rest'.val with
      | .error e => .error e
      | .ok (exponent, rest'') =>
        .ok (Number.ofLiteral negative whole places exponent, ⟨rest''.val, by
          have := rest.property
          have := rest'.property
          have := rest''.property
          omega⟩)

/-- Reads a number, which starts with a minus sign or a digit. -/
def readNumber : (cs : List Char) → LiteralRead Number cs
  | [] => .error .endOfValue
  | c :: rest =>
    if c = '-' then
      match readUnsigned true rest with
      | .error e => .error e
      | .ok (n, after) => .ok (n, after.widen (by simp))
    else readUnsigned false (c :: rest)

end CallContract.Json
