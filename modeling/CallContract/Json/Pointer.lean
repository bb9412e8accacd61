import CallContract.Json.Basic
import CallContract.Decimal.Numeral

/-!
# JSON pointers

A pointer is a list of tokens, each the key of an object or the index of an array.

* `Pointer.text` writes a pointer with `~` and `/` escaped in its tokens, `Pointer.plainText`
  without; the pointer to the whole document is shown as `/`.
* `Pointer.ofText?` reads a pointer as RFC 6901 says, where the empty text is the whole document.
* `Json.at?` follows a pointer into a value.
-/

namespace CallContract

/-- The tokens from the root of a document to one of its values. -/
abbrev Pointer : Type := List String

namespace Pointer

/-- A character of a token in the text of a pointer. -/
def escapeChar (c : Char) : List Char :=
  if c = '~' then ['~', '0'] else if c = '/' then ['~', '1'] else [c]

/-- The characters that escapes in a token stand for. -/
def unescape : List Char → List Char
  | '~' :: '0' :: rest => '~' :: unescape rest
  | '~' :: '1' :: rest => '/' :: unescape rest
  | c :: rest => c :: unescape rest
  | [] => []

/-- The text of tokens, each behind a slash; `/` where there are none. -/
def join (tokens : List (List Char)) : String :=
  match tokens with
  | [] => "/"
  | _ => String.ofList (tokens.flatMap fun token => '/' :: token)

/-- The text of a pointer, its tokens escaped. -/
def text (p : Pointer) : String :=
  join (p.map fun token => token.toList.flatMap escapeChar)

/-- The text of a pointer, its tokens as they are. -/
def plainText (p : Pointer) : String :=
  join (p.map String.toList)

/-- Splits a text at slashes. -/
def splitSlash : List Char → List (List Char)
  | [] => [[]]
  | c :: rest =>
    match splitSlash rest with
    | [] => [[c]]
    | token :: tokens => if c = '/' then [] :: token :: tokens else (c :: token) :: tokens

/-- The pointer that a text denotes: none unless the text is empty or starts with a slash. -/
def ofText? (s : String) : Option Pointer :=
  match s.toList with
  | [] => some []
  | c :: rest =>
    if c = '/' then some ((splitSlash rest).map fun token => String.ofList (unescape token))
    else none

/-- The index of an array that a token denotes: digits without leading zeros. -/
def index? (token : String) : Option Nat :=
  let cs := token.toList
  if cs.isEmpty || !cs.all Char.isDigit || (cs.head? == some '0' && cs.length != 1) then none
  else some (Decimal.valueOf cs)

@[simp] theorem unescape_escape (cs : List Char) : unescape (cs.flatMap escapeChar) = cs := by
  induction cs with
  | nil => rfl
  | cons c rest ih =>
    by_cases hc : c = '~'
    · subst hc
      simp [escapeChar, unescape, ih]
    · by_cases hc' : c = '/'
      · subst hc'
        simp [escapeChar, unescape, ih]
      · simp only [List.flatMap_cons, escapeChar, if_neg hc, if_neg hc', List.cons_append,
          List.nil_append]
        rw [unescape]
        · rw [ih]
        · intro rest' h
          exact absurd h hc
        · intro rest' h
          exact absurd h hc

end Pointer

/-- The value that a pointer leads to. -/
def Json.at? (j : Json) : Pointer → Option Json
  | [] => some j
  | token :: rest =>
    match j with
    | .obj fields => (Keyed.get? token fields).bind fun value => value.at? rest
    | .arr items => (Pointer.index? token).bind fun i => items[i]?.bind fun value => value.at? rest
    | _ => none

end CallContract
