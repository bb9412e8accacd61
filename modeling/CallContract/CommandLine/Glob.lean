import CallContract.CommandLine.Files

/-!
# Patterns of paths

* `Glob.ofText` reads a pattern. Within a name `?` stands for any character, `*` for any number of
  them, and brackets for one of some; `**` as a whole name stands for any number of directories.
* `NamePattern.matches` tells whether a name fits one part of a pattern.
* `Glob.paths` are the paths that fit a pattern, sorted by name on every level.
-/

namespace CallContract

/-! ## Reading patterns -/

/-- Characters in brackets: one, or all from one to another. -/
structure CharRange where
  first : Char
  last : Char
  deriving DecidableEq

/-- A part of the pattern of a name. -/
inductive GlobToken where
  | char (c : Char)
  | anyChar
  | anyText
  | anyDirectories
  | oneOf (ranges : List CharRange)
  | noneOf (ranges : List CharRange)
  deriving DecidableEq

/-- Why a text is no pattern. -/
inductive GlobFault where
  | tooManyStars
  | mixedStars
  | unclosedBracket
  deriving DecidableEq

/-- A fault of a pattern, and the number of characters in front of it. -/
structure GlobError where
  position : Nat
  fault : GlobFault
  deriving DecidableEq

/-- The text of an error. -/
def GlobError.message (e : GlobError) : String :=
  "Pattern syntax error near position " ++ Decimal.natText e.position ++ ": " ++
    match e.fault with
    | .tooManyStars => "wildcards are either regular `*` or recursive `**`"
    | .mixedStars => "recursive wildcards must form a single path component"
    | .unclosedBracket => "invalid range pattern"

/-- Whether a text is a pattern rather than a path. -/
def isGlob (text : String) : Bool :=
  text.toList.any fun c => c = '*' || c = '?' || c = '[' || c = '\x7b'

/-- The characters that the text between brackets stands for. -/
def charRanges : List Char → List CharRange
  | first :: '-' :: last :: rest => ⟨first, last⟩ :: charRanges rest
  | c :: rest => ⟨c, c⟩ :: charRanges rest
  | [] => []

/-- The text up to a closing bracket, which is not the first character, and what stands behind. -/
def splitBracket : List Char → Option (List Char × List Char)
  | [] => none
  | first :: rest =>
    match rest.dropWhile fun c => c ≠ ']' with
    | [] => none
    | _ :: behind => some (first :: rest.takeWhile fun c => c ≠ ']', behind)

/-- Reads what stands behind an opening bracket. -/
def readBracket : List Char → Option (GlobToken × List Char)
  | '!' :: rest => (splitBracket rest).map fun (inner, behind) => (.noneOf (charRanges inner), behind)
  | rest => (splitBracket rest).map fun (inner, behind) => (.oneOf (charRanges inner), behind)

theorem length_of_splitBracket {cs inner behind : List Char}
    (h : splitBracket cs = some (inner, behind)) : behind.length < cs.length := by
  cases cs with
  | nil => simp [splitBracket] at h
  | cons first rest =>
    simp only [splitBracket] at h
    split at h
    · simp at h
    · next d tail hd =>
      simp only [Option.some.injEq, Prod.mk.injEq] at h
      have : (rest.dropWhile fun c => decide (c ≠ ']')).length ≤ rest.length :=
        (List.dropWhile_sublist _).length_le
      rw [hd] at this
      simp at this
      rw [← h.2]
      simp
      omega

theorem length_of_readBracket {cs behind : List Char} {token : GlobToken}
    (h : readBracket cs = some (token, behind)) : behind.length < cs.length := by
  unfold readBracket at h
  split at h
  · simp only [Option.map_eq_some_iff] at h
    obtain ⟨⟨inner, tail⟩, hs, h⟩ := h
    have := length_of_splitBracket hs
    simp only [Prod.mk.injEq] at h
    rw [← h.2]
    simp
    omega
  · simp only [Option.map_eq_some_iff] at h
    obtain ⟨⟨inner, tail⟩, hs, h⟩ := h
    have := length_of_splitBracket hs
    simp only [Prod.mk.injEq] at h
    rw [← h.2]
    exact this

/-- Reads the tokens of a pattern. `position` counts the characters read, and `atStart` tells whether
a name starts here. Two stars have to be a whole name, and take the slash behind them along. -/
def readTokens (position : Nat) (atStart : Bool) (cs : List Char) :
    Except GlobError (List GlobToken) :=
  match cs with
  | [] => .ok []
  | '?' :: rest => do return .anyChar :: (← readTokens (position + 1) false rest)
  | '*' :: '*' :: '*' :: _ => .error ⟨position + 2, .tooManyStars⟩
  | '*' :: '*' :: rest =>
    if atStart then
      match rest with
      | [] => .ok [.anyDirectories]
      | '/' :: rest => do return .anyDirectories :: (← readTokens (position + 3) true rest)
      | _ => .error ⟨position + 2, .mixedStars⟩
    else .error ⟨position - 1, .mixedStars⟩
  | '*' :: rest => do return .anyText :: (← readTokens (position + 1) false rest)
  | '[' :: rest =>
    match h : readBracket rest with
    | some (token, behind) =>
      have := length_of_readBracket h
      do return token :: (← readTokens (position + 1 + (rest.length - behind.length)) false behind)
    | none => .error ⟨position, .unclosedBracket⟩
  | c :: rest => do return .char c :: (← readTokens (position + 1) (c = '/') rest)
termination_by cs.length

/-! ## Names -/

/-- The pattern of a name. -/
abbrev NamePattern : Type := List GlobToken

/-- Whether some ranges hold a character. -/
def inRanges (c : Char) (ranges : List CharRange) : Bool :=
  ranges.any fun range => range.first ≤ c && c ≤ range.last

/-- Whether a token stands for a character. -/
def GlobToken.admits (c : Char) : GlobToken → Bool
  | .char d => c = d
  | .anyChar | .anyText | .anyDirectories => true
  | .oneOf ranges => inRanges c ranges
  | .noneOf ranges => !inRanges c ranges

/-- The character that a token is. -/
def GlobToken.literal? : GlobToken → Option Char
  | .char c => some c
  | _ => none

/-- Whether a test holds for some end of a list, the list itself and the empty list among them. -/
def anyTail {α : Type} (test : List α → Bool) : List α → Bool
  | [] => test []
  | a :: rest => test (a :: rest) || anyTail test rest

namespace NamePattern

/-- Whether the characters of a name fit a pattern. -/
def matchesChars : NamePattern → List Char → Bool
  | [], cs => cs.isEmpty
  | .anyText :: rest, cs => anyTail (matchesChars rest) cs
  | .anyDirectories :: rest, cs => anyTail (matchesChars rest) cs
  | _ :: _, [] => false
  | token :: rest, c :: cs => token.admits c && matchesChars rest cs

/-- Whether a name fits a pattern. -/
def isMatch (pattern : NamePattern) (name : String) : Bool :=
  matchesChars pattern name.toList

/-- The name that a pattern without placeholders stands for. -/
def literal? (pattern : NamePattern) : Option String :=
  (pattern.mapM GlobToken.literal?).map String.ofList

/-- Whether a pattern stands for any number of directories. -/
def isRecursive (pattern : NamePattern) : Bool :=
  pattern.contains .anyDirectories

/-- Whether a pattern starts with a point. -/
def startsWithPoint (pattern : NamePattern) : Bool :=
  pattern.head? = some (.char '.')

end NamePattern

/-! ## Paths -/

/-- A pattern of paths: one pattern for each name, and whether only directories fit. -/
structure Glob where
  isAbsolute : Bool
  parts : List NamePattern
  onlyDirectories : Bool

/-- The pattern of paths that a text is. The whole of it has to be right, and so has each name. -/
def Glob.ofText (text : String) : Except GlobError Glob := do
  discard <| readTokens 0 true text.toList
  let isAbsolute := text.toList.head? = some '/'
  let names := Pointer.splitSlash (if isAbsolute then text.toList.drop 1 else text.toList)
  let names := if names.getLast? = some [] then names.dropLast else names
  let parts ← names.mapM (readTokens 0 true)
  return { isAbsolute := isAbsolute, parts := parts,
           onlyDirectories := text.toList.getLast? = some '/' }

/-- A path with a name behind it. -/
def joinPath (path name : String) : String :=
  if path = "" ∨ path.toList.getLast? = some '/' then path ++ name else path ++ "/" ++ name

/-- Whether a path is the working directory itself: names in it stand alone. -/
def isHere (path : String) : Bool :=
  path ≠ "" && (pathParts path).head? = some "." &&
    (pathParts path).all fun part => part = "" || part = "."

/-- The path of something in a directory. -/
def inDirectory (path name : String) : String :=
  if isHere path then name else joinPath path name

/-- The most directories that are looked into below each other: no path has more characters. -/
def deepest : Nat := 4096

namespace Glob

variable {m : Type → Type} [Monad m] (files : Files m) (onlyDirectories : Bool)

/-- Whether a path leads to a directory. -/
def isDirectory (path : String) : m Bool :=
  return (← files.kind? path) = some .directory

/-- The path itself, if it may be a result. -/
def result (path : String) : m (List String) := do
  if onlyDirectories && !(← isDirectory files path) then return [] else return [path]

/-- Names in the order of their characters. -/
def sorted (names : List String) : List String :=
  names.mergeSort fun a b => decide (a ≤ b)

/-- Patterns without those of directories in front. -/
def afterRecursive (parts : List NamePattern) : List NamePattern :=
  parts.dropWhile NamePattern.isRecursive

theorem length_afterRecursive_le (parts : List NamePattern) :
    (afterRecursive parts).length ≤ parts.length :=
  (List.dropWhile_sublist _).length_le

mutual
/-- The paths in a directory that fit patterns of names. `depth` directories may still be entered for
one pattern of directories. -/
def below (depth : Nat) (path : String) (parts : List NamePattern) : m (List String) :=
  match parts with
  | [] => return []
  | part :: rest => do
    let directory ← isDirectory files path
    match part.literal? with
    | some name =>
      let next := inDirectory path name
      let special := name = "." || name = ".."
      let kind ← files.kind? next
      let found := if special then directory else kind.isSome
      if found then behind depth next rest else return []
    | none =>
      if directory then
        let points := if part.startsWithPoint then ["..", "."].filter part.isMatch else []
        let special ← points.flatMapM fun name => behind depth (joinPath path name) rest
        let names := sorted (← files.names path)
        let children ← names.flatMapM fun name =>
          child depth (inDirectory path name) name part rest
        return special ++ children
      else return []
termination_by (parts.length, depth, 1)

/-- A path whose last name fits its pattern, or the paths below it that fit the patterns behind. -/
def behind (depth : Nat) (path : String) (rest : List NamePattern) : m (List String) :=
  match rest with
  | [] => result files onlyDirectories path
  | next :: rest => below depth path (next :: rest)
termination_by (rest.length, depth, 2)

/-- A path in a directory and the paths below it that fit patterns of names, the first of which is
to fit the name. A pattern of directories stands for no name, or for this one and others. -/
def child (depth : Nat) (path name : String) (part : NamePattern) (rest : List NamePattern) :
    m (List String) :=
  if part.isRecursive then do
    let directory ← isDirectory files path
    let inside ←
      if directory then
        match depth with
        | 0 => pure []
        | depth + 1 => below depth path (part :: rest)
      else pure []
    match h : afterRecursive rest with
    | [] => return (if directory then [path] else []) ++ inside
    | next :: rest' =>
      have : rest'.length < rest.length + 1 := by
        have := length_afterRecursive_le rest
        rw [h] at this
        simp at this
        omega
      let here ← if next.isMatch name then behind depth path rest' else pure []
      return here ++ inside
  else if part.isMatch name then behind depth path rest
  else return []
termination_by (rest.length + 1, depth, 0)
end

/-- The paths that fit a pattern. -/
def paths (glob : Glob) : m (List String) :=
  below files glob.onlyDirectories deepest (if glob.isAbsolute then "/" else ".") glob.parts

end Glob

end CallContract
