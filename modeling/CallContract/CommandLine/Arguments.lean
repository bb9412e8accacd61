import CallContract.CommandLine.Command

/-!
# Reading arguments

* `OptionSpec` describes an option of a command; `readOptions` reads the options of a command in the
  order in which they are given. Words behind an option of many values are its values, up to the
  next option.
* The values of an option are looked at when the next option, or the end, is reached.
* `Command.ofArguments` reads the arguments of the program.
-/

namespace CallContract

/-! ## Options -/

/-- How many values an option has. -/
inductive Arity where
  | flag
  | one
  | many
  deriving DecidableEq

/-- An option of a command. Values that are paths may not be empty. -/
structure OptionSpec where
  long : String
  short : Option Char := none
  arity : Arity := .one
  isPath : Bool := false
  isRequired : Bool := false

/-- The values of the options given so far, by the names of the options. -/
abbrev GivenOptions : Type := List (String × List String)

/-- An option whose values are being read; `isOpen` tells whether more may follow. -/
structure PendingOption where
  spec : OptionSpec
  values : List String := []
  isOpen : Bool := true

/-- Notes an option with its values. Only options of many values may come again. -/
def accept (given : GivenOptions) (spec : OptionSpec) (values : List String) :
    Except Usage GivenOptions :=
  if spec.arity ≠ .flag ∧ values.isEmpty then .error .invalidValue
  else if spec.arity = .many then
    .ok (Keyed.put spec.long ((Keyed.get? spec.long given).getD [] ++ values) given)
  else if Keyed.contains spec.long given then .error .conflict
  else if spec.isPath ∧ values.contains "" then .error .invalidValue
  else .ok (Keyed.put spec.long values given)

/-- Notes the option whose values have been read, if there is one. -/
def settle (given : GivenOptions) : Option PendingOption → Except Usage GivenOptions
  | none => .ok given
  | some pending => accept given pending.spec pending.values

/-- Adds a value to an option. -/
def PendingOption.push (pending : PendingOption) (value : String) : PendingOption :=
  { pending with values := pending.values ++ [value], isOpen := pending.spec.arity = .many }

/-! ## Words -/

/-- What an argument looks like. -/
inductive Word where
  | escape
  | long (name : String) (value : Option String)
  | short (letter : Char) (rest : List Char)
  | plain (text : String)

/-- The part of a text in front of the first `=`, and the one behind it. -/
def splitEquals : List Char → List Char × Option (List Char)
  | [] => ([], none)
  | '=' :: rest => ([], some rest)
  | c :: rest =>
    let (front, back) := splitEquals rest
    (c :: front, back)

/-- What an argument looks like; a lone dash is a plain word. -/
def Word.ofText (text : String) : Word :=
  match text.toList with
  | ['-', '-'] => .escape
  | '-' :: '-' :: rest =>
    let (name, value) := splitEquals rest
    .long (String.ofList name) (value.map String.ofList)
  | '-' :: letter :: rest => .short letter rest
  | _ => .plain text

/-- The value that is attached to a letter, an equals sign in front of it being dropped. -/
def attachedValue? : List Char → Option String
  | [] => none
  | '=' :: rest => some (String.ofList rest)
  | rest => some (String.ofList rest)

/-! ## Commands -/

/-- Reads an option that takes values, or a flag. -/
def readOption (given : GivenOptions) (pending : Option PendingOption) (spec : OptionSpec)
    (value : Option String) : Except Usage (GivenOptions × Option PendingOption) := do
  match spec.arity, value with
  | .flag, some _ => throw .tooManyValues
  | .flag, none =>
    let given ← settle given pending
    return (← accept given spec [], none)
  | _, some value =>
    let given ← settle given pending
    return (← accept given spec [value], none)
  | _, none =>
    let given ← settle given pending
    return (given, some { spec := spec })

/-- Asks for help, unless the option before it lacks its values. -/
def askHelp (given : GivenOptions) (pending : Option PendingOption) :
    Except Usage (GivenOptions × Option PendingOption) := do
  discard <| settle given pending
  throw .help

/-- Reads one argument of a command that is not the escape. -/
def readWord (specs : List OptionSpec) (given : GivenOptions) (pending : Option PendingOption) :
    Word → Except Usage (GivenOptions × Option PendingOption)
  | .long "help" none => askHelp given pending
  | .long "help" (some _) => .error .tooManyValues
  | .long name value =>
    match specs.find? fun spec => spec.long = name with
    | some spec => readOption given pending spec value
    | none => .error .unknownArgument
  | .short 'h' _ => askHelp given pending
  | .short letter rest =>
    match specs.find? fun spec => spec.short = some letter with
    | some spec => readOption given pending spec (attachedValue? rest)
    | none => .error .unknownArgument
  | .plain text =>
    match pending with
    | some pending =>
      if pending.isOpen then .ok (given, some (pending.push text)) else .error .unknownArgument
    | none => .error .unknownArgument
  | .escape => .error .unknownArgument

/-- Reads the arguments of a command. Behind the escape nothing may follow. -/
def readOptions (specs : List OptionSpec) :
    List String → GivenOptions → Option PendingOption → Except Usage GivenOptions
  | [], given, pending => do
    let given ← settle given pending
    if specs.any fun spec => spec.isRequired && !Keyed.contains spec.long given then
      throw .missingRequired
    return given
  | arg :: rest, given, pending =>
    match Word.ofText arg with
    | .escape =>
      if rest.isEmpty then readOptions specs rest given pending else .error .unknownArgument
    | word => do
      let (given, pending) ← readWord specs given pending word
      readOptions specs rest given pending

/-- The value of an option of one value. -/
def oneValue? (name : String) (given : GivenOptions) : Option String :=
  (Keyed.get? name given).bind List.head?

/-- The options of commands that read documents. -/
def inputSpecs : List OptionSpec :=
  [{ long := "json-pointer" },
    { long := "input", short := some 'i', arity := .many, isRequired := true }]

/-- Which documents a command reads. -/
def InputSettings.ofGiven (given : GivenOptions) : InputSettings :=
  { inputs := (Keyed.get? "input" given).getD [], pointer := oneValue? "json-pointer" given }

/-- The option of an output file. -/
def outSpec : OptionSpec :=
  { long := "out", short := some 'o', isPath := true }

/-- The option of a manifest. -/
def manifestSpec : OptionSpec :=
  { long := "manifest", short := some 'm', isPath := true, isRequired := true }

/-- The commands by name: their options, and what the values of the options make. -/
def commandTable : List (String × List OptionSpec × (GivenOptions → Command)) :=
  [("schema",
      [manifestSpec, { long := "omit", arity := .many },
        { long := "filedata-meta", arity := .flag }, outSpec],
      fun given => .schema ((oneValue? "manifest" given).getD "") (Keyed.get? "omit" given)
        (Keyed.contains "filedata-meta" given) (oneValue? "out" given)),
    ("check",
      inputSpecs ++ [{ long := "response", arity := .flag }],
      fun given => .check (.ofGiven given) (Keyed.contains "response" given)),
    ("decode",
      inputSpecs ++ [{ long := "name" }, outSpec],
      fun given => .decode (.ofGiven given) ((oneValue? "name" given).getD defaultModelName)
        (oneValue? "out" given)),
    ("coerce",
      [manifestSpec,
        { long := "request", short := some 'r', isPath := true, isRequired := true }],
      fun given => .coerce ((oneValue? "manifest" given).getD "")
        ((oneValue? "request" given).getD ""))]

/-- Whether a word names a command, the one for help among them. -/
def isCommandName (name : String) : Bool :=
  name = "help" || Keyed.contains name commandTable

/-- What is asked for behind the command for help: at most one command, by its name. -/
def helpFor : List String → Usage
  | [] => .help
  | [name] => if isCommandName name then .help else .unknownCommand
  | _ => .unknownCommand

/-- What arguments that start with no command ask for. -/
def withoutCommand : Word → List String → Usage
  | .long "help" none, _ | .short 'h' _, _ => .help
  | .long "version" none, _ | .short 'V' _, _ => .version
  | .long "help" (some _), _ | .long "version" (some _), _ => .tooManyValues
  | .escape, [] => .noArguments
  | .escape, name :: _ => if isCommandName name then .unknownArgument else .unknownCommand
  | .plain _, _ => .unknownCommand
  | _, _ => .unknownArgument

/-- The command that arguments make. -/
def Command.ofArguments : List String → Except Usage Command
  | [] => .error .noArguments
  | arg :: rest =>
    if arg = "help" then .error (helpFor rest)
    else
      match Keyed.get? arg commandTable with
      | some (specs, make) => (readOptions specs rest [] none).map make
      | none => .error (withoutCommand (Word.ofText arg) rest)

end CallContract
