import CallContract.CommandLine.Run

/-!
# The program

Reads the arguments, runs the command on the files of the system, and prints what it has to say.
-/

namespace CallContract

/-- What an error of the system means for a file. The system tells a directory from something that is
none by the number of the error, which comes with either sign. -/
def FileFault.ofSystem (e : IO.Error) : FileFault :=
  match e with
  | .noFileOrDirectory .. => .notFound
  | .alreadyExists .. => .alreadyThere
  | .inappropriateType _ code _ => if code = 21 ∨ code = -21 then .isDirectory else .notDirectory
  | e => .other (toString e)

/-- The result of an operation on files, or its fault. -/
def attempt {α : Type} (operation : IO α) : IO (Except FileFault α) := do
  match ← operation.toBaseIO with
  | .ok a => return .ok a
  | .error e => return .error (FileFault.ofSystem e)

/-- What stands at a path of the system, if anything. -/
def systemKind? (path : String) : IO (Option FileKind) := do
  match ← (IO.FS.realPath path).toBaseIO with
  | .ok place => return some (if ← place.isDir then .directory else .file)
  | .error _ => return none

/-- The names in a directory of the system, or none where there is no directory. -/
def systemNames (path : String) : IO (List String) := do
  let names : IO (List String) := do
    let place ← IO.FS.realPath path
    return (← place.readDir).toList.map fun entry => entry.fileName
  match ← names.toBaseIO with
  | .ok names => return names
  | .error _ => return []

/-- The files of the system. -/
def systemFiles : Files IO where
  read path := attempt (IO.FS.readFile path)
  write path contents := attempt (IO.FS.writeFile path contents)
  makeDirectories path := attempt (IO.FS.createDirAll path)
  kind? := systemKind?
  names := systemNames

/-- How the program is called. -/
def usageText : String :=
  "usage: callcontract COMMAND\n\n" ++
    "  schema -m MANIFEST [--omit NAME...] [--filedata-meta] [-o OUT]\n" ++
    "  check -i PATH... [--json-pointer POINTER] [--response]\n" ++
    "  decode -i PATH... [--json-pointer POINTER] [--name NAME] [-o OUT]\n" ++
    "  coerce -m MANIFEST -r REQUEST\n"

/-- The words for why arguments make no command. -/
def Usage.message : Usage → String
  | .missingRequired => "a required option is missing"
  | .unknownArgument => "an argument is not known"
  | .invalidValue => "an option lacks a value"
  | .tooManyValues => "a flag takes no value"
  | .conflict => "an option is given more than once"
  | .unknownCommand => "there is no such command"
  | .noArguments | .help => ""
  | .version => "callcontract 0.1.0"

/-- Prints why arguments make no command, or what was asked for. -/
def printUsage (usage : Usage) : IO Unit :=
  match usage with
  | .help => IO.print usageText
  | .version => IO.println usage.message
  | .noArguments => IO.eprint usageText
  | _ => IO.eprint ("error: " ++ usage.message ++ "\n\n" ++ usageText)

/-- Runs the command that arguments make. -/
def runProgram (args : List String) : IO UInt32 := do
  match Command.ofArguments args with
  | .error usage =>
    printUsage usage
    return usage.exitCode.toUInt32
  | .ok command =>
    match ← (Command.run systemFiles command).run with
    | .ok report =>
      IO.print report.stdout
      IO.eprint report.stderr
      return if report.isWell then 0 else 1
    | .error failure =>
      IO.eprintln ("error: " ++ failure.message)
      return 1

end CallContract

/-- The program. -/
def main (args : List String) : IO UInt32 :=
  CallContract.runProgram args
