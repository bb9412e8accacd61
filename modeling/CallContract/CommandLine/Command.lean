import CallContract.Schema.Decode

/-!
# Commands

What the command line can be asked for.

* `Command` is a command with its arguments; files are named by their paths.
* `Usage` says why arguments make no command. Asking for help or for the version is one of the reasons.
-/

namespace CallContract

/-- Which documents a command reads. -/
structure InputSettings where
  /-- Paths and patterns of paths. -/
  inputs : List String
  /-- The pointer to the part of each document that counts, as text. -/
  pointer : Option String := none

/-- A command with its arguments. -/
inductive Command where
  | schema (manifest : String) (hidden : Option (List String)) (withFileDataMeta : Bool)
      (out : Option String)
  | check (settings : InputSettings) (response : Bool)
  | decode (settings : InputSettings) (name : String) (out : Option String)
  | coerce (manifest request : String)

/-- Why arguments make no command. -/
inductive Usage where
  | missingRequired
  | unknownArgument
  | invalidValue
  | tooManyValues
  | conflict
  | unknownCommand
  | noArguments
  | help
  | version
  deriving DecidableEq

/-- The exit code of arguments that make no command: asking for help is no failure. -/
def Usage.exitCode : Usage → Nat
  | .help | .version => 0
  | _ => 2

end CallContract
