import JsxLint.Files.Path

/-!
The arguments of the command line. Options and paths may come in any order, the last of two
contrary options wins, and everything after a double hyphen is a path. A double hyphen may also
stand before the command.
-/

namespace JsxLint

structure Options where
  paths : List Path := []
  fix : Bool := false
  config : Path := Path.ofString ".chakra-lint.toml"
  severity : String := "STYLE"
  verbose : Bool := false
deriving DecidableEq, Repr

namespace Options

/-- The value in an argument of the form `name=value`. -/
def value? (name argument : String) : Option String :=
  let start := (name ++ "=").toList
  if start.isPrefixOf argument.toList then
    some (String.ofList (argument.toList.drop start.length))
  else
    none

/-- One or more short flags in one argument. -/
def isVerboseFlag (argument : String) : Bool :=
  match argument.toList with
  | '-' :: 'v' :: rest => rest.all (· = 'v')
  | _ => false

/-- The argument is an option and not a path; a single hyphen is a path. -/
def isOption (argument : String) : Bool :=
  match argument.toList with
  | '-' :: _ :: _ => true
  | _ => false

/-- Takes in the arguments one by one; nothing if one is no known option. -/
def read? (options : Options) : List String → Option Options
  | [] => some options
  | "--" :: rest => some { options with paths := options.paths ++ rest.map Path.ofString }
  | "--fix" :: rest => read? { options with fix := true } rest
  | "--no-fix" :: rest => read? { options with fix := false } rest
  | "--verbose" :: rest => read? { options with verbose := true } rest
  | ["--config"] => none
  | "--config" :: value :: rest => read? { options with config := Path.ofString value } rest
  | ["--severity"] => none
  | "--severity" :: value :: rest => read? { options with severity := value } rest
  | argument :: rest =>
    match value? "--config" argument, value? "--severity" argument with
    | some value, _ => read? { options with config := Path.ofString value } rest
    | none, some value => read? { options with severity := value } rest
    | none, none =>
      if isVerboseFlag argument then read? { options with verbose := true } rest
      else if isOption argument then none
      else read? { options with paths := options.paths ++ [Path.ofString argument] } rest

end Options

inductive Command where
  | lint (options : Options)
  | rules
deriving DecidableEq, Repr

namespace Command

/-- Reads a command that begins with its name. -/
def readNamed? : List String → Option Command
  | "lint" :: arguments => (Options.read? {} arguments).map .lint
  | ["rules"] | ["rules", "--"] => some .rules
  | _ => none

def read? : List String → Option Command
  | "--" :: arguments => readNamed? arguments
  | arguments => readNamed? arguments

end Command

end JsxLint
