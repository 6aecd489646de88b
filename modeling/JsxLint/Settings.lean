import JsxLint.Log
import JsxLint.Rule.Registry
import JsxLint.Text.Utf8
import JsxLint.Toml.Document

/-!
The linter's settings: which rules to check. They come from the table `tool.chakra-lint` of a
configuration file. A file that is no TOML document is ignored, and so is a setting that is not a
list of texts, each with a warning. A document beyond the limits of what is read is a failure.
-/

namespace JsxLint

structure Settings where
  select : List String
  ignore : List String
deriving DecidableEq, Repr

namespace Settings

/-- All built-in rules. -/
def standard : Settings :=
  ⟨["C"], []⟩

/-- What is found at the path of a configuration file. -/
inductive Location where
  | absent
  /-- Something that cannot be read, such as a folder. -/
  | unreadable
  | file (content : Bytes)
deriving DecidableEq, Repr

/-- The table under a name; a missing one is empty. -/
def subtable (table : Toml.Table) (name : String) : Except Failure Toml.Table :=
  match table.lookup name with
  | none => .ok []
  | some (.table inner) => .ok inner
  | some _ => .error (.notTable name)

/-- The texts of a list of texts. -/
def texts? : Toml.Value → Option (List String)
  | .array items => items.mapM (·.text?)
  | _ => none

/-- The printed form of a list of texts. -/
def renderTexts (texts : List String) : String :=
  "[" ++ ", ".intercalate (texts.map Text.quoted) ++ "]"

/-- A setting that is a list of texts, or its fallback. -/
def textList (path : Path) (table : Toml.Table) (key : String) (fallback : List String) :
    Logged (List String) :=
  match table.lookup key with
  | none => return fallback
  | some value =>
    match texts? value with
    | some texts => return texts
    | none => do
      Logged.record [.wrongSetting path key (renderTexts fallback)]
      return fallback

def ofTable (path : Path) (document : Toml.Table) : Logged Settings := do
  let tool ← subtable document "tool"
  let table ← subtable tool "chakra-lint"
  let select ← textList path table "select" standard.select
  let ignore ← textList path table "ignore" standard.ignore
  return { select, ignore }

/-- The settings in force when a path is given for the configuration file. -/
def load (path : Path) : Location → Logged Settings
  | .absent => return standard
  | .unreadable => do
    Logged.record [.configurationIgnored path]
    return standard
  | .file content =>
    match Text.decode? content with
    | none => Logged.ofExcept (.error .notUtf8)
    | some text =>
      match Toml.parse text with
      | .ok document => ofTable path document
      | .error .malformed => do
        Logged.record [.configurationIgnored path]
        return standard
      | .error (.oversizedNumber digits) => Logged.ofExcept (.error (.oversizedNumber digits))
      | .error .nestedTooDeep => Logged.ofExcept (.error .nestedTooDeep)

/-- The rules the settings ask for. -/
def rules (settings : Settings) (registry : Registry) : List Rule :=
  registry.enabled settings.select settings.ignore

end Settings
end JsxLint
