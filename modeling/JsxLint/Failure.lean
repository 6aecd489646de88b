import JsxLint.Span
import JsxLint.Text.Quoted

/-!
Why an operation of the linter can fail. Causes are kept as data, and each has one wording.
-/

namespace JsxLint

/-- Why an import cannot be extended with a component. -/
inductive ImportGap where
  | noDeclaration
  | noNamedSpecifiers
deriving DecidableEq, Repr

inductive Failure where
  /-- There is no import to extend with the component. -/
  | missingImport (component : String) (gap : ImportGap)
  /-- Two edits of one fix overlap. -/
  | overlappingEdits (later earlier : Span)
  /-- An edit range is negative or runs backwards. -/
  | invalidRange (start stop : Int)
  /-- A rule with this id is registered already. -/
  | duplicateRule (id : String)
  /-- The word names no severity. -/
  | unknownSeverity (word : String)
  /-- Bytes that should be text are not UTF-8. -/
  | notUtf8
  /-- The tag of a fragment has no name to rename or look up. -/
  | namelessTag
  /-- The attribute to remove does not stand in the tag. -/
  | foreignAttribute
  /-- A configuration value on the way to the linter's settings is not a table. -/
  | notTable (key : String)
  /-- A whole number of a configuration has more digits than are read. -/
  | oversizedNumber (digits : Nat)
  /-- The values of a configuration are nested deeper than is read. -/
  | nestedTooDeep
  /-- A name or a path is longer than a file system allows. -/
  | nameTooLong
  /-- A name on the command line holds the null character. -/
  | nullInName
deriving DecidableEq, Repr

def ImportGap.message : ImportGap → String
  | .noDeclaration => "No ImportDeclaration found."
  | .noNamedSpecifiers => "Import declaration has no named specifiers."

namespace Failure

def message : Failure → String
  | .missingImport component gap => "Cannot import '" ++ component ++ "': " ++ gap.message
  | .overlappingEdits later earlier => "Edit " ++ later.render ++ " overlaps " ++ earlier.render
  | .invalidRange start stop => "Invalid edit range " ++ Span.renderEnds start stop
  | .duplicateRule id => "Rule " ++ id ++ " is already registered"
  | .unknownSeverity word => Text.quoted word ++ " is not a valid Severity"
  | .notUtf8 => "Bytes are not UTF-8"
  | .namelessTag => "Tag has no name"
  | .foreignAttribute => "Attribute is not part of the tag"
  | .notTable key => "Configuration value '" ++ key ++ "' is not a table"
  | .oversizedNumber digits =>
    "Exceeds the limit (4300 digits) for integer string conversion: value has " ++
      toString digits ++ " digits; use sys.set_int_max_str_digits() to increase the limit"
  | .nestedTooDeep => "Configuration values are nested too deep"
  | .nameTooLong => "File name too long"
  | .nullInName => "embedded null byte"

/-- Failures of building or merging a fix. They end the linting of a file with a message; all
others are defects of the input that end the whole run. -/
def ofFix : Failure → Bool
  | .missingImport .. | .overlappingEdits .. => true
  | _ => false

end Failure
end JsxLint
