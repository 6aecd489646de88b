import JsxLint.Failure

/-!
How serious an issue is. The words of rule definitions are in lower case and those of reports in
upper case; a report can leave out issues below a rank.
-/

namespace JsxLint

inductive Severity where
  | error
  | warning
  | style
  | info
deriving DecidableEq, Repr

namespace Severity

def word : Severity → String
  | error => "error"
  | warning => "warning"
  | style => "style"
  | info => "info"

def ofWord (word : String) : Except Failure Severity :=
  match [error, warning, style, info].find? fun severity => severity.word = word with
  | some severity => .ok severity
  | none => .error (.unknownSeverity word)

/-- The word used in reports. -/
def label : Severity → String
  | error => "ERROR"
  | warning => "WARNING"
  | style => "STYLE"
  | info => "INFO"

def rank : Severity → Nat
  | error => 4
  | warning => 3
  | info => 2
  | style => 1

/-- Upper case of the letters that report words are made of. Besides the plain letters, the
dotless i and the long s have a plain capital. -/
def capital (c : Char) : Char :=
  if c = 'ı' then 'I' else if c = 'ſ' then 'S' else c.toUpper

/-- The least rank that a word in any case asks for; an unknown word asks for everything. -/
def leastRank (word : String) : Nat :=
  let upper := String.ofList (word.toList.map capital)
  match [error, warning, style, info].find? fun severity => severity.label = upper with
  | some severity => severity.rank
  | none => 1

end Severity
end JsxLint
