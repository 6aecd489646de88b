import JsxLint.Edit.Fix
import JsxLint.Files.Path
import JsxLint.Severity

/-!
Issues: what a rule has to say about a place in a file, with a fix if it knows one.
-/

namespace JsxLint

/-- A reported place. Lines and columns count from one, and columns count characters. -/
structure Issue where
  path : Path
  line : Int
  column : Int
  ruleId : String
  message : String
  severity : Severity
  autoFixable : Bool
  context : Option String
  data : List (String × String)
  fix : Option Fix
deriving DecidableEq, Repr

namespace Issue

/-- The edits of the issue's fix. -/
def edits (issue : Issue) : List Edit :=
  match issue.fix with
  | some fix => fix.edits
  | none => []

/-- The issue comes with something to change. -/
def fixable (issue : Issue) : Bool :=
  !issue.edits.isEmpty

/-- The fixes of the two issues cannot be applied together. -/
def conflictsWith (mine theirs : Issue) : Bool :=
  match mine.fix, theirs.fix with
  | some a, some b => a.conflictsWith b
  | _, _ => false

/-- The component to use in place of the reported one. -/
def suggestion? (issue : Issue) : Option String :=
  issue.data.lookup "valid_component"

/-- Within a file, issues are ordered by line and column. -/
def le (a b : Issue) : Bool :=
  a.line < b.line ∨ (a.line = b.line ∧ a.column ≤ b.column)

/-- In a report, issues are ordered by the text of their path, then by line and column. -/
def reportLe (a b : Issue) : Bool :=
  a.path.render < b.path.render ∨ (a.path.render = b.path.render ∧ a.le b)

/-- Fixes are taken by where they first change the source, then by line and column. -/
def fixLe (a b : Issue) : Bool :=
  let first (issue : Issue) := (issue.edits.head?.map (·.start)).getD 0
  first a < first b ∨ (first a = first b ∧ a.le b)

/-- One line of a report. -/
def render (issue : Issue) : String :=
  issue.severity.label ++ ": " ++ issue.path.render ++ ":" ++ toString issue.line ++ ":" ++
    toString issue.column ++ " [" ++ issue.ruleId ++ "] - " ++ issue.message

end Issue
end JsxLint
