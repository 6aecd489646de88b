import JsxLint.Issue
import JsxLint.Rule.Registry
import JsxLint.Text.Terminal

/-!
What the command line prints: the issues from a given rank on, a summary, and the list of rules.
Names and source text come from outside and may hold control sequences of a terminal; a message is
printed without them.
-/

namespace JsxLint
namespace Report

/-- The issues in the order of a report. -/
def sorted (issues : List Issue) : List Issue :=
  issues.mergeSort Issue.reportLe

/-- The issues a report shows. -/
def shown (least : Nat) (issues : List Issue) : List Issue :=
  (sorted issues).filter fun issue => least ≤ issue.severity.rank

/-- A message as it is printed. -/
def printed (message : String) : String :=
  Text.withoutSequences message ++ "\n"

def summary (total reported : Nat) : String :=
  "\nTotal issues found: " ++ toString total ++ " (" ++ toString reported ++ " reported)"

/-- The report on issues from a rank on. -/
def render (least : Nat) (issues : List Issue) : String :=
  let entries := shown least issues
  String.join (entries.map fun issue => printed issue.render) ++
    printed (summary issues.length entries.length)

/-- One if there is an error among the issues, whether it is shown or not. -/
def exitCode (issues : List Issue) : Nat :=
  if issues.any fun issue => issue.severity = .error then 1 else 0

def ruleLine (rule : Rule) : String :=
  rule.id ++ " " ++ rule.name ++ (if rule.autoFixable then " [fixable]" else "") ++ " - " ++
    rule.description

def renderRules (registry : Registry) : String :=
  String.join (registry.rules.map fun rule => printed (ruleLine rule))

end Report
end JsxLint
