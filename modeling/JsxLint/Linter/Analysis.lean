import JsxLint.Rule.Basic
import JsxLint.Tag

/-!
Linting one source: every rule looks at every tag, and the issues come out in the order of their
positions.
-/

namespace JsxLint

/-- A parser, which maps every text to a tree, and the rules to check. -/
structure Linter where
  parse : Bytes → Tree
  rules : List Rule

namespace Linter

/-- What a parse leaves in the record when it had to recover. -/
def faultEvents (path : Path) (faults : List Fault) : List Event :=
  match faults with
  | [] => []
  | first :: _ => [.parsedWithFaults faults.length, .faultsFound path faults.length first]

/-- The issues of all rules at one tag. -/
def checkTag (rules : List Rule) (context : Context) (tag : Cursor) : Logged (List Issue) := do
  return (← rules.mapM fun rule => rule.check context tag).filterMap id

/-- The issues of a source in the order of their positions. -/
def analyze (linter : Linter) (path : Path) (source : String) : Logged (List Issue) := do
  let bytes := Text.encode source
  let tree := linter.parse bytes
  Logged.record (faultEvents path tree.faults)
  let resolver ← Resolver.ofTree bytes tree
  Logged.record [.bindingsCollected resolver.table.scopes.length]
  let tags := (Cursor.ofRoot tree).tags
  let issues ← tags.mapM (checkTag linter.rules ⟨path, resolver⟩)
  return issues.flatten.mergeSort Issue.le

end Linter
end JsxLint
