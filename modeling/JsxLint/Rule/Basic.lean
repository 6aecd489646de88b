import JsxLint.Issue
import JsxLint.Log
import JsxLint.Scope.Resolver

/-!
Rules: each inspects one tag at a time and may find something to report. Where a finding stands
and under which name is the same for every rule.
-/

namespace JsxLint

/-- What a rule may look at while a file is linted. -/
structure Context where
  path : Path
  resolver : Resolver

def Context.source (context : Context) : Bytes :=
  context.resolver.source

/-- What a rule has found at a tag. -/
structure Finding where
  message : String
  data : List (String × String)
  fix : Option Fix
deriving DecidableEq, Repr

structure Rule where
  id : String
  name : String
  severity : Severity
  autoFixable : Bool
  description : String
  inspect : Context → Cursor → Logged (Option Finding)

namespace Rule

/-- The issue for a finding at a tag. -/
def issue (rule : Rule) (context : Context) (tag : Cursor) (finding : Finding) :
    Except Failure Issue := do
  let column ← tag.column context.source
  return {
    path := context.path
    line := tag.row + 1
    column := column + 1
    ruleId := rule.id
    message := finding.message
    severity := rule.severity
    autoFixable := rule.autoFixable && finding.fix.isSome
    context := some rule.name
    data := finding.data
    fix := finding.fix }

def check (rule : Rule) (context : Context) (tag : Cursor) : Logged (Option Issue) := do
  match ← rule.inspect context tag with
  | some finding => return some (← rule.issue context tag finding)
  | none => return none

end Rule
end JsxLint
