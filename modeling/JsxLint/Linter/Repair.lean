import JsxLint.Linter.Analysis
import JsxLint.Linter.Batch

/-!
Linting and fixing in turns, until nothing is left to fix or the limit of passes is reached. The
report's issues are always those of its final text.
-/

namespace JsxLint

/-- How often a source is fixed and linted again. -/
def passLimit : Nat := 10

structure Report where
  source : String
  issues : List Issue
  passes : Nat
  fixed : Nat
deriving DecidableEq, Repr

def Report.modified (report : Report) : Bool :=
  0 < report.fixed

namespace Linter

/-- Continues a report for as many passes as are left. -/
def repairFrom (linter : Linter) (path : Path) : Nat → Report → Logged Report
  | 0, report => do
    Logged.record [.passLimitReached path]
    let issues ← linter.analyze path report.source
    return { report with issues }
  | left + 1, report => do
    let pass := report.passes + 1
    let issues ← linter.analyze path report.source
    let outcome ← applyFixes report.source issues
    if outcome.modified then
      let count := outcome.applied.length
      Logged.record [.passFinished path pass count]
      linter.repairFrom path left ⟨outcome.source, issues, pass, report.fixed + count⟩
    else
      return { report with issues, passes := pass }

/-- Lints a source and applies fixes until none is left. -/
def repair (linter : Linter) (path : Path) (source : String) : Logged Report :=
  linter.repairFrom path passLimit ⟨source, [], 0, 0⟩

end Linter
end JsxLint
