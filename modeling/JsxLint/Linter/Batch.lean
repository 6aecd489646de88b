import JsxLint.Issue
import JsxLint.Log
import JsxLint.Tree.Text

/-!
Applying the fixes of several issues at once. Fixes are taken in the order of the places they
change, and a fix that conflicts with one taken before it is put off for a later pass.
-/

namespace JsxLint

/-- Which issues are fixed together, and which have to wait. -/
structure Batch where
  applied : List Issue
  deferred : List Issue
deriving DecidableEq, Repr

namespace Batch

def empty : Batch :=
  ⟨[], []⟩

/-- Takes one more issue, or puts it off. -/
def add (batch : Batch) (issue : Issue) : Batch :=
  if batch.applied.any issue.conflictsWith then
    { batch with deferred := batch.deferred ++ [issue] }
  else
    { batch with applied := batch.applied ++ [issue] }

/-- The issues that have something to change, in the order in which they are taken. -/
def queue (issues : List Issue) : List Issue :=
  (issues.filter (·.fixable)).mergeSort Issue.fixLe

def ofIssues (issues : List Issue) : Batch :=
  (queue issues).foldl add empty

/-- The source with the edits of all applied issues. -/
def applyTo (batch : Batch) (source : String) : Except Failure String :=
  if batch.applied.isEmpty then
    .ok source
  else do
    let fix ← Fix.ofEdits (batch.applied.flatMap (·.edits))
    Text.decode (fix.apply (Text.encode source))

end Batch

/-- A batch and the text it leads to. -/
structure Outcome extends Batch where
  source : String
deriving DecidableEq, Repr

def Outcome.modified (outcome : Outcome) : Bool :=
  !outcome.applied.isEmpty

/-- Applies as many fixes of the issues as go together. -/
def applyFixes (source : String) (issues : List Issue) : Logged Outcome := do
  let batch := Batch.ofIssues issues
  Logged.record (batch.deferred.map fun issue => .fixDeferred issue.path issue.line)
  return { batch with source := ← batch.applyTo source }

end JsxLint
