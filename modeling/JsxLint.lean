import JsxLint.Main
import JsxLint.Proofs.Command.Interruption
import JsxLint.Proofs.Command.Missing
import JsxLint.Proofs.Command.Report
import JsxLint.Proofs.Component.Balance
import JsxLint.Proofs.Component.Capture
import JsxLint.Proofs.Component.Indentation
import JsxLint.Proofs.Component.Literal
import JsxLint.Proofs.Component.Neighbours
import JsxLint.Proofs.Component.Removal
import JsxLint.Proofs.Edit.Acceptance
import JsxLint.Proofs.Edit.Survival
import JsxLint.Proofs.Linter.DocumentOrder
import JsxLint.Proofs.Linter.Greedy
import JsxLint.Proofs.Linter.Insertion
import JsxLint.Proofs.Rule.Lookup
import JsxLint.Proofs.Scope.Parameter
import JsxLint.Proofs.Scope.Pattern
import JsxLint.Proofs.Settings
import JsxLint.Proofs.Tree.Traversal
import JsxLint.Rule.TagUse
