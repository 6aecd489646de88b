import JsxLint.Tree.Traversal

/-!
Places where a parser had to recover: text it could not fit into the grammar, and tokens it had
to make up.
-/

namespace JsxLint

inductive Fault where
  | unexpected (row column : Nat)
  | missing (kind : Kind) (row column : Nat)
deriving DecidableEq, Repr

namespace Fault

/-- The wording of a fault; rows and columns count from one. -/
def message : Fault → String
  | .unexpected row column => "Syntax error at " ++ position row column
  | .missing kind row column =>
    "Missing '" ++ kind.symbol ++ "' at " ++ position row column
where
  position (row column : Nat) : String := toString (row + 1) ++ ":" ++ toString (column + 1)

def ofLabel? (label : Label) : Option Fault :=
  if label.kind = .error then some (.unexpected label.row label.column)
  else if label.missing then some (.missing label.kind label.row label.column)
  else none

end Fault

/-- The faults of a tree in document order. -/
def Tree.faults (tree : Tree) : List Fault :=
  if tree.label.hasError then
    (Cursor.walk [Cursor.ofRoot tree]).filterMap fun node => Fault.ofLabel? node.label
  else
    []

end JsxLint
