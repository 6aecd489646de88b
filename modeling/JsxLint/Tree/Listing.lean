import JsxLint.Text.Hex
import JsxLint.Text.Utf8
import JsxLint.Tree.Basic

/-!
Trees written down as a list of nodes, parents before children, each with the index of its parent.
In the text form a line holds the fields of one node between tabs, and the nodes of a tree follow
a line with the bytes of its source.
-/

namespace JsxLint

/-- One node of a listing; the root has no parent. -/
structure Listed where
  parent : Option Nat
  label : Label
deriving DecidableEq, Repr

namespace Listed

/-- A node from its fields. The flags are a sum: one for a named node, two for a missing one, four
for one with an error in it. -/
def ofFields (parent : Option Nat) (symbol : String) (start stop row column flags : Nat)
    (field : String) : Listed :=
  ⟨parent,
    { start, stop, kind := Kind.ofSymbol symbol, row, column
      named := flags % 2 = 1
      missing := flags / 2 % 2 = 1
      hasError := flags / 4 % 2 = 1
      field := Field.ofWord? field }⟩

/-- A node from a line of the text form. -/
def ofLine? (line : String) : Option Listed :=
  match line.splitOn "\t" with
  | [parent, symbol, start, stop, row, column, flags, field] => do
    return ofFields parent.toNat? symbol (← start.toNat?) (← stop.toNat?) (← row.toNat?)
      (← column.toNat?) (← flags.toNat?) field
  | _ => none

end Listed

namespace Tree

/-- Gives each node of a listing its children, from the last node to the first: when a node's turn
comes, all its children have been collected. The first node is the root. -/
def ofListing? (listing : List Listed) : Option Tree :=
  let collect (entry : Listed × Nat) (pending : Array (List Tree)) : Array (List Tree) :=
    let tree := Tree.node entry.1.label (pending[entry.2]?.getD [])
    match entry.1.parent with
    | some parent => pending.modify parent (tree :: ·)
    | none => pending.setIfInBounds entry.2 [tree]
  let collected := listing.zipIdx.foldr collect (Array.replicate listing.length [])
  collected[0]?.bind (·.head?)

end Tree

/-- Sources and their trees. -/
abbrev Forest := List (Bytes × Tree)

namespace Forest

/-- The bytes on a line that begins a new tree. -/
def sourceOfLine? (line : String) : Option Bytes :=
  match line.splitOn "\t" with
  | ["source", digits] => Text.ofHex? digits.toList
  | _ => none

/-- Reads lines from the last to the first; what has no source line yet is kept in front. -/
def addLine (line : String) (state : List Listed × Forest) : List Listed × Forest :=
  match sourceOfLine? line, Listed.ofLine? line with
  | some source, _ =>
    match Tree.ofListing? state.1 with
    | some tree => ([], (source, tree) :: state.2)
    | none => ([], state.2)
  | none, some listed => (listed :: state.1, state.2)
  | none, none => state

def ofText (text : String) : Forest :=
  ((text.splitOn "\n").foldr addLine ([], [])).2

end Forest
end JsxLint
