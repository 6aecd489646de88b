import JsxLint.Span
import JsxLint.Tree.Kind

/-!
Syntax trees and places in them. A `Tree` is what a parser returns. A `Cursor` is a node together
with the way down to it, so that its parent, its ancestors and its siblings can be asked for, and
two nodes that look alike but stand in different places are told apart.
-/

namespace JsxLint

/-- A range and the kind of the node that covers it. -/
structure Site extends Span where
  kind : Kind
deriving DecidableEq, Repr, Inhabited

/-- What a parser says of one node, apart from its children. Rows and columns count from zero, and
columns count bytes. -/
structure Label extends Site where
  row : Nat
  column : Nat
  named : Bool
  missing : Bool
  hasError : Bool
  field : Option Field
deriving DecidableEq, Repr, Inhabited

inductive Tree where
  | node (label : Label) (children : List Tree)
deriving Repr, Inhabited

namespace Tree

def label : Tree → Label
  | .node label _ => label

def children : Tree → List Tree
  | .node _ children => children

end Tree

/-- One step of the way up: the parent and the index of the child below it. -/
structure Frame where
  parent : Tree
  index : Nat
deriving Repr, Inhabited

/-- A node in its place; the innermost step of the way up comes first. -/
structure Cursor where
  focus : Tree
  path : List Frame
deriving Repr, Inhabited

namespace Cursor

def ofRoot (tree : Tree) : Cursor :=
  ⟨tree, []⟩

def label (c : Cursor) : Label := c.focus.label
def site (c : Cursor) : Site := c.label.toSite
def span (c : Cursor) : Span := c.label.toSpan
def kind (c : Cursor) : Kind := c.label.kind
def start (c : Cursor) : Nat := c.label.start
def stop (c : Cursor) : Nat := c.label.stop
def row (c : Cursor) : Nat := c.label.row
def named (c : Cursor) : Bool := c.label.named

/-- The child at an index of the focus. -/
def down (c : Cursor) (index : Nat) (child : Tree) : Cursor :=
  ⟨child, ⟨c.focus, index⟩ :: c.path⟩

def children (c : Cursor) : List Cursor :=
  c.focus.children.mapIdx c.down

def namedChildren (c : Cursor) : List Cursor :=
  c.children.filter (·.named)

/-- The child in a role. -/
def child? (c : Cursor) (field : Field) : Option Cursor :=
  c.children.find? fun child => child.label.field = some field

/-- The first child of a kind. -/
def childOfKind? (c : Cursor) (kind : Kind) : Option Cursor :=
  c.children.find? fun child => child.kind = kind

/-- The nodes above a path, innermost first. -/
def ancestorsOf : List Frame → List Cursor
  | [] => []
  | frame :: above => ⟨frame.parent, above⟩ :: ancestorsOf above

def ancestors (c : Cursor) : List Cursor :=
  ancestorsOf c.path

def parent? (c : Cursor) : Option Cursor :=
  c.ancestors.head?

/-- The topmost ancestor, or the node itself when it has none. -/
def root (c : Cursor) : Cursor :=
  c.ancestors.getLast?.getD c

/-- The nearest ancestor of a kind. -/
def ancestorOfKind? (c : Cursor) (kind : Kind) : Option Cursor :=
  c.ancestors.find? fun above => above.kind = kind

/-- The child of the same parent just before this one. -/
def prevSibling? (c : Cursor) : Option Cursor :=
  match c.path with
  | ⟨parent, index + 1⟩ :: above =>
    parent.children[index]?.map fun sibling => ⟨sibling, ⟨parent, index⟩ :: above⟩
  | _ => none

end Cursor
end JsxLint
