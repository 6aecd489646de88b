import JsxLint.Scope.Table
import JsxLint.Text.Lowercase

/-!
What an identifier refers to. Scopes are searched from the inside out, so an inner binding hides
outer ones. Only bindings of the file itself are known, and a tag name in lower case or with a
hyphen is a plain element that no binding can stand for.
-/

namespace JsxLint

structure Resolver where
  source : Bytes
  table : ScopeTable
  /-- The import declaration that owns a declaring node. -/
  importOf : Cursor → Option Cursor := Cursor.enclosingImport?

namespace Cursor

/-- The node is the name in an opening, self-closing or closing tag. -/
def inTag (c : Cursor) : Bool :=
  c.parent?.any fun parent => parent.kind.isTag || parent.kind = .jsxClosingElement

end Cursor

namespace Resolver

def ofTree (source : Bytes) (tree : Tree) : Except Failure Resolver := do
  let table ← ScopeTable.ofTree source tree
  return { source, table }

/-- Names of plain elements. -/
def isIntrinsicName (name : String) : Bool :=
  name.toList.head?.any Text.isLowercase || '-' ∈ name.toList

/-- The symbol a name has in the innermost scope around a node that binds it. -/
def lookup? (resolver : Resolver) (c : Cursor) (name : String) : Option Symbol :=
  c.ancestors.findSome? fun scope => resolver.table.lookup? scope.site name

/-- The symbol an identifier refers to. -/
def resolve? (resolver : Resolver) (c : Cursor) : Except Failure (Option Symbol) :=
  if c.kind = .identifier then do
    let name ← c.text resolver.source
    return if c.inTag && isIntrinsicName name then none else resolver.lookup? c name
  else
    .ok none

end Resolver
end JsxLint
