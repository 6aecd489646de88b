import JsxLint.Tree.Text
import JsxLint.Tree.Traversal

/-!
Element tags: their names, attributes and matching closing tags. A tag is an opening tag, with or
without a slash at its end; a fragment's tag has no name.
-/

namespace JsxLint
namespace Cursor

/-- The tags at and below a node, in document order. -/
def tags (c : Cursor) : List Cursor :=
  c.findAll Kind.isTag

/-- The name of an opening, self-closing or closing tag. -/
def tagName? (tag : Cursor) : Option Cursor :=
  tag.child? .name

/-- The attributes of a tag in source order, spreads included. -/
def attributes (tag : Cursor) : List Cursor :=
  tag.namedChildren.filter (·.kind.isAttribute)

/-- The name of an attribute; a spread has none. -/
def attributeName? (source : Bytes) (attr : Cursor) : Except Failure (Option String) :=
  match attr.kind, attr.namedChildren with
  | .jsxAttribute, name :: _ => some <$> name.text source
  | _, _ => .ok none

/-- The value after the equals sign; a spread and an attribute that stands alone have none. -/
def attributeValue? (attr : Cursor) : Option Cursor :=
  if attr.kind = .jsxAttribute then
    ((attr.children.dropWhile (·.kind ≠ .equalsSign)).drop 1).find? (·.named)
  else
    none

/-- The closing tag of the element whose part the tag is. -/
def closingTag? (tag : Cursor) : Option Cursor :=
  match tag.parent? with
  | some element =>
    if element.kind = .jsxElement then
      (element.child? .closeTag).or (element.childOfKind? .jsxClosingElement)
    else
      none
  | none => none

end Cursor
end JsxLint
