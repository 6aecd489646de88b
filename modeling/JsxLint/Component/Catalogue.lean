import JsxLint.Component.Literal

/-!
Which specific component takes the place of a generic one that carries a telling attribute.
-/

namespace JsxLint
namespace Component

/-- The generic component with the attribute set to the literal value is better written as the
specific component. -/
structure Prescription where
  generic : String
  attr : String
  value : String
  specific : String
deriving DecidableEq, Repr

def catalogue : List Prescription :=
  [⟨"Box", "display", "flex", "Flex"⟩,
   ⟨"Box", "display", "grid", "Grid"⟩,
   ⟨"Box", "as", "button", "Button"⟩,
   ⟨"Box", "as", "img", "Image"⟩,
   ⟨"Box", "as", "a", "Link"⟩,
   ⟨"Box", "as", "p", "Text"⟩,
   ⟨"Box", "as", "h1", "Heading"⟩,
   ⟨"Box", "as", "h2", "Heading"⟩,
   ⟨"Box", "as", "h3", "Heading"⟩,
   ⟨"Box", "as", "h4", "Heading"⟩,
   ⟨"Box", "as", "h5", "Heading"⟩,
   ⟨"Box", "as", "h6", "Heading"⟩,
   ⟨"Box", "as", "ul", "List"⟩,
   ⟨"Box", "as", "ol", "List"⟩,
   ⟨"Box", "as", "li", "ListItem"⟩,
   ⟨"Box", "as", "hr", "Divider"⟩,
   ⟨"Box", "as", "kbd", "Kbd"⟩,
   ⟨"Box", "as", "code", "Code"⟩]

/-- The specific component for an attribute with a literal value. -/
def prescribed? (generic attr value : String) : Option String :=
  (catalogue.find? fun entry =>
    entry.generic = generic ∧ entry.attr = attr ∧ entry.value = value).map (·.specific)

/-- The specific component for an attribute and the text of its value as written. -/
def specific? (generic attr valueText : String) : Option String :=
  (literal? valueText).bind (prescribed? generic attr)

end Component
end JsxLint
