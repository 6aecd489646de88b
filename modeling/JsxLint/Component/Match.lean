import JsxLint.Component.Catalogue
import JsxLint.Tag

/-!
The attribute of a tag that calls for a more specific component.
-/

namespace JsxLint
namespace Component

/-- An attribute and the component it prescribes. -/
structure Match where
  attr : Cursor
  specific : String
deriving Repr

/-- What one attribute prescribes for a generic component. -/
def matchAttribute? (source : Bytes) (generic : String) (attr : Cursor) :
    Except Failure (Option Match) := do
  match ← attr.attributeName? source, attr.attributeValue? with
  | some name, some value =>
    return (specific? generic name (← value.text source)).map (⟨attr, ·⟩)
  | _, _ => return none

/-- The first attribute in source order that prescribes a component. The name of the tag itself
is not looked at. -/
def match? (source : Bytes) (generic : String) (tag : Cursor) : Except Failure (Option Match) :=
  tag.attributes.findSomeM? (matchAttribute? source generic)

end Component
end JsxLint
