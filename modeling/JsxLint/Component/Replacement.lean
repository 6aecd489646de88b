import JsxLint.Component.Origin
import JsxLint.Edit.Fix
import JsxLint.Log
import JsxLint.Text.Blank

/-!
The edits that put a specific component in the place of a generic one: the opening and the
closing tag are renamed, the attribute that became redundant goes, and the new component is
imported where the old one was. All edits refer to the same source.
-/

namespace JsxLint
namespace Component

def renameOpening (tag : Cursor) (component : String) : Except Failure Edit :=
  match tag.tagName? with
  | some name => Edit.replace name.span component
  | none => .error .namelessTag

/-- Renames the closing tag, if there is one with a name. -/
def renameClosing? (tag : Cursor) (component : String) : Except Failure (Option Edit) :=
  match tag.closingTag?.bind (·.tagName?) with
  | some name => some <$> Edit.replace name.span component
  | none => .ok none

/-- Deletes an attribute together with the space between it and a neighbour: the next attribute,
for the last one the previous attribute, and for the only one whatever stands before it. -/
def removeAttribute (tag attr : Cursor) : Except Failure Edit :=
  let attrs := tag.attributes
  match attrs.findIdx? fun candidate => candidate.span = attr.span with
  | none => .error .foreignAttribute
  | some index =>
    match attrs[index + 1]? with
    | some following => Edit.delete attr.start following.start
    | none =>
      let previous? := if attrs.length = 1 then attr.prevSibling? else attrs[index - 1]?
      Edit.delete ((previous?.map (·.stop)).getD attr.start) attr.stop

/-- The specifier binds the component's name. -/
def specifierBinds (source : Bytes) (component : String) (specifier : Cursor) :
    Except Failure Bool :=
  match specifier.localName? with
  | some name => return (← name.text source) = component
  | none => return false

/-- What separates a new specifier from the last one of an import: on one line a comma and a
space, else a new line that is indented as far as the last specifier. -/
def specifierSeparator (source : Bytes) (declaration last : Cursor) : Except Failure String := do
  if declaration.row = last.row then
    return ", "
  else
    let lead ← last.lineLead source
    let indent := if Text.allBlank lead then lead
      else String.ofList (List.replicate lead.length ' ')
    return ",\n" ++ indent

/-- Adds a component to the import that brought the tag's name into scope, unless that import
already binds it. -/
def extendImport? (resolver : Resolver) (tag : Cursor) (component : String) :
    Except Failure (Option Edit) := do
  let some name := tag.tagName? | .error .namelessTag
  let some declaration ← importDeclaration? resolver name
    | .error (.missingImport component .noDeclaration)
  let some last := declaration.importSpecifiers.getLast?
    | .error (.missingImport component .noNamedSpecifiers)
  if ← declaration.importSpecifiers.anyM (specifierBinds resolver.source component) then
    return none
  else
    let separator ← specifierSeparator resolver.source declaration last
    return some (Edit.insert last.stop (separator ++ component))

/-- All edits of a replacement as one fix. -/
def plan (resolver : Resolver) (tag attr : Cursor) (component : String) : Logged Fix := do
  let opening ← renameOpening tag component
  let closing? ← renameClosing? tag component
  let removal ← removeAttribute tag attr
  let import? ← extendImport? resolver tag component
  Logged.record (if import?.isNone then [.alreadyImported component] else [])
  Fix.ofEdits ([opening] ++ closing?.toList ++ [removal] ++ import?.toList)

end Component
end JsxLint
