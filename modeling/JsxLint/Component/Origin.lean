import JsxLint.Scope.Resolver
import JsxLint.Tag

/-!
Where the component named by a tag comes from. Only names bound by a specifier in the braces of
an import have an origin; a default or namespace import has none.
-/

namespace JsxLint
namespace Component

/-- The module of the component library. -/
def library : String := "@chakra-ui/react"

/-- The import declaration whose specifier binds a name. -/
def importDeclaration? (resolver : Resolver) (name : Cursor) :
    Except Failure (Option Cursor) := do
  match (← resolver.resolve? name).bind (·.declaration?) with
  | some declaration =>
    if declaration.kind = .importSpecifier then return resolver.importOf declaration.node
    else return none
  | none => return none

/-- A text without its first and last character. -/
def inner (text : String) : String :=
  String.ofList (text.toList.drop 1).dropLast

/-- The module a name was imported from. -/
def origin? (resolver : Resolver) (name : Cursor) : Except Failure (Option String) := do
  match (← importDeclaration? resolver name).bind (·.moduleName?) with
  | some module => return some (inner (← module.text resolver.source))
  | none => return none

/-- The tag names a component of the library. -/
def isLibraryTag (resolver : Resolver) (tag : Cursor) : Except Failure Bool :=
  match tag.tagName? with
  | some name => return (← origin? resolver name) = some library
  | none => return false

end Component
end JsxLint
