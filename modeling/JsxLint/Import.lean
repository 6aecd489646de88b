import JsxLint.Tree.Text

/-!
Import declarations: the module they name and the specifiers in their braces.
-/

namespace JsxLint
namespace Cursor

/-- The string that names the module of an import declaration, with its quotes. -/
def moduleName? (declaration : Cursor) : Option Cursor :=
  declaration.child? .source

def importClause? (declaration : Cursor) : Option Cursor :=
  declaration.childOfKind? .importClause

/-- The specifiers in the braces of a list of named imports. -/
def specifiers (named : Cursor) : List Cursor :=
  named.namedChildren.filter (·.kind = .importSpecifier)

/-- The specifiers of an import declaration; only its first pair of braces counts. -/
def importSpecifiers (declaration : Cursor) : List Cursor :=
  match declaration.importClause?.bind (·.childOfKind? .namedImports) with
  | some named => named.specifiers
  | none => []

/-- The name a specifier binds: its alias if it has one. -/
def localName? (specifier : Cursor) : Option Cursor :=
  (specifier.child? .rename).or (specifier.child? .name)

/-- The import declaration a node is, or is a part of. -/
def enclosingImport? (c : Cursor) : Option Cursor :=
  if c.kind = .importStatement then some c else c.ancestorOfKind? .importStatement

end Cursor
end JsxLint
