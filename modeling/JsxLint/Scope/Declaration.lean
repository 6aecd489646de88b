import JsxLint.Tree.Basic

/-!
Declarations of names, and the symbols they make up.
-/

namespace JsxLint

inductive DeclarationKind where
  /-- A specifier in the braces of an import. -/
  | importSpecifier
  /-- The default import. -/
  | importDefault
  /-- An import of the whole module under one name. -/
  | namespaceImport
  | function
  | classLike
  | variable
  | parameter
deriving DecidableEq, Repr

def DeclarationKind.word : DeclarationKind → String
  | .importSpecifier => "import_specifier"
  | .importDefault => "import_default"
  | .namespaceImport => "namespace_import"
  | .function => "function"
  | .classLike => "class"
  | .variable => "variable"
  | .parameter => "parameter"

/-- One declaration of a name: the node that declares it, such as an import specifier or a
variable declarator, and the node that spells the name. -/
structure Declaration where
  kind : DeclarationKind
  node : Cursor
  name : Cursor
deriving Repr

/-- The line of the name, counted from one. -/
def Declaration.line (declaration : Declaration) : Nat :=
  declaration.name.row + 1

/-- A name bound in one scope, with its declarations in document order. -/
structure Symbol where
  name : String
  scopeKind : Kind
  declarations : List Declaration
deriving Repr

/-- The first declaration decides what a symbol stands for. -/
def Symbol.declaration? (symbol : Symbol) : Option Declaration :=
  symbol.declarations.head?

end JsxLint
