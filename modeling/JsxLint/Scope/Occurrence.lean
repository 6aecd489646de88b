import JsxLint.Import
import JsxLint.Scope.Declaration
import JsxLint.Scope.Pattern

/-!
Binding occurrences: which names a node introduces, and in which scope. Imports bind at the root.
Declared functions and classes bind in the nearest scope around them, and so do variables, except
that those declared with `var` skip to the nearest function, as parameters do. The name of a
function or class expression, a bare arrow parameter, a catch parameter and other loop variables
bind in that node itself.
-/

namespace JsxLint

/-- A name bound in a scope by a declaring node. -/
structure Occurrence where
  scope : Cursor
  kind : DeclarationKind
  node : Cursor
  name : Cursor
deriving Repr

namespace Cursor

/-- The nearest ancestor whose kind holds bindings, and the root if there is none. -/
def enclosing (c : Cursor) (holds : Kind → Bool) : Cursor :=
  (c.ancestors.find? fun above => holds above.kind).getD c.root

def enclosingScope (c : Cursor) : Cursor :=
  c.enclosing Kind.isScope

def enclosingFunctionScope (c : Cursor) : Cursor :=
  c.enclosing fun kind => kind.isFunctionScope || kind = .program

/-- Binds the name of a node, if it has one. -/
def nameOccurrences (scope : Cursor) (kind : DeclarationKind) (node : Cursor) :
    List Occurrence :=
  (node.child? .name).toList.map (⟨scope, kind, node, ·⟩)

/-- Binds the names of a pattern, if there is one. -/
def patternOccurrences (scope : Cursor) (kind : DeclarationKind) (node : Cursor)
    (pattern? : Option Cursor) : List Occurrence :=
  (pattern?.toList.flatMap boundNames).map (⟨scope, kind, node, ·⟩)

/-- Binds what one part of an import clause names. -/
def importPartOccurrences (scope part : Cursor) : List Occurrence :=
  match part.kind with
  | .identifier => [⟨scope, .importDefault, part, part⟩]
  | .namespaceImport =>
    (part.childOfKind? .identifier).toList.map (⟨scope, .namespaceImport, part, ·⟩)
  | .namedImports =>
    part.specifiers.flatMap fun specifier =>
      specifier.localName?.toList.map (⟨scope, .importSpecifier, specifier, ·⟩)
  | _ => []

def importOccurrences (declaration : Cursor) : List Occurrence :=
  match declaration.importClause? with
  | some clause => clause.namedChildren.flatMap (importPartOccurrences declaration.root)
  | none => []

/-- A declarator in a `var` declaration reaches out to the function around it. -/
def declaratorScope (c : Cursor) : Cursor :=
  if c.parent?.any (·.kind = .variableDeclaration) then c.enclosingFunctionScope
  else c.enclosingScope

/-- A loop without a declaration keyword assigns to a name bound elsewhere. -/
def loopOccurrences (c : Cursor) : List Occurrence :=
  match c.child? .kind with
  | some keyword =>
    let scope := if keyword.kind = .varKeyword then c.enclosingFunctionScope else c
    patternOccurrences scope .variable c (c.child? .left)
  | none => []

/-- A parameter that is its own declaring node. -/
def bareParameterOccurrences (kind : DeclarationKind) (c : Cursor) : List Occurrence :=
  match c.child? .parameter with
  | some parameter => patternOccurrences c kind parameter (some parameter)
  | none => []

/-- The names a node introduces, in document order. -/
def occurrences (c : Cursor) : List Occurrence :=
  match c.kind with
  | .importStatement => c.importOccurrences
  | .functionDeclaration | .generatorFunctionDeclaration =>
    nameOccurrences c.enclosingScope .function c
  | .classDeclaration | .abstractClassDeclaration => nameOccurrences c.enclosingScope .classLike c
  | .functionExpression | .function | .generatorFunction => nameOccurrences c .function c
  | .classExpression => nameOccurrences c .classLike c
  | .forInStatement => c.loopOccurrences
  | .variableDeclarator => patternOccurrences c.declaratorScope .variable c (c.child? .name)
  | .requiredParameter | .optionalParameter =>
    patternOccurrences c.enclosingFunctionScope .parameter c (c.child? .pattern)
  | .arrowFunction => c.bareParameterOccurrences .parameter
  | .catchClause => c.bareParameterOccurrences .variable
  | _ => []

end Cursor
end JsxLint
