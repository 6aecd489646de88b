/-!
Kinds of syntax nodes. Those the linter looks at have a constructor each; every other kind is
known by its grammar symbol alone. A token is a kind of its own, named by its spelling, so the
keyword and the expression form of a function or class share one kind.
-/

namespace JsxLint

inductive Kind where
  | program
  | error
  | importStatement
  | importClause
  | namedImports
  | namespaceImport
  | importSpecifier
  | identifier
  | functionDeclaration
  | generatorFunctionDeclaration
  | functionExpression
  | function
  | generatorFunction
  | arrowFunction
  | methodDefinition
  | statementBlock
  | forStatement
  | forInStatement
  | catchClause
  | classExpression
  | classBody
  | switchBody
  | classDeclaration
  | abstractClassDeclaration
  | variableDeclarator
  | variableDeclaration
  | requiredParameter
  | optionalParameter
  | pairPattern
  | assignmentPattern
  | objectAssignmentPattern
  | objectPattern
  | arrayPattern
  | restPattern
  | shorthandPattern
  | jsxElement
  | jsxOpeningElement
  | jsxClosingElement
  | jsxSelfClosingElement
  | jsxAttribute
  | jsxExpression
  | equalsSign
  | varKeyword
  | other (symbol : String)
deriving DecidableEq, Repr, Inhabited

namespace Kind

def symbol : Kind → String
  | program => "program"
  | error => "ERROR"
  | importStatement => "import_statement"
  | importClause => "import_clause"
  | namedImports => "named_imports"
  | namespaceImport => "namespace_import"
  | importSpecifier => "import_specifier"
  | identifier => "identifier"
  | functionDeclaration => "function_declaration"
  | generatorFunctionDeclaration => "generator_function_declaration"
  | functionExpression => "function_expression"
  | function => "function"
  | generatorFunction => "generator_function"
  | arrowFunction => "arrow_function"
  | methodDefinition => "method_definition"
  | statementBlock => "statement_block"
  | forStatement => "for_statement"
  | forInStatement => "for_in_statement"
  | catchClause => "catch_clause"
  | classExpression => "class"
  | classBody => "class_body"
  | switchBody => "switch_body"
  | classDeclaration => "class_declaration"
  | abstractClassDeclaration => "abstract_class_declaration"
  | variableDeclarator => "variable_declarator"
  | variableDeclaration => "variable_declaration"
  | requiredParameter => "required_parameter"
  | optionalParameter => "optional_parameter"
  | pairPattern => "pair_pattern"
  | assignmentPattern => "assignment_pattern"
  | objectAssignmentPattern => "object_assignment_pattern"
  | objectPattern => "object_pattern"
  | arrayPattern => "array_pattern"
  | restPattern => "rest_pattern"
  | shorthandPattern => "shorthand_property_identifier_pattern"
  | jsxElement => "jsx_element"
  | jsxOpeningElement => "jsx_opening_element"
  | jsxClosingElement => "jsx_closing_element"
  | jsxSelfClosingElement => "jsx_self_closing_element"
  | jsxAttribute => "jsx_attribute"
  | jsxExpression => "jsx_expression"
  | equalsSign => "="
  | varKeyword => "var"
  | other symbol => symbol

/-- The kinds with a constructor of their own. -/
def known : List Kind :=
  [program, error, importStatement, importClause, namedImports, namespaceImport, importSpecifier,
   identifier, functionDeclaration, generatorFunctionDeclaration, functionExpression, function,
   generatorFunction, arrowFunction, methodDefinition, statementBlock, forStatement,
   forInStatement, catchClause, classExpression, classBody, switchBody, classDeclaration,
   abstractClassDeclaration, variableDeclarator, variableDeclaration, requiredParameter,
   optionalParameter, pairPattern, assignmentPattern, objectAssignmentPattern, objectPattern,
   arrayPattern, restPattern, shorthandPattern, jsxElement, jsxOpeningElement,
   jsxClosingElement, jsxSelfClosingElement, jsxAttribute, jsxExpression, equalsSign, varKeyword]

def ofSymbol (symbol : String) : Kind :=
  (known.find? fun kind => kind.symbol = symbol).getD (other symbol)

/-- Function-like nodes, which hold parameters and variables declared with `var`. -/
def isFunctionScope : Kind → Bool
  | functionDeclaration | generatorFunctionDeclaration | functionExpression | function
  | generatorFunction | arrowFunction | methodDefinition => true
  | _ => false

/-- Nodes that hold bindings without being functions or the whole program. -/
def isBlockScope : Kind → Bool
  | statementBlock | forStatement | forInStatement | catchClause | classExpression | classBody
  | switchBody => true
  | _ => false

def isScope (kind : Kind) : Bool :=
  kind.isFunctionScope || kind.isBlockScope || kind = program

/-- Opening tags, with or without a matching closing tag. -/
def isTag : Kind → Bool
  | jsxOpeningElement | jsxSelfClosingElement => true
  | _ => false

/-- Attributes of a tag; a spread of properties is an expression. -/
def isAttribute : Kind → Bool
  | jsxAttribute | jsxExpression => true
  | _ => false

end Kind

/-- The roles a child can have in its parent. -/
inductive Field where
  | name
  | rename
  | source
  | kind
  | left
  | parameter
  | pattern
  | value
  | closeTag
deriving DecidableEq, Repr

namespace Field

def word : Field → String
  | name => "name"
  | rename => "alias"
  | source => "source"
  | kind => "kind"
  | left => "left"
  | parameter => "parameter"
  | pattern => "pattern"
  | value => "value"
  | closeTag => "close_tag"

def ofWord? (word : String) : Option Field :=
  [name, rename, source, kind, left, parameter, pattern, value, closeTag].find? fun field =>
    field.word = word

end Field
end JsxLint
