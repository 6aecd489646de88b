import JsxLint.Scope.Occurrence
import JsxLint.Tree.Text

/-!
The bindings of a file. A scope is known by its range and kind. All declarations of a name in a
scope make up one symbol, in the order in which they were met.
-/

namespace JsxLint

structure Binding where
  scope : Site
  name : String
  declaration : Declaration
deriving Repr

/-- Bindings in document order. -/
structure ScopeTable where
  bindings : List Binding
deriving Repr

namespace ScopeTable

/-- The declarations of a name in a scope. -/
def declarations (table : ScopeTable) (scope : Site) (name : String) : List Declaration :=
  (table.bindings.filter fun binding => binding.scope = scope ∧ binding.name = name).map
    (·.declaration)

def lookup? (table : ScopeTable) (scope : Site) (name : String) : Option Symbol :=
  match table.declarations scope name with
  | [] => none
  | declarations => some ⟨name, scope.kind, declarations⟩

/-- The scopes that bind a name. -/
def scopes (table : ScopeTable) : List Site :=
  (table.bindings.map (·.scope)).eraseDups

/-- The symbols of a scope, in the order in which their names were first bound. -/
def symbolsIn (table : ScopeTable) (scope : Site) : List Symbol :=
  ((table.bindings.filter fun binding => binding.scope = scope).map (·.name)).eraseDups.filterMap
    (table.lookup? scope)

def bind (source : Bytes) (occurrence : Occurrence) : Except Failure Binding := do
  let name ← occurrence.name.text source
  return ⟨occurrence.scope.site, name, ⟨occurrence.kind, occurrence.node, occurrence.name⟩⟩

/-- The bindings of every node of a tree. -/
def ofTree (source : Bytes) (tree : Tree) : Except Failure ScopeTable := do
  let occurrences := (Cursor.walk [Cursor.ofRoot tree]).flatMap Cursor.occurrences
  return ⟨← occurrences.mapM (bind source)⟩

end ScopeTable
end JsxLint
