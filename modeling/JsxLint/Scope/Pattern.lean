import JsxLint.Tree.Traversal

/-!
The names a binding pattern introduces. A pattern is an identifier, or is destructured: then its
parts are the elements of an object, array or rest pattern, the value of a property, and the
target of a default. Property keys and default values are no parts, so nothing in them is bound.
-/

namespace JsxLint
namespace Cursor

/-- The node is itself a name that a pattern binds. -/
def isBoundName (c : Cursor) : Bool :=
  c.kind = .identifier || c.kind = .shorthandPattern

/-- The patterns a destructuring pattern is made of. -/
def patternParts (c : Cursor) : List Cursor :=
  match c.kind with
  | .pairPattern => (c.child? .value).toList
  | .assignmentPattern | .objectAssignmentPattern => (c.child? .left).toList
  | .objectPattern | .arrayPattern | .restPattern => c.namedChildren
  | _ => []

theorem mem_children_of_child? {c d : Cursor} {field : Field} (h : d ∈ (c.child? field).toList) :
    d ∈ c.children :=
  List.mem_of_find?_eq_some (Option.mem_toList.1 h)

theorem mem_children_of_mem_patternParts {c d : Cursor} (h : d ∈ c.patternParts) :
    d ∈ c.children := by
  unfold patternParts at h
  split at h
  case h_7 => cases h
  case h_1 | h_2 | h_3 => exact mem_children_of_child? h
  case h_4 | h_5 | h_6 => exact (List.mem_filter.1 h).1

/-- The names bound by a pattern, in document order. -/
def boundNames (c : Cursor) : List Cursor :=
  if c.isBoundName then [c]
  else c.patternParts.attach.flatMap fun ⟨part, _⟩ => part.boundNames
termination_by c.size
decreasing_by exact size_lt_of_mem_children (mem_children_of_mem_patternParts (by assumption))

end Cursor
end JsxLint
