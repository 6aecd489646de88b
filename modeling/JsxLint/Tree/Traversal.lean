import JsxLint.Tree.Basic

/-!
Visiting every node of a tree. The traversal keeps the nodes still to visit in a list of its own,
which makes it independent of the nesting depth; `preorder` is the same order by recursion on the
tree: a node, then the nodes below each of its children from left to right.
-/

namespace JsxLint
namespace Tree

mutual

/-- Number of nodes of a tree. -/
def size : Tree → Nat
  | .node _ children => 1 + sizeAll children

def sizeAll : List Tree → Nat
  | [] => 0
  | tree :: rest => tree.size + sizeAll rest

end

theorem sizeAll_children (tree : Tree) : sizeAll tree.children + 1 = tree.size := by
  cases tree
  simp only [children, size]
  omega

end Tree

namespace Cursor

/-- Number of nodes at and below a place. -/
def size (c : Cursor) : Nat :=
  c.focus.size

/-- Number of nodes still to visit. -/
def pending (stack : List Cursor) : Nat :=
  Tree.sizeAll (stack.map (·.focus))

theorem sizeAll_append (xs ys : List Tree) :
    Tree.sizeAll (xs ++ ys) = Tree.sizeAll xs + Tree.sizeAll ys := by
  induction xs with
  | nil => simp [Tree.sizeAll]
  | cons tree rest ih => simp only [List.cons_append, Tree.sizeAll, ih]; omega

theorem map_focus_children (c : Cursor) : c.children.map (·.focus) = c.focus.children := by
  apply List.ext_getElem <;> simp [children, down]

theorem pending_children (c : Cursor) : pending c.children + 1 = c.size := by
  simp only [pending, map_focus_children, Tree.sizeAll_children, size]

theorem pending_append (xs ys : List Cursor) : pending (xs ++ ys) = pending xs + pending ys := by
  simp only [pending, List.map_append, sizeAll_append]

theorem pending_cons (c : Cursor) (rest : List Cursor) :
    pending (c :: rest) = c.size + pending rest := rfl

theorem size_le_pending {c : Cursor} {stack : List Cursor} (h : c ∈ stack) :
    c.size ≤ pending stack := by
  induction stack with
  | nil => cases h
  | cons d rest ih =>
    rw [pending_cons]
    rcases List.mem_cons.1 h with rfl | h
    · omega
    · have := ih h
      omega

theorem size_lt_of_mem_children {c d : Cursor} (h : d ∈ c.children) : d.size < c.size := by
  have := size_le_pending h
  have := pending_children c
  omega

/-- Visits the first waiting node and puts its children in front of the others. -/
def walk : List Cursor → List Cursor
  | [] => []
  | c :: rest => c :: walk (c.children ++ rest)
termination_by stack => pending stack
decreasing_by
  have := pending_children c
  rw [pending_append, pending_cons]
  omega

/-- The nodes at and below a place, parents before children and children in order. -/
def preorder (c : Cursor) : List Cursor :=
  c :: c.children.attach.flatMap fun ⟨child, _⟩ => preorder child
termination_by c.size
decreasing_by exact size_lt_of_mem_children (by assumption)

/-- The nodes at and below a place whose kind is wanted, in document order. -/
def findAll (c : Cursor) (wanted : Kind → Bool) : List Cursor :=
  (walk [c]).filter fun node => wanted node.kind

end Cursor
end JsxLint
