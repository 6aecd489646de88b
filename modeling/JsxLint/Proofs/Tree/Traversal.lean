import JsxLint.Proofs.Tree.Order
import Mathlib.Data.List.Basic

/-!
The traversal with a stack and the recursive one. The loop takes the last waiting place, calls a
visitor on it and lets its children wait behind the others, the first child last, so that places
of all levels wait at once. What is still to be visited is the pre-order of each waiting place, the
last one first, whatever the visitor does. Places of wanted kinds are collected by such a loop,
which is why they come in document order.
-/

namespace JsxLint
namespace Tree

mutual

/-- A tree and the trees below it, by recursion on the tree. -/
def subtrees : Tree → List Tree
  | .node label children => .node label children :: subtreesAll children

def subtreesAll : List Tree → List Tree
  | [] => []
  | tree :: rest => tree.subtrees ++ subtreesAll rest

end

theorem subtreesAll_eq_flatMap (trees : List Tree) :
    subtreesAll trees = trees.flatMap subtrees := by
  induction trees with
  | nil => rfl
  | cons tree rest ih => rw [subtreesAll, ih, List.flatMap_cons]

theorem subtrees_eq (tree : Tree) : tree.subtrees = tree :: tree.children.flatMap subtrees := by
  cases tree with
  | node label children => rw [subtrees, subtreesAll_eq_flatMap, Tree.children]

end Tree

namespace Cursor

universe u

theorem map_focus_preorder (c : Cursor) : c.preorder.map (·.focus) = c.focus.subtrees := by
  induction c using preorder.induct with
  | case1 c ih =>
      rw [preorder_eq, Tree.subtrees_eq, ← map_focus_children, List.map_cons, List.map_flatMap,
        List.flatMap_map]
      congr 1
      exact List.flatMap_congr ih

/-- Where the ranges below a place fit, the places are met in the order in which they start; what
stands above or beside it plays no part. -/
theorem pairwise_start_of_fit {c : Cursor} (fit : ∀ tree ∈ c.focus.subtrees, tree.RangesFit) :
    c.preorder.Pairwise fun a b => a.start ≤ b.start := by
  have trees : (ofRoot c.focus).preorder.map (·.focus) = c.focus.subtrees :=
    map_focus_preorder (ofRoot c.focus)
  have wf : c.focus.WellFormed c.focus.label.stop := by
    refine ⟨Nat.le_refl _, fun place here => fit _ ?_⟩
    rw [Tree.nodes_eq_preorder] at here
    exact trees ▸ List.mem_map_of_mem here
  -- A start belongs to the tree in a place, and the trees are those of the tree taken by itself.
  have ordered : c.focus.subtrees.Pairwise fun a b => a.label.start ≤ b.label.start := by
    rw [← trees]
    exact List.pairwise_map.2 (pairwise_start_preorder wf (.refl _))
  rwa [← map_focus_preorder, List.pairwise_map] at ordered

theorem pending_reverse (stack : List Cursor) : pending stack.reverse = pending stack := by
  induction stack with
  | nil => rfl
  | cons c rest ih =>
      rw [List.reverse_cons, pending_append, ih, pending_cons, pending_cons, Nat.add_comm]
      rfl

theorem pending_of_getLast? {stack : List Cursor} {c : Cursor} (last : stack.getLast? = some c) :
    pending stack = pending (stack.dropLast ++ c.children.reverse) + 1 := by
  have split := List.dropLast_append_getLast? c last
  have below := pending_children c
  have alone : pending [c] = c.size := rfl
  rw [← split]
  simp only [pending_append, pending_reverse, alone, List.dropLast_concat]
  omega

/-- Calls the visitor on the last waiting place and lets its children wait in its stead, the first
of them last, until none waits. -/
def visitAll {m : Type → Type u} [Monad m] (visit : Cursor → m Unit) (stack : List Cursor) :
    m Unit :=
  match _ : stack.getLast? with
  | none => pure ()
  | some c => do
    visit c
    visitAll visit (stack.dropLast ++ c.children.reverse)
termination_by pending stack
decreasing_by
  have round : pending stack = _ := pending_of_getLast? ‹_›
  omega

/-- One round visits the place that comes first and leaves the rest as it was. -/
theorem walk_of_getLast? {stack : List Cursor} {c : Cursor} (last : stack.getLast? = some c) :
    walk stack.reverse = c :: walk (stack.dropLast ++ c.children.reverse).reverse := by
  have split := List.dropLast_append_getLast? c last
  have top : stack.reverse = c :: stack.dropLast.reverse := by
    rw [← split, List.reverse_concat, List.dropLast_concat]
  rw [top, walk, List.reverse_append, List.reverse_reverse]

theorem visitAll_eq_forM {m : Type → Type u} [Monad m] (visit : Cursor → m Unit)
    (stack : List Cursor) : visitAll visit stack = (walk stack.reverse).forM visit := by
  -- By the rounds of the loop: what is still to be visited is the traversal of the stack read from
  -- its end, and the visitor has no part in what comes next.
  fun_induction visitAll visit stack with
  | case1 stack empty =>
      rw [List.getLast?_eq_none_iff.1 empty, List.reverse_nil, walk]
      rfl
  | case2 stack c last ih =>
      rw [ih, walk_of_getLast? last]
      rfl

theorem visitAll_singleton {m : Type → Type u} [Monad m] (visit : Cursor → m Unit) (c : Cursor) :
    visitAll visit [c] = c.preorder.forM visit := by
  rw [visitAll_eq_forM, List.reverse_singleton, walk_singleton]

/-- Adds a place to those found if its kind is wanted. -/
def collect (wanted : Kind → Bool) (c : Cursor) : StateM (List Cursor) Unit :=
  if wanted c.kind then modify (· ++ [c]) else pure ()

theorem run_collect (wanted : Kind → Bool) (c : Cursor) (found : List Cursor) :
    (collect wanted c).run found = ((), found ++ [c].filter fun place => wanted place.kind) := by
  cases kind : wanted c.kind with
  | true => simp [collect, kind]; rfl
  | false => simp [collect, kind]; rfl

theorem run_forM_collect (wanted : Kind → Bool) (places found : List Cursor) :
    (places.forM (collect wanted)).run found =
      ((), found ++ places.filter fun place => wanted place.kind) := by
  induction places generalizing found with
  | nil => rw [List.filter_nil, List.append_nil]; rfl
  | cons c rest ih =>
      have next : ((c :: rest).forM (collect wanted)).run found =
          (rest.forM (collect wanted)).run ((collect wanted c).run found).2 := rfl
      rw [next, run_collect, ih, List.append_assoc, ← List.filter_append, List.singleton_append]

/-- The loop with a stack visits the places at and below another exactly as the recursion does:
it calls the visitor once on each place, on a parent before its children and on these from left to
right. The places of wanted kinds are what it collects, a subsequence of this order, and where
ranges fit they are sorted by the byte at which they start. -/
theorem stack_visits_in_preorder (c : Cursor) :
    (∀ (m : Type → Type u) [Monad m] (visit : Cursor → m Unit),
      visitAll visit [c] = c.preorder.forM visit) ∧
    walk [c] = c.preorder ∧
    (walk [c]).map (·.focus) = c.focus.subtrees ∧
    (walk [c]).Nodup ∧
    (∀ place, place ∈ walk [c] ↔ Reaches c place) ∧
    (∀ place, Reaches c place → (place :: place.children).Sublist (walk [c])) ∧
    ∀ wanted : Kind → Bool,
      (visitAll (collect wanted) [c]).run [] = ((), c.findAll wanted) ∧
      c.findAll wanted = c.preorder.filter (fun place => wanted place.kind) ∧
      ((∀ tree ∈ c.focus.subtrees, tree.RangesFit) →
        ((c.findAll wanted).map (·.start)).Pairwise (· ≤ ·)) := by
  rw [walk_singleton]
  refine ⟨fun m _ visit => visitAll_singleton visit c, rfl, map_focus_preorder c, nodup_preorder c,
    fun _ => mem_preorder, ?_, ?_⟩
  · intro place down
    exact place.cons_children_sublist_preorder.trans down.preorder_sublist
  · intro wanted
    rw [findAll_eq_filter_preorder]
    refine ⟨?_, rfl, fun fit => ?_⟩
    · rw [visitAll_singleton, run_forM_collect, List.nil_append]
    · exact List.pairwise_map.2 ((pairwise_start_of_fit fit).sublist List.filter_sublist)

/-- The element `<Box><Flex /></Box>`. -/
def boxedTree : Tree :=
  .onFirstLine .program 0 19 none
    [.onFirstLine (.other "expression_statement") 0 19 none
      [.onFirstLine .jsxElement 0 19 none
        [.onFirstLine .jsxOpeningElement 0 5 none
          [.onFirstLine .identifier 1 4 (some .name) []],
         .onFirstLine .jsxSelfClosingElement 5 13 none
          [.onFirstLine .identifier 6 10 (some .name) []],
         .onFirstLine .jsxClosingElement 13 19 none
          [.onFirstLine .identifier 15 18 (some .name) []]]]]

/-- While the name of the opening tag is visited, the two tags beside the opening tag still wait. -/
theorem stack_visits_in_preorder_boxed :
    let root := ofRoot boxedTree
    let isName (kind : Kind) : Bool := kind = .identifier
    (∀ tree ∈ root.focus.subtrees, tree.RangesFit) ∧
    (walk [root]).map (·.start) = [0, 0, 0, 0, 1, 5, 6, 13, 15] ∧
    (visitAll (collect isName) [root]).run [] = ((), root.findAll isName) ∧
    (root.findAll isName).map (·.start) = [1, 6, 15] ∧
    ((root.findAll isName).map (·.start)).Pairwise (· ≤ ·) := by
  intro root isName
  have fit : ∀ tree ∈ root.focus.subtrees, tree.RangesFit := by decide +kernel
  obtain ⟨-, -, -, -, -, -, found⟩ := stack_visits_in_preorder.{0} root
  obtain ⟨collected, -, sorted⟩ := found isName
  exact ⟨fit, by decide +kernel, collected, by decide +kernel, sorted fit⟩

end Cursor
end JsxLint
