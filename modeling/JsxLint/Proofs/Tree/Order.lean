import JsxLint.Proofs.Tree.Place
import Mathlib.Data.List.Flatten

/-!
The order in which the places of a tree are met. Each place is met once, those below a place are met
together, and a place is met before those below it. Byte offsets play no part in this order, but
where ranges fit it is also the order in which the places start.
-/

namespace JsxLint
namespace Cursor

theorem Reaches.path_suffix {a b : Cursor} (h : Reaches a b) : a.path <:+ b.path := by
  induction h with
  | refl => exact List.suffix_refl _
  | child above step ih =>
      obtain ⟨index, _, rfl⟩ := mem_children.1 step
      exact ih.trans (List.suffix_cons _ _)

/-- The places below two children are different ones. -/
theorem eq_of_reaches_same {b c d x : Cursor} (hc : c ∈ b.children) (hd : d ∈ b.children)
    (hcx : Reaches c x) (hdx : Reaches d x) : c = d := by
  obtain ⟨i, hi, rfl⟩ := mem_children.1 hc
  obtain ⟨j, hj, rfl⟩ := mem_children.1 hd
  have same : (b.down i b.focus.children[i]).path = (b.down j b.focus.children[j]).path :=
    (List.suffix_of_suffix_length_le hcx.path_suffix hdx.path_suffix (Nat.le_refl _)).eq_of_length
      rfl
  simp only [down, List.cons.injEq, Frame.mk.injEq, true_and, and_true] at same
  subst same
  rfl

theorem nodup_children (c : Cursor) : c.children.Nodup := by
  refine List.pairwise_iff_getElem.2 fun i j hi hj lt same => ?_
  simp only [children, List.getElem_mapIdx, down, Cursor.mk.injEq, List.cons.injEq,
    Frame.mk.injEq] at same
  omega

theorem nodup_preorder (c : Cursor) : c.preorder.Nodup := by
  induction c using preorder.induct with
  | case1 c ih =>
      rw [preorder_eq]
      refine List.nodup_cons.2 ⟨?_, List.pairwise_flatMap.2 ⟨ih, ?_⟩⟩
      · intro here
        obtain ⟨child, step, below⟩ := List.mem_flatMap.1 here
        exact not_reaches_of_mem_children step (mem_preorder.1 below)
      · refine c.nodup_children.imp_of_mem fun {a b} ha hb ne x hx y hy same => ne ?_
        exact eq_of_reaches_same ha hb (mem_preorder.1 hx) (same ▸ mem_preorder.1 hy)

theorem preorder_sublist_of_mem_children {b c : Cursor} (h : c ∈ b.children) :
    c.preorder.Sublist b.preorder := by
  rw [preorder_eq b]
  refine .cons _ ?_
  exact List.sublist_flatten_of_mem (List.mem_map_of_mem h)

theorem Reaches.preorder_sublist {a b : Cursor} (h : Reaches a b) :
    b.preorder.Sublist a.preorder := by
  induction h with
  | refl => exact List.Sublist.refl _
  | child above step ih => exact (preorder_sublist_of_mem_children step).trans ih

theorem cons_flatMap_sublist_preorder {c : Cursor} {xs : List Cursor} {f : Cursor → List Cursor}
    (hx : xs.Sublist c.children) (hf : ∀ d ∈ xs, (f d).Sublist d.preorder) :
    (c :: xs.flatMap f).Sublist c.preorder := by
  rw [preorder_eq]
  exact .cons_cons _ ((List.Sublist.flatMap_right xs hf).trans (hx.flatMap preorder))

theorem flatMap_sublist_preorder {c : Cursor} {xs : List Cursor} {f : Cursor → List Cursor}
    (hx : xs.Sublist c.children) (hf : ∀ d ∈ xs, (f d).Sublist d.preorder) :
    (xs.flatMap f).Sublist c.preorder :=
  List.sublist_of_cons_sublist (cons_flatMap_sublist_preorder hx hf)

theorem singleton_sublist_preorder (c : Cursor) : [c].Sublist c.preorder := by
  rw [preorder_eq]
  exact List.singleton_sublist.2 List.mem_cons_self

/-- A place is met before its children, and they are met in order. -/
theorem cons_children_sublist_preorder (c : Cursor) : (c :: c.children).Sublist c.preorder := by
  have := cons_flatMap_sublist_preorder (.refl c.children) fun d _ => d.singleton_sublist_preorder
  rwa [List.flatMap_singleton'] at this

theorem sublist_preorder {c : Cursor} {xs : List Cursor} (hx : xs.Sublist c.children) :
    xs.Sublist c.preorder :=
  (hx.cons c).trans c.cons_children_sublist_preorder

/-- Where ranges fit, places are met in the order in which they start. -/
theorem pairwise_start_preorder {tree : Tree} {length : Nat} (wf : tree.WellFormed length)
    {c : Cursor} (here : Reaches (ofRoot tree) c) :
    c.preorder.Pairwise fun a b => a.start ≤ b.start := by
  induction c using preorder.induct with
  | case1 c ih =>
      rw [preorder_eq]
      refine List.pairwise_cons.2 ⟨fun below mem => ?_, List.pairwise_flatMap.2 ⟨?_, ?_⟩⟩
      · obtain ⟨child, step, mem⟩ := List.mem_flatMap.1 mem
        have down := (reaches_of_mem_children step).trans (mem_preorder.1 mem)
        exact (Reaches.inside wf here down).1
      · intro child step
        exact ih child step (.child here step)
      · -- What stands below a child ends before the next child starts.
        refine (pairwise_children wf here).imp_of_mem fun {a b} ha hb order x hx y hy => ?_
        have left := Reaches.inside wf (.child here ha) (mem_preorder.1 hx)
        have right := Reaches.inside wf (.child here hb) (mem_preorder.1 hy)
        have forward := start_le_stop wf ((Reaches.child here ha).trans (mem_preorder.1 hx))
        omega

end Cursor

namespace Tree

theorem nodes_eq_preorder (tree : Tree) : tree.nodes = (Cursor.ofRoot tree).preorder :=
  Cursor.walk_singleton _

theorem nodup_nodes (tree : Tree) : tree.nodes.Nodup :=
  nodes_eq_preorder tree ▸ Cursor.nodup_preorder _

/-- The first place is met before the second. -/
def Before (tree : Tree) (a b : Cursor) : Prop :=
  [a, b].Sublist tree.nodes

end Tree
end JsxLint
