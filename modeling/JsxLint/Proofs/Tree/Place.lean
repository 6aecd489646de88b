import JsxLint.Tree.Traversal

/-!
Places of a tree and how they lie to each other. The traversal meets exactly the places that can
be reached by going down. Where the ranges of a tree fit, of two places one is below the other or
their ranges lie apart; the text under a tree is not looked at.
-/

namespace JsxLint
namespace Cursor

/-- The second place stands at or below the first. -/
inductive Reaches : Cursor → Cursor → Prop where
  | refl (c : Cursor) : Reaches c c
  | child {a b c : Cursor} (above : Reaches a b) (step : c ∈ b.children) : Reaches a c

theorem Reaches.trans {a b c : Cursor} (hab : Reaches a b) (hbc : Reaches b c) : Reaches a c := by
  induction hbc with
  | refl => exact hab
  | child _ step ih => exact .child ih step

theorem reaches_of_mem_children {b c : Cursor} (h : c ∈ b.children) : Reaches b c :=
  .child (.refl b) h

theorem Reaches.eq_or_child {a d : Cursor} (h : Reaches a d) :
    d = a ∨ ∃ c ∈ a.children, Reaches c d := by
  induction h with
  | refl => exact .inl rfl
  | child above step ih =>
      rcases ih with rfl | ⟨c, hc, hcb⟩
      · exact .inr ⟨_, step, .refl _⟩
      · exact .inr ⟨c, hc, .child hcb step⟩

theorem mem_children {b c : Cursor} :
    c ∈ b.children ↔ ∃ (index : Nat) (h : index < b.focus.children.length),
      c = b.down index b.focus.children[index] := by
  simp only [children, List.mem_mapIdx, eq_comm]

theorem ancestors_of_mem_children {b c : Cursor} (h : c ∈ b.children) :
    c.ancestors = b :: b.ancestors := by
  obtain ⟨index, _, rfl⟩ := mem_children.1 h
  rfl

theorem parent?_of_mem_children {b c : Cursor} (h : c ∈ b.children) : c.parent? = some b := by
  rw [parent?, ancestors_of_mem_children h, List.head?_cons]

/-- The place reached by going down along the indices of children. -/
def descend? (c : Cursor) : List Nat → Option Cursor
  | [] => some c
  | index :: rest => c.children[index]?.bind (·.descend? rest)

theorem reaches_of_descend? {c d : Cursor} (indices : List Nat)
    (h : c.descend? indices = some d) : Reaches c d := by
  induction indices generalizing c with
  | nil => exact Option.some.inj h ▸ .refl _
  | cons index rest ih =>
      obtain ⟨child, step, h⟩ := Option.bind_eq_some_iff.1 h
      exact (reaches_of_mem_children (List.mem_of_getElem? step)).trans (ih h)

theorem eq_of_mem_children {a b c : Cursor} (ha : c ∈ a.children) (hb : c ∈ b.children) :
    a = b := by
  have := (parent?_of_mem_children ha).symm.trans (parent?_of_mem_children hb)
  exact Option.some.inj this

theorem mem_children_of_namedChildren {b c : Cursor} (h : c ∈ b.namedChildren) :
    c ∈ b.children :=
  (List.mem_filter.1 h).1

theorem mem_children_of_childOfKind? {b c : Cursor} {kind : Kind}
    (h : b.childOfKind? kind = some c) : c ∈ b.children ∧ c.kind = kind :=
  ⟨List.mem_of_find?_eq_some h, by simpa using List.find?_some h⟩

theorem mem_children_of_child?_eq {b c : Cursor} {field : Field}
    (h : b.child? field = some c) : c ∈ b.children :=
  List.mem_of_find?_eq_some h

/-- The places above another are those on its way up, which ends at the root. -/
theorem Reaches.eq_or_mem_ancestors {a c : Cursor} (h : Reaches a c) :
    a = c ∨ a ∈ c.ancestors := by
  induction h with
  | refl => exact .inl rfl
  | child above step ih =>
      rw [ancestors_of_mem_children step]
      rcases ih with rfl | ih
      · exact .inr List.mem_cons_self
      · exact .inr (List.mem_cons_of_mem _ ih)

theorem Reaches.of_mem_ancestors {tree : Tree} {a c : Cursor} (h : Reaches (ofRoot tree) c)
    (ha : a ∈ c.ancestors) : Reaches (ofRoot tree) a ∧ Reaches a c := by
  induction h with
  | refl => cases ha
  | child above step ih =>
      rw [ancestors_of_mem_children step] at ha
      rcases List.mem_cons.1 ha with rfl | ha
      · exact ⟨above, reaches_of_mem_children step⟩
      · exact ⟨(ih ha).1, .child (ih ha).2 step⟩

theorem Reaches.eq_root {tree : Tree} {c : Cursor} (h : Reaches (ofRoot tree) c)
    (alone : c.ancestors = []) : c = ofRoot tree := by
  cases h with
  | refl => rfl
  | child _ step => simp [ancestors_of_mem_children step] at alone

theorem Reaches.of_parent? {tree : Tree} {b c : Cursor} (h : Reaches (ofRoot tree) c)
    (hp : c.parent? = some b) : Reaches (ofRoot tree) b ∧ c ∈ b.children := by
  cases h with
  | refl => cases hp
  | child above step =>
      rw [parent?_of_mem_children step] at hp
      obtain rfl := Option.some.inj hp
      exact ⟨above, step⟩

theorem Reaches.size_le {a b : Cursor} (h : Reaches a b) : b.size ≤ a.size := by
  induction h with
  | refl => exact Nat.le_refl _
  | child above step ih => exact Nat.le_trans (Nat.le_of_lt (size_lt_of_mem_children step)) ih

theorem not_reaches_of_mem_children {b c : Cursor} (h : c ∈ b.children) : ¬ Reaches c b := by
  intro up
  exact Nat.not_le_of_lt (size_lt_of_mem_children h) up.size_le

theorem Reaches.parent {a b c : Cursor} (h : Reaches a c) (step : c ∈ b.children)
    (ne : a ≠ c) : Reaches a b := by
  cases h with
  | refl => exact absurd rfl ne
  | child above step' =>
      rw [eq_of_mem_children step step']
      exact above

theorem preorder_eq (c : Cursor) : c.preorder = c :: c.children.flatMap preorder := by
  rw [preorder]
  simp

theorem walk_eq_flatMap_preorder (stack : List Cursor) : walk stack = stack.flatMap preorder := by
  fun_induction walk stack with
  | case1 => rfl
  | case2 c rest ih =>
      rw [ih, List.flatMap_append, List.flatMap_cons, preorder_eq, List.cons_append]

theorem walk_singleton (c : Cursor) : walk [c] = c.preorder := by
  rw [walk_eq_flatMap_preorder, List.flatMap_singleton]

theorem findAll_eq_filter_preorder (c : Cursor) (wanted : Kind → Bool) :
    c.findAll wanted = c.preorder.filter fun node => wanted node.kind := by
  rw [findAll, walk_singleton]

theorem mem_preorder_of_mem_children {c d e : Cursor} (hd : d ∈ c.preorder)
    (he : e ∈ d.children) : e ∈ c.preorder := by
  induction c using preorder.induct with
  | case1 c ih =>
      rw [preorder_eq] at hd ⊢
      refine List.mem_cons_of_mem _ (List.mem_flatMap.2 ?_)
      rcases List.mem_cons.1 hd with rfl | hd
      · exact ⟨e, he, by rw [preorder_eq]; exact List.mem_cons_self⟩
      · obtain ⟨child, hc, hd⟩ := List.mem_flatMap.1 hd
        exact ⟨child, hc, ih child hc hd⟩

theorem mem_preorder {c d : Cursor} : d ∈ c.preorder ↔ Reaches c d := by
  constructor
  · intro h
    induction c using preorder.induct with
    | case1 c ih =>
        rw [preorder_eq] at h
        rcases List.mem_cons.1 h with rfl | h
        · exact .refl _
        · obtain ⟨child, hc, hd⟩ := List.mem_flatMap.1 h
          exact (reaches_of_mem_children hc).trans (ih child hc hd)
  · intro h
    induction h with
    | refl =>
        rw [preorder_eq]
        exact List.mem_cons_self
    | child above step ih => exact mem_preorder_of_mem_children ih step

end Cursor

namespace Tree

/-- The places of a tree in document order. -/
def nodes (tree : Tree) : List Cursor :=
  Cursor.walk [Cursor.ofRoot tree]

theorem mem_nodes {tree : Tree} {c : Cursor} :
    c ∈ tree.nodes ↔ Cursor.Reaches (Cursor.ofRoot tree) c := by
  rw [nodes, Cursor.walk_singleton, Cursor.mem_preorder]

theorem mem_nodes_of_mem_children {tree : Tree} {b c : Cursor} (here : b ∈ tree.nodes)
    (step : c ∈ b.children) : c ∈ tree.nodes :=
  mem_nodes.2 (.child (mem_nodes.1 here) step)

/-- A named node on the first line of a text. -/
def onFirstLine (kind : Kind) (start stop : Nat) (field : Option Field) (children : List Tree) :
    Tree :=
  .node { start, stop, kind, row := 0, column := start, named := true, missing := false,
          hasError := false, field } children

/-- An attribute on the first line: its name up to an equals sign, and a quoted value. -/
def attributeAt (start sign stop : Nat) : Tree :=
  .onFirstLine .jsxAttribute start stop none
    [.onFirstLine (.other "property_identifier") start sign none [],
     .onFirstLine .equalsSign sign (sign + 1) none [],
     .onFirstLine (.other "string") (sign + 1) stop none []]

/-- A box on the first line, from `<Box` to `/>`, with an attribute of fourteen characters. -/
def boxAt (start : Nat) : Tree :=
  .onFirstLine .jsxSelfClosingElement start (start + 21) none
    [.onFirstLine .identifier (start + 1) (start + 4) (some .name) [],
     attributeAt (start + 5) (start + 12) (start + 19)]

/-- An import from `@chakra-ui/react` by one specifier, which ends at an offset. -/
def libraryImport (stop : Nat) (names : List Tree) : Tree :=
  .onFirstLine .importStatement 0 (stop + 24) none
    [.onFirstLine .importClause 6 (stop + 1) none
      [.onFirstLine .namedImports 6 (stop + 1) none
        [.onFirstLine .importSpecifier 7 stop none names]],
     .onFirstLine (.other "string") (stop + 5) (stop + 23) (some .source) []]

/-- The tree of `import{Box}from'@chakra-ui/react';`. -/
def boxImport : Tree :=
  libraryImport 10 [.onFirstLine .identifier 7 10 (some .name) []]

/-- The range of a node runs forward, its children lie inside it, and they follow each other. -/
def RangesFit (tree : Tree) : Prop :=
  tree.label.start ≤ tree.label.stop ∧
  (∀ child ∈ tree.children,
    tree.label.start ≤ child.label.start ∧ child.label.stop ≤ tree.label.stop) ∧
  tree.children.Pairwise fun a b => a.label.stop ≤ b.label.start

instance (tree : Tree) : Decidable tree.RangesFit :=
  inferInstanceAs (Decidable (_ ∧ _ ∧ _))

/-- What a parser promises of the ranges of a tree over a source of some length. -/
def WellFormed (length : Nat) (tree : Tree) : Prop :=
  tree.label.stop ≤ length ∧ ∀ c ∈ tree.nodes, c.focus.RangesFit

instance (length : Nat) (tree : Tree) : Decidable (tree.WellFormed length) :=
  inferInstanceAs (Decidable (_ ∧ _))

end Tree

namespace Cursor

variable {tree : Tree} {length : Nat} {a b c d : Cursor}

theorem start_le_stop (wf : tree.WellFormed length) (h : Reaches (ofRoot tree) c) :
    c.start ≤ c.stop :=
  (wf.2 c (Tree.mem_nodes.2 h)).1

theorem inside_of_mem_children (wf : tree.WellFormed length) (hb : Reaches (ofRoot tree) b)
    (step : c ∈ b.children) : b.start ≤ c.start ∧ c.stop ≤ b.stop := by
  obtain ⟨index, hi, rfl⟩ := mem_children.1 step
  exact (wf.2 b (Tree.mem_nodes.2 hb)).2.1 _ (List.getElem_mem hi)

theorem Reaches.inside (wf : tree.WellFormed length) (ha : Reaches (ofRoot tree) a)
    (h : Reaches a b) : a.start ≤ b.start ∧ b.stop ≤ a.stop := by
  induction h with
  | refl => exact ⟨Nat.le_refl _, Nat.le_refl _⟩
  | child above step ih =>
      have := inside_of_mem_children wf (ha.trans above) step
      omega

theorem stop_le_length (wf : tree.WellFormed length) (h : Reaches (ofRoot tree) c) :
    c.stop ≤ length :=
  Nat.le_trans (Reaches.inside wf (.refl _) h).2 wf.1

theorem pairwise_children (wf : tree.WellFormed length) (hb : Reaches (ofRoot tree) b) :
    b.children.Pairwise fun c d => c.stop ≤ d.start := by
  refine List.pairwise_iff_getElem.2 fun i j hi hj lt => ?_
  have ordered := List.pairwise_iff_getElem.1 (wf.2 b (Tree.mem_nodes.2 hb)).2.2
  simp only [children, List.length_mapIdx] at hi hj
  simp only [children, List.getElem_mapIdx]
  exact ordered i j hi hj lt

theorem siblings_apart (wf : tree.WellFormed length) (hb : Reaches (ofRoot tree) b)
    (hc : c ∈ b.children) (hd : d ∈ b.children) :
    c = d ∨ c.stop ≤ d.start ∨ d.stop ≤ c.start := by
  obtain ⟨i, hi, rfl⟩ := List.mem_iff_getElem.1 hc
  obtain ⟨j, hj, rfl⟩ := List.mem_iff_getElem.1 hd
  have ordered := List.pairwise_iff_getElem.1 (pairwise_children wf hb)
  rcases Nat.lt_trichotomy i j with lt | rfl | gt
  · exact .inr (.inl (ordered i j hi hj lt))
  · exact .inl rfl
  · exact .inr (.inr (ordered j i hj hi gt))

theorem nested_or_apart (wf : tree.WellFormed length) (ha : Reaches (ofRoot tree) a)
    (hd : Reaches (ofRoot tree) d) :
    Reaches a d ∨ Reaches d a ∨ a.stop ≤ d.start ∨ d.stop ≤ a.start := by
  -- On the way down to the first place, each step either stays above the second one, leaves it
  -- for a sibling, or has passed it before.
  induction ha with
  | refl => exact .inl hd
  | child above step ih =>
      have inside := inside_of_mem_children wf above step
      rcases ih with down | up | apart | apart
      · rcases down.eq_or_child with rfl | ⟨other, ho, hod⟩
        · exact .inr (.inl (reaches_of_mem_children step))
        · have within := Reaches.inside wf (.child above ho) hod
          rcases siblings_apart wf above step ho with rfl | apart | apart
          · exact .inl hod
          · exact .inr (.inr (.inl (by omega)))
          · exact .inr (.inr (.inr (by omega)))
      · exact .inr (.inl (.child up step))
      · exact .inr (.inr (.inl (by omega)))
      · exact .inr (.inr (.inr (by omega)))

end Cursor
end JsxLint
