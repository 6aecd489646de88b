import JsxLint.Proofs.Scope.Resolution
import Mathlib.Logic.Relation

/-!
The names of a binding pattern and the ways that lead to them. A pattern binds a name if the name is
reached by going from patterns to their parts alone; every step of the way to a bound name is such a
step, so nothing in a key or a default value is bound, however deep it stands. What the bound names
are called is not looked at.
-/

namespace JsxLint
namespace Cursor

/-- One step from a pattern to a pattern that it is made of. -/
inductive HasPart (pattern part : Cursor) : Prop where
  | value (kind : pattern.kind = .pairPattern) (found : pattern.child? .value = some part)
  | target (kind : pattern.kind = .assignmentPattern ∨ pattern.kind = .objectAssignmentPattern)
      (found : pattern.child? .left = some part)
  | element
      (kind : pattern.kind = .objectPattern ∨ pattern.kind = .arrayPattern ∨
        pattern.kind = .restPattern)
      (found : part ∈ pattern.namedChildren)

/-- Steps from patterns to their parts lead from the first place to the second. -/
abbrev LeadsTo : Cursor → Cursor → Prop :=
  Relation.ReflTransGen HasPart

/-- The child is the key of a property, plain or computed, or a default value. -/
def IsKeyOrDefault (whole child : Cursor) : Prop :=
  (whole.kind = .pairPattern ∧ whole.child? .value ≠ some child) ∨
    ((whole.kind = .assignmentPattern ∨ whole.kind = .objectAssignmentPattern) ∧
      whole.child? .left ≠ some child)

variable {pattern part whole child name : Cursor}

theorem HasPart.mem_children (h : HasPart pattern part) : part ∈ pattern.children := by
  cases h with
  | value _ found | target _ found => exact mem_children_of_child?_eq found
  | element _ found => exact mem_children_of_namedChildren found

theorem HasPart.not_isKeyOrDefault (h : HasPart pattern part) : ¬ IsKeyOrDefault pattern part := by
  intro other
  cases h with
  | value kind found => simp [IsKeyOrDefault, kind, found] at other
  | target kind found =>
      rcases kind with kind | kind <;> simp [IsKeyOrDefault, kind, found] at other
  | element kind found =>
      rcases kind with kind | kind | kind <;> simp [IsKeyOrDefault, kind] at other

theorem LeadsTo.reaches (h : LeadsTo pattern name) : Reaches pattern name := by
  induction h with
  | refl => exact .refl _
  | tail _ step ih => exact .child ih step.mem_children

theorem patternBinds_iff_leadsTo :
    PatternBinds pattern name ↔
      LeadsTo pattern name ∧ (name.kind = .identifier ∨ name.kind = .shorthandPattern) := by
  constructor
  · intro h
    induction h with
    | name kind => exact ⟨.refl, kind⟩
    | property kind part _ ih => exact ⟨.head (.value kind part) ih.1, ih.2⟩
    | target kind part _ ih => exact ⟨.head (.target kind part) ih.1, ih.2⟩
    | element kind part _ ih => exact ⟨.head (.element kind part) ih.1, ih.2⟩
  · rintro ⟨way, kind⟩
    induction way using Relation.ReflTransGen.head_induction_on with
    | refl => exact .name kind
    | head step _ ih =>
        cases step with
        | value kind found => exact .property kind found ih
        | target kind found => exact .target kind found ih
        | element kind found => exact .element kind found ih

/-- There is one way down to a place, so a pattern that leads to a name leads there through every
place in between. -/
theorem LeadsTo.through (h : LeadsTo pattern name) (down : Reaches pattern whole)
    (further : Reaches whole name) : LeadsTo whole name := by
  induction h using Relation.ReflTransGen.head_induction_on with
  | refl =>
      rcases down.eq_or_child with rfl | ⟨child, step, below⟩
      · exact .refl
      · exact absurd (below.trans further) (not_reaches_of_mem_children step)
  | head step rest ih =>
      rcases down.eq_or_child with rfl | ⟨child, other, below⟩
      · exact .head step rest
      · obtain rfl := eq_of_reaches_same step.mem_children other (LeadsTo.reaches rest)
          (below.trans further)
        exact ih below

theorem LeadsTo.hasPart (h : LeadsTo pattern name) (down : Reaches pattern whole)
    (step : child ∈ whole.children) (below : Reaches child name) : HasPart whole child := by
  have rest := h.through down ((reaches_of_mem_children step).trans below)
  rcases rest.cases_head with rfl | ⟨part, first, rest⟩
  · exact absurd below (not_reaches_of_mem_children step)
  · obtain rfl := eq_of_reaches_same first.mem_children step (LeadsTo.reaches rest) below
    exact first

/-- Where ranges fit, the bound names follow each other. -/
theorem pairwise_boundNames {tree : Tree} {length : Nat} (wf : tree.WellFormed length)
    (here : Reaches (ofRoot tree) pattern) :
    pattern.boundNames.Pairwise fun a b => a.stop ≤ b.start := by
  induction pattern using boundNames.induct with
  | case1 pattern bound =>
      rw [boundNames_eq, if_pos bound]
      exact List.pairwise_singleton _ _
  | case2 pattern bound ih =>
      rw [boundNames_eq, if_neg bound]
      have step (part : Cursor) (mem : part ∈ pattern.patternParts) : part ∈ pattern.children :=
        mem_children_of_mem_patternParts mem
      have below {part name : Cursor} (mem : name ∈ part.boundNames) : Reaches part name :=
        mem_preorder.1 (part.boundNames_sublist.subset mem)
      refine List.pairwise_flatMap.2 ⟨fun part mem => ih part mem (.child here (step part mem)), ?_⟩
      refine ((pairwise_children wf here).sublist pattern.patternParts_sublist).imp_of_mem ?_
      intro left right hl hr order a ha b hb
      have := Reaches.inside wf (.child here (step left hl)) (below ha)
      have := Reaches.inside wf (.child here (step right hr)) (below hb)
      omega

/-- A pattern binds exactly the identifiers that it leads to through its parts, each once, in the
order of the tree and, where ranges fit, one behind the other. No name in a key or a default value
is among them, wherever in the pattern the key or the value stands. -/
theorem boundNames_exactly_reached_names (pattern : Cursor) :
    (∀ name, name ∈ pattern.boundNames ↔
      LeadsTo pattern name ∧ (name.kind = .identifier ∨ name.kind = .shorthandPattern)) ∧
    pattern.boundNames.Nodup ∧
    pattern.boundNames.Sublist pattern.preorder ∧
    (∀ tree length, Tree.WellFormed length tree → pattern ∈ tree.nodes →
      pattern.boundNames.Pairwise fun a b => a.stop ≤ b.start) ∧
    ∀ whole child name, Reaches pattern whole → child ∈ whole.children →
      IsKeyOrDefault whole child → Reaches child name → name ∉ pattern.boundNames := by
  have bound_iff (name : Cursor) : name ∈ pattern.boundNames ↔
      LeadsTo pattern name ∧ (name.kind = .identifier ∨ name.kind = .shorthandPattern) :=
    mem_boundNames.trans patternBinds_iff_leadsTo
  refine ⟨bound_iff, pattern.nodup_preorder.sublist pattern.boundNames_sublist,
    pattern.boundNames_sublist, ?_, ?_⟩
  · intro tree length wf here
    exact pairwise_boundNames wf (Tree.mem_nodes.1 here)
  · intro whole child name down step other below bound
    obtain ⟨way, -⟩ := (bound_iff name).1 bound
    exact (way.hasPart down step below).not_isKeyOrDefault other

/-- The pattern `{a,[k]:b=c,...d}`. -/
def destructuringTree : Tree :=
  .onFirstLine .objectPattern 0 16 none
    [.onFirstLine .shorthandPattern 1 2 none [],
     .onFirstLine .pairPattern 3 10 none
      [.onFirstLine (.other "computed_property_name") 3 6 none
        [.onFirstLine .identifier 4 5 none []],
       .onFirstLine .assignmentPattern 7 10 (some .value)
        [.onFirstLine .identifier 7 8 (some .left) [],
         .onFirstLine .identifier 9 10 none []]],
     .onFirstLine .restPattern 11 15 none
      [.onFirstLine .identifier 14 15 none []]]

/-- Three of the five names are bound: neither the computed key nor the default value is. -/
theorem boundNames_exactly_reached_names_computed_key :
    let pattern := ofRoot destructuringTree
    destructuringTree.WellFormed 16 ∧ pattern ∈ destructuringTree.nodes ∧
    pattern.boundNames.map (·.start) = [1, 7, 14] ∧
    pattern.boundNames.Pairwise (fun a b => a.stop ≤ b.start) ∧
    ∃ property computed key, pattern.descend? [1] = some property ∧
      property.descend? [0] = some computed ∧ computed.descend? [0] = some key ∧
      key.kind = .identifier ∧ IsKeyOrDefault property computed ∧ key ∉ pattern.boundNames := by
  intro pattern
  have wf : destructuringTree.WellFormed 16 := by decide +kernel
  have here : pattern ∈ destructuringTree.nodes := Tree.mem_nodes.2 (.refl _)
  obtain ⟨-, -, -, ordered, unbound⟩ := boundNames_exactly_reached_names pattern
  have beside : ∀ property computed, pattern.descend? [1] = some property →
      property.descend? [0] = some computed → IsKeyOrDefault property computed := by
    rintro _ _ ⟨⟩ ⟨⟩
    exact .inl ⟨rfl, fun same => absurd (congrArg (Option.map (·.start)) same) (by decide)⟩
  refine ⟨wf, here, by decide +kernel, ordered _ _ wf here, _, _, _, rfl, rfl, rfl, rfl,
    beside _ _ rfl rfl, ?_⟩
  exact unbound _ _ _ (reaches_of_descend? [1] rfl) (List.mem_of_getElem? (i := 0) rfl)
    (beside _ _ rfl rfl) (reaches_of_descend? [0] rfl)

end Cursor
end JsxLint
