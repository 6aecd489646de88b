import JsxLint.Proofs.Scope.Table
import JsxLint.Proofs.Tree.Order

/-!
The names that the nodes of a tree introduce and the scopes they belong to, said by a relation with
one rule for each form of declaration. The binding occurrences that are collected from a node are
exactly those of the relation, and each name is introduced by one node only. No text is read here.
-/

namespace JsxLint
namespace Cursor

/-- Of the places around the first one, the second is the nearest with a property. -/
def Nearest (holds : Cursor → Prop) (c scope : Cursor) : Prop :=
  holds scope ∧ ∃ inner, c.ancestors = inner ++ scope :: scope.ancestors ∧
    ∀ above ∈ inner, ¬ holds above

/-- A scope, or the root, which stands in for one. -/
def HoldsNames (c : Cursor) : Prop :=
  c.kind.isScope = true ∨ c.ancestors = []

/-- A function or the program, or the root, which stands in for them. -/
def HoldsFunctionNames (c : Cursor) : Prop :=
  c.kind.isFunctionScope = true ∨ c.kind = .program ∨ c.ancestors = []

inductive PatternBinds : Cursor → Cursor → Prop where
  | name {pattern : Cursor} (kind : pattern.kind = .identifier ∨ pattern.kind = .shorthandPattern) :
      PatternBinds pattern pattern
  | property {pattern value name : Cursor} (kind : pattern.kind = .pairPattern)
      (part : pattern.child? .value = some value) (below : PatternBinds value name) :
      PatternBinds pattern name
  | target {pattern left name : Cursor}
      (kind : pattern.kind = .assignmentPattern ∨ pattern.kind = .objectAssignmentPattern)
      (part : pattern.child? .left = some left) (below : PatternBinds left name) :
      PatternBinds pattern name
  | element {pattern element name : Cursor}
      (kind : pattern.kind = .objectPattern ∨ pattern.kind = .arrayPattern ∨
        pattern.kind = .restPattern)
      (part : element ∈ pattern.namedChildren) (below : PatternBinds element name) :
      PatternBinds pattern name

end Cursor

open Cursor (Nearest HoldsNames HoldsFunctionNames PatternBinds Reaches ofRoot)

/-- A node introduces a declaration in a scope. -/
inductive Introduces (tree : Tree) (node : Cursor) : Cursor → Declaration → Prop where
  | defaultImport {clause name : Cursor} (kind : node.kind = .importStatement)
      (at_clause : node.importClause? = some clause) (part : name ∈ clause.namedChildren)
      (part_kind : name.kind = .identifier) :
      Introduces tree node (ofRoot tree) ⟨.importDefault, name, name⟩
  | wholeImport {clause whole name : Cursor} (kind : node.kind = .importStatement)
      (at_clause : node.importClause? = some clause) (part : whole ∈ clause.namedChildren)
      (part_kind : whole.kind = .namespaceImport)
      (at_name : whole.childOfKind? .identifier = some name) :
      Introduces tree node (ofRoot tree) ⟨.namespaceImport, whole, name⟩
  | specifier {clause braces specifier name : Cursor} (kind : node.kind = .importStatement)
      (at_clause : node.importClause? = some clause) (part : braces ∈ clause.namedChildren)
      (part_kind : braces.kind = .namedImports) (listed : specifier ∈ braces.specifiers)
      (at_name : specifier.localName? = some name) :
      Introduces tree node (ofRoot tree) ⟨.importSpecifier, specifier, name⟩
  | functionDeclaration {scope name : Cursor}
      (kind : node.kind = .functionDeclaration ∨ node.kind = .generatorFunctionDeclaration)
      (near : Nearest HoldsNames node scope) (at_name : node.child? .name = some name) :
      Introduces tree node scope ⟨.function, node, name⟩
  | classDeclaration {scope name : Cursor}
      (kind : node.kind = .classDeclaration ∨ node.kind = .abstractClassDeclaration)
      (near : Nearest HoldsNames node scope) (at_name : node.child? .name = some name) :
      Introduces tree node scope ⟨.classLike, node, name⟩
  | functionExpression {name : Cursor}
      (kind : node.kind = .functionExpression ∨ node.kind = .function ∨
        node.kind = .generatorFunction)
      (at_name : node.child? .name = some name) :
      Introduces tree node node ⟨.function, node, name⟩
  | classExpression {name : Cursor} (kind : node.kind = .classExpression)
      (at_name : node.child? .name = some name) :
      Introduces tree node node ⟨.classLike, node, name⟩
  | blockVariable {scope pattern name : Cursor} (kind : node.kind = .variableDeclarator)
      (keyword : ∀ parent ∈ node.parent?, parent.kind ≠ .variableDeclaration)
      (near : Nearest HoldsNames node scope) (at_pattern : node.child? .name = some pattern)
      (binds : PatternBinds pattern name) :
      Introduces tree node scope ⟨.variable, node, name⟩
  | functionVariable {parent scope pattern name : Cursor} (kind : node.kind = .variableDeclarator)
      (below : node.parent? = some parent) (keyword : parent.kind = .variableDeclaration)
      (near : Nearest HoldsFunctionNames node scope) (at_pattern : node.child? .name = some pattern)
      (binds : PatternBinds pattern name) :
      Introduces tree node scope ⟨.variable, node, name⟩
  | blockLoop {word pattern name : Cursor} (kind : node.kind = .forInStatement)
      (at_word : node.child? .kind = some word) (keyword : word.kind ≠ .varKeyword)
      (at_pattern : node.child? .left = some pattern) (binds : PatternBinds pattern name) :
      Introduces tree node node ⟨.variable, node, name⟩
  | functionLoop {word scope pattern name : Cursor} (kind : node.kind = .forInStatement)
      (at_word : node.child? .kind = some word) (keyword : word.kind = .varKeyword)
      (near : Nearest HoldsFunctionNames node scope) (at_pattern : node.child? .left = some pattern)
      (binds : PatternBinds pattern name) :
      Introduces tree node scope ⟨.variable, node, name⟩
  | parameter {scope pattern name : Cursor}
      (kind : node.kind = .requiredParameter ∨ node.kind = .optionalParameter)
      (near : Nearest HoldsFunctionNames node scope)
      (at_pattern : node.child? .pattern = some pattern) (binds : PatternBinds pattern name) :
      Introduces tree node scope ⟨.parameter, node, name⟩
  | bareParameter {pattern name : Cursor} (kind : node.kind = .arrowFunction)
      (at_pattern : node.child? .parameter = some pattern) (binds : PatternBinds pattern name) :
      Introduces tree node node ⟨.parameter, pattern, name⟩
  | caught {pattern name : Cursor} (kind : node.kind = .catchClause)
      (at_pattern : node.child? .parameter = some pattern) (binds : PatternBinds pattern name) :
      Introduces tree node node ⟨.variable, pattern, name⟩

/-- A node of the tree introduces the declaration in the scope. -/
def Tree.Binds (tree : Tree) (scope : Cursor) (declaration : Declaration) : Prop :=
  ∃ node ∈ tree.nodes, Introduces tree node scope declaration

namespace Cursor

theorem ancestors_of_append {c scope : Cursor} {inner outer : List Cursor}
    (h : c.ancestors = inner ++ scope :: outer) : scope.ancestors = outer := by
  obtain ⟨focus, path⟩ := c
  induction path generalizing focus inner with
  | nil => simp [ancestors, ancestorsOf] at h
  | cons frame above ih =>
      cases inner with
      | nil =>
          obtain ⟨rfl, rfl⟩ := List.cons.inj h
          rfl
      | cons first inner => exact ih frame.parent (List.cons.inj h).2

theorem Nearest.unique {holds : Cursor → Prop} {c a b : Cursor} (ha : Nearest holds c a)
    (hb : Nearest holds c b) : a = b := by
  obtain ⟨here, inner, split, none⟩ := ha
  obtain ⟨there, inner', split', none'⟩ := hb
  rw [split] at split'
  rcases List.append_eq_append_iff.1 split' with ⟨gap, rfl, rest⟩ | ⟨gap, rfl, rest⟩
  · cases gap with
    | nil => exact (List.cons.inj rest).1
    | cons first gap =>
        obtain ⟨rfl, -⟩ := List.cons.inj rest
        exact absurd here (none' a (by simp))
  · cases gap with
    | nil => exact (List.cons.inj rest).1.symm
    | cons first gap =>
        obtain ⟨rfl, -⟩ := List.cons.inj rest
        exact absurd there (none b (by simp))

theorem Nearest.mem_ancestors {holds : Cursor → Prop} {c scope : Cursor}
    (h : Nearest holds c scope) : scope ∈ c.ancestors := by
  obtain ⟨-, inner, split, -⟩ := h
  simp [split]

/-- The nearest place is met at the latest where the property holds. -/
theorem Nearest.mem_of_holds {holds : Cursor → Prop} {c nearest scope : Cursor}
    {inner outer : List Cursor} (h : Nearest holds c nearest)
    (split : c.ancestors = inner ++ scope :: outer) (at_scope : holds scope) :
    nearest ∈ inner ++ [scope] := by
  obtain ⟨-, front, around, passed⟩ := h
  rw [split] at around
  rcases List.append_eq_append_iff.1 around with ⟨between, rfl, rest⟩ | ⟨between, rfl, rest⟩
  · cases between with
    | nil => simp [(List.cons.inj rest).1]
    | cons first between =>
        obtain rfl := (List.cons.inj rest).1
        exact absurd at_scope (passed scope (by simp))
  · cases between with
    | nil => simp [(List.cons.inj rest).1]
    | cons first between => simp [(List.cons.inj rest).1]

/-- The search for a kind that gives up at the root finds the nearest place of that kind. -/
theorem nearest_enclosing {c : Cursor} {kinds : Kind → Bool} {holds : Cursor → Prop}
    (means : ∀ above, holds above ↔ kinds above.kind = true ∨ above.ancestors = [])
    (inner : c.ancestors ≠ []) : Nearest holds c (c.enclosing kinds) := by
  have passed {front : List Cursor} {scope : Cursor}
      (split : c.ancestors = front ++ scope :: scope.ancestors)
      (none : ∀ above ∈ front, kinds above.kind = false) : ∀ above ∈ front, ¬ holds above := by
    intro above mem found
    obtain ⟨left, right, rfl⟩ := List.append_of_mem mem
    rw [List.append_assoc, List.cons_append] at split
    have more := ancestors_of_append split
    rcases (means above).1 found with found | found
    · rw [none above mem] at found
      cases found
    · simp [more] at found
  unfold enclosing
  cases search : c.ancestors.find? fun above => kinds above.kind with
  | some scope =>
      obtain ⟨found, front, outer, split, none⟩ := List.find?_eq_some_iff_append.1 search
      obtain rfl := ancestors_of_append split
      exact ⟨(means scope).2 (.inl found), front, split, passed split (by simpa using none)⟩
  | none =>
      obtain ⟨front, split⟩ := List.getLast?_eq_some_iff.1 (List.getLast?_eq_some_getLast inner)
      have top : (c.ancestors.getLast inner).ancestors = [] := ancestors_of_append split
      have same : c.root = c.ancestors.getLast inner := by
        rw [root, List.getLast?_eq_some_getLast inner, Option.getD_some]
      rw [Option.getD_none, same]
      refine ⟨(means _).2 (.inr top), front, by rw [top]; exact split, ?_⟩
      refine passed (by rw [top]; exact split) fun above mem => ?_
      have := List.find?_eq_none.1 search above (by rw [split]; simp [mem])
      simpa using this

theorem ancestors_ne_nil {tree : Tree} {node : Cursor} (here : node ∈ tree.nodes)
    (top : node.kind ≠ tree.label.kind) : node.ancestors ≠ [] := by
  cases Tree.mem_nodes.1 here with
  | refl => exact absurd rfl top
  | child above step => simp [ancestors_of_mem_children step]

theorem nearest_enclosingScope {c : Cursor} (inner : c.ancestors ≠ []) :
    Nearest HoldsNames c c.enclosingScope :=
  nearest_enclosing (fun _ => Iff.rfl) inner

theorem nearest_enclosingFunctionScope {c : Cursor} (inner : c.ancestors ≠ []) :
    Nearest HoldsFunctionNames c c.enclosingFunctionScope :=
  nearest_enclosing (fun _ => by simp [HoldsFunctionNames, or_assoc]) inner

theorem Nearest.ancestors_ne_nil {holds : Cursor → Prop} {c scope : Cursor}
    (h : Nearest holds c scope) : c.ancestors ≠ [] :=
  List.ne_nil_of_mem h.mem_ancestors

theorem boundNames_eq (c : Cursor) :
    c.boundNames = if c.isBoundName then [c] else c.patternParts.flatMap boundNames := by
  rw [boundNames]
  simp

theorem patternBinds_of_part {c part name : Cursor} (hp : part ∈ c.patternParts)
    (below : PatternBinds part name) : PatternBinds c name := by
  unfold patternParts at hp
  split at hp
  case h_1 kind => exact .property kind (Option.mem_toList.1 hp) below
  case h_2 kind => exact .target (.inl kind) (Option.mem_toList.1 hp) below
  case h_3 kind => exact .target (.inr kind) (Option.mem_toList.1 hp) below
  case h_4 kind => exact .element (.inl kind) hp below
  case h_5 kind => exact .element (.inr (.inl kind)) hp below
  case h_6 kind => exact .element (.inr (.inr kind)) hp below
  case h_7 => cases hp

theorem mem_boundNames_of_part {c part name : Cursor} (hp : part ∈ c.patternParts)
    (below : name ∈ part.boundNames) : name ∈ c.boundNames := by
  have apart : ¬ c.isBoundName = true := by
    intro bound
    rcases (by simpa [isBoundName] using bound : c.kind = .identifier ∨ c.kind = .shorthandPattern)
      with kind | kind <;> simp [patternParts, kind] at hp
  rw [boundNames_eq, if_neg apart]
  exact List.mem_flatMap.2 ⟨part, hp, below⟩

theorem mem_boundNames {pattern name : Cursor} :
    name ∈ pattern.boundNames ↔ PatternBinds pattern name := by
  constructor
  · intro h
    induction pattern using boundNames.induct with
    | case1 pattern bound =>
        rw [boundNames_eq, if_pos bound, List.mem_singleton] at h
        subst h
        exact .name (by simpa [isBoundName] using bound)
    | case2 pattern bound ih =>
        rw [boundNames_eq, if_neg bound] at h
        obtain ⟨part, hp, h⟩ := List.mem_flatMap.1 h
        exact patternBinds_of_part hp (ih part hp h)
  · intro h
    induction h with
    | name kind => simp [boundNames_eq, isBoundName, kind]
    | property kind part below ih =>
        exact mem_boundNames_of_part (by simp [patternParts, kind, part]) ih
    | target kind part below ih =>
        rcases kind with kind | kind <;>
          exact mem_boundNames_of_part (by simp [patternParts, kind, part]) ih
    | element kind part below ih =>
        rcases kind with kind | kind | kind <;>
          exact mem_boundNames_of_part (by simpa [patternParts, kind] using part) ih

theorem mem_nameOccurrences {scope node : Cursor} {kind : DeclarationKind}
    {occurrence : Occurrence} :
    occurrence ∈ nameOccurrences scope kind node ↔
      ∃ name, node.child? .name = some name ∧ occurrence = ⟨scope, kind, node, name⟩ := by
  simp [nameOccurrences, eq_comm]

theorem mem_patternOccurrences {scope node : Cursor} {kind : DeclarationKind}
    {pattern? : Option Cursor} {occurrence : Occurrence} :
    occurrence ∈ patternOccurrences scope kind node pattern? ↔
      ∃ pattern name, pattern? = some pattern ∧ PatternBinds pattern name ∧
        occurrence = ⟨scope, kind, node, name⟩ := by
  simp only [patternOccurrences, List.mem_map, List.mem_flatMap, Option.mem_toList,
    mem_boundNames, eq_comm (a := occurrence)]
  constructor
  · rintro ⟨name, ⟨pattern, hp, binds⟩, made⟩
    exact ⟨pattern, name, hp, binds, made⟩
  · rintro ⟨pattern, name, hp, binds, made⟩
    exact ⟨name, ⟨pattern, hp, binds⟩, made⟩

end Cursor

def Occurrence.declaration (occurrence : Occurrence) : Declaration :=
  ⟨occurrence.kind, occurrence.node, occurrence.name⟩

namespace Cursor

theorem introduces_of_mem_importOccurrences {tree : Tree} {node : Cursor} {occurrence : Occurrence}
    (here : node ∈ tree.nodes) (kind : node.kind = .importStatement)
    (h : occurrence ∈ node.importOccurrences) :
    Introduces tree node occurrence.scope occurrence.declaration := by
  obtain ⟨clause, part, at_clause, hp, h⟩ := mem_importOccurrences.1 h
  rw [root_eq (Tree.mem_nodes.1 here)] at h
  unfold importPartOccurrences at h
  split at h
  case h_1 part_kind =>
    rw [List.mem_singleton.1 h]
    exact .defaultImport kind at_clause hp part_kind
  case h_2 part_kind =>
    obtain ⟨name, hn, rfl⟩ := List.mem_map.1 h
    exact .wholeImport kind at_clause hp part_kind (Option.mem_toList.1 hn)
  case h_3 part_kind =>
    obtain ⟨specifier, listed, h⟩ := List.mem_flatMap.1 h
    obtain ⟨name, hn, rfl⟩ := List.mem_map.1 h
    exact .specifier kind at_clause hp part_kind listed (Option.mem_toList.1 hn)
  case h_4 => cases h

theorem introduces_of_mem_occurrences {tree : Tree} {node : Cursor} {occurrence : Occurrence}
    (top : tree.label.kind = .program ∨ tree.label.kind = .error) (here : node ∈ tree.nodes)
    (h : occurrence ∈ node.occurrences) :
    Introduces tree node occurrence.scope occurrence.declaration := by
  have inner (kind : node.kind ≠ .program ∧ node.kind ≠ .error) : node.ancestors ≠ [] := by
    refine ancestors_ne_nil here fun same => ?_
    rcases top with top | top
    · exact kind.1 (same.trans top)
    · exact kind.2 (same.trans top)
  unfold occurrences at h
  split at h
  case h_1 kind => exact introduces_of_mem_importOccurrences here kind h
  case h_2 kind | h_3 kind =>
    obtain ⟨name, at_name, rfl⟩ := mem_nameOccurrences.1 h
    exact .functionDeclaration (by simp [kind]) (nearest_enclosingScope (inner (by simp [kind])))
      at_name
  case h_4 kind | h_5 kind =>
    obtain ⟨name, at_name, rfl⟩ := mem_nameOccurrences.1 h
    exact .classDeclaration (by simp [kind]) (nearest_enclosingScope (inner (by simp [kind])))
      at_name
  case h_6 kind | h_7 kind | h_8 kind =>
    obtain ⟨name, at_name, rfl⟩ := mem_nameOccurrences.1 h
    exact .functionExpression (by simp [kind]) at_name
  case h_9 kind =>
    obtain ⟨name, at_name, rfl⟩ := mem_nameOccurrences.1 h
    exact .classExpression kind at_name
  case h_10 kind =>
    unfold loopOccurrences at h
    split at h
    · rename_i word at_word
      obtain ⟨pattern, name, at_pattern, binds, rfl⟩ := mem_patternOccurrences.1 h
      by_cases keyword : word.kind = .varKeyword
      · simp only [keyword, if_true]
        exact .functionLoop kind at_word keyword
          (nearest_enclosingFunctionScope (inner (by simp [kind]))) at_pattern binds
      · simp only [keyword, if_false]
        exact .blockLoop kind at_word keyword at_pattern binds
    · cases h
  case h_11 kind =>
    obtain ⟨pattern, name, at_pattern, binds, rfl⟩ := mem_patternOccurrences.1 h
    unfold declaratorScope
    split
    · rename_i keyword
      obtain ⟨parent, below, keyword⟩ := (Option.any_eq_true _ _).1 keyword
      exact .functionVariable kind below (by simpa using keyword)
        (nearest_enclosingFunctionScope (inner (by simp [kind]))) at_pattern binds
    · rename_i keyword
      exact .blockVariable kind (fun parent below same => keyword (by simp_all))
        (nearest_enclosingScope (inner (by simp [kind]))) at_pattern binds
  case h_12 kind | h_13 kind =>
    obtain ⟨pattern, name, at_pattern, binds, rfl⟩ := mem_patternOccurrences.1 h
    exact .parameter (by simp [kind]) (nearest_enclosingFunctionScope (inner (by simp [kind])))
      at_pattern binds
  case h_14 kind =>
    unfold bareParameterOccurrences at h
    split at h
    · rename_i parameter at_pattern
      obtain ⟨pattern, name, same, binds, rfl⟩ := mem_patternOccurrences.1 h
      obtain rfl := Option.some.inj same
      exact .bareParameter kind at_pattern binds
    · cases h
  case h_15 kind =>
    unfold bareParameterOccurrences at h
    split at h
    · rename_i parameter at_pattern
      obtain ⟨pattern, name, same, binds, rfl⟩ := mem_patternOccurrences.1 h
      obtain rfl := Option.some.inj same
      exact .caught kind at_pattern binds
    · cases h
  case h_16 => cases h

theorem mem_occurrences_of_introduces {tree : Tree} {node scope : Cursor}
    {declaration : Declaration} (here : node ∈ tree.nodes)
    (h : Introduces tree node scope declaration) :
    ⟨scope, declaration.kind, declaration.node, declaration.name⟩ ∈ node.occurrences := by
  have top := root_eq (Tree.mem_nodes.1 here)
  have block {scope} (near : Nearest HoldsNames node scope) : node.enclosingScope = scope :=
    (nearest_enclosingScope near.ancestors_ne_nil).unique near
  have function {scope} (near : Nearest HoldsFunctionNames node scope) :
      node.enclosingFunctionScope = scope :=
    (nearest_enclosingFunctionScope near.ancestors_ne_nil).unique near
  cases h with
  | defaultImport kind at_clause part part_kind =>
      simp only [occurrences, kind]
      exact mem_importOccurrences.2
        ⟨_, _, at_clause, part, by simp [importPartOccurrences, part_kind, top]⟩
  | wholeImport kind at_clause part part_kind at_name =>
      simp only [occurrences, kind]
      exact mem_importOccurrences.2
        ⟨_, _, at_clause, part, by simp [importPartOccurrences, part_kind, at_name, top]⟩
  | specifier kind at_clause part part_kind listed at_name =>
      simp only [occurrences, kind]
      exact mem_importOccurrences.2 ⟨_, _, at_clause, part,
        (specifier_mem_importPartOccurrences rfl).2 ⟨top.symm, part_kind, listed, at_name⟩⟩
  | functionDeclaration kind near at_name =>
      rcases kind with kind | kind <;>
        simp [occurrences, kind, mem_nameOccurrences, at_name, block near]
  | classDeclaration kind near at_name =>
      rcases kind with kind | kind <;>
        simp [occurrences, kind, mem_nameOccurrences, at_name, block near]
  | functionExpression kind at_name =>
      rcases kind with kind | kind | kind <;> simp [occurrences, kind, mem_nameOccurrences, at_name]
  | classExpression kind at_name => simp [occurrences, kind, mem_nameOccurrences, at_name]
  | blockVariable kind keyword near at_pattern binds =>
      have notVar : node.parent?.any (·.kind = .variableDeclaration) = false := by
        cases hp : node.parent? with
        | none => rfl
        | some parent => simpa using keyword parent hp
      simp [occurrences, kind, mem_patternOccurrences, declaratorScope, notVar, at_pattern, binds,
        block near]
  | functionVariable kind below keyword near at_pattern binds =>
      simp [occurrences, kind, mem_patternOccurrences, declaratorScope, below, keyword, at_pattern,
        binds, function near]
  | blockLoop kind at_word keyword at_pattern binds =>
      simp [occurrences, kind, loopOccurrences, mem_patternOccurrences, at_word, keyword,
        at_pattern, binds]
  | functionLoop kind at_word keyword near at_pattern binds =>
      simp [occurrences, kind, loopOccurrences, mem_patternOccurrences, at_word, keyword,
        at_pattern, binds, function near]
  | parameter kind near at_pattern binds =>
      rcases kind with kind | kind <;>
        simp [occurrences, kind, mem_patternOccurrences, at_pattern, binds, function near]
  | bareParameter kind at_pattern binds =>
      simp [occurrences, kind, bareParameterOccurrences, mem_patternOccurrences, at_pattern, binds]
  | caught kind at_pattern binds =>
      simp [occurrences, kind, bareParameterOccurrences, mem_patternOccurrences, at_pattern, binds]

/-- What is collected from a node is what it introduces. -/
theorem mem_occurrences_iff {tree : Tree} {node : Cursor} {occurrence : Occurrence}
    (top : tree.label.kind = .program ∨ tree.label.kind = .error) (here : node ∈ tree.nodes) :
    occurrence ∈ node.occurrences ↔
      Introduces tree node occurrence.scope occurrence.declaration :=
  ⟨introduces_of_mem_occurrences top here, mem_occurrences_of_introduces here⟩

end Cursor

/-- Kinds that can stand between a name and the node that introduces it. -/
def Kind.carriesNames : Kind → Bool
  | .importClause | .namedImports | .namespaceImport | .importSpecifier | .pairPattern
  | .assignmentPattern | .objectAssignmentPattern | .objectPattern | .arrayPattern
  | .restPattern => true
  | _ => false

namespace Cursor

/-- The names a place carries are below it, with nothing but carriers in between. -/
def Carries (c name : Cursor) : Prop :=
  ∃ inner, name.ancestors = inner ++ c.ancestors ∧ ∀ above ∈ inner, above.kind.carriesNames = true

theorem Carries.refl (c : Cursor) : Carries c c :=
  ⟨[], rfl, by simp⟩

theorem Carries.step {b c name : Cursor} (step : c ∈ b.children)
    (kind : b.kind.carriesNames = true) (h : Carries c name) : Carries b name := by
  obtain ⟨inner, split, carriers⟩ := h
  refine ⟨inner ++ [b], by simp [split, ancestors_of_mem_children step], ?_⟩
  simpa [kind, or_imp, forall_and] using carriers

theorem carries_of_patternBinds {pattern name : Cursor} (h : PatternBinds pattern name) :
    Carries pattern name := by
  induction h with
  | name => exact .refl _
  | property kind part _ ih =>
      exact ih.step (mem_children_of_child?_eq part) (by simp [kind, Kind.carriesNames])
  | target kind part _ ih =>
      refine ih.step (mem_children_of_child?_eq part) ?_
      rcases kind with kind | kind <;> simp [kind, Kind.carriesNames]
  | element kind part _ ih =>
      refine ih.step (mem_children_of_namedChildren part) ?_
      rcases kind with kind | kind | kind <;> simp [kind, Kind.carriesNames]

end Cursor

/-- A name is introduced by the nearest node around it that does more than carry names. -/
theorem Introduces.nearest {tree : Tree} {node scope : Cursor} {declaration : Declaration}
    (h : Introduces tree node scope declaration) :
    Nearest (·.kind.carriesNames = false) declaration.name node := by
  have carried {child name : Cursor} (kind : node.kind.carriesNames = false)
      (step : child ∈ node.children) (h : child.Carries name) :
      Nearest (·.kind.carriesNames = false) name node := by
    obtain ⟨inner, split, carriers⟩ := h
    rw [Cursor.ancestors_of_mem_children step] at split
    exact ⟨kind, inner, split, fun above mem => by simp [carriers above mem]⟩
  have named {name : Cursor} (kind : node.kind.carriesNames = false)
      (at_name : node.child? .name = some name) :
      Nearest (·.kind.carriesNames = false) name node :=
    carried kind (Cursor.mem_children_of_child?_eq at_name) (.refl _)
  have destructured {field : Field} {pattern name : Cursor} (kind : node.kind.carriesNames = false)
      (at_pattern : node.child? field = some pattern) (binds : PatternBinds pattern name) :
      Nearest (·.kind.carriesNames = false) name node :=
    carried kind (Cursor.mem_children_of_child?_eq at_pattern)
      (Cursor.carries_of_patternBinds binds)
  have imported {clause part name : Cursor} (kind : node.kind = .importStatement)
      (at_clause : node.importClause? = some clause) (hp : part ∈ clause.namedChildren)
      (h : part.Carries name) : Nearest (·.kind.carriesNames = false) name node := by
    obtain ⟨step, clause_kind⟩ := Cursor.mem_children_of_childOfKind? at_clause
    exact carried (by rw [kind]; rfl) step
      (h.step (Cursor.mem_children_of_namedChildren hp) (by rw [clause_kind]; rfl))
  cases h with
  | defaultImport kind at_clause part _ => exact imported kind at_clause part (.refl _)
  | wholeImport kind at_clause part part_kind at_name =>
      exact imported kind at_clause part ((Cursor.Carries.refl _).step
        (Cursor.mem_children_of_childOfKind? at_name).1 (by rw [part_kind]; rfl))
  | specifier kind at_clause part part_kind listed at_name =>
      obtain ⟨step, specifier_kind⟩ := Cursor.mem_specifiers listed
      exact imported kind at_clause part (((Cursor.Carries.refl _).step
        (Cursor.mem_children_of_localName? at_name) (by rw [specifier_kind]; rfl)).step step
        (by rw [part_kind]; rfl))
  | functionDeclaration kind _ at_name | classDeclaration kind _ at_name =>
      exact named (by rcases kind with kind | kind <;> rw [kind] <;> rfl) at_name
  | functionExpression kind at_name =>
      exact named (by rcases kind with kind | kind | kind <;> rw [kind] <;> rfl) at_name
  | classExpression kind at_name => exact named (by rw [kind]; rfl) at_name
  | parameter kind _ at_pattern binds =>
      exact destructured (by rcases kind with kind | kind <;> rw [kind] <;> rfl) at_pattern binds
  | blockVariable kind _ _ at_pattern binds | functionVariable kind _ _ _ at_pattern binds
  | blockLoop kind _ _ at_pattern binds | functionLoop kind _ _ _ at_pattern binds
  | bareParameter kind at_pattern binds | caught kind at_pattern binds =>
      exact destructured (by rw [kind]; rfl) at_pattern binds

end JsxLint
