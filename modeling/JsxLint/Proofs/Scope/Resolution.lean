import JsxLint.Proofs.Scope.Binding

/-!
What an identifier refers to, compared with the names that are introduced around it. The lookup
goes by ranges and kinds of nodes, so it is right only where no other node looks like a scope. The
symbol it finds has every declaration of the name in the nearest scope that binds it, in document
order.
-/

namespace JsxLint

open Cursor (HoldsNames HoldsFunctionNames Nearest Reaches ofRoot)

namespace Cursor

theorem toList_sublist {c : Cursor} {child? : Option Cursor}
    (h : ∀ child, child? = some child → child ∈ c.children) :
    child?.toList.Sublist c.children := by
  cases child? with
  | none => exact List.nil_sublist _
  | some child => exact List.singleton_sublist.2 (h child rfl)

theorem child?_sublist (c : Cursor) (field : Field) :
    (c.child? field).toList.Sublist c.children :=
  toList_sublist fun _ => mem_children_of_child?_eq

theorem patternParts_sublist (c : Cursor) : c.patternParts.Sublist c.children := by
  unfold patternParts
  split
  case h_1 | h_2 | h_3 => exact c.child?_sublist _
  case h_4 | h_5 | h_6 => exact List.filter_sublist
  case h_7 => exact List.nil_sublist _

theorem boundNames_sublist (c : Cursor) : c.boundNames.Sublist c.preorder := by
  induction c using boundNames.induct with
  | case1 c bound =>
      rw [boundNames_eq, if_pos bound]
      exact c.singleton_sublist_preorder
  | case2 c bound ih =>
      rw [boundNames_eq, if_neg bound]
      exact flatMap_sublist_preorder c.patternParts_sublist ih

theorem nameOccurrences_sublist (scope : Cursor) (kind : DeclarationKind) (node : Cursor) :
    ((nameOccurrences scope kind node).map (·.name)).Sublist node.preorder := by
  simpa [nameOccurrences, Function.comp_def] using sublist_preorder (node.child?_sublist .name)

theorem patternOccurrences_sublist (scope : Cursor) (kind : DeclarationKind) (node c : Cursor)
    (field : Field) :
    ((patternOccurrences scope kind node (c.child? field)).map (·.name)).Sublist c.preorder := by
  have below := flatMap_sublist_preorder (c.child?_sublist field) fun d _ => d.boundNames_sublist
  simpa [patternOccurrences, Function.comp_def] using below

theorem importPartOccurrences_sublist (scope part : Cursor) :
    ((importPartOccurrences scope part).map (·.name)).Sublist part.preorder := by
  unfold importPartOccurrences
  split
  · exact part.singleton_sublist_preorder
  · have below := sublist_preorder (toList_sublist fun name
      (h : part.childOfKind? .identifier = some name) => (mem_children_of_childOfKind? h).1)
    simpa [Function.comp_def] using below
  · rw [List.map_flatMap]
    refine flatMap_sublist_preorder
      (List.filter_sublist.trans List.filter_sublist) fun specifier _ => ?_
    have below := sublist_preorder (c := specifier) (toList_sublist fun _ =>
      mem_children_of_localName?)
    simpa [Function.comp_def] using below
  · exact List.nil_sublist _

/-- The names that a node introduces stand below it, and are collected in document order. -/
theorem occurrences_sublist (c : Cursor) : (c.occurrences.map (·.name)).Sublist c.preorder := by
  unfold occurrences
  split
  case h_1 =>
    unfold importOccurrences
    split
    · rename_i clause at_clause
      rw [List.map_flatMap]
      exact (flatMap_sublist_preorder List.filter_sublist fun part _ =>
        importPartOccurrences_sublist _ part).trans
        (preorder_sublist_of_mem_children (mem_children_of_childOfKind? at_clause).1)
    · exact List.nil_sublist _
  case h_10 =>
    unfold loopOccurrences
    split
    · exact patternOccurrences_sublist _ _ _ _ _
    · exact List.nil_sublist _
  case h_11 | h_12 | h_13 => exact patternOccurrences_sublist _ _ _ _ _
  case h_14 | h_15 =>
    unfold bareParameterOccurrences
    split
    · rename_i parameter at_parameter
      rw [← at_parameter]
      exact patternOccurrences_sublist _ _ _ _ _
    · exact List.nil_sublist _
  case h_16 => exact List.nil_sublist _
  all_goals exact nameOccurrences_sublist _ _ _

end Cursor

namespace Tree

/-- No other node has the range and kind of a scope or of the root. -/
def ScopesDistinct (tree : Tree) : Prop :=
  ∀ scope ∈ tree.nodes, scope.HoldsNames → ∀ c ∈ tree.nodes, c.site = scope.site → c = scope

/-- The scope binds the name. -/
def BindsName (tree : Tree) (source : Bytes) (name : String) (scope : Cursor) : Prop :=
  ∃ declaration, tree.Binds scope declaration ∧ declaration.name.text source = .ok name

/-- The node that introduces the first declaration is met before that of the second; of two that
one node introduces, the name of the first is met before that of the second. -/
def Earlier (tree : Tree) (a b : Declaration) : Prop :=
  ∃ m n s t, Introduces tree m s a ∧ Introduces tree n t b ∧
    (tree.Before m n ∨ m = n ∧ tree.Before a.name b.name)

/-- The symbol is what a scope binds under the symbol's name. -/
structure Gathers (tree : Tree) (source : Bytes) (scope : Cursor) (symbol : Symbol) : Prop where
  kind_eq : symbol.scopeKind = scope.kind
  complete : ∀ declaration, declaration ∈ symbol.declarations ↔
    tree.Binds scope declaration ∧ declaration.name.text source = .ok symbol.name
  once : (symbol.declarations.map (·.name)).Nodup
  in_order : symbol.declarations.Pairwise tree.Earlier

instance (c : Cursor) : Decidable c.HoldsNames :=
  decidable_of_iff (c.kind.isScope = true ∨ c.ancestors.isEmpty = true)
    (or_congr_right List.isEmpty_iff)

variable {tree : Tree} {source : Bytes}

theorem scopesDistinct_of_pairwise
    (h : tree.nodes.Pairwise fun a b => a.HoldsNames ∨ b.HoldsNames → a.site ≠ b.site) :
    tree.ScopesDistinct := by
  intro scope hs holds c hc same
  obtain ⟨left, right, split⟩ := List.append_of_mem hs
  rw [split] at h hc
  obtain ⟨-, after, before⟩ := List.pairwise_append.1 h
  rcases List.mem_append.1 hc with hc | hc
  · exact absurd same (before c hc scope List.mem_cons_self (.inr holds))
  · rcases List.mem_cons.1 hc with rfl | hc
    · rfl
    · exact absurd same.symm ((List.pairwise_cons.1 after).1 c hc (.inl holds))

/-- All declarations of a tree, in the order in which they are collected. -/
def declarations (tree : Tree) : List Declaration :=
  tree.nodes.flatMap fun node => node.occurrences.map (·.declaration)

theorem introduces_of_mem {node : Cursor} {declaration : Declaration}
    (top : tree.label.kind = .program ∨ tree.label.kind = .error) (here : node ∈ tree.nodes)
    (h : declaration ∈ node.occurrences.map (·.declaration)) :
    ∃ scope, Introduces tree node scope declaration := by
  obtain ⟨occurrence, ho, rfl⟩ := List.mem_map.1 h
  exact ⟨occurrence.scope, (Cursor.mem_occurrences_iff top here).1 ho⟩

theorem names_sublist_nodes {node : Cursor} (here : node ∈ tree.nodes) :
    (node.occurrences.map (·.name)).Sublist tree.nodes := by
  rw [nodes_eq_preorder]
  exact node.occurrences_sublist.trans (mem_nodes.1 here).preorder_sublist

theorem Binds.name_mem {scope : Cursor} {declaration : Declaration}
    (h : tree.Binds scope declaration) : declaration.name ∈ tree.nodes := by
  obtain ⟨node, here, introduced⟩ := h
  exact (names_sublist_nodes here).subset
    (List.mem_map_of_mem (Cursor.mem_occurrences_of_introduces here introduced))

theorem pairwise_earlier_declarations
    (top : tree.label.kind = .program ∨ tree.label.kind = .error) :
    tree.declarations.Pairwise tree.Earlier := by
  refine List.pairwise_flatMap.2 ⟨fun node here => ?_, ?_⟩
  · refine List.pairwise_iff_forall_sublist.2 fun {a b} both => ?_
    obtain ⟨s, first⟩ := introduces_of_mem top here (both.subset List.mem_cons_self)
    obtain ⟨t, second⟩ := introduces_of_mem top here
      (both.subset (List.mem_cons_of_mem _ List.mem_cons_self))
    refine ⟨node, node, s, t, first, second, .inr ⟨rfl, ?_⟩⟩
    have names := both.map (·.name)
    rw [List.map_map] at names
    exact names.trans (names_sublist_nodes here)
  · refine List.pairwise_iff_forall_sublist.2 fun {m n} both a ha b hb => ?_
    obtain ⟨s, first⟩ := introduces_of_mem top (both.subset List.mem_cons_self) ha
    obtain ⟨t, second⟩ := introduces_of_mem top
      (both.subset (List.mem_cons_of_mem _ List.mem_cons_self)) hb
    exact ⟨m, n, s, t, first, second, .inl both⟩

theorem nodup_names_declarations
    (top : tree.label.kind = .program ∨ tree.label.kind = .error) :
    (tree.declarations.map (·.name)).Nodup := by
  rw [declarations, List.map_flatMap]
  refine List.pairwise_flatMap.2 ⟨fun node here => ?_, ?_⟩
  · rw [List.map_map]
    exact tree.nodup_nodes.sublist (names_sublist_nodes here)
  · refine tree.nodup_nodes.imp_of_mem fun {m n} hm hn ne x hx y hy same => ne ?_
    obtain ⟨a, ha, rfl⟩ := List.mem_map.1 hx
    obtain ⟨b, hb, rfl⟩ := List.mem_map.1 hy
    obtain ⟨s, first⟩ := introduces_of_mem top hm ha
    obtain ⟨t, second⟩ := introduces_of_mem top hn hb
    exact first.nearest.unique (same ▸ second.nearest)

end Tree

theorem Cursor.HoldsFunctionNames.holdsNames {c : Cursor} (h : c.HoldsFunctionNames) :
    c.HoldsNames := by
  rcases h with function | program | top
  · exact .inl (by simp [Kind.isScope, function])
  · exact .inl (by simp [Kind.isScope, program])
  · exact .inr top

theorem Introduces.scope_holds {tree : Tree} {node scope : Cursor} {declaration : Declaration}
    (here : node ∈ tree.nodes) (h : Introduces tree node scope declaration) :
    scope ∈ tree.nodes ∧ scope.HoldsNames := by
  have top : ofRoot tree ∈ tree.nodes ∧ (ofRoot tree).HoldsNames :=
    ⟨Tree.mem_nodes.2 (.refl _), .inr rfl⟩
  have around {holds : Cursor → Prop} {scope : Cursor} (near : Nearest holds node scope) :
      scope ∈ tree.nodes :=
    Tree.mem_nodes.2 ((Tree.mem_nodes.1 here).of_mem_ancestors near.mem_ancestors).1
  have itself (kind : node.kind.isScope = true) : node ∈ tree.nodes ∧ node.HoldsNames :=
    ⟨here, .inl kind⟩
  cases h with
  | defaultImport | wholeImport | specifier => exact top
  | functionDeclaration _ near | classDeclaration _ near | blockVariable _ _ near =>
      exact ⟨around near, near.1⟩
  | functionVariable _ _ _ near | functionLoop _ _ _ near | parameter _ near =>
      exact ⟨around near, HoldsFunctionNames.holdsNames near.1⟩
  | functionExpression kind =>
      exact itself (by rcases kind with kind | kind | kind <;> rw [kind] <;> rfl)
  | classExpression kind | blockLoop kind | bareParameter kind | caught kind =>
      exact itself (by rw [kind]; rfl)

namespace ScopeTable

variable {source : Bytes} {tree : Tree} {table : ScopeTable}

theorem declarations_sublist (h : ofTree source tree = .ok table) (scope : Site) (name : String) :
    (table.declarations scope name).Sublist tree.declarations := by
  obtain ⟨bindings, collected, h⟩ := bind_eq_ok.1 h
  obtain rfl := pure_eq_ok.1 h
  have all : bindings.map (·.declaration) = tree.declarations := by
    rw [Tree.declarations, ← List.map_flatMap]
    exact map_of_mapM collected fun occurrence binding bound => (bind_eq_ok_iff.1 bound).2.2
  rw [← all]
  exact List.filter_sublist.map _

/-- The declarations of a name at a node are those that belong to the node itself. -/
theorem mem_declarations_iff (h : ofTree source tree = .ok table)
    (top : tree.label.kind = .program ∨ tree.label.kind = .error) (distinct : tree.ScopesDistinct)
    {scope : Cursor} (hs : scope ∈ tree.nodes) {name : String} {declaration : Declaration} :
    declaration ∈ table.declarations scope.site name ↔
      tree.Binds scope declaration ∧ declaration.name.text source = .ok name := by
  rw [mem_declarations]
  constructor
  · rintro ⟨binding, hb, site, rfl, rfl⟩
    obtain ⟨node, here, occurrence, ho, bound⟩ := (mem_bindings h).1 hb
    obtain ⟨text, at_scope, made⟩ := bind_eq_ok_iff.1 bound
    have introduced := (Cursor.mem_occurrences_iff top here).1 ho
    obtain ⟨there, holds⟩ := introduced.scope_holds here
    have same : scope = occurrence.scope :=
      distinct _ there holds scope hs (site.symm.trans at_scope)
    rw [made, same]
    exact ⟨⟨node, here, introduced⟩, text⟩
  · rintro ⟨⟨node, here, introduced⟩, text⟩
    have ho := Cursor.mem_occurrences_of_introduces here introduced
    exact ⟨⟨scope.site, name, declaration⟩,
      (mem_bindings h).2 ⟨node, here, _, ho, bind_eq_ok_iff.2 ⟨text, rfl, rfl⟩⟩, rfl, rfl, rfl⟩

theorem lookup?_eq_none_iff_not_binds (h : ofTree source tree = .ok table)
    (top : tree.label.kind = .program ∨ tree.label.kind = .error) (distinct : tree.ScopesDistinct)
    {scope : Cursor} (hs : scope ∈ tree.nodes) {name : String} :
    table.lookup? scope.site name = none ↔ ¬ tree.BindsName source name scope := by
  simp only [lookup?_eq_none_iff, List.eq_nil_iff_forall_not_mem,
    mem_declarations_iff h top distinct hs, Tree.BindsName, not_exists]

theorem gathers_of_lookup? (h : ofTree source tree = .ok table)
    (top : tree.label.kind = .program ∨ tree.label.kind = .error) (distinct : tree.ScopesDistinct)
    {scope : Cursor} (hs : scope ∈ tree.nodes) {name : String} {symbol : Symbol}
    (found : table.lookup? scope.site name = some symbol) :
    symbol.name = name ∧ tree.Gathers source scope symbol := by
  unfold lookup? at found
  split at found
  · cases found
  · obtain rfl := Option.some.inj found
    have within := declarations_sublist h scope.site name
    exact ⟨rfl, rfl, fun declaration => mem_declarations_iff h top distinct hs,
      (Tree.nodup_names_declarations top).sublist (within.map _),
      (Tree.pairwise_earlier_declarations top).sublist within⟩

end ScopeTable

namespace Resolver

variable {source : Bytes} {tree : Tree}

theorem resolve?_identifier {resolver : Resolver} {c : Cursor} {name : String}
    (kind : c.kind = .identifier) (text : c.text resolver.source = .ok name)
    (plain : ¬ (c.inTag = true ∧ isIntrinsicName name = true)) :
    resolver.resolve? c = .ok (resolver.lookup? c name) := by
  have component : (c.inTag && isIntrinsicName name) = false := by simpa using plain
  rw [resolve?, if_pos kind, text, ok_bind, component]
  rfl

/-- An identifier refers to what the nearest node around it introduces under its name. -/
theorem resolve?_eq_nearest_binding {c : Cursor} {name : String}
    (top : tree.label.kind = .program ∨ tree.label.kind = .error)
    (distinct : tree.ScopesDistinct)
    (readable : ∀ scope declaration, tree.Binds scope declaration →
      ∃ text, declaration.name.text source = .ok text)
    (here : c ∈ tree.nodes) (kind : c.kind = .identifier) (text : c.text source = .ok name)
    (plain : ¬ (c.inTag = true ∧ isIntrinsicName name = true)) :
    ∃ resolver symbol?, ofTree source tree = .ok resolver ∧
      resolver.resolve? c = .ok symbol? ∧
      (symbol? = none ↔ ∀ scope ∈ c.ancestors, ¬ tree.BindsName source name scope) ∧
      ∀ symbol, symbol? = some symbol → symbol.name = name ∧
        ∃ scope, Nearest (tree.BindsName source name) c scope ∧
          tree.Gathers source scope symbol := by
  obtain ⟨table, collected⟩ := ScopeTable.exists_ofTree fun node here occurrence ho =>
    readable _ _ ⟨node, here, (Cursor.mem_occurrences_iff top here).1 ho⟩
  let resolver : Resolver := { source, table }
  have around : ∀ scope ∈ c.ancestors, scope ∈ tree.nodes := fun scope hs =>
    Tree.mem_nodes.2 ((Tree.mem_nodes.1 here).of_mem_ancestors hs).1
  have missed : ∀ scope ∈ c.ancestors,
      table.lookup? scope.site name = none ↔ ¬ tree.BindsName source name scope := fun scope hs =>
    ScopeTable.lookup?_eq_none_iff_not_binds collected top distinct (around scope hs)
  refine ⟨resolver, resolver.lookup? c name, bind_eq_ok.2 ⟨table, collected, rfl⟩,
    resolve?_identifier kind text plain, ?_, ?_⟩
  · rw [lookup?, List.findSome?_eq_none_iff]
    exact forall₂_congr missed
  · intro symbol found
    obtain ⟨inner, scope, outer, split, found, unbound⟩ := List.findSome?_eq_some_iff.1 found
    obtain rfl := Cursor.ancestors_of_append split
    have hs : scope ∈ c.ancestors := by simp [split]
    have binds : tree.BindsName source name scope := by
      refine Classical.byContradiction fun absent => ?_
      rw [(missed scope hs).2 absent] at found
      cases found
    obtain ⟨named, gathers⟩ := ScopeTable.gathers_of_lookup? collected top distinct
      (around scope hs) found
    refine ⟨named, scope, ⟨binds, inner, split, fun above mem => ?_⟩, gathers⟩
    exact (missed above (by simp [split, mem])).1 (unbound above mem)

def shadowedSource : Bytes :=
  Text.encode "var a;function f(a){var a;a}"

/-- The inner name is bound twice by the function and once by the program. -/
def shadowedTree : Tree :=
  .onFirstLine .program 0 28 none
    [.onFirstLine .variableDeclaration 0 6 none
      [.onFirstLine .variableDeclarator 4 5 none
        [.onFirstLine .identifier 4 5 (some .name) []]],
     .onFirstLine .functionDeclaration 6 28 none
      [.onFirstLine .identifier 15 16 (some .name) [],
       .onFirstLine (.other "formal_parameters") 16 19 none
        [.onFirstLine .requiredParameter 17 18 none
          [.onFirstLine .identifier 17 18 (some .pattern) []]],
       .onFirstLine .statementBlock 19 28 none
        [.onFirstLine .variableDeclaration 20 26 none
          [.onFirstLine .variableDeclarator 24 25 none
            [.onFirstLine .identifier 24 25 (some .name) []]],
         .onFirstLine (.other "expression_statement") 26 27 none
          [.onFirstLine .identifier 26 27 none []]]]]

def shadowedUse : Cursor :=
  ((ofRoot shadowedTree).descend? [1, 2, 1, 0]).getD default

theorem resolve?_eq_nearest_binding_shadowed : ∃ resolver symbol scope,
    shadowedTree.ScopesDistinct ∧ shadowedUse ∈ shadowedTree.nodes ∧
    shadowedUse.text shadowedSource = .ok "a" ∧ ofTree shadowedSource shadowedTree = .ok resolver ∧
    resolver.resolve? shadowedUse = .ok (some symbol) ∧
    Nearest (shadowedTree.BindsName shadowedSource "a") shadowedUse scope ∧
    shadowedTree.Gathers shadowedSource scope symbol ∧ scope.kind = .functionDeclaration ∧
    symbol.declarations.map (·.kind) = [.parameter, .variable] := by
  have distinct : shadowedTree.ScopesDistinct :=
    Tree.scopesDistinct_of_pairwise (by decide +kernel)
  have readable : ∀ c ∈ shadowedTree.nodes, (c.text shadowedSource).toOption.isSome = true := by
    decide +kernel
  have here : shadowedUse ∈ shadowedTree.nodes :=
    Tree.mem_nodes.2 (Cursor.reaches_of_descend? [1, 2, 1, 0] rfl)
  have text : shadowedUse.text shadowedSource = .ok "a" := eq_ok_of_toOption (by decide +kernel)
  obtain ⟨resolver, symbol?, bindings, resolved, -, found⟩ := resolve?_eq_nearest_binding
    (.inl rfl) distinct (fun scope declaration binds => by
      obtain ⟨text, ht⟩ := Option.isSome_iff_exists.1 (readable _ binds.name_mem)
      exact ⟨text, eq_ok_of_toOption ht⟩) here (by decide +kernel) text (by decide +kernel)
  have evaluated : ((ofTree shadowedSource shadowedTree).bind fun resolver => do
      let symbol? ← resolver.resolve? shadowedUse
      return symbol?.map fun symbol => (symbol.scopeKind, symbol.declarations.map (·.kind))
      ).toOption = some (some (.functionDeclaration, [.parameter, .variable])) := by
    decide +kernel
  obtain ⟨_, same, evaluated⟩ := bind_eq_ok.1 (eq_ok_of_toOption evaluated)
  obtain rfl := Except.ok.inj (bindings.symm.trans same)
  obtain ⟨_, same, evaluated⟩ := bind_eq_ok.1 evaluated
  obtain rfl := Except.ok.inj (resolved.symm.trans same)
  obtain ⟨symbol, rfl, shape⟩ := Option.map_eq_some_iff.1 (pure_eq_ok.1 evaluated)
  obtain ⟨kind, declarations⟩ := Prod.mk.inj shape
  obtain ⟨-, scope, near, gathers⟩ := found symbol rfl
  exact ⟨resolver, symbol, scope, distinct, here, text, bindings, resolved, near, gathers,
    gathers.kind_eq.symm.trans kind, declarations⟩

end Resolver
end JsxLint
