import JsxLint.Proofs.Scope.Resolution

/-!
Where the names of parameters can be seen. A parameter is bound by the nearest function around it,
and that is the node that owns its list only if this node is one of the kinds that count as
functions. Function types and signatures do not, so the names in their lists are seen further out.
-/

namespace JsxLint

open Cursor (HoldsFunctionNames Nearest PatternBinds Reaches ofRoot)

namespace Cursor

def IsParameter (c : Cursor) : Prop :=
  c.kind = .requiredParameter ∨ c.kind = .optionalParameter

/-- A parameter in the list that belongs to a node. -/
structure ParameterOf (parameter owner : Cursor) : Prop where
  kind : parameter.IsParameter
  listed : ∃ list, parameter.parent? = some list ∧ list.kind = .other "formal_parameters" ∧
    list.parent? = some owner

theorem nearest_of_mem_children {holds : Cursor → Prop} {b c scope : Cursor}
    (step : c ∈ b.children) :
    Nearest holds c scope ↔ holds b ∧ scope = b ∨ ¬ holds b ∧ Nearest holds b scope := by
  unfold Nearest
  rw [ancestors_of_mem_children step]
  constructor
  · rintro ⟨here, inner, split, none⟩
    cases inner with
    | nil =>
        obtain ⟨rfl, -⟩ := List.cons.inj split
        exact .inl ⟨here, rfl⟩
    | cons first inner =>
        obtain ⟨rfl, rest⟩ := List.cons.inj split
        exact .inr ⟨none b List.mem_cons_self, here, inner, rest,
          fun above mem => none above (List.mem_cons_of_mem _ mem)⟩
  · rintro (⟨here, rfl⟩ | ⟨absent, here, inner, split, none⟩)
    · exact ⟨here, [], rfl, by simp⟩
    · exact ⟨here, b :: inner, by rw [split]; rfl, List.forall_mem_cons.2 ⟨absent, none⟩⟩

/-- The list itself binds nothing: the search goes on at its owner. -/
theorem ParameterOf.nearest {tree : Tree} {parameter owner scope : Cursor}
    (owned : ParameterOf parameter owner) (here : parameter ∈ tree.nodes) :
    Nearest HoldsFunctionNames parameter scope ↔
      owner.HoldsFunctionNames ∧ scope = owner ∨
        ¬ owner.HoldsFunctionNames ∧ Nearest HoldsFunctionNames owner scope := by
  obtain ⟨list, below, kind, above⟩ := owned.listed
  obtain ⟨there, step⟩ := (Tree.mem_nodes.1 here).of_parent? below
  obtain ⟨-, up⟩ := there.of_parent? above
  have plain : ¬ list.HoldsFunctionNames := by
    simp [HoldsFunctionNames, kind, Kind.isFunctionScope, ancestors_of_mem_children up]
  rw [nearest_of_mem_children step, nearest_of_mem_children up]
  simp only [plain, false_and, not_false_eq_true, true_and, false_or]

theorem declares_of_mem_importPartOccurrences {scope part : Cursor} {occurrence : Occurrence}
    (h : occurrence ∈ importPartOccurrences scope part) :
    occurrence.node.kind = .identifier ∨ occurrence.node.kind = .namespaceImport ∨
      occurrence.node.kind = .importSpecifier := by
  unfold importPartOccurrences at h
  split at h
  case h_1 kind =>
    rw [List.mem_singleton.1 h]
    exact .inl kind
  case h_2 kind =>
    obtain ⟨name, -, rfl⟩ := List.mem_map.1 h
    exact .inr (.inl kind)
  case h_3 =>
    obtain ⟨specifier, hs, h⟩ := List.mem_flatMap.1 h
    obtain ⟨name, -, rfl⟩ := List.mem_map.1 h
    exact .inr (.inr (mem_specifiers hs).2)
  case h_4 => cases h

theorem not_parameter_of_mem_bareParameterOccurrences {kind : DeclarationKind} {c : Cursor}
    {occurrence : Occurrence} (h : occurrence ∈ bareParameterOccurrences kind c) :
    ¬ occurrence.node.IsParameter := by
  unfold bareParameterOccurrences at h
  split at h
  · obtain ⟨pattern, name, same, binds, rfl⟩ := mem_patternOccurrences.1 h
    obtain rfl := Option.some.inj same
    rintro (parameter | parameter) <;> cases binds <;> simp_all
  · cases h

/-- Only a parameter itself declares what stands as declared by it. -/
theorem parameter_of_mem_occurrences {c : Cursor} {occurrence : Occurrence}
    (h : occurrence ∈ c.occurrences) (parameter : occurrence.node.IsParameter) :
    occurrence.node = c ∧ occurrence.scope = c.enclosingFunctionScope := by
  have other (same : occurrence.node = c) (kind : ¬ c.IsParameter) : False :=
    kind (same ▸ parameter)
  unfold occurrences at h
  split at h
  case h_1 =>
    obtain ⟨_, _, -, -, h⟩ := mem_importOccurrences.1 h
    rcases declares_of_mem_importPartOccurrences h with kind | kind | kind <;>
      simp [IsParameter, kind] at parameter
  case h_10 kind =>
    exact (other (kind_of_mem_loopOccurrences h).2 (by simp [IsParameter, kind])).elim
  case h_11 kind =>
    exact (other (kind_of_mem_patternOccurrences h).2 (by simp [IsParameter, kind])).elim
  case h_12 | h_13 =>
    obtain ⟨_, _, -, -, rfl⟩ := mem_patternOccurrences.1 h
    exact ⟨rfl, rfl⟩
  case h_14 | h_15 => exact absurd parameter (not_parameter_of_mem_bareParameterOccurrences h)
  case h_16 => cases h
  all_goals
    rename_i kind
    exact (other (kind_of_mem_nameOccurrences h).2 (by simp [IsParameter, kind])).elim

end Cursor

/-- The names that a node declares are bound in a scope, and referred to only within its range. -/
structure Resolver.Confined (resolver : Resolver) (tree : Tree) (node scope : Cursor) : Prop where
  bound_at : ∀ binding ∈ resolver.table.bindings, binding.declaration.node = node →
    binding.scope = scope.site
  used_inside : ∀ c ∈ tree.nodes, ∀ symbol, resolver.resolve? c = .ok (some symbol) →
    ∀ declaration ∈ symbol.declarations, declaration.node = node →
      scope.start ≤ c.start ∧ c.stop ≤ scope.stop

/-- A declaration is what its name refers to all through a scope, unless a nearer scope binds it. -/
def Resolver.Reveals (resolver : Resolver) (tree : Tree) (scope : Cursor)
    (declaration : Declaration) : Prop :=
  ∀ c ∈ tree.nodes, ∀ name, c.kind = .identifier → c.text resolver.source = .ok name →
    declaration.name.text resolver.source = .ok name →
    ¬ (c.inTag = true ∧ isIntrinsicName name = true) →
    ∀ inner, c.ancestors = inner ++ scope :: scope.ancestors →
      (∀ above ∈ inner, resolver.table.lookup? above.site name = none) →
      ∃ symbol, resolver.resolve? c = .ok (some symbol) ∧ declaration ∈ symbol.declarations

namespace Resolver

variable {source : Bytes} {tree : Tree} {resolver : Resolver} {parameter owner scope : Cursor}

theorem confined_of_bound_at (wf : tree.WellFormed source.length)
    (bound_at : ∀ binding ∈ resolver.table.bindings, binding.declaration.node = parameter →
      binding.scope = scope.site) : resolver.Confined tree parameter scope := by
  refine ⟨bound_at, fun c here symbol resolved declaration mem made => ?_⟩
  obtain ⟨text, -, found⟩ := resolve?_eq_some resolved
  obtain ⟨around, above, declarations, -⟩ := exists_scope_of_lookup? found
  rw [declarations] at mem
  obtain ⟨binding, hb, site, -, rfl⟩ := ScopeTable.mem_declarations.1 mem
  have same : around.site = scope.site := site.symm.trans (bound_at binding hb made)
  obtain ⟨there, below⟩ := (Tree.mem_nodes.1 here).of_mem_ancestors above
  have inside := Reaches.inside wf there below
  have start : around.start = scope.start := congrArg (·.start) same
  have stop : around.stop = scope.stop := congrArg (·.stop) same
  exact ⟨start ▸ inside.1, stop ▸ inside.2⟩

theorem reveals_of_binding {declaration : Declaration} {name : String}
    (text : declaration.name.text resolver.source = .ok name)
    (bound : ⟨scope.site, name, declaration⟩ ∈ resolver.table.bindings) :
    resolver.Reveals tree scope declaration := by
  intro c here used kind at_use at_declaration plain inner split none
  obtain rfl := Except.ok.inj (text.symm.trans at_declaration)
  have declared : declaration ∈ resolver.table.declarations scope.site name :=
    ScopeTable.mem_declarations.2 ⟨_, bound, rfl, rfl, rfl⟩
  cases found : resolver.table.lookup? scope.site name with
  | none =>
      rw [ScopeTable.lookup?_eq_none_iff.1 found] at declared
      cases declared
  | some symbol =>
      rw [← (ScopeTable.declarations_of_lookup? found).1] at declared
      refine ⟨symbol, ?_, declared⟩
      rw [resolve?_identifier kind at_use plain, lookup?, split]
      rw [List.findSome?_append, List.findSome?_eq_none_iff.2 none, List.findSome?_cons, found]
      rfl

theorem bound_at_of_nearest (built : ofTree source tree = .ok resolver)
    (kind : parameter.IsParameter) (near : Nearest HoldsFunctionNames parameter scope) :
    ∀ binding ∈ resolver.table.bindings, binding.declaration.node = parameter →
      binding.scope = scope.site := by
  intro binding hb made
  obtain ⟨-, -, collected⟩ := ofTree_eq_ok built
  obtain ⟨node, -, occurrence, ho, bound⟩ := (ScopeTable.mem_bindings collected).1 hb
  obtain ⟨-, site, declares⟩ := ScopeTable.bind_eq_ok_iff.1 bound
  obtain rfl : occurrence.node = parameter := by
    rw [← made, declares]
  obtain ⟨same, at_scope⟩ := Cursor.parameter_of_mem_occurrences ho kind
  rw [← same] at at_scope
  have nearest := Cursor.nearest_enclosingFunctionScope near.ancestors_ne_nil
  rw [site, at_scope, nearest.unique near]

theorem parameter_binding (built : ofTree source tree = .ok resolver)
    (here : parameter ∈ tree.nodes) (kind : parameter.IsParameter)
    (near : Nearest HoldsFunctionNames parameter scope) {pattern name : Cursor}
    (at_pattern : parameter.child? .pattern = some pattern) (binds : PatternBinds pattern name) :
    ∃ text, name.text resolver.source = .ok text ∧
      ⟨scope.site, text, ⟨.parameter, parameter, name⟩⟩ ∈ resolver.table.bindings := by
  obtain ⟨rfl, -, collected⟩ := ofTree_eq_ok built
  have ho := Cursor.mem_occurrences_of_introduces here (.parameter kind near at_pattern binds)
  obtain ⟨binding, hb, bound⟩ := ScopeTable.exists_binding collected here ho
  obtain ⟨text, at_scope, declares⟩ := ScopeTable.bind_eq_ok_iff.1 bound
  refine ⟨binding.name, text, ?_⟩
  rw [← at_scope, ← declares]
  exact hb

/-- A parameter is seen in the nearest function around it and not beyond, so it stays with the node
that owns its list exactly if this node counts as a function. -/
theorem parameter_confined_iff_owner_holds (wf : tree.WellFormed source.length)
    (built : ofTree source tree = .ok resolver) (here : parameter ∈ tree.nodes)
    (owned : parameter.ParameterOf owner) :
    ∃ scope, Nearest HoldsFunctionNames parameter scope ∧
      resolver.Confined tree parameter scope ∧ (scope = owner ↔ owner.HoldsFunctionNames) ∧
      (¬ owner.HoldsFunctionNames → Nearest HoldsFunctionNames owner scope) ∧
      ∀ pattern name, parameter.child? .pattern = some pattern → PatternBinds pattern name →
        resolver.Reveals tree scope ⟨.parameter, parameter, name⟩ ∧
        ((owner.site = (ofRoot tree).site → owner = ofRoot tree) →
          (resolver.Confined tree parameter owner ↔ owner.HoldsFunctionNames)) := by
  obtain ⟨list, below, -⟩ := owned.listed
  obtain ⟨-, step⟩ := (Tree.mem_nodes.1 here).of_parent? below
  have near := Cursor.nearest_enclosingFunctionScope (c := parameter)
    (by simp [Cursor.ancestors_of_mem_children step])
  generalize parameter.enclosingFunctionScope = scope at near
  have at_owner (holds : owner.HoldsFunctionNames) : scope = owner :=
    near.unique ((owned.nearest here).2 (.inl ⟨holds, rfl⟩))
  have confined := confined_of_bound_at wf (bound_at_of_nearest built owned.kind near)
  refine ⟨scope, near, confined, ⟨fun same => same ▸ near.1, at_owner⟩, fun outside => ?_, ?_⟩
  · rcases (owned.nearest here).1 near with ⟨holds, -⟩ | ⟨-, further⟩
    · exact absurd holds outside
    · exact further
  · intro pattern name at_pattern binds
    obtain ⟨text, at_name, bound⟩ := parameter_binding built here owned.kind near at_pattern binds
    refine ⟨reveals_of_binding at_name bound, fun top => ⟨fun kept => ?_, fun holds => ?_⟩⟩
    · have same : scope.site = owner.site := kept.bound_at _ bound rfl
      have alike : scope.kind = owner.kind := congrArg Site.kind same
      -- Alike nodes count as functions together, except that the root counts whatever its kind.
      rcases near.1 with function | program | alone
      · exact .inl (alike ▸ function)
      · exact .inr (.inl (alike ▸ program))
      · obtain ⟨there, -⟩ := (Tree.mem_nodes.1 here).of_mem_ancestors near.mem_ancestors
        rw [there.eq_root alone] at same
        exact .inr (.inr (congrArg Cursor.ancestors (top same.symm)))
    · exact at_owner holds ▸ confined

def shadowedParameter : Cursor :=
  ((ofRoot shadowedTree).descend? [1, 1, 0]).getD default

def shadowedFunction : Cursor :=
  ((ofRoot shadowedTree).descend? [1]).getD default

theorem parameter_confined_iff_owner_holds_function : ∃ resolver,
    shadowedTree.WellFormed shadowedSource.length ∧ shadowedParameter ∈ shadowedTree.nodes ∧
    shadowedParameter.ParameterOf shadowedFunction ∧
    ofTree shadowedSource shadowedTree = .ok resolver ∧
    Nearest HoldsFunctionNames shadowedParameter shadowedFunction ∧
    resolver.Confined shadowedTree shadowedParameter shadowedFunction := by
  have wf : shadowedTree.WellFormed shadowedSource.length := by decide +kernel
  have here : shadowedParameter ∈ shadowedTree.nodes :=
    Tree.mem_nodes.2 (Cursor.reaches_of_descend? [1, 1, 0] rfl)
  have owned : shadowedParameter.ParameterOf shadowedFunction :=
    ⟨.inl rfl, _, rfl, rfl, rfl⟩
  have collected : (ofTree shadowedSource shadowedTree).toOption.isSome = true := by decide +kernel
  obtain ⟨resolver, built⟩ := Option.isSome_iff_exists.1 collected
  have built := eq_ok_of_toOption built
  obtain ⟨scope, near, confined, at_owner, -⟩ :=
    parameter_confined_iff_owner_holds wf built here owned
  obtain rfl := at_owner.2 (.inl rfl)
  exact ⟨resolver, wf, here, owned, built, near, confined⟩

def aliasSource : Bytes :=
  Text.encode "type F=(x:any)=>void;x"

/-- The name of the parameter is used behind the type. -/
def aliasTree : Tree :=
  .onFirstLine .program 0 22 none
    [.onFirstLine (.other "type_alias_declaration") 0 21 none
      [.onFirstLine (.other "type_identifier") 5 6 (some .name) [],
       .onFirstLine (.other "function_type") 7 20 (some .value)
        [.onFirstLine (.other "formal_parameters") 7 14 none
          [.onFirstLine .requiredParameter 8 13 none
            [.onFirstLine .identifier 8 9 (some .pattern) [],
             .onFirstLine (.other "type_annotation") 9 13 none
              [.onFirstLine (.other "predefined_type") 10 13 none []]]],
         .onFirstLine (.other "predefined_type") 16 20 none []]],
     .onFirstLine (.other "expression_statement") 21 22 none
      [.onFirstLine .identifier 21 22 none []]]

def aliasedType : Cursor :=
  ((ofRoot aliasTree).descend? [0, 1]).getD default

def aliasParameter : Cursor :=
  ((ofRoot aliasTree).descend? [0, 1, 0, 0]).getD default

def aliasUse : Cursor :=
  ((ofRoot aliasTree).descend? [1, 0]).getD default

/-- A parameter of a function type is what its name refers to behind the type. -/
theorem function_type_parameter_seen_outside : ∃ resolver symbol declaration,
    aliasTree.WellFormed aliasSource.length ∧ aliasParameter ∈ aliasTree.nodes ∧
    aliasParameter.ParameterOf aliasedType ∧ ofTree aliasSource aliasTree = .ok resolver ∧
    aliasUse ∈ aliasTree.nodes ∧ aliasedType.stop ≤ aliasUse.start ∧
    resolver.resolve? aliasUse = .ok (some symbol) ∧ declaration ∈ symbol.declarations ∧
    declaration.node = aliasParameter ∧
    ¬ resolver.Confined aliasTree aliasParameter aliasedType := by
  have here : aliasParameter ∈ aliasTree.nodes :=
    Tree.mem_nodes.2 (Cursor.reaches_of_descend? [0, 1, 0, 0] rfl)
  have there : aliasUse ∈ aliasTree.nodes :=
    Tree.mem_nodes.2 (Cursor.reaches_of_descend? [1, 0] rfl)
  have owned : aliasParameter.ParameterOf aliasedType := ⟨.inl rfl, _, rfl, rfl, rfl⟩
  have near : Nearest HoldsFunctionNames aliasParameter (ofRoot aliasTree) :=
    Cursor.nearest_enclosingFunctionScope (by decide +kernel)
  have evaluated : ((ofTree aliasSource aliasTree).map fun resolver =>
      aliasUse.parent?.all fun statement =>
        (resolver.table.lookup? statement.site "x").isNone).toOption = some true := by
    decide +kernel
  obtain ⟨resolver, built, unbound⟩ := map_eq_ok.1 (eq_ok_of_toOption evaluated)
  obtain ⟨source_eq, -⟩ := ofTree_eq_ok built
  obtain ⟨pattern, at_pattern, text⟩ : ∃ pattern, aliasParameter.child? .pattern = some pattern ∧
      pattern.text aliasSource = .ok "x" := ⟨_, rfl, eq_ok_of_toOption (by decide +kernel)⟩
  have binds : PatternBinds pattern pattern := .name (.inl (by cases at_pattern; rfl))
  obtain ⟨name, at_name, bound⟩ := parameter_binding built here owned.kind near at_pattern binds
  obtain rfl : name = "x" := Except.ok.inj (at_name.symm.trans (source_eq ▸ text))
  have reveals : resolver.Reveals aliasTree (ofRoot aliasTree)
      ⟨.parameter, aliasParameter, pattern⟩ :=
    reveals_of_binding at_name bound
  have used : aliasUse.text resolver.source = .ok "x" := by
    rw [source_eq]
    exact eq_ok_of_toOption (by decide +kernel)
  obtain ⟨symbol, resolved, declared⟩ := reveals aliasUse there "x" rfl used at_name
    (by decide +kernel) [_] rfl
    (List.forall_mem_singleton.2 (Option.isNone_iff_eq_none.1 unbound))
  refine ⟨resolver, symbol, _, by decide +kernel, here, owned, built, there, by decide, resolved,
    declared, rfl, fun kept => ?_⟩
  have inside := kept.used_inside aliasUse there symbol resolved _ declared rfl
  revert inside
  decide

end Resolver
end JsxLint
