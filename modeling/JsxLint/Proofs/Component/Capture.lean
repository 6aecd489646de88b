import JsxLint.Proofs.Component.Eligible

/-!
What the suggested name stands for at the tag that is to be renamed. The import that brought the
old name in is the only one that is looked at before the new name is added to it. So the new name
is free or imported there, provided that nothing else around the tag binds it; other bindings are
neither found nor avoided.
-/

namespace JsxLint

/-- The parser takes the braces of an import for a named node. -/
def Tree.BracesNamed (tree : Tree) : Prop :=
  ∀ c ∈ tree.nodes, c.kind = .namedImports → c.named = true

namespace ScopeTable

/-- The bindings of a file with one more among them. -/
def extended (table : ScopeTable) (position : Nat) (binding : Binding) : ScopeTable :=
  ⟨table.bindings.take position ++ binding :: table.bindings.drop position⟩

theorem declarations_extended {table : ScopeTable} {scope : Site} {name : String}
    (free : table.declarations scope name = []) (position : Nat) (binding : Binding) :
    (table.extended position binding).declarations scope name =
      if binding.scope = scope ∧ binding.name = name then [binding.declaration] else [] := by
  have none : ∀ other ∈ table.bindings, ¬ (other.scope = scope ∧ other.name = name) := by
    simpa [declarations] using free
  have before : (table.bindings.take position).filter
      (fun other => other.scope = scope ∧ other.name = name) = [] := by
    apply List.filter_eq_nil_iff.2
    intro other h
    simpa using none other (List.mem_of_mem_take h)
  have after : (table.bindings.drop position).filter
      (fun other => other.scope = scope ∧ other.name = name) = [] := by
    apply List.filter_eq_nil_iff.2
    intro other h
    simpa using none other (List.mem_of_mem_drop h)
  rw [declarations, extended, List.filter_append, before, List.nil_append, List.filter_cons, after]
  split <;> simp_all

end ScopeTable

namespace Resolver

theorem lookup?_eq_none_of_unbound {resolver : Resolver} {name : String}
    (unbound : ∀ binding ∈ resolver.table.bindings, binding.name ≠ name) (c : Cursor) :
    resolver.lookup? c name = none := by
  refine lookup?_eq_none_iff.2 fun scope _ => List.eq_nil_iff_forall_not_mem.2 ?_
  intro first mem
  obtain ⟨binding, hb, -, name_eq, -⟩ := ScopeTable.mem_declarations.1 mem
  exact unbound binding hb name_eq

/-- A name that is free at a place stands for what is added at a scope around the place. -/
theorem lookup?_extended {resolver : Resolver} {c scope : Cursor} {name : String}
    (free : resolver.lookup? c name = none) (hs : scope ∈ c.ancestors) (position : Nat)
    (added : Declaration) :
    { resolver with
      table := resolver.table.extended position ⟨scope.site, name, added⟩ }.lookup? c name =
      some ⟨name, scope.kind, [added]⟩ := by
  have free := lookup?_eq_none_iff.1 free
  have found : ∀ around ∈ c.ancestors,
      (resolver.table.extended position ⟨scope.site, name, added⟩).lookup? around.site name =
        if scope.site = around.site then some ⟨name, scope.kind, [added]⟩ else none := by
    intro around ha
    rw [ScopeTable.lookup?, ScopeTable.declarations_extended (free around ha)]
    by_cases same : scope.site = around.site
    · simp only [same, and_self, if_true]
      rw [show scope.kind = around.site.kind from congrArg Site.kind same]
    · simp [same]
  rw [lookup?]
  cases result : c.ancestors.findSome? fun around =>
      (resolver.table.extended position ⟨scope.site, name, added⟩).lookup? around.site name with
  | none =>
      have missed := List.findSome?_eq_none_iff.1 result scope hs
      rw [found scope hs, if_pos rfl] at missed
      cases missed
  | some symbol =>
      obtain ⟨around, ha, hit⟩ := List.exists_of_findSome?_eq_some result
      rw [found around ha] at hit
      split at hit
      · exact hit.symm
      · cases hit

end Resolver

namespace Component

open Cursor (Reaches ofRoot)
open SpecificComponent (onlyTag plainSource plainTree)

/-- The declaration is a specifier in the braces of an import that imports a component under its
own name. -/
structure Imports (source : Bytes) (declaration : Cursor) (component : String)
    (found : Declaration) : Prop where
  kind_eq : found.kind = .importSpecifier
  in_braces : found.node ∈ declaration.importSpecifiers
  exported : ∃ name, found.node.child? .name = some name ∧ name.text source = .ok component

/-- The component, looked up from a name, is imported by a declaration. -/
def Denotes (resolver : Resolver) (declaration name : Cursor) (component : String) : Prop :=
  ∃ symbol first, resolver.lookup? name component = some symbol ∧
    symbol.declaration? = some first ∧ Imports resolver.source declaration component first

variable {source : Bytes} {tree : Tree} {resolver : Resolver} {component : String}

theorem specifierBinds_eq_true {specifier : Cursor} :
    specifierBinds source component specifier = .ok true ↔
      ∃ name, specifier.localName? = some name ∧ name.text source = .ok component := by
  unfold specifierBinds
  cases specifier.localName? with
  | none => simp
  | some name =>
      constructor
      · intro h
        obtain ⟨text, ht, h⟩ := bind_eq_ok.1 h
        have same : text = component := by simpa using pure_eq_ok.1 h
        exact ⟨name, rfl, same ▸ ht⟩
      · rintro ⟨found, same, ht⟩
        obtain rfl := Option.some.inj same
        exact bind_eq_ok.2 ⟨component, ht, by simp⟩

/-- A specifier in the braces of an import is bound at the root. -/
theorem declarations_root_of_binds (collected : ScopeTable.ofTree source tree = .ok resolver.table)
    (braces : tree.BracesNamed) {declaration specifier : Cursor}
    (here : declaration ∈ tree.nodes) (kind : declaration.kind = .importStatement)
    (hs : specifier ∈ declaration.importSpecifiers)
    (binds : specifierBinds source component specifier = .ok true) :
    resolver.table.declarations (ofRoot tree).site component ≠ [] := by
  obtain ⟨name, at_name, text⟩ := specifierBinds_eq_true.1 binds
  obtain ⟨clause, named, hc, hn, hs⟩ := Cursor.mem_importSpecifiers.1 hs
  have above := Tree.mem_nodes.1 here
  obtain ⟨clause_step, -⟩ := Cursor.mem_children_of_childOfKind? hc
  obtain ⟨named_step, named_kind⟩ := Cursor.mem_children_of_childOfKind? hn
  have named_here := Tree.mem_nodes.2 (Reaches.child (.child above clause_step) named_step)
  have in_clause : named ∈ clause.namedChildren :=
    List.mem_filter.2 ⟨named_step, braces named named_here named_kind⟩
  let occurrence : Occurrence := ⟨declaration.root, .importSpecifier, specifier, name⟩
  have occurs : occurrence ∈ declaration.occurrences :=
    (Cursor.specifier_mem_occurrences rfl).2
      ⟨kind, rfl, at_name, clause, named, hc, in_clause, named_kind, hs⟩
  let binding : Binding := ⟨declaration.root.site, component, ⟨.importSpecifier, specifier, name⟩⟩
  have bound : binding ∈ resolver.table.bindings := (ScopeTable.mem_bindings collected).2
    ⟨declaration, here, occurrence, occurs, ScopeTable.bind_eq_ok_iff.2 ⟨text, rfl, rfl⟩⟩
  refine List.ne_nil_of_mem (ScopeTable.mem_declarations.2
    ⟨binding, bound, ?_, rfl, rfl⟩)
  exact congrArg Cursor.site (Cursor.root_eq above)

/-- A binding that imports a component is one of the specifiers that are looked at. -/
theorem binds_of_imports (collected : ScopeTable.ofTree source tree = .ok resolver.table)
    {declaration : Cursor} {binding : Binding} (hb : binding ∈ resolver.table.bindings)
    (name_eq : binding.name = component)
    (imports : Imports source declaration component binding.declaration) :
    ∃ specifier ∈ declaration.importSpecifiers,
      specifierBinds source component specifier = .ok true := by
  obtain ⟨node, -, occurrence, ho, bound⟩ := (ScopeTable.mem_bindings collected).1 hb
  obtain ⟨text, -, eq⟩ := ScopeTable.bind_eq_ok_iff.1 bound
  obtain ⟨kind, in_braces, -⟩ := imports
  rw [eq] at kind in_braces
  obtain ⟨-, -, at_name, -⟩ := (Cursor.specifier_mem_occurrences kind).1 ho
  exact ⟨occurrence.node, in_braces, specifierBinds_eq_true.2 ⟨_, at_name, name_eq ▸ text⟩⟩

/-- A component that nothing around a name binds but one import is free there, or imported. -/
theorem free_or_denotes {declaration name : Cursor}
    (only : ∀ scope ∈ name.ancestors, ∀ found ∈ resolver.table.declarations scope.site component,
      Imports resolver.source declaration component found) :
    resolver.lookup? name component = none ∨ Denotes resolver declaration name component := by
  cases lookup : resolver.lookup? name component with
  | none => exact .inl rfl
  | some symbol =>
      obtain ⟨first, hf⟩ := Resolver.exists_first_of_lookup? lookup
      obtain ⟨scope, hs, mem, -⟩ := Resolver.exists_binding_of_lookup? lookup hf
      exact .inr ⟨symbol, first, lookup, hf, only scope hs first mem⟩

/-- The name that an issue suggests is not captured as long as the bindings around the tag leave it
to the import that brought the old name in. The fix renames the tag, removes the attribute and does
nothing to the file beyond that, except that it may append the name to the specifiers of this import.
A name that is free is appended and then stands for what was added; a name that the import already
binds is not added again. If no other binding of the file has the name, it is added only where it
has no binding at all. -/
theorem suggested_name_not_captured {path : Path} {tag : Cursor} {issue : Issue}
    (bindings : Resolver.ofTree source tree = .ok resolver) (braces : tree.BracesNamed)
    (htag : tag ∈ (ofRoot tree).tags)
    (reported : (Rule.specificComponent.check ⟨path, resolver⟩ tag).result = .ok (some issue))
    (suggested : issue.suggestion? = some component) :
    ∃ name attr declaration last fix opening closing? removal import?,
      tag.tagName? = some name ∧ importDeclaration? resolver name = .ok (some declaration) ∧
      origin? resolver name = .ok (some library) ∧
      declaration.importSpecifiers.getLast? = some last ∧
      match? source SpecificComponent.generic tag = .ok (some ⟨attr, component⟩) ∧
      issue.fix = some fix ∧
      fix.edits.Perm ([opening] ++ closing?.toList ++ [removal] ++ import?.toList) ∧
      opening.toSpan = name.span ∧ opening.text = component ∧
      renameClosing? tag component = .ok closing? ∧ removeAttribute tag attr = .ok removal ∧
      extendImport? resolver tag component = .ok import? ∧
      (∀ edit ∈ import?, Appends source declaration last component edit) ∧
      (import? = none ↔ ∃ specifier ∈ declaration.importSpecifiers,
        specifierBinds source component specifier = .ok true) ∧
      (resolver.lookup? name component = none → import? ≠ none ∧
        ∀ position added,
          { resolver with
            table := resolver.table.extended position
              ⟨(ofRoot tree).site, component, added⟩ }.lookup? name component =
            some ⟨component, (ofRoot tree).kind, [added]⟩) ∧
      (Denotes resolver declaration name component → import? = none) ∧
      ((∀ scope ∈ name.ancestors, ∀ found ∈ resolver.table.declarations scope.site component,
          Imports source declaration component found) →
        resolver.lookup? name component = none ∨ Denotes resolver declaration name component) ∧
      ((∀ binding ∈ resolver.table.bindings, binding.name = component →
          Imports source declaration component binding.declaration) →
        (import? ≠ none ↔ ∀ binding ∈ resolver.table.bindings, binding.name ≠ component)) := by
  obtain ⟨rfl, -, collected⟩ := Resolver.ofTree_eq_ok bindings
  obtain ⟨eligible, attr, fix, matched, fix_eq, planned⟩ := SpecificComponent.check_eq_some reported
    suggested
  obtain ⟨name, at_name, -, origin⟩ := SpecificComponent.eligible_eq_true eligible
  obtain ⟨opening, closing?, removal, import?, opened, closed, removed, extended, perm⟩ :=
    plan_eq_ok planned
  obtain ⟨found, at_found, span, text⟩ := renameOpening_eq_ok opened
  obtain rfl := Option.some.inj (at_found.symm.trans at_name)
  obtain ⟨_, declaration, last, same, imported, hl, none_iff, appends⟩ :=
    extendImport?_eq_ok extended
  obtain rfl := Option.some.inj (at_found.symm.trans same)
  obtain ⟨here, kind, -⟩ := importDeclaration?_eq_some bindings imported
  have above := Tree.mem_nodes.1 (List.mem_filter.1 htag).1
  have root_around : ofRoot tree ∈ found.ancestors :=
    Cursor.root_mem_ancestors above (Cursor.mem_children_of_child?_eq at_found)
  have adds_of_free : resolver.lookup? found component = none → import? ≠ none := by
    intro free none
    obtain ⟨specifier, hs, binds⟩ := none_iff.1 none
    exact declarations_root_of_binds collected braces here kind hs binds
      (Resolver.lookup?_eq_none_iff.1 free _ root_around)
  refine ⟨found, attr, declaration, last, fix, opening, closing?, removal, import?, at_found,
    imported, origin, hl, matched, fix_eq, perm, span, text, closed, removed, extended, appends,
    none_iff, ?_, ?_, ?_, ?_⟩
  · intro free
    exact ⟨adds_of_free free, fun position added =>
      Resolver.lookup?_extended free root_around position added⟩
  · rintro ⟨symbol, first, lookup, hf, imports⟩
    obtain ⟨-, -, -, binding, hb, name_eq, rfl⟩ := Resolver.exists_binding_of_lookup? lookup hf
    exact none_iff.2 (binds_of_imports collected hb name_eq imports)
  · exact free_or_denotes
  · intro only
    constructor
    · intro adds binding hb name_eq
      exact adds (none_iff.2 (binds_of_imports collected hb name_eq (only binding hb name_eq)))
    · intro unbound
      exact adds_of_free (Resolver.lookup?_eq_none_of_unbound unbound found)

theorem suggested_name_not_captured_free : ∃ resolver issue name fix,
    Resolver.ofTree plainSource plainTree = .ok resolver ∧ plainTree.BracesNamed ∧
    onlyTag plainTree ∈ (ofRoot plainTree).tags ∧
    (Rule.specificComponent.check ⟨Path.ofString "a.tsx", resolver⟩ (onlyTag plainTree)).result =
      .ok (some issue) ∧
    issue.suggestion? = some "Flex" ∧ (onlyTag plainTree).tagName? = some name ∧
    (∀ binding ∈ resolver.table.bindings, binding.name ≠ "Flex") ∧
    issue.fix = some fix ∧
    fix.edits.map (fun edit => (edit.toSpan, edit.text)) =
      [(⟨10, 10⟩, ", Flex"), (⟨35, 38⟩, "Flex"), (⟨38, 53⟩, "")] ∧
    extendImport? resolver (onlyTag plainTree) "Flex" =
      .ok (some ⟨⟨10, 10⟩, ", Flex", by decide⟩) ∧
    fix.apply plainSource = Text.encode "import{Box, Flex}from'@chakra-ui/react';<Flex/>" ∧
    ∀ position added,
      { resolver with
        table := resolver.table.extended position
          ⟨(ofRoot plainTree).site, "Flex", added⟩ }.lookup? name "Flex" =
        some ⟨"Flex", .program, [added]⟩ := by
  have tag_step : onlyTag plainTree ∈ (ofRoot plainTree).children :=
    List.mem_of_getElem? (i := 1) rfl
  have htag : onlyTag plainTree ∈ (ofRoot plainTree).tags :=
    List.mem_filter.2 ⟨Tree.mem_nodes.2 (Cursor.reaches_of_mem_children tag_step), rfl⟩
  have braces : plainTree.BracesNamed := by unfold Tree.BracesNamed; decide +kernel
  have evaluated : ((Resolver.ofTree plainSource plainTree).bind fun resolver => do
      let parts ← SpecificComponent.parts? resolver (onlyTag plainTree)
      let import? ← extendImport? resolver (onlyTag plainTree) "Flex"
      return (parts, import?,
        decide (∀ binding ∈ resolver.table.bindings, binding.name ≠ "Flex"))).toOption =
      some (some ("Flex", [⟨⟨35, 38⟩, "Flex", by decide⟩, ⟨⟨38, 53⟩, "", by decide⟩,
        ⟨⟨10, 10⟩, ", Flex", by decide⟩]), some ⟨⟨10, 10⟩, ", Flex", by decide⟩, true) := by
    decide +kernel
  obtain ⟨resolver, bindings, evaluated⟩ := bind_eq_ok.1 (eq_ok_of_toOption evaluated)
  obtain ⟨parts, found, evaluated⟩ := bind_eq_ok.1 evaluated
  obtain ⟨import?, extended, evaluated⟩ := bind_eq_ok.1 evaluated
  obtain ⟨rfl, rest⟩ := Prod.mk.inj (pure_eq_ok.1 evaluated)
  obtain ⟨rfl, unbound⟩ := Prod.mk.inj rest
  have unbound := of_decide_eq_true unbound
  obtain ⟨issue, fix, reported, suggested, fix_eq, perm⟩ := SpecificComponent.exists_issue found
    (by unfold Edit.Disjoint; decide)
  have edits : [⟨⟨10, 10⟩, ", Flex", by decide⟩, ⟨⟨35, 38⟩, "Flex", by decide⟩,
      ⟨⟨38, 53⟩, "", by decide⟩] = fix.edits :=
    Fix.edits_eq_of_perm (by unfold Edit.Precedes; decide) (.trans (by decide) perm.symm)
  have result : fix.apply plainSource =
      Text.encode "import{Box, Flex}from'@chakra-ui/react';<Flex/>" := by
    rw [Fix.apply, ← edits]
    decide +kernel
  obtain ⟨name, _, _, _, _, _, _, _, _, at_name, -, -, -, -, -, -, -, -, -, -, -, -, -, free, -⟩ :=
    suggested_name_not_captured bindings braces htag reported suggested
  have none := Resolver.lookup?_eq_none_of_unbound unbound name
  exact ⟨resolver, issue, name, fix, bindings, braces, htag, reported, suggested, at_name, unbound,
    fix_eq, by rw [← edits]; rfl, extended, result, (free none).2⟩

def capturedSource : Bytes :=
  Text.encode "import{Box}from'@chakra-ui/react';const Flex=1;<Box display='flex'/>"

def capturedTree : Tree :=
  .onFirstLine .program 0 68 none
    [.boxImport,
     .onFirstLine (.other "lexical_declaration") 34 47 none
      [.onFirstLine .variableDeclarator 40 46 none
        [.onFirstLine .identifier 40 44 (some .name) []]],
     .boxAt 47]

def capturedTag : Cursor :=
  (ofRoot capturedTree).children.getD 2 default

/-- A variable of the suggested name captures the renamed tag, and the name is imported beside
it all the same. -/
theorem suggested_name_captured_by_variable :
    capturedTree.WellFormed capturedSource.length ∧ capturedTree.BracesNamed ∧
    capturedTag ∈ (ofRoot capturedTree).tags ∧
    ∃ resolver issue symbol first,
      Resolver.ofTree capturedSource capturedTree = .ok resolver ∧
      (Rule.specificComponent.check ⟨Path.ofString "a.tsx", resolver⟩ capturedTag).result =
        .ok (some issue) ∧
      issue.suggestion? = some "Flex" ∧
      resolver.lookup? (capturedTag.children.getD 0 default) "Flex" = some symbol ∧
      symbol.declaration? = some first ∧ first.kind = .variable ∧
      extendImport? resolver capturedTag "Flex" = .ok (some (.insert 10 ", Flex")) := by
  have tag_step : capturedTag ∈ (ofRoot capturedTree).children :=
    List.mem_of_getElem? (i := 2) rfl
  have htag : capturedTag ∈ (ofRoot capturedTree).tags :=
    List.mem_filter.2 ⟨Tree.mem_nodes.2 (Cursor.reaches_of_mem_children tag_step), rfl⟩
  have parts : ((Resolver.ofTree capturedSource capturedTree).bind fun resolver => do
      let parts ← SpecificComponent.parts? resolver capturedTag
      let import? ← extendImport? resolver capturedTag "Flex"
      let first? := (resolver.lookup? (capturedTag.children.getD 0 default) "Flex").bind
        (·.declaration?)
      return (parts, import?, first?.map (·.kind))).toOption =
      some (some ("Flex", [⟨⟨48, 51⟩, "Flex", by decide⟩, ⟨⟨51, 66⟩, "", by decide⟩,
        .insert 10 ", Flex"]), some (.insert 10 ", Flex"), some .variable) := by
    decide +kernel
  obtain ⟨resolver, bindings, evaluated⟩ := bind_eq_ok.1 (eq_ok_of_toOption parts)
  obtain ⟨parts, found, evaluated⟩ := bind_eq_ok.1 evaluated
  obtain ⟨import?, extended, evaluated⟩ := bind_eq_ok.1 evaluated
  obtain ⟨rfl, rest⟩ := Prod.mk.inj (pure_eq_ok.1 evaluated)
  obtain ⟨rfl, kind⟩ := Prod.mk.inj rest
  obtain ⟨first, hf, kind⟩ := Option.map_eq_some_iff.1 kind
  obtain ⟨symbol, lookup, hf⟩ := Option.bind_eq_some_iff.1 hf
  obtain ⟨issue, -, reported, suggested, -⟩ := SpecificComponent.exists_issue found
    (by unfold Edit.Disjoint; decide)
  exact ⟨by decide +kernel, by unfold Tree.BracesNamed; decide +kernel, htag, resolver, issue,
    symbol, first, bindings, reported, suggested, lookup, hf, kind, extended⟩

end Component
end JsxLint
