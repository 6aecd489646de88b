import JsxLint.Proofs.Component.Feasible
import JsxLint.Proofs.Rule.SpecificComponent
import JsxLint.Proofs.Scope.Resolution

/-!
Which tags are taken for the library's generic component. The name of such a tag is looked up in
the table of bindings, its import is asked for the module, and nothing else counts: under which
name the library exports the component is not looked at. So a specifier without an alias imports
the generic component indeed, and one with an alias may stand for any other.
-/

namespace JsxLint

open Cursor (Nearest Reaches ofRoot)

/-- Of the nodes around a name, the nearest that binds the text does so first by the declaration. -/
def ScopeTable.BindsFirst (table : ScopeTable) (text : String) (name : Cursor)
    (first : Declaration) : Prop :=
  ∃ scope, Nearest (fun above => table.declarations above.site text ≠ []) name scope ∧
    (table.declarations scope.site text).head? = some first

theorem Resolver.lookup?_first_iff {resolver : Resolver} {name : Cursor} {text : String}
    {first : Declaration} :
    (resolver.lookup? name text).bind (·.declaration?) = some first ↔
      resolver.table.BindsFirst text name first := by
  have missed (above : Cursor) : resolver.table.lookup? above.site text = none ↔
      ¬ resolver.table.declarations above.site text ≠ [] := by
    simp [ScopeTable.lookup?_eq_none_iff]
  have found {above : Cursor} {symbol : Symbol}
      (h : resolver.table.lookup? above.site text = some symbol) :
      symbol.declaration? = (resolver.table.declarations above.site text).head? := by
    rw [Symbol.declaration?, (ScopeTable.declarations_of_lookup? h).1]
  simp only [lookup?, Option.bind_eq_some_iff, List.findSome?_eq_some_iff]
  constructor
  · rintro ⟨symbol, ⟨inner, scope, outer, split, at_scope, nearer⟩, hf⟩
    obtain rfl := Cursor.ancestors_of_append split
    obtain ⟨declared, binds⟩ := ScopeTable.declarations_of_lookup? at_scope
    rw [declared] at binds
    exact ⟨scope, ⟨binds, inner, split, fun above mem => (missed above).1 (nearer above mem)⟩,
      found at_scope ▸ hf⟩
  · rintro ⟨scope, ⟨binds, inner, split, nearer⟩, hf⟩
    cases at_scope : resolver.table.lookup? scope.site text with
    | none => exact absurd binds ((missed scope).1 at_scope)
    | some symbol =>
        exact ⟨symbol, ⟨inner, scope, _, split, at_scope,
          fun above mem => (missed above).2 (nearer above mem)⟩, (found at_scope).trans hf⟩

namespace Component

/-- The import around a specifier names the module, between two characters of any kind. -/
def ImportedFrom (source : Bytes) (specifier : Cursor) (module : String) : Prop :=
  ∃ declaration string text opening closing, specifier.enclosingImport? = some declaration ∧
    declaration.moduleName? = some string ∧ string.text source = .ok text ∧
    text.toList = opening :: (module.toList ++ [closing])

theorem inner_eq_iff {text module : String} (named : module ≠ "") :
    inner text = module ↔
      ∃ opening closing, text.toList = opening :: (module.toList ++ [closing]) := by
  have chars : inner text = module ↔ (text.toList.drop 1).dropLast = module.toList := by
    rw [inner, ← String.toList_inj, String.toList_ofList]
  rw [chars]
  constructor
  · intro h
    have some_left : text.toList.drop 1 ≠ [] := by
      intro nothing
      rw [nothing] at h
      exact named (String.toList_eq_nil_iff.1 h.symm)
    cases split : text.toList with
    | nil => simp [split] at some_left
    | cons opening rest =>
        simp only [split, List.drop_succ_cons, List.drop_zero] at h some_left
        refine ⟨opening, rest.getLast some_left, ?_⟩
        rw [← h, List.dropLast_concat_getLast]
  · rintro ⟨opening, closing, split⟩
    simp [split]

end Component

namespace SpecificComponent

open Component

/-- The tag's name is bound first by a specifier of the library, under the generic name. -/
def NamesGeneric (source : Bytes) (table : ScopeTable) (tag : Cursor) : Prop :=
  ∃ name first, tag.tagName? = some name ∧ name.kind = .identifier ∧
    name.text source = .ok generic ∧ table.BindsFirst generic name first ∧
    first.kind = .importSpecifier ∧ ImportedFrom source first.node library

variable {source : Bytes} {tree : Tree} {resolver : Resolver} {tag : Cursor}

theorem resolve?_generic {name : Cursor} (read : name.text resolver.source = .ok generic) :
    resolver.resolve? name =
      .ok (if name.kind = .identifier then resolver.lookup? name generic else none) := by
  by_cases kind : name.kind = .identifier
  · rw [if_pos kind]
    exact Resolver.resolve?_identifier kind read fun plain => absurd plain.2 (by decide)
  · simp [Resolver.resolve?, kind]

theorem importDeclaration?_generic (built : Resolver.ofTree source tree = .ok resolver)
    {name declaration : Cursor} (read : name.text source = .ok generic) :
    importDeclaration? resolver name = .ok (some declaration) ↔
      name.kind = .identifier ∧ ∃ first, resolver.table.BindsFirst generic name first ∧
        first.kind = .importSpecifier ∧ first.node.enclosingImport? = some declaration := by
  obtain ⟨source_eq, importOf_eq, -⟩ := Resolver.ofTree_eq_ok built
  rw [importDeclaration?, resolve?_generic (source_eq ▸ read), ok_bind, importOf_eq]
  by_cases kind : name.kind = .identifier
  · simp only [kind, if_true, true_and, ← Resolver.lookup?_first_iff]
    cases (resolver.lookup? name generic).bind (·.declaration?) with
    | none => simp
    | some first => by_cases is_import : first.kind = .importSpecifier <;> simp [is_import]
  · simp [kind]

/-- A tag is eligible by its name, the declaration that comes first for it, and the module. -/
theorem eligible_iff (built : Resolver.ofTree source tree = .ok resolver) :
    eligible resolver tag = .ok true ↔ NamesGeneric source resolver.table tag := by
  obtain ⟨source_eq, -, -⟩ := Resolver.ofTree_eq_ok built
  have library_named : library ≠ "" := by decide
  constructor
  · intro h
    obtain ⟨name, at_name, read, known⟩ := eligible_eq_true h
    obtain ⟨declaration, module, text, imported, at_module, module_read, same⟩ :=
      origin?_eq_some known
    rw [source_eq] at read module_read
    obtain ⟨kind, first, binds, first_kind, around⟩ :=
      (importDeclaration?_generic built read).1 imported
    obtain ⟨opening, closing, split⟩ := (inner_eq_iff library_named).1 same
    exact ⟨name, first, at_name, kind, read, binds, first_kind,
      declaration, module, text, opening, closing, around, at_module, module_read, split⟩
  · rintro ⟨name, first, at_name, kind, read, binds, first_kind, declaration, module, text,
      opening, closing, around, at_module, module_read, split⟩
    have imported := (importDeclaration?_generic built read).2
      ⟨kind, first, binds, first_kind, around⟩
    have same := (inner_eq_iff library_named).2 ⟨opening, closing, split⟩
    simp [eligible, isLibraryTag, origin?, at_name, source_eq, read, imported, at_module,
      module_read, same]

/-- The specifier that a tag's name stands for, without regard to what it imports. -/
structure StandsFor (source : Bytes) (tree : Tree) (resolver : Resolver) (tag : Cursor)
    (specifier : Cursor) : Prop where
  here : specifier ∈ tree.nodes
  kind_eq : specifier.kind = .importSpecifier
  resolved : ∃ name symbol first, tag.tagName? = some name ∧
    resolver.resolve? name = .ok (some symbol) ∧ symbol.declaration? = some first ∧
    first.kind = .importSpecifier ∧ first.node = specifier
  from_library : ImportedFrom source specifier library

theorem exists_specifier_of_namesGeneric (built : Resolver.ofTree source tree = .ok resolver)
    (h : NamesGeneric source resolver.table tag) :
    ∃ specifier bound, StandsFor source tree resolver tag specifier ∧
      specifier.localName? = some bound ∧ bound.text source = .ok generic := by
  obtain ⟨name, first, at_name, kind, read, binds, first_kind, imported⟩ := h
  obtain ⟨source_eq, -, collected⟩ := Resolver.ofTree_eq_ok built
  obtain ⟨symbol, lookup, hf⟩ := Option.bind_eq_some_iff.1 (Resolver.lookup?_first_iff.2 binds)
  have resolved : resolver.resolve? name = _ := resolve?_generic (source_eq ▸ read)
  rw [if_pos kind, lookup] at resolved
  obtain ⟨-, -, -, binding, hb, name_eq, rfl⟩ := Resolver.exists_binding_of_lookup? lookup hf
  obtain ⟨node, -, occurrence, ho, bound⟩ := (ScopeTable.mem_bindings collected).1 hb
  obtain ⟨text, -, declares⟩ := ScopeTable.bind_eq_ok_iff.1 bound
  have node_eq : binding.declaration.node = occurrence.node := by rw [declares]
  have occurrence_kind : occurrence.kind = .importSpecifier := by rw [← first_kind, declares]
  obtain ⟨-, -, at_local, clause, braces, -, -, -, listed⟩ :=
    (Cursor.specifier_mem_occurrences occurrence_kind).1 ho
  have here := Tree.mem_nodes.2 (Resolver.reaches_of_lookup? built lookup hf)
  refine ⟨occurrence.node, occurrence.name, ⟨node_eq ▸ here, (Cursor.mem_specifiers listed).2,
    ⟨name, symbol, _, at_name, resolved, hf, first_kind, node_eq⟩, node_eq ▸ imported⟩,
    at_local, name_eq ▸ text⟩

/-- A reported tag is eligible, and the name of an eligible tag stands for a specifier of the
library that binds the generic name: either as the name of the export, or as the alias of an export
that is not looked at. -/
theorem eligible_tag_imports_generic (built : Resolver.ofTree source tree = .ok resolver)
    (tag : Cursor) :
    (∀ path issue, (Rule.specificComponent.check ⟨path, resolver⟩ tag).result = .ok (some issue) →
      eligible resolver tag = .ok true) ∧
    (eligible resolver tag = .ok true →
      ∃ specifier, StandsFor source tree resolver tag specifier ∧
        (specifier.child? .rename = none → ∃ exported, specifier.child? .name = some exported ∧
          exported.text source = .ok generic) ∧
        ∀ renamed, specifier.child? .rename = some renamed →
          renamed.text source = .ok generic) := by
  refine ⟨fun path issue reported => (exists_match_of_check reported).1, fun generic_tag => ?_⟩
  obtain ⟨specifier, bound, stands, at_local, read⟩ :=
    exists_specifier_of_namesGeneric built ((eligible_iff built).1 generic_tag)
  refine ⟨specifier, stands, fun plain => ?_, fun renamed at_renamed => ?_⟩
  · rw [Cursor.localName?, plain, Option.none_or] at at_local
    exact ⟨bound, at_local, read⟩
  · rw [Cursor.localName?, at_renamed, Option.some_or] at at_local
    exact Option.some.inj at_local ▸ read

def onlyTag (tree : Tree) : Cursor :=
  (ofRoot tree).children.getD 1 default

def plainSource : Bytes :=
  Text.encode "import{Box}from'@chakra-ui/react';<Box display='flex'/>"

def plainTree : Tree :=
  .onFirstLine .program 0 55 none [.boxImport, .boxAt 34]

theorem eligible_tag_imports_generic_plain : ∃ resolver specifier exported,
    Resolver.ofTree plainSource plainTree = .ok resolver ∧
    eligible resolver (onlyTag plainTree) = .ok true ∧
    StandsFor plainSource plainTree resolver (onlyTag plainTree) specifier ∧
    specifier.child? .name = some exported ∧ exported.text plainSource = .ok "Box" := by
  have evaluated : ((Resolver.ofTree plainSource plainTree).bind fun resolver =>
      eligible resolver (onlyTag plainTree)).toOption = some true := by
    decide +kernel
  obtain ⟨resolver, built, generic_tag⟩ := bind_eq_ok.1 (eq_ok_of_toOption evaluated)
  obtain ⟨specifier, stands, plain, -⟩ :=
    (eligible_tag_imports_generic built (onlyTag plainTree)).2 generic_tag
  have unrenamed : ∀ c ∈ plainTree.nodes, c.kind = .importSpecifier →
      (c.child? .rename).isNone = true := by
    decide +kernel
  have none := Option.isNone_iff_eq_none.1 (unrenamed specifier stands.here stands.kind_eq)
  obtain ⟨exported, at_exported, read⟩ := plain none
  exact ⟨resolver, specifier, exported, built, generic_tag, stands, at_exported, read⟩

def renamedSource : Bytes :=
  Text.encode "import{Button as Box}from'@chakra-ui/react';<Box display='flex'/>"

def renamedTree : Tree :=
  .onFirstLine .program 0 65 none
    [.libraryImport 20 [.onFirstLine .identifier 7 13 (some .name) [],
       .onFirstLine .identifier 17 20 (some .rename) []],
     .boxAt 44]

/-- Another component of the library that is imported under the generic name is reported, and the
fix would put a third component in its place. -/
theorem renamed_export_reported : ∃ resolver issue specifier exported,
    renamedTree.WellFormed renamedSource.length ∧
    onlyTag renamedTree ∈ (ofRoot renamedTree).tags ∧
    Resolver.ofTree renamedSource renamedTree = .ok resolver ∧
    eligible resolver (onlyTag renamedTree) = .ok true ∧
    StandsFor renamedSource renamedTree resolver (onlyTag renamedTree) specifier ∧
    specifier.child? .name = some exported ∧ exported.text renamedSource = .ok "Button" ∧
    (Rule.specificComponent.check ⟨Path.ofString "a.tsx", resolver⟩ (onlyTag renamedTree)).result =
      .ok (some issue) ∧
    issue.suggestion? = some "Flex" := by
  have tag_step : onlyTag renamedTree ∈ (ofRoot renamedTree).children :=
    List.mem_of_getElem? (i := 1) rfl
  have htag : onlyTag renamedTree ∈ (ofRoot renamedTree).tags :=
    List.mem_filter.2 ⟨Tree.mem_nodes.2 (Cursor.reaches_of_mem_children tag_step), rfl⟩
  have evaluated : ((Resolver.ofTree renamedSource renamedTree).bind fun resolver =>
      parts? resolver (onlyTag renamedTree)).toOption =
      some (some ("Flex", [⟨⟨45, 48⟩, "Flex", by decide⟩, ⟨⟨48, 63⟩, "", by decide⟩,
        .insert 20 ", Flex"])) := by
    decide +kernel
  obtain ⟨resolver, built, parts⟩ := bind_eq_ok.1 (eq_ok_of_toOption evaluated)
  obtain ⟨issue, -, reported, suggested, -⟩ :=
    exists_issue parts (by unfold Edit.Disjoint; decide)
  have generic_tag := (exists_match_of_check reported).1
  obtain ⟨specifier, -, stands, -⟩ :=
    exists_specifier_of_namesGeneric built ((eligible_iff built).1 generic_tag)
  have exports : ∀ c ∈ renamedTree.nodes, c.kind = .importSpecifier →
      (c.child? .name).bind (fun name => (name.text renamedSource).toOption) = some "Button" := by
    decide +kernel
  obtain ⟨exported, at_exported, read⟩ :=
    Option.bind_eq_some_iff.1 (exports specifier stands.here stands.kind_eq)
  exact ⟨resolver, issue, specifier, exported, by decide +kernel, htag, built, generic_tag, stands,
    at_exported, eq_ok_of_toOption read, reported, suggested⟩

end SpecificComponent
end JsxLint
