import JsxLint.Proofs.Success
import JsxLint.Proofs.Tree.Place
import JsxLint.Scope.Resolver

/-!
Where the bindings of a file come from. Each stands for one binding occurrence of one node, and
every name in the braces of an import has its binding at the root. Which bindings hide which is
left to the lookup; here only what it goes through is described.
-/

namespace JsxLint
namespace Cursor

theorem root_eq {tree : Tree} {c : Cursor} (h : Reaches (ofRoot tree) c) :
    c.root = ofRoot tree := by
  induction h with
  | refl => rfl
  | child above step ih =>
      rw [root] at ih ⊢
      rw [ancestors_of_mem_children step, List.getLast?_cons, Option.getD_some]
      exact ih

theorem root_mem_ancestors {tree : Tree} {b c : Cursor} (hb : Reaches (ofRoot tree) b)
    (step : c ∈ b.children) : ofRoot tree ∈ c.ancestors := by
  rw [ancestors_of_mem_children step]
  rcases hb.eq_or_mem_ancestors with rfl | h
  · exact List.mem_cons_self
  · exact List.mem_cons_of_mem _ h

theorem mem_specifiers {named specifier : Cursor} (h : specifier ∈ named.specifiers) :
    specifier ∈ named.children ∧ specifier.kind = .importSpecifier := by
  obtain ⟨hc, hk⟩ := List.mem_filter.1 h
  exact ⟨mem_children_of_namedChildren hc, by simpa using hk⟩

theorem mem_children_of_localName? {specifier name : Cursor}
    (h : specifier.localName? = some name) : name ∈ specifier.children := by
  rcases Option.or_eq_some_iff.1 h with h | ⟨-, h⟩
  · exact mem_children_of_child?_eq h
  · exact mem_children_of_child?_eq h

theorem mem_importSpecifiers {declaration specifier : Cursor} :
    specifier ∈ declaration.importSpecifiers ↔
      ∃ clause named, declaration.importClause? = some clause ∧
        clause.childOfKind? .namedImports = some named ∧ specifier ∈ named.specifiers := by
  unfold importSpecifiers
  constructor
  · intro h
    split at h
    · rename_i named hn
      obtain ⟨clause, hc, hn⟩ := Option.bind_eq_some_iff.1 hn
      exact ⟨clause, named, hc, hn, h⟩
    · cases h
  · rintro ⟨clause, named, hc, hn, h⟩
    rw [hc, Option.bind_some, hn]
    exact h

theorem reaches_of_mem_importSpecifiers {declaration specifier : Cursor}
    (h : specifier ∈ declaration.importSpecifiers) :
    Reaches declaration specifier ∧ specifier.kind = .importSpecifier := by
  obtain ⟨clause, named, hc, hn, h⟩ := mem_importSpecifiers.1 h
  obtain ⟨step, hk⟩ := mem_specifiers h
  exact ⟨.child (.child (reaches_of_mem_children (mem_children_of_childOfKind? hc).1)
    (mem_children_of_childOfKind? hn).1) step, hk⟩

theorem enclosingImport?_eq_some {tree : Tree} {c declaration : Cursor}
    (hc : Reaches (ofRoot tree) c) (h : c.enclosingImport? = some declaration) :
    Reaches (ofRoot tree) declaration ∧ Reaches declaration c ∧
      declaration.kind = .importStatement := by
  unfold enclosingImport? at h
  split at h
  · rename_i kind
    obtain rfl := Option.some.inj h
    exact ⟨hc, .refl _, kind⟩
  · obtain ⟨above, below⟩ := hc.of_mem_ancestors (List.mem_of_find?_eq_some h)
    exact ⟨above, below, by simpa using List.find?_some h⟩

theorem kind_of_mem_patternOccurrences {scope node : Cursor} {kind : DeclarationKind}
    {pattern? : Option Cursor} {occurrence : Occurrence}
    (h : occurrence ∈ patternOccurrences scope kind node pattern?) :
    occurrence.kind = kind ∧ occurrence.node = node := by
  obtain ⟨name, -, rfl⟩ := List.mem_map.1 h
  exact ⟨rfl, rfl⟩

theorem kind_of_mem_nameOccurrences {scope node : Cursor} {kind : DeclarationKind}
    {occurrence : Occurrence} (h : occurrence ∈ nameOccurrences scope kind node) :
    occurrence.kind = kind ∧ occurrence.node = node := by
  obtain ⟨name, -, rfl⟩ := List.mem_map.1 h
  exact ⟨rfl, rfl⟩

theorem mem_bareParameterOccurrences {kind : DeclarationKind} {c : Cursor}
    {occurrence : Occurrence} (h : occurrence ∈ bareParameterOccurrences kind c) :
    occurrence.kind = kind ∧ occurrence.node ∈ c.children := by
  unfold bareParameterOccurrences at h
  split at h
  · rename_i parameter hp
    obtain ⟨hk, hn⟩ := kind_of_mem_patternOccurrences h
    exact ⟨hk, hn ▸ mem_children_of_child?_eq hp⟩
  · cases h

theorem kind_of_mem_loopOccurrences {c : Cursor} {occurrence : Occurrence}
    (h : occurrence ∈ c.loopOccurrences) :
    occurrence.kind = .variable ∧ occurrence.node = c := by
  unfold loopOccurrences at h
  split at h
  · exact kind_of_mem_patternOccurrences h
  · cases h

theorem mem_importOccurrences {declaration : Cursor} {occurrence : Occurrence} :
    occurrence ∈ declaration.importOccurrences ↔
      ∃ clause part, declaration.importClause? = some clause ∧ part ∈ clause.namedChildren ∧
        occurrence ∈ importPartOccurrences declaration.root part := by
  unfold importOccurrences
  constructor
  · intro h
    split at h
    · rename_i clause hc
      obtain ⟨part, hp, h⟩ := List.mem_flatMap.1 h
      exact ⟨clause, part, hc, hp, h⟩
    · cases h
  · rintro ⟨clause, part, hc, hp, h⟩
    rw [hc]
    exact List.mem_flatMap.2 ⟨part, hp, h⟩

theorem reaches_of_mem_importPartOccurrences {scope part : Cursor} {occurrence : Occurrence}
    (h : occurrence ∈ importPartOccurrences scope part) : Reaches part occurrence.node := by
  unfold importPartOccurrences at h
  split at h
  · rw [List.mem_singleton.1 h]
    exact .refl _
  · obtain ⟨name, -, rfl⟩ := List.mem_map.1 h
    exact .refl _
  · obtain ⟨specifier, hs, h⟩ := List.mem_flatMap.1 h
    obtain ⟨name, -, rfl⟩ := List.mem_map.1 h
    exact reaches_of_mem_children (mem_specifiers hs).1
  · cases h

theorem specifier_mem_importPartOccurrences {scope part : Cursor} {occurrence : Occurrence}
    (hk : occurrence.kind = .importSpecifier) :
    occurrence ∈ importPartOccurrences scope part ↔
      occurrence.scope = scope ∧ part.kind = .namedImports ∧
        occurrence.node ∈ part.specifiers ∧
        occurrence.node.localName? = some occurrence.name := by
  unfold importPartOccurrences
  constructor
  · intro h
    split at h
    · rw [List.mem_singleton.1 h] at hk
      cases hk
    · obtain ⟨name, -, rfl⟩ := List.mem_map.1 h
      cases hk
    · rename_i kind
      obtain ⟨specifier, hs, h⟩ := List.mem_flatMap.1 h
      obtain ⟨name, hn, rfl⟩ := List.mem_map.1 h
      exact ⟨rfl, kind, hs, Option.mem_toList.1 hn⟩
    · cases h
  · obtain ⟨_, _, node, name⟩ := occurrence
    rintro ⟨rfl, kind, hs, hn⟩
    obtain rfl := hk
    rw [kind]
    exact List.mem_flatMap.2 ⟨node, hs, List.mem_map.2 ⟨name, Option.mem_toList.2 hn, rfl⟩⟩

/-- A name is declared at or below the node that introduces it. -/
theorem reaches_of_mem_occurrences {c : Cursor} {occurrence : Occurrence}
    (h : occurrence ∈ c.occurrences) : Reaches c occurrence.node := by
  unfold occurrences at h
  split at h
  case h_1 =>
    obtain ⟨clause, part, hc, hp, h⟩ := mem_importOccurrences.1 h
    have down : Reaches c part := .child
      (reaches_of_mem_children (mem_children_of_childOfKind? hc).1)
      (mem_children_of_namedChildren hp)
    exact down.trans (reaches_of_mem_importPartOccurrences h)
  case h_10 => exact (kind_of_mem_loopOccurrences h).2 ▸ .refl _
  case h_11 | h_12 | h_13 => exact (kind_of_mem_patternOccurrences h).2 ▸ .refl _
  case h_14 | h_15 => exact reaches_of_mem_children (mem_bareParameterOccurrences h).2
  case h_16 => cases h
  all_goals exact (kind_of_mem_nameOccurrences h).2 ▸ .refl _

/-- Only imports bind names as specifiers: those in their braces, at the root. -/
theorem specifier_mem_occurrences {c : Cursor} {occurrence : Occurrence}
    (hk : occurrence.kind = .importSpecifier) :
    occurrence ∈ c.occurrences ↔
      c.kind = .importStatement ∧ occurrence.scope = c.root ∧
        occurrence.node.localName? = some occurrence.name ∧
        ∃ clause part, c.importClause? = some clause ∧ part ∈ clause.namedChildren ∧
          part.kind = .namedImports ∧ occurrence.node ∈ part.specifiers := by
  constructor
  · intro h
    unfold occurrences at h
    split at h
    case h_1 kind =>
      obtain ⟨clause, part, hc, hp, h⟩ := mem_importOccurrences.1 h
      obtain ⟨scope, part_kind, hs, name⟩ := (specifier_mem_importPartOccurrences hk).1 h
      exact ⟨kind, scope, name, clause, part, hc, hp, part_kind, hs⟩
    case h_10 =>
      rw [(kind_of_mem_loopOccurrences h).1] at hk
      cases hk
    case h_11 | h_12 | h_13 =>
      rw [(kind_of_mem_patternOccurrences h).1] at hk
      cases hk
    case h_14 | h_15 =>
      rw [(mem_bareParameterOccurrences h).1] at hk
      cases hk
    case h_16 => cases h
    all_goals
      rw [(kind_of_mem_nameOccurrences h).1] at hk
      cases hk
  · rintro ⟨kind, scope, name, clause, part, hc, hp, part_kind, hs⟩
    have inPart := (specifier_mem_importPartOccurrences hk).2 ⟨scope, part_kind, hs, name⟩
    rw [occurrences, kind]
    exact mem_importOccurrences.2 ⟨clause, part, hc, hp, inPart⟩

end Cursor

namespace ScopeTable

variable {source : Bytes} {tree : Tree} {table : ScopeTable}

theorem bind_eq_ok_iff {occurrence : Occurrence} {binding : Binding} :
    bind source occurrence = .ok binding ↔
      occurrence.name.text source = .ok binding.name ∧
        binding.scope = occurrence.scope.site ∧
        binding.declaration = ⟨occurrence.kind, occurrence.node, occurrence.name⟩ := by
  unfold bind
  rw [bind_eq_ok]
  obtain ⟨scope, name, declaration⟩ := binding
  constructor
  · rintro ⟨text, ht, h⟩
    cases pure_eq_ok.1 h
    exact ⟨ht, rfl, rfl⟩
  · rintro ⟨ht, rfl, rfl⟩
    exact ⟨name, ht, rfl⟩

theorem exists_ofTree (readable : ∀ node ∈ tree.nodes, ∀ occurrence ∈ node.occurrences,
      ∃ text, occurrence.name.text source = .ok text) :
    ∃ table, ofTree source tree = .ok table := by
  have bound : ∀ occurrence ∈ tree.nodes.flatMap Cursor.occurrences,
      ∃ binding, bind source occurrence = .ok binding := by
    intro occurrence ho
    obtain ⟨node, here, ho⟩ := List.mem_flatMap.1 ho
    obtain ⟨text, ht⟩ := readable node here occurrence ho
    exact ⟨⟨_, text, _⟩, bind_eq_ok_iff.2 ⟨ht, rfl, rfl⟩⟩
  obtain ⟨bindings, collected⟩ := exists_mapM bound
  exact ⟨⟨bindings⟩, bind_eq_ok.2 ⟨bindings, collected, rfl⟩⟩

theorem exists_binding (h : ofTree source tree = .ok table) {node : Cursor}
    {occurrence : Occurrence} (here : node ∈ tree.nodes) (ho : occurrence ∈ node.occurrences) :
    ∃ binding ∈ table.bindings, bind source occurrence = .ok binding := by
  obtain ⟨bindings, collected, h⟩ := bind_eq_ok.1 h
  obtain rfl := pure_eq_ok.1 h
  exact exists_of_mem_mapM collected (List.mem_flatMap.2 ⟨node, here, ho⟩)

theorem mem_bindings (h : ofTree source tree = .ok table) {binding : Binding} :
    binding ∈ table.bindings ↔
      ∃ node ∈ tree.nodes, ∃ occurrence ∈ node.occurrences,
        bind source occurrence = .ok binding := by
  constructor
  · obtain ⟨bindings, collected, h⟩ := bind_eq_ok.1 h
    obtain rfl := pure_eq_ok.1 h
    intro hb
    obtain ⟨occurrence, ho, bound⟩ := exists_of_mapM collected hb
    obtain ⟨node, hn, ho⟩ := List.mem_flatMap.1 ho
    exact ⟨node, hn, occurrence, ho, bound⟩
  · rintro ⟨node, hn, occurrence, ho, bound⟩
    obtain ⟨found, hf, eq⟩ := exists_binding h hn ho
    rw [bound, Except.ok.injEq] at eq
    exact eq ▸ hf

theorem mem_declarations {scope : Site} {name : String} {declaration : Declaration} :
    declaration ∈ table.declarations scope name ↔
      ∃ binding ∈ table.bindings, binding.scope = scope ∧ binding.name = name ∧
        binding.declaration = declaration := by
  simp [declarations, and_assoc]

theorem lookup?_eq_none_iff {scope : Site} {name : String} :
    table.lookup? scope name = none ↔ table.declarations scope name = [] := by
  unfold lookup?
  split <;> simp_all

theorem declarations_of_lookup? {scope : Site} {name : String} {symbol : Symbol}
    (h : table.lookup? scope name = some symbol) :
    symbol.declarations = table.declarations scope name ∧ symbol.declarations ≠ [] := by
  unfold lookup? at h
  split at h
  · cases h
  · rename_i nonempty
    obtain rfl := Option.some.inj h
    exact ⟨rfl, nonempty⟩

end ScopeTable

namespace Resolver

variable {source : Bytes} {tree : Tree} {resolver : Resolver}

theorem ofTree_eq_ok (h : ofTree source tree = .ok resolver) :
    resolver.source = source ∧ resolver.importOf = Cursor.enclosingImport? ∧
      ScopeTable.ofTree source tree = .ok resolver.table := by
  obtain ⟨table, collected, h⟩ := bind_eq_ok.1 h
  obtain rfl := pure_eq_ok.1 h
  exact ⟨rfl, rfl, collected⟩

theorem lookup?_eq_none_iff {c : Cursor} {name : String} :
    resolver.lookup? c name = none ↔
      ∀ scope ∈ c.ancestors, resolver.table.declarations scope.site name = [] := by
  simp only [lookup?, List.findSome?_eq_none_iff, ScopeTable.lookup?_eq_none_iff]

theorem exists_scope_of_lookup? {c : Cursor} {name : String} {symbol : Symbol}
    (h : resolver.lookup? c name = some symbol) :
    ∃ scope ∈ c.ancestors,
      symbol.declarations = resolver.table.declarations scope.site name ∧
        symbol.declarations ≠ [] := by
  obtain ⟨scope, hs, found⟩ := List.exists_of_findSome?_eq_some h
  exact ⟨scope, hs, ScopeTable.declarations_of_lookup? found⟩

theorem exists_first_of_lookup? {c : Cursor} {name : String} {symbol : Symbol}
    (h : resolver.lookup? c name = some symbol) : ∃ first, symbol.declaration? = some first := by
  obtain ⟨scope, -, -, nonempty⟩ := exists_scope_of_lookup? h
  exact ⟨symbol.declarations.head nonempty, List.head?_eq_some_head nonempty⟩

theorem exists_binding_of_lookup? {c : Cursor} {name : String} {symbol : Symbol}
    {first : Declaration} (h : resolver.lookup? c name = some symbol)
    (hf : symbol.declaration? = some first) :
    ∃ scope ∈ c.ancestors, first ∈ resolver.table.declarations scope.site name ∧
      ∃ binding ∈ resolver.table.bindings, binding.name = name ∧ binding.declaration = first := by
  obtain ⟨scope, hs, declarations, -⟩ := exists_scope_of_lookup? h
  have mem : first ∈ resolver.table.declarations scope.site name := by
    rw [← declarations]
    exact List.mem_of_mem_head? hf
  obtain ⟨binding, hb, -, name_eq, eq⟩ := ScopeTable.mem_declarations.1 mem
  exact ⟨scope, hs, mem, binding, hb, name_eq, eq⟩

/-- What a name is looked up as stands in the file. -/
theorem reaches_of_lookup? (bindings : ofTree source tree = .ok resolver) {c : Cursor}
    {name : String} {symbol : Symbol} {first : Declaration}
    (h : resolver.lookup? c name = some symbol) (hf : symbol.declaration? = some first) :
    Cursor.Reaches (Cursor.ofRoot tree) first.node := by
  obtain ⟨-, -, collected⟩ := ofTree_eq_ok bindings
  obtain ⟨-, -, -, binding, hb, -, rfl⟩ := exists_binding_of_lookup? h hf
  obtain ⟨node, hn, occurrence, ho, bound⟩ := (ScopeTable.mem_bindings collected).1 hb
  obtain ⟨-, -, eq⟩ := ScopeTable.bind_eq_ok_iff.1 bound
  rw [eq]
  exact (Tree.mem_nodes.1 hn).trans (Cursor.reaches_of_mem_occurrences ho)

theorem resolve?_eq_some {name : Cursor} {symbol : Symbol}
    (h : resolver.resolve? name = .ok (some symbol)) :
    ∃ text, name.text resolver.source = .ok text ∧ resolver.lookup? name text = some symbol := by
  unfold resolve? at h
  split at h
  · obtain ⟨text, ht, h⟩ := bind_eq_ok.1 h
    have found := pure_eq_ok.1 h
    split at found
    · cases found
    · exact ⟨text, ht, found⟩
  · cases h

end Resolver
end JsxLint
