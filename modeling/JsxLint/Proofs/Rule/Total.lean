import JsxLint.Proofs.Component.Neighbours
import JsxLint.Proofs.Rule.SpecificComponent
import JsxLint.Proofs.Scope.Resolution

/-!
That the built-in rule has an answer for every tag. Each text it reads can be read, and whenever an
attribute prescribes a component, the replacement can be planned; of the attributes, only the one
that prescribes goes. The trees are those that fit their text and keep the promises of the grammar;
on others the rule may fail.
-/

namespace JsxLint

open Cursor (Reaches ofRoot)

theorem Rule.exists_check (rule : Rule) {context : Context} {tag : Cursor} {column : Nat}
    {finding? : Option Finding} (inspected : (rule.inspect context tag).result = .ok finding?)
    (counted : tag.column context.source = .ok column) :
    ∃ issue?, (rule.check context tag).result = .ok issue? := by
  cases finding? with
  | none => exact ⟨none, by simp [check, inspected]⟩
  | some finding =>
      exact ⟨some _, Rule.check_eq_some.2 ⟨finding, inspected, bind_eq_ok.2 ⟨column, counted, rfl⟩⟩⟩

section

variable {tree : Tree} {source : String} {resolver : Resolver}

theorem Resolver.exists_ofTree (covers : tree.Covers source) :
    ∃ resolver, ofTree (Text.encode source) tree = .ok resolver := by
  have readable : ∀ node ∈ tree.nodes, ∀ occurrence ∈ node.occurrences,
      ∃ text, occurrence.name.text (Text.encode source) = .ok text := fun node here occurrence ho =>
    Cursor.exists_text covers.cuts ((Tree.names_sublist_nodes here).subset (List.mem_map_of_mem ho))
  obtain ⟨table, collected⟩ := ScopeTable.exists_ofTree readable
  exact ⟨_, bind_eq_ok.2 ⟨table, collected, rfl⟩⟩

theorem Resolver.exists_resolve? {c : Cursor} {text : String}
    (read : c.text resolver.source = .ok text) : ∃ symbol?, resolver.resolve? c = .ok symbol? := by
  unfold resolve?
  split
  · exact ⟨_, bind_eq_ok.2 ⟨text, read, rfl⟩⟩
  · exact ⟨none, rfl⟩

namespace Component

theorem exists_importDeclaration? {name : Cursor} {text : String}
    (read : name.text resolver.source = .ok text) :
    ∃ declaration?, importDeclaration? resolver name = .ok declaration? := by
  obtain ⟨symbol?, resolved⟩ := Resolver.exists_resolve? read
  rw [importDeclaration?, resolved, ok_bind]
  split
  · split
    · exact ⟨_, rfl⟩
    · exact ⟨none, rfl⟩
  · exact ⟨none, rfl⟩

theorem exists_origin? (covers : tree.Covers source)
    (built : Resolver.ofTree (Text.encode source) tree = .ok resolver) {name : Cursor}
    (here : name ∈ tree.nodes) : ∃ origin?, Component.origin? resolver name = .ok origin? := by
  obtain ⟨source_eq, -, -⟩ := Resolver.ofTree_eq_ok built
  obtain ⟨text, read⟩ := Cursor.exists_text covers.cuts here
  obtain ⟨declaration?, imported⟩ := exists_importDeclaration? (source_eq ▸ read)
  rw [origin?, imported, ok_bind]
  cases at_module : declaration?.bind (·.moduleName?) with
  | none => exact ⟨none, rfl⟩
  | some module =>
      obtain ⟨declaration, rfl, at_module⟩ := Option.bind_eq_some_iff.1 at_module
      obtain ⟨there, -⟩ := importDeclaration?_eq_some built imported
      obtain ⟨text, read⟩ := Cursor.exists_text covers.cuts
        (Tree.mem_nodes_of_mem_children there (Cursor.mem_children_of_child?_eq at_module))
      exact ⟨some (inner text), bind_eq_ok.2 ⟨text, source_eq ▸ read, rfl⟩⟩

theorem exists_attributeName? (covers : tree.Covers source) {attr : Cursor}
    (here : attr ∈ tree.nodes) : ∃ name?, attr.attributeName? (Text.encode source) = .ok name? := by
  unfold Cursor.attributeName?
  split
  · rename_i name rest _ parts
    have step : name ∈ attr.children :=
      Cursor.mem_children_of_namedChildren (by rw [parts]; exact List.mem_cons_self)
    obtain ⟨text, read⟩ := Cursor.exists_text covers.cuts (Tree.mem_nodes_of_mem_children here step)
    exact ⟨some text, map_eq_ok.2 ⟨text, read, rfl⟩⟩
  · exact ⟨none, rfl⟩

theorem attributeName?_eq_some {bytes : Bytes} {attr : Cursor} {text : String}
    (h : attr.attributeName? bytes = .ok (some text)) :
    ∃ name ∈ attr.children, name.text bytes = .ok text := by
  obtain ⟨-, name, ⟨-, front, rest, split, -⟩, read⟩ := Cursor.attributeName?_eq_some_iff.1 h
  exact ⟨name, by simp [split], read⟩

theorem mem_children_of_attributeValue? {attr value : Cursor}
    (h : attr.attributeValue? = some value) : value ∈ attr.children := by
  obtain ⟨-, -, front, sign, gap, rest, split, -⟩ := Cursor.attributeValue?_eq_some_iff.1 h
  simp [split]

theorem exists_matchAttribute? (covers : tree.Covers source) (generic : String) {attr : Cursor}
    (here : attr ∈ tree.nodes) :
    ∃ found?, matchAttribute? (Text.encode source) generic attr = .ok found? := by
  obtain ⟨name?, named⟩ := exists_attributeName? covers here
  rw [matchAttribute?, named, ok_bind]
  split
  · rename_i name value at_value
    obtain ⟨text, read⟩ := Cursor.exists_text covers.cuts
      (Tree.mem_nodes_of_mem_children here (mem_children_of_attributeValue? at_value))
    exact ⟨_, bind_eq_ok.2 ⟨text, read, rfl⟩⟩
  · exact ⟨none, rfl⟩

theorem ne_empty_of_specific? {generic name value specific : String}
    (h : specific? generic name value = some specific) : name ≠ "" := by
  have listed : ∀ entry ∈ catalogue, entry.attr ≠ "" := by decide
  obtain ⟨literal, -, h⟩ := Option.bind_eq_some_iff.1 h
  obtain ⟨entry, found, -⟩ := Option.map_eq_some_iff.1 h
  have same := List.find?_some found
  simp only [decide_eq_true_eq] at same
  exact same.2.1 ▸ listed entry (List.mem_of_find?_eq_some found)

/-- An attribute that prescribes a component is not empty. -/
theorem start_lt_stop_of_matchAttribute? {length : Nat} (wf : tree.WellFormed length)
    {bytes : Bytes} {generic : String} {attr : Cursor} {found : Match} (here : attr ∈ tree.nodes)
    (h : matchAttribute? bytes generic attr = .ok (some found)) : attr.start < attr.stop := by
  obtain ⟨-, text, value, named, prescribed⟩ := matchAttribute?_eq_some h
  obtain ⟨name, step, read⟩ := attributeName?_eq_some named
  have inside := Cursor.inside_of_mem_children wf (Tree.mem_nodes.1 here) step
  have filled := Cursor.start_lt_stop_of_text read (ne_empty_of_specific? prescribed)
  omega

end Component

namespace SpecificComponent

theorem exists_eligible (covers : tree.Covers source)
    (built : Resolver.ofTree (Text.encode source) tree = .ok resolver) {tag : Cursor}
    (here : tag ∈ tree.nodes) : ∃ answer, eligible resolver tag = .ok answer := by
  obtain ⟨source_eq, -, -⟩ := Resolver.ofTree_eq_ok built
  unfold eligible
  cases at_name : tag.tagName? with
  | none => exact ⟨false, rfl⟩
  | some name =>
      have there := Tree.mem_nodes_of_mem_children here (Cursor.mem_children_of_child?_eq at_name)
      obtain ⟨text, read⟩ := Cursor.exists_text covers.cuts there
      obtain ⟨origin?, known⟩ := Component.exists_origin? covers built there
      simp only [source_eq, read, ok_bind, Component.isLibraryTag, at_name, known]
      split
      · exact ⟨_, rfl⟩
      · exact ⟨false, rfl⟩

/-- What an eligible tag has in an attribute can be put into its name. -/
theorem exists_finding (covers : tree.Covers source) (grammar : tree.EditGrammar)
    (built : Resolver.ofTree (Text.encode source) tree = .ok resolver) {path : Path} {tag : Cursor}
    {found : Component.Match} (here : tag ∈ tree.nodes) (kind : tag.kind.isTag = true)
    (generic_tag : eligible resolver tag = .ok true)
    (matched : Component.match? (Text.encode source) generic tag = .ok (some found)) :
    ∃ made, (finding ⟨path, resolver⟩ tag found).result = .ok made := by
  obtain ⟨source_eq, -, -⟩ := Resolver.ofTree_eq_ok built
  obtain ⟨name, at_name, read, known⟩ := eligible_eq_true generic_tag
  rw [source_eq] at read
  obtain ⟨hattr, matched⟩ := Component.match?_eq_some matched
  have there := Tree.mem_nodes_of_mem_children here (Cursor.mem_children_of_attributes hattr)
  have filled := Component.start_lt_stop_of_matchAttribute? covers.fits there matched
  obtain ⟨fix, planned⟩ := Component.exists_plan_of_origin? covers grammar built here kind at_name
    read (by decide) known (by decide) hattr filled found.specific
  obtain ⟨text, attr_read⟩ := Cursor.exists_text covers.cuts there
  rw [← source_eq] at attr_read
  exact ⟨_, finding_eq_ok.2 ⟨text, fix, attr_read, planned, rfl⟩⟩

theorem readable (covers : tree.Covers source) {tag : Cursor} (here : tag ∈ tree.nodes) :
    ∀ attr ∈ tag.attributes, ∃ found?,
      Component.matchAttribute? (Text.encode source) generic attr = .ok found? := fun _ mem =>
  Component.exists_matchAttribute? covers generic
    (Tree.mem_nodes_of_mem_children here (Cursor.mem_children_of_attributes mem))

theorem exists_inspect (covers : tree.Covers source) (grammar : tree.EditGrammar)
    (built : Resolver.ofTree (Text.encode source) tree = .ok resolver) (path : Path) {tag : Cursor}
    (here : tag ∈ tree.nodes) (kind : tag.kind.isTag = true) :
    ∃ finding?, (inspect ⟨path, resolver⟩ tag).result = .ok finding? := by
  obtain ⟨source_eq, -, -⟩ := Resolver.ofTree_eq_ok built
  obtain ⟨answer, generic_tag⟩ := exists_eligible covers built here
  obtain ⟨found?, matched⟩ := exists_findSomeM? (readable covers here)
  have in_context :
      Component.match? (Context.mk path resolver).source generic tag = .ok found? := by
    rw [Context.source, source_eq]
    exact matched
  cases answer with
  | false => exact ⟨none, by simp [inspect, generic_tag]⟩
  | true =>
      cases found? with
      | none => exact ⟨none, by simp [inspect, generic_tag, in_context]⟩
      | some found =>
          obtain ⟨made, hm⟩ := exists_finding covers grammar built here kind generic_tag matched
          exact ⟨some made, inspect_eq_some.2 ⟨generic_tag, found, in_context, hm⟩⟩

theorem exists_check (covers : tree.Covers source) (grammar : tree.EditGrammar)
    (built : Resolver.ofTree (Text.encode source) tree = .ok resolver) (path : Path) {tag : Cursor}
    (htag : tag ∈ (ofRoot tree).tags) :
    ∃ issue?, (Rule.specificComponent.check ⟨path, resolver⟩ tag).result = .ok issue? := by
  obtain ⟨source_eq, -, -⟩ := Resolver.ofTree_eq_ok built
  obtain ⟨here, kind⟩ := List.mem_filter.1 htag
  obtain ⟨column, counted⟩ := Cursor.exists_column covers here
  obtain ⟨finding?, inspected⟩ := exists_inspect covers grammar built path here kind
  exact Rule.specificComponent.exists_check inspected (source_eq ▸ counted)

/-- The fix that an issue offers for a tag, edit by edit. The attribute that goes is the first that
prescribes a component, and what goes with it stays clear of the others. -/
structure Offers (resolver : Resolver) (tag : Cursor) (issue : Issue) (fix : Fix) : Prop where
  offered : issue.fix = some fix
  edits : ∃ name attr component opening closing? removal import?,
    tag.tagName? = some name ∧ issue.suggestion? = some component ∧
    Component.PrescribesFirst resolver.source generic tag attr component ∧
    opening.toSpan = name.span ∧ opening.text = component ∧
    Component.renameClosing? tag component = .ok closing? ∧
    Component.removeAttribute tag attr = .ok removal ∧
    removal.text = "" ∧ removal.start ≤ attr.start ∧ attr.stop ≤ removal.stop ∧
    (∀ other ∈ tag.attributes, other ≠ attr →
      other.stop ≤ removal.start ∨ removal.stop ≤ other.start) ∧
    Component.extendImport? resolver tag component = .ok import? ∧
    fix.edits.Perm ([opening] ++ closing?.toList ++ [removal] ++ import?.toList)
  disjoint : Edit.Disjoint fix.edits

theorem Offers.length_edits {tag : Cursor} {issue : Issue} {fix : Fix}
    (offers : Offers resolver tag issue fix) : 2 ≤ fix.edits.length ∧ fix.edits.length ≤ 4 := by
  obtain ⟨_, _, _, opening, closing?, removal, import?, -, -, -, -, -, -, -, -, -, -, -, -, perm⟩ :=
    offers.edits
  rw [perm.length_eq]
  cases closing? <;> cases import? <;> simp

theorem exists_offers (covers : tree.Covers source)
    (built : Resolver.ofTree (Text.encode source) tree = .ok resolver) {path : Path} {tag : Cursor}
    {issue : Issue} (here : tag ∈ tree.nodes)
    (h : (Rule.specificComponent.check ⟨path, resolver⟩ tag).result = .ok (some issue)) :
    ∃ fix, Offers resolver tag issue fix := by
  obtain ⟨source_eq, -, -⟩ := Resolver.ofTree_eq_ok built
  obtain ⟨generic_tag, attr, component, fix, matched, suggested, fix_eq, planned⟩ :=
    exists_match_of_check h
  rw [Context.source, source_eq] at matched
  have first := (Component.match?_eq_some_iff (readable covers here)).1 matched
  obtain ⟨hattr, prescribes⟩ := Component.match?_eq_some matched
  obtain ⟨name, at_name, -⟩ := eligible_eq_true generic_tag
  obtain ⟨opening, closing?, removal, import?, opened, closed, removed, extended, perm⟩ :=
    Component.plan_eq_ok planned
  obtain ⟨_, same, span, text⟩ := Component.renameOpening_eq_ok opened
  obtain rfl := Option.some.inj (at_name.symm.trans same)
  have root := Tree.mem_nodes.1 here
  have filled := Component.start_lt_stop_of_matchAttribute? covers.fits
    (Tree.mem_nodes_of_mem_children here (Cursor.mem_children_of_attributes hattr)) prescribes
  obtain ⟨_, again, empty, left, right, -⟩ :=
    Component.exists_removal covers.fits root hattr filled
  obtain rfl := Except.ok.inj (removed.symm.trans again)
  have clear : ∀ other ∈ tag.attributes, other ≠ attr →
      other.stop ≤ removal.start ∨ removal.stop ≤ other.start := fun other mem different =>
    (Component.apart_of_removed covers.fits root hattr filled removed mem).resolve_left different
  exact ⟨fix, fix_eq, ⟨name, attr, component, opening, closing?, removal, import?, at_name,
    suggested, source_eq ▸ first, span, text, closed, removed, empty, left, right, clear, extended,
    perm⟩, fix.disjoint_edits⟩

/-- The rule has an answer for every tag, and an issue comes with a fix of two to four edits. One of
them renames the tag, and one removes the attribute that the issue is about. -/
theorem check_never_fails (covers : tree.Covers source) (grammar : tree.EditGrammar) :
    ∃ resolver, Resolver.ofTree (Text.encode source) tree = .ok resolver ∧
      ∀ path, ∀ tag ∈ (ofRoot tree).tags, ∃ issue?,
        (Rule.specificComponent.check ⟨path, resolver⟩ tag).result = .ok issue? ∧
        ∀ issue, issue? = some issue →
          ∃ fix, Offers resolver tag issue fix ∧ 2 ≤ fix.edits.length ∧ fix.edits.length ≤ 4 := by
  obtain ⟨resolver, built⟩ := Resolver.exists_ofTree covers
  refine ⟨resolver, built, fun path tag htag => ?_⟩
  obtain ⟨issue?, checked⟩ := exists_check covers grammar built path htag
  refine ⟨issue?, checked, ?_⟩
  rintro issue rfl
  obtain ⟨fix, offers⟩ := exists_offers covers built (List.mem_filter.1 htag).1 checked
  exact ⟨fix, offers, offers.length_edits⟩

def boxSource : String :=
  "import{Box}from'@chakra-ui/react';<Box id='a' display='flex' as='p'></Box>"

/-- There are two tags to rename, one attribute of three to remove and an import to extend. -/
def boxTree : Tree :=
  .onFirstLine .program 0 74 none
    [.boxImport,
     .onFirstLine .jsxElement 34 74 none
      [.onFirstLine .jsxOpeningElement 34 68 none
        [.onFirstLine .identifier 35 38 (some .name) [],
         .attributeAt 39 41 45, .attributeAt 46 53 60, .attributeAt 61 63 67],
       .onFirstLine .jsxClosingElement 68 74 (some .closeTag)
        [.onFirstLine .identifier 70 73 (some .name) []]]]

def boxTag : Cursor :=
  ((ofRoot boxTree).descend? [1, 0]).getD default

theorem check_never_fails_box : boxTree.Covers boxSource ∧ boxTree.EditGrammar ∧
    boxTag ∈ (ofRoot boxTree).tags ∧ boxTag.attributes.length = 3 ∧ ∃ resolver issue fix,
      Resolver.ofTree (Text.encode boxSource) boxTree = .ok resolver ∧
      (Rule.specificComponent.check ⟨Path.ofString "a.tsx", resolver⟩ boxTag).result =
        .ok (some issue) ∧ issue.suggestion? = some "Flex" ∧ Offers resolver boxTag issue fix ∧
      2 ≤ fix.edits.length ∧ fix.edits.length ≤ 4 ∧
      fix.edits.map (fun edit => (edit.toSpan, edit.text)) =
        [(⟨10, 10⟩, ", Flex"), (⟨35, 38⟩, "Flex"), (⟨46, 61⟩, ""), (⟨70, 73⟩, "Flex")] ∧
      fix.apply (Text.encode boxSource) =
        Text.encode "import{Box, Flex}from'@chakra-ui/react';<Flex id='a' as='p'></Flex>" := by
  have covers : boxTree.Covers boxSource :=
    Tree.covers_of_ascii (by decide +kernel) (by decide +kernel)
  have grammar : boxTree.EditGrammar :=
    ⟨by decide +kernel, by decide +kernel, by decide +kernel, by decide +kernel, by decide +kernel⟩
  have htag : boxTag ∈ (ofRoot boxTree).tags :=
    List.mem_filter.2 ⟨Tree.mem_nodes.2 (Cursor.reaches_of_descend? [1, 0] rfl), rfl⟩
  have evaluated : ((Resolver.ofTree (Text.encode boxSource) boxTree).bind fun resolver =>
      parts? resolver boxTag).toOption =
      some (some ("Flex", [⟨⟨35, 38⟩, "Flex", by decide⟩, ⟨⟨70, 73⟩, "Flex", by decide⟩,
        ⟨⟨46, 61⟩, "", by decide⟩, .insert 10 ", Flex"])) := by
    decide +kernel
  obtain ⟨resolver, built, parts⟩ := bind_eq_ok.1 (eq_ok_of_toOption evaluated)
  obtain ⟨issue, fix, reported, suggested, fix_eq, perm⟩ :=
    exists_issue parts (by unfold Edit.Disjoint; decide)
  have edits : [⟨⟨10, 10⟩, ", Flex", by decide⟩, ⟨⟨35, 38⟩, "Flex", by decide⟩,
      ⟨⟨46, 61⟩, "", by decide⟩, ⟨⟨70, 73⟩, "Flex", by decide⟩] = fix.edits :=
    Fix.edits_eq_of_perm (by unfold Edit.Precedes; decide) (.trans (by decide) perm.symm)
  have result : fix.apply (Text.encode boxSource) =
      Text.encode "import{Box, Flex}from'@chakra-ui/react';<Flex id='a' as='p'></Flex>" := by
    rw [Fix.apply, ← edits]
    decide +kernel
  obtain ⟨_, same, answers⟩ := check_never_fails covers grammar
  obtain rfl := Except.ok.inj (built.symm.trans same)
  obtain ⟨_, same, offered⟩ := answers (Path.ofString "a.tsx") boxTag htag
  obtain rfl := Except.ok.inj (reported.symm.trans same)
  obtain ⟨_, offers, least, most⟩ := offered issue rfl
  obtain rfl := Option.some.inj (fix_eq.symm.trans offers.offered)
  exact ⟨covers, grammar, htag, by decide +kernel, resolver, issue, fix, built, reported, suggested,
    offers, least, most, by rw [← edits]; rfl, result⟩

end SpecificComponent
end
end JsxLint
