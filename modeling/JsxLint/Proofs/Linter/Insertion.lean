import JsxLint.Proofs.Linter.Analysis
import JsxLint.Proofs.Linter.Batch

/-!
How the fixes of the built-in rule share the imports of a file. Each is planned on its own, so any
number of them may want to extend one import; they all do so at one offset, where two insertions
overlap. One pass therefore lets at most one of them through. Which one it is, and what becomes of
the others in later passes, is not said here.
-/

namespace JsxLint

open Cursor (ofRoot)

namespace SpecificComponent

open Component

/-- The issue was found at the tag and suggests the component. -/
def FoundAt (path : Path) (resolver : Resolver) (tag : Cursor) (component : String)
    (issue : Issue) : Prop :=
  (Rule.specificComponent.check ⟨path, resolver⟩ tag).result = .ok (some issue) ∧
    issue.suggestion? = some component

/-- The issue's fix inserts a component into the import. -/
def Extends (path : Path) (resolver : Resolver) (tree : Tree) (declaration : Cursor)
    (issue : Issue) : Prop :=
  ∃ tag ∈ (ofRoot tree).tags, ∃ name component edit, FoundAt path resolver tag component issue ∧
    tag.tagName? = some name ∧ importDeclaration? resolver name = .ok (some declaration) ∧
    extendImport? resolver tag component = .ok (some edit) ∧ edit ∈ issue.edits

/-- The edit belongs to the issue's fix and changes its tag, the closing tag or an attribute. -/
def EditsMarkup (path : Path) (resolver : Resolver) (tree : Tree) (issue : Issue) (edit : Edit) :
    Prop :=
  ∃ tag ∈ (ofRoot tree).tags, ∃ attr ∈ tag.attributes, ∃ component,
    FoundAt path resolver tag component issue ∧ edit ∈ issue.edits ∧
    (renameOpening tag component = .ok edit ∨ renameClosing? tag component = .ok (some edit) ∨
      removeAttribute tag attr = .ok edit)

/-- How a batch of fixes deals with the imports that the fixes extend. -/
structure OncePerImport (path : Path) (resolver : Resolver) (tree : Tree) (issues : List Issue)
    (batch : Batch) : Prop where
  complete : (batch.applied ++ batch.deferred).Perm issues
  once : ∀ declaration, batch.applied.Pairwise fun earlier later =>
    ¬ (Extends path resolver tree declaration earlier ∧
      Extends path resolver tree declaration later)
  others_wait : ∀ declaration, ∀ issue ∈ batch.applied,
    Extends path resolver tree declaration issue → ∀ other ∈ issues.erase issue,
      Extends path resolver tree declaration other → other ∈ batch.deferred
  markup_waits : ∀ issue ∈ batch.deferred,
    (∀ declaration, ¬ Extends path resolver tree declaration issue) →
      ∃ edit, EditsMarkup path resolver tree issue edit ∧
        ∃ taken ∈ batch.applied, ∃ theirs ∈ taken.edits, edit.overlaps theirs = true

variable {tree : Tree} {path : Path} {resolver : Resolver} {tag : Cursor} {issue : Issue}

/-- Two issues that extend one import do so at one offset. -/
theorem conflictsWith_of_extends {declaration : Cursor} {mine theirs : Issue}
    (hm : Extends path resolver tree declaration mine)
    (ht : Extends path resolver tree declaration theirs) : mine.conflictsWith theirs = true := by
  obtain ⟨_, -, name, _, edit, -, at_name, imported, extended, mem⟩ := hm
  obtain ⟨_, -, name', _, edit', -, at_name', imported', extended', mem'⟩ := ht
  obtain ⟨_, _, last, same_name, same_import, hl, -⟩ := extendImport?_eq_ok extended
  obtain rfl := Option.some.inj (at_name.symm.trans same_name)
  obtain rfl := Option.some.inj (Except.ok.inj (imported.symm.trans same_import))
  obtain ⟨start, stop⟩ := range_of_extendImport? extended at_name imported hl
  obtain ⟨start', stop'⟩ := range_of_extendImport? extended' at_name' imported' hl
  have overlap : edit.overlaps edit' = true := by
    simp [Edit.overlaps, start, stop, start', stop']
  by_contra free
  rw [Issue.overlaps_eq_false (by simpa using free) mem mem'] at overlap
  cases overlap

theorem fixable_of_check
    (h : (Rule.specificComponent.check ⟨path, resolver⟩ tag).result = .ok (some issue)) :
    issue.fixable = true := by
  obtain ⟨-, attr, component, fix, -, -, fix_eq, planned⟩ := exists_match_of_check h
  obtain ⟨opening, closing?, removal, import?, -, -, -, -, perm⟩ := plan_eq_ok planned
  have some_edit : opening ∈ fix.edits := perm.mem_iff.2 (by simp)
  simpa [Issue.fixable, Issue.edits, fix_eq] using List.ne_nil_of_mem some_edit

theorem exists_extends (htag : tag ∈ (ofRoot tree).tags) {component : String}
    (found : FoundAt path resolver tag component issue) {edit : Edit}
    (extended : extendImport? resolver tag component = .ok (some edit)) :
    ∃ declaration, Extends path resolver tree declaration issue := by
  obtain ⟨-, attr, fix, -, fix_eq, planned⟩ := check_eq_some found.1 found.2
  obtain ⟨_, _, _, _, -, -, -, same, perm⟩ := plan_eq_ok planned
  obtain rfl := Except.ok.inj (extended.symm.trans same)
  obtain ⟨name, declaration, -, at_name, imported, -⟩ := extendImport?_eq_ok extended
  have mem : edit ∈ issue.edits := by
    simp [Issue.edits, fix_eq, perm.mem_iff]
  exact ⟨declaration, tag, htag, name, component, edit, found, at_name, imported, extended, mem⟩

theorem Extends.mem_nodes {source : Bytes} (built : Resolver.ofTree source tree = .ok resolver)
    {declaration : Cursor} (h : Extends path resolver tree declaration issue) :
    declaration ∈ tree.nodes ∧ declaration.kind = .importStatement := by
  obtain ⟨_, -, _, _, _, -, -, imported, -, -⟩ := h
  obtain ⟨here, kind, -⟩ := importDeclaration?_eq_some built imported
  exact ⟨here, kind⟩

/-- An edit of a fix changes the markup, unless it extends an import. -/
theorem editsMarkup_or_extends (htag : tag ∈ (ofRoot tree).tags)
    (h : (Rule.specificComponent.check ⟨path, resolver⟩ tag).result = .ok (some issue))
    {edit : Edit} (he : edit ∈ issue.edits) :
    EditsMarkup path resolver tree issue edit ∨
      ∃ declaration, Extends path resolver tree declaration issue := by
  obtain ⟨-, attr, component, fix, matched, suggested, fix_eq, planned⟩ := exists_match_of_check h
  have hattr := (match?_eq_some matched).1
  obtain ⟨opening, closing?, removal, import?, opened, closed, removed, extended, perm⟩ :=
    plan_eq_ok planned
  have mem := he
  simp only [Issue.edits, fix_eq, perm.mem_iff, List.mem_append, List.mem_singleton,
    Option.mem_toList] at mem
  have markup : (renameOpening tag component = .ok edit ∨
      renameClosing? tag component = .ok (some edit) ∨ removeAttribute tag attr = .ok edit) →
      EditsMarkup path resolver tree issue edit := fun part =>
    ⟨tag, htag, attr, hattr, component, ⟨h, suggested⟩, he, part⟩
  obtain ((rfl | rfl) | rfl) | rfl := mem
  · exact .inl (markup (.inl opened))
  · exact .inl (markup (.inr (.inl closed)))
  · exact .inl (markup (.inr (.inr removed)))
  · exact .inr (exists_extends htag ⟨h, suggested⟩ extended)

/-- The fixes change a text between its characters. -/
theorem boundary_of_check {source : String} (covers : tree.Covers source)
    (built : Resolver.ofTree (Text.encode source) tree = .ok resolver)
    (htag : tag ∈ (ofRoot tree).tags)
    (h : (Rule.specificComponent.check ⟨path, resolver⟩ tag).result = .ok (some issue))
    {edit : Edit} (he : edit ∈ issue.edits) :
    Text.Boundary source edit.start ∧ Text.Boundary source edit.stop := by
  have here : tag ∈ tree.nodes := (List.mem_filter.1 htag).1
  have at_edge {offset : Nat} (edge : tag.IsEdge offset) : Text.Boundary source offset := by
    obtain ⟨child, step, rfl | rfl⟩ := edge
    · exact (covers.cuts child (Tree.mem_nodes_of_mem_children here step)).1
    · exact (covers.cuts child (Tree.mem_nodes_of_mem_children here step)).2
  have at_node {node : Cursor} (span : edit.toSpan = node.span) (there : node ∈ tree.nodes) :
      Text.Boundary source edit.start ∧ Text.Boundary source edit.stop := by
    rw [span]
    exact covers.cuts node there
  obtain ⟨-, attr, component, fix, matched, -, fix_eq, planned⟩ := exists_match_of_check h
  simp only [Issue.edits, fix_eq] at he
  cases role_of_mem_plan built (match?_eq_some matched).1 planned he with
  | opening at_name span text =>
      exact at_node span (Tree.mem_nodes_of_mem_children here
        (Cursor.mem_children_of_child?_eq at_name))
  | closing at_closing at_name span text =>
      obtain ⟨element, parent, -, closes⟩ := Cursor.closingTag?_eq_some.1 at_closing
      obtain ⟨above, -⟩ := (Tree.mem_nodes.1 here).of_parent? parent
      have closing_here := Tree.mem_nodes_of_mem_children (Tree.mem_nodes.2 above)
        (Cursor.mem_children_of_ownClosing? closes)
      exact at_node span (Tree.mem_nodes_of_mem_children closing_here
        (Cursor.mem_children_of_child?_eq at_name))
  | removal text start stop => exact ⟨at_edge start, at_edge stop⟩
  | specifier there kind start stop =>
      rw [start, stop]
      exact ⟨(covers.cuts _ there).2, (covers.cuts _ there).2⟩

theorem oncePerImport_ofIssues {issues : List Issue}
    (found : ∀ issue ∈ issues, ∃ tag ∈ (ofRoot tree).tags,
      (Rule.specificComponent.check ⟨path, resolver⟩ tag).result = .ok (some issue)) :
    OncePerImport path resolver tree issues (Batch.ofIssues issues) := by
  have complete := Batch.perm_ofIssues fun issue mem =>
    (found issue mem).elim fun _ h => fixable_of_check h.2
  have once (declaration : Cursor) :
      (Batch.ofIssues issues).applied.Pairwise fun earlier later =>
        ¬ (Extends path resolver tree declaration earlier ∧
          Extends path resolver tree declaration later) := by
    refine (Batch.compatible_ofIssues issues).imp fun free both => ?_
    rw [conflictsWith_of_extends both.2 both.1] at free
    cases free
  refine ⟨complete, once, fun declaration issue taken mine other mem theirs => ?_,
    fun issue waiting none => ?_⟩
  · -- Another issue is either put off or applied beside this one.
    have beside := (complete.erase issue).mem_iff.2 mem
    rw [List.erase_append_left _ taken] at beside
    rcases List.mem_append.1 beside with applied | deferred
    · have apart := ((List.perm_cons_erase taken).pairwise_iff fun free => free ∘ And.symm).1
        (once declaration)
      exact absurd ⟨mine, theirs⟩ (List.rel_of_pairwise_cons apart applied)
    · exact deferred
  · obtain ⟨taken, ht, conflict⟩ := Batch.exists_conflict_of_mem_deferred waiting
    obtain ⟨edit, he, their, hb, overlap⟩ := Issue.exists_overlaps conflict
    obtain ⟨tag, htag, h⟩ := found issue (complete.mem_iff.1 (List.mem_append_right _ waiting))
    rcases editsMarkup_or_extends htag h he with markup | ⟨declaration, extended⟩
    · exact ⟨edit, markup, taken, ht, their, hb, overlap⟩
    · exact absurd extended (none declaration)

end SpecificComponent

namespace Linter

open SpecificComponent

variable {linter : Linter} {path : Path} {source : String} {tree : Tree} {issues : List Issue}

theorem mem_issues_iff {rule : Rule} {resolver : Resolver} {answers : List (Option Issue)}
    (answered : (ofRoot tree).tags.mapM
      (fun tag => (rule.check ⟨path, resolver⟩ tag).result) = .ok answers) {issue : Issue} :
    issue ∈ (answers.filterMap id).mergeSort Issue.le ↔
      ∃ tag ∈ (ofRoot tree).tags,
        (rule.check ⟨path, resolver⟩ tag).result = .ok (some issue) := by
  simp only [List.mem_mergeSort, List.mem_filterMap, id, exists_eq_right]
  constructor
  · exact exists_of_mapM answered
  · rintro ⟨tag, htag, h⟩
    obtain ⟨_, ha, same⟩ := exists_of_mem_mapM answered htag
    exact Except.ok.inj (h.symm.trans same) ▸ ha

/-- In one pass each import is extended at most once. All other fixes that want to extend it are put
off, and a fix that extends none is put off only for what it changes in the markup. -/
theorem pass_extends_import_once (only : linter.rules = [Rule.specificComponent])
    (parsed : linter.parse (Text.encode source) = tree)
    (analyzed : (linter.analyze path source).result = .ok issues) :
    ∃ resolver, Resolver.ofTree (Text.encode source) tree = .ok resolver ∧
      OncePerImport path resolver tree issues (Batch.ofIssues issues) ∧
      (∀ outcome, (applyFixes source issues).result = .ok outcome →
        outcome.toBatch = Batch.ofIssues issues) ∧
      (tree.Covers source → ∃ outcome, (applyFixes source issues).result = .ok outcome) := by
  obtain ⟨resolver, answers, built, answered, rfl⟩ := (analyze_eq_ok only).1 analyzed
  rw [parsed] at built answered
  refine ⟨resolver, built, oncePerImport_ofIssues fun issue mem =>
    (mem_issues_iff answered).1 mem, ?_, ?_⟩
  · intro outcome applied
    rw [result_applyFixes] at applied
    obtain ⟨text, -, rfl⟩ := map_eq_ok.1 applied
    rfl
  · intro covers
    obtain ⟨text, applied⟩ := Batch.exists_applyTo (Batch.compatible_ofIssues _)
      fun issue taken edit he => by
        obtain ⟨tag, htag, h⟩ := (mem_issues_iff answered).1 (Batch.mem_of_mem_applied taken).1
        exact boundary_of_check covers built htag h he
    exact ⟨_, by rw [result_applyFixes, applied]; rfl⟩

def sharedImportSource : String :=
  "import{Box}from'@chakra-ui/react';<Box display='flex'/>;<Box display='grid'/>"

def sharedImportTree : Tree :=
  .onFirstLine .program 0 77 none [.boxImport, .boxAt 34, .boxAt 56]

def sharedImportLinter : Linter :=
  ⟨fun _ => sharedImportTree, [Rule.specificComponent]⟩

def sharedImportTag (index : Nat) : Cursor :=
  ((ofRoot sharedImportTree).descend? [index]).getD default

/-- What a tag with an attribute calls for, and how the import would be extended by it. -/
def requirement (tag : Cursor) (component : String) :
    Except Failure (Option (String × List Edit) × Option Edit) := do
  let resolver ← Resolver.ofTree (Text.encode sharedImportSource) sharedImportTree
  return (← parts? resolver tag, ← Component.extendImport? resolver tag component)

theorem exists_extending {resolver : Resolver} {index : Nat} {component : String}
    {edits : List Edit} {edit : Edit} (path : Path)
    (built : Resolver.ofTree (Text.encode sharedImportSource) sharedImportTree = .ok resolver)
    (htag : sharedImportTag index ∈ (ofRoot sharedImportTree).tags)
    (evaluated : (requirement (sharedImportTag index) component).toOption =
      some (some (component, edits), some edit))
    (disjoint : Edit.Disjoint edits) :
    ∃ issue declaration, FoundAt path resolver (sharedImportTag index) component issue ∧
      Extends path resolver sharedImportTree declaration issue := by
  obtain ⟨_, same, evaluated⟩ := bind_eq_ok.1 (eq_ok_of_toOption evaluated)
  obtain rfl := Except.ok.inj (built.symm.trans same)
  obtain ⟨_, parts, evaluated⟩ := bind_eq_ok.1 evaluated
  obtain ⟨_, extended, evaluated⟩ := bind_eq_ok.1 evaluated
  obtain ⟨rfl, rfl⟩ := Prod.mk.inj (pure_eq_ok.1 evaluated)
  obtain ⟨issue, -, reported, suggested, -⟩ := exists_issue parts disjoint
  obtain ⟨declaration, extended⟩ := exists_extends htag ⟨reported, suggested⟩ extended
  exact ⟨issue, declaration, ⟨reported, suggested⟩, extended⟩

/-- The two fixes insert different components, and one of them has to wait. -/
theorem pass_extends_import_once_shared : ∃ resolver issues flex grid declaration,
    (sharedImportLinter.analyze (Path.ofString "a.tsx") sharedImportSource).result = .ok issues ∧
    flex ∈ issues ∧ grid ∈ issues ∧
    flex.suggestion? = some "Flex" ∧ grid.suggestion? = some "Grid" ∧
    Extends (Path.ofString "a.tsx") resolver sharedImportTree declaration flex ∧
    Extends (Path.ofString "a.tsx") resolver sharedImportTree declaration grid ∧
    (flex ∈ (Batch.ofIssues issues).deferred ∨ grid ∈ (Batch.ofIssues issues).deferred) := by
  have covers : sharedImportTree.Covers sharedImportSource :=
    Tree.covers_of_ascii (by decide +kernel) (by decide +kernel)
  have grammar : sharedImportTree.EditGrammar :=
    ⟨by decide +kernel, by decide +kernel, by decide +kernel, by decide +kernel, by decide +kernel⟩
  have one_import : (sharedImportTree.nodes.filter (·.kind = .importStatement)).length = 1 := by
    decide +kernel
  have flex_mem : sharedImportTag 1 ∈ (ofRoot sharedImportTree).tags :=
    List.mem_filter.2 ⟨Tree.mem_nodes.2 (Cursor.reaches_of_descend? [1] rfl), rfl⟩
  have grid_mem : sharedImportTag 2 ∈ (ofRoot sharedImportTree).tags :=
    List.mem_filter.2 ⟨Tree.mem_nodes.2 (Cursor.reaches_of_descend? [2] rfl), rfl⟩
  have flex_needs : (requirement (sharedImportTag 1) "Flex").toOption =
      some (some ("Flex", [⟨⟨35, 38⟩, "Flex", by decide⟩, ⟨⟨38, 53⟩, "", by decide⟩,
        .insert 10 ", Flex"]), some (.insert 10 ", Flex")) := by
    decide +kernel
  have grid_needs : (requirement (sharedImportTag 2) "Grid").toOption =
      some (some ("Grid", [⟨⟨57, 60⟩, "Grid", by decide⟩, ⟨⟨60, 75⟩, "", by decide⟩,
        .insert 10 ", Grid"]), some (.insert 10 ", Grid")) := by
    decide +kernel
  obtain ⟨resolver, built⟩ := Resolver.exists_ofTree covers
  obtain ⟨answers, answered⟩ := exists_mapM fun tag htag =>
    exists_check covers grammar built (Path.ofString "a.tsx") htag
  have analyzed := (@analyze_eq_ok sharedImportLinter _ _ _ _ rfl).2
    ⟨resolver, answers, built, answered, rfl⟩
  obtain ⟨flex, declaration, flex_found, flex_extends⟩ :=
    exists_extending (Path.ofString "a.tsx") built flex_mem flex_needs
      (by unfold Edit.Disjoint; decide)
  obtain ⟨grid, other, grid_found, grid_extends⟩ :=
    exists_extending (Path.ofString "a.tsx") built grid_mem grid_needs
      (by unfold Edit.Disjoint; decide)
  obtain ⟨only, single⟩ := List.length_eq_one_iff.1 one_import
  have known {mine : Cursor} (h : mine ∈ sharedImportTree.nodes ∧ mine.kind = .importStatement) :
      mine = only := by
    have : mine ∈ sharedImportTree.nodes.filter (·.kind = .importStatement) := by simpa using h
    simpa [single] using this
  obtain rfl := (known (grid_extends.mem_nodes built)).trans
    (known (flex_extends.mem_nodes built)).symm
  obtain ⟨_, same, shares, -⟩ := pass_extends_import_once rfl rfl analyzed
  obtain rfl := Except.ok.inj (built.symm.trans same)
  have flex_reported := (mem_issues_iff answered).2 ⟨_, flex_mem, flex_found.1⟩
  have grid_reported := (mem_issues_iff answered).2 ⟨_, grid_mem, grid_found.1⟩
  have different : grid ≠ flex := by
    rintro rfl
    exact absurd (flex_found.2.symm.trans grid_found.2) (by decide)
  refine ⟨resolver, _, flex, grid, _, analyzed, flex_reported, grid_reported, flex_found.2,
    grid_found.2, flex_extends, grid_extends, ?_⟩
  rcases List.mem_append.1 (shares.complete.mem_iff.2 flex_reported) with applied | deferred
  · exact .inr (shares.others_wait _ flex applied flex_extends grid
      ((List.mem_erase_of_ne different).2 grid_reported) grid_extends)
  · exact .inl deferred

end Linter
end JsxLint
