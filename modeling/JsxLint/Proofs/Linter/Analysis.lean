import JsxLint.Linter.Analysis
import JsxLint.Proofs.Component.Eligible
import JsxLint.Proofs.Component.Match
import JsxLint.Proofs.Rule.Total
import Mathlib.Data.List.Forall2

/-!
What linting with the built-in rule alone reports: an issue for each tag that is flagged, and no
other. Being flagged is said in terms of the tree, the table of bindings and the catalogue, without
the rule. How the table comes about is told by the bindings, and what a fix changes by its plan.
-/

namespace JsxLint

open Cursor (ofRoot)

section

variable {α β γ : Type}

theorem mapM_map (f : α → Except Failure β) (g : β → γ) (xs : List α) :
    (xs.mapM fun x => g <$> f x) = List.map g <$> xs.mapM f := by
  induction xs with
  | nil => rfl
  | cons x rest ih =>
      simp only [List.mapM_cons, ih]
      cases f x with
      | error failure => rfl
      | ok y => cases rest.mapM f <;> rfl

/-- Of the inputs that are asked one by one, those with an answer, each beside its answer. -/
theorem exists_answered {f : α → Except Failure (Option β)} {xs : List α} {ys : List (Option β)}
    (h : xs.mapM f = .ok ys) :
    ∃ answered, answered.Sublist xs ∧
      List.Forall₂ (fun x y => x ∈ xs ∧ f x = .ok (some y)) answered (ys.filterMap id) ∧
      ∀ x ∈ xs, x ∈ answered ↔ ∃ y, f x = .ok (some y) := by
  induction xs generalizing ys with
  | nil =>
      obtain rfl := pure_eq_ok.1 h
      exact ⟨[], .slnil, .nil, by simp⟩
  | cons x rest ih =>
      rw [List.mapM_cons] at h
      obtain ⟨y, hy, h⟩ := bind_eq_ok.1 h
      obtain ⟨tail, ht, h⟩ := bind_eq_ok.1 h
      obtain rfl := pure_eq_ok.1 h
      obtain ⟨answered, sublist, answers, complete⟩ := ih ht
      replace answers := answers.imp fun z b ⟨hz, hit⟩ => And.intro (List.mem_cons_of_mem x hz) hit
      cases y with
      | none =>
          refine ⟨answered, sublist.cons x, answers, fun z hz => ⟨fun mem => ?_, fun hit => ?_⟩⟩
          · exact (complete z (sublist.subset mem)).1 mem
          · rcases List.mem_cons.1 hz with rfl | hz
            · simp [hy] at hit
            · exact (complete z hz).2 hit
      | some b =>
          refine ⟨x :: answered, sublist.cons_cons x, .cons ⟨List.mem_cons_self, hy⟩ answers,
            fun z hz => ?_⟩
          by_cases here : z = x
          · simp [here, hy]
          · have there := (List.mem_cons.1 hz).resolve_left here
            simp [here, complete z there]

end

namespace Issue

theorem le_trans (a b c : Issue) (hab : a.le b = true) (hbc : b.le c = true) : a.le c = true := by
  simp only [le, decide_eq_true_eq] at *
  omega

theorem le_total (a b : Issue) : (a.le b || b.le a) = true := by
  simp only [le, Bool.or_eq_true, decide_eq_true_eq]
  omega

end Issue

namespace Linter

variable {linter : Linter} {path : Path} {source : String} {issues : List Issue}

theorem result_checkTag (rules : List Rule) (context : Context) (tag : Cursor) :
    (checkTag rules context tag).result =
      List.filterMap id <$> rules.mapM fun rule => (rule.check context tag).result := by
  simp only [checkTag, Logged.result_bind, Logged.result_pure, Logged.result_mapM]
  cases rules.mapM fun rule => (rule.check context tag).result <;> rfl

/-- Linting goes through the tags of the tree and sorts the issues found at all of them. -/
theorem analyze_eq_ok_iff :
    (linter.analyze path source).result = .ok issues ↔
      ∃ resolver found,
        Resolver.ofTree (Text.encode source) (linter.parse (Text.encode source)) = .ok resolver ∧
        (ofRoot (linter.parse (Text.encode source))).tags.mapM
          (fun tag => (checkTag linter.rules ⟨path, resolver⟩ tag).result) = .ok found ∧
        issues = found.flatten.mergeSort Issue.le := by
  simp only [analyze, Logged.result_bind, Logged.result_record, Logged.result_liftM,
    Logged.result_mapM, Logged.result_pure, ok_bind]
  constructor
  · intro h
    obtain ⟨resolver, built, h⟩ := bind_eq_ok.1 h
    obtain ⟨found, checked, h⟩ := bind_eq_ok.1 h
    exact ⟨resolver, found, built, checked, (Except.ok.inj h).symm⟩
  · rintro ⟨resolver, found, built, checked, rfl⟩
    rw [built, ok_bind, checked, ok_bind]

theorem result_checkTag_single (rule : Rule) (context : Context) (tag : Cursor) :
    (checkTag [rule] context tag).result = Option.toList <$> (rule.check context tag).result := by
  rw [result_checkTag, List.mapM_cons, List.mapM_nil]
  cases (rule.check context tag).result with
  | error failure => rfl
  | ok issue? => cases issue? <;> rfl

/-- With one rule, linting asks it about each tag and sorts its answers. -/
theorem analyze_eq_ok {rule : Rule} (only : linter.rules = [rule]) :
    (linter.analyze path source).result = .ok issues ↔
      ∃ resolver answers,
        Resolver.ofTree (Text.encode source) (linter.parse (Text.encode source)) = .ok resolver ∧
        (ofRoot (linter.parse (Text.encode source))).tags.mapM
          (fun tag => (rule.check ⟨path, resolver⟩ tag).result) = .ok answers ∧
        issues = (answers.filterMap id).mergeSort Issue.le := by
  have flatten (answers : List (Option Issue)) :
      (answers.map Option.toList).flatten = answers.filterMap id := by
    induction answers with
    | nil => rfl
    | cons answer rest ih => cases answer <;> simp [ih]
  simp only [analyze_eq_ok_iff, only, result_checkTag_single, mapM_map, map_eq_ok]
  constructor
  · rintro ⟨resolver, _, built, ⟨answers, answered, rfl⟩, rfl⟩
    exact ⟨resolver, answers, built, answered, by rw [flatten]⟩
  · rintro ⟨resolver, answers, built, answered, rfl⟩
    exact ⟨resolver, _, built, ⟨answers, answered, rfl⟩, by rw [flatten]⟩

end Linter

namespace SpecificComponent

open Component

/-- The tag is the library's generic component and has an attribute that prescribes another. -/
def Flagged (source : Bytes) (table : ScopeTable) (tag : Cursor) : Prop :=
  NamesGeneric source table tag ∧
    ∃ attr ∈ tag.attributes, ∃ component, Prescribes source generic attr component

/-- A node around the tag's name binds it, and neither that node nor one nearer is the root. -/
def Shadowed (tree : Tree) (table : ScopeTable) (tag : Cursor) : Prop :=
  ∃ name inner scope outer, tag.tagName? = some name ∧ name.ancestors = inner ++ scope :: outer ∧
    table.declarations scope.site generic ≠ [] ∧
    ∀ above ∈ inner ++ [scope], above.site ≠ (ofRoot tree).site

/-- The issue stands at the tag, and its component and its fix are those of the first attribute
that prescribes one. -/
def Reports (path : Path) (resolver : Resolver) (tag : Cursor) (issue : Issue) : Prop :=
  ∃ attr component column text fix,
    PrescribesFirst resolver.source generic tag attr component ∧
    tag.column resolver.source = .ok column ∧ attr.text resolver.source = .ok text ∧
    (plan resolver tag attr component).result = .ok fix ∧
    issue = {
      path
      line := tag.row + 1
      column := column + 1
      ruleId := "C001"
      message := "'Box' with attribute '" ++ text ++ "' could be replaced by '" ++ component ++ "'."
      severity := .error
      autoFixable := true
      context := some "require-specific-component"
      data := [("invalid_component", "Box"), ("valid_component", component), ("attribute", text)]
      fix := some fix }

variable {tree : Tree} {source : String} {resolver : Resolver} {path : Path} {tag : Cursor}

/-- Specifiers bind their names at the root. -/
theorem site_eq_of_mem_declarations {bytes : Bytes} {table : ScopeTable}
    (collected : ScopeTable.ofTree bytes tree = .ok table) {site : Site} {name : String}
    {declaration : Declaration} (mem : declaration ∈ table.declarations site name)
    (kind : declaration.kind = .importSpecifier) : site = (ofRoot tree).site := by
  obtain ⟨binding, hb, at_site, -, rfl⟩ := ScopeTable.mem_declarations.1 mem
  obtain ⟨node, here, occurrence, ho, bound⟩ := (ScopeTable.mem_bindings collected).1 hb
  obtain ⟨-, scope_eq, declares⟩ := ScopeTable.bind_eq_ok_iff.1 bound
  have occurrence_kind : occurrence.kind = .importSpecifier := by rw [← kind, declares]
  obtain ⟨-, root, -⟩ := (Cursor.specifier_mem_occurrences occurrence_kind).1 ho
  rw [← at_site, scope_eq, root, Cursor.root_eq (Tree.mem_nodes.1 here)]

theorem not_shadowed_of_namesGeneric {bytes : Bytes}
    (built : Resolver.ofTree bytes tree = .ok resolver)
    (h : NamesGeneric bytes resolver.table tag) : ¬ Shadowed tree resolver.table tag := by
  rintro ⟨name, inner, scope, outer, at_name, split, binds, inside⟩
  obtain ⟨_, first, same, -, -, ⟨nearest, around, hf⟩, kind, -⟩ := h
  obtain rfl := Option.some.inj (at_name.symm.trans same)
  obtain ⟨-, -, collected⟩ := Resolver.ofTree_eq_ok built
  exact inside nearest (around.mem_of_holds split binds)
    (site_eq_of_mem_declarations collected (List.mem_of_mem_head? hf) kind)

theorem reports_of_check (covers : tree.Covers source)
    (built : Resolver.ofTree (Text.encode source) tree = .ok resolver) (here : tag ∈ tree.nodes)
    {issue : Issue}
    (h : (Rule.specificComponent.check ⟨path, resolver⟩ tag).result = .ok (some issue)) :
    Reports path resolver tag issue := by
  obtain ⟨source_eq, -, -⟩ := Resolver.ofTree_eq_ok built
  obtain ⟨made, inspected, hi⟩ := Rule.check_eq_some.1 h
  obtain ⟨-, found, matched, hm⟩ := inspect_eq_some.1 inspected
  obtain ⟨text, fix, read, planned, rfl⟩ := finding_eq_ok.1 hm
  obtain ⟨column, counted, hi⟩ := bind_eq_ok.1 hi
  rw [Context.source, source_eq] at matched
  refine ⟨found.attr, found.specific, column, text, fix, ?_, counted, read, planned,
    (pure_eq_ok.1 hi).symm⟩
  exact source_eq ▸ (match?_eq_some_iff (readable covers here)).1 matched

/-- A tag gets an issue exactly if it is flagged. -/
theorem exists_check_iff (covers : tree.Covers source) (grammar : tree.EditGrammar)
    (built : Resolver.ofTree (Text.encode source) tree = .ok resolver) (path : Path)
    (htag : tag ∈ (ofRoot tree).tags) :
    (∃ issue, (Rule.specificComponent.check ⟨path, resolver⟩ tag).result = .ok (some issue)) ↔
      Flagged (Text.encode source) resolver.table tag := by
  obtain ⟨source_eq, -, -⟩ := Resolver.ofTree_eq_ok built
  obtain ⟨here, kind⟩ := List.mem_filter.1 htag
  constructor
  · rintro ⟨issue, h⟩
    obtain ⟨generic_tag, attr, component, -, matched, -⟩ := exists_match_of_check h
    rw [Context.source, source_eq] at matched
    obtain ⟨mem, prescribes⟩ := match?_eq_some matched
    exact ⟨(eligible_iff built).1 generic_tag, attr, mem, component,
      (matchAttribute?_eq_some_iff.1 prescribes).2⟩
  · rintro ⟨names, attr, mem, component, prescribes⟩
    have generic_tag := (eligible_iff built).2 names
    obtain ⟨first, specific, prescribed⟩ := exists_prescribesFirst mem prescribes
    have matched : match? (Text.encode source) generic tag = .ok (some ⟨first, specific⟩) :=
      (match?_eq_some_iff (readable covers here)).2 prescribed
    obtain ⟨made, hm⟩ := exists_finding covers grammar built here kind generic_tag matched
    obtain ⟨column, counted⟩ := Cursor.exists_column covers here
    rw [← source_eq] at matched counted
    exact ⟨_, Rule.check_eq_some.2 ⟨made, inspect_eq_some.2 ⟨generic_tag, _, matched, hm⟩,
      bind_eq_ok.2 ⟨column, counted, rfl⟩⟩⟩

end SpecificComponent

namespace Linter

open SpecificComponent

/-- Linting with the built-in rule alone is exact: it does not fail, and its issues stand one to one
for the tags that are flagged. No shadowed tag is among them. -/
theorem analyze_reports_flagged {linter : Linter} {source : String} {tree : Tree}
    (only : linter.rules = [Rule.specificComponent])
    (parsed : linter.parse (Text.encode source) = tree) (covers : tree.Covers source)
    (grammar : tree.EditGrammar) (path : Path) :
    ∃ resolver issues reported found,
      Resolver.ofTree (Text.encode source) tree = .ok resolver ∧
      (linter.analyze path source).result = .ok issues ∧
      issues.Perm found ∧ issues.Pairwise (fun a b => a.le b = true) ∧
      reported.Sublist (ofRoot tree).tags ∧ reported.Nodup ∧
      List.Forall₂ (Reports path resolver) reported found ∧
      (∀ tag ∈ (ofRoot tree).tags,
        tag ∈ reported ↔ Flagged (Text.encode source) resolver.table tag) ∧
      ∀ tag ∈ reported, ¬ Shadowed tree resolver.table tag := by
  obtain ⟨resolver, built⟩ := Resolver.exists_ofTree covers
  obtain ⟨answers, answered⟩ := exists_mapM fun tag htag =>
    exists_check covers grammar built path htag
  obtain ⟨reported, sublist, pairs, complete⟩ := exists_answered answered
  have reported_iff : ∀ tag ∈ (ofRoot tree).tags,
      tag ∈ reported ↔ Flagged (Text.encode source) resolver.table tag := fun tag htag =>
    (complete tag htag).trans (exists_check_iff covers grammar built path htag)
  have analyzed := (analyze_eq_ok only).2
    ⟨resolver, answers, by rw [parsed, built], by rw [parsed, answered], rfl⟩
  refine ⟨resolver, _, reported, answers.filterMap id, built, analyzed,
    List.mergeSort_perm _ _, List.pairwise_mergeSort Issue.le_trans Issue.le_total _, sublist,
    sublist.nodup ((Tree.nodup_nodes _).filter _), ?_, reported_iff, ?_⟩
  · refine pairs.imp fun tag issue ⟨htag, checked⟩ => ?_
    exact reports_of_check covers built (List.mem_filter.1 htag).1 checked
  · intro tag mem
    exact not_shadowed_of_namesGeneric built ((reported_iff tag (sublist.subset mem)).1 mem).1

def shadowingSource : String :=
  "import{Box}from'@chakra-ui/react';<Box display='flex'/>;Box=><Box display='flex'/>"

/-- The second of two equal tags stands in a function with a parameter of its name. -/
def shadowingTree : Tree :=
  .onFirstLine .program 0 82 none
    [.boxImport,
     .boxAt 34,
     .onFirstLine .arrowFunction 56 82 none
      [.onFirstLine .identifier 56 59 (some .parameter) [], .boxAt 61]]

def shadowingLinter : Linter :=
  ⟨fun _ => shadowingTree, [Rule.specificComponent]⟩

def openTag : Cursor :=
  ((ofRoot shadowingTree).descend? [1]).getD default

def shadowedTag : Cursor :=
  ((ofRoot shadowingTree).descend? [2, 1]).getD default

theorem analyze_reports_flagged_shadowing : ∃ resolver issues issue,
    shadowingTree.Covers shadowingSource ∧ shadowingTree.EditGrammar ∧
    Resolver.ofTree (Text.encode shadowingSource) shadowingTree = .ok resolver ∧
    (shadowingLinter.analyze (Path.ofString "a.tsx") shadowingSource).result = .ok issues ∧
    issue ∈ issues ∧ Reports (Path.ofString "a.tsx") resolver openTag issue ∧
    shadowedTag ∈ (ofRoot shadowingTree).tags ∧
    Shadowed shadowingTree resolver.table shadowedTag ∧
    ¬ Flagged (Text.encode shadowingSource) resolver.table shadowedTag := by
  have covers : shadowingTree.Covers shadowingSource :=
    Tree.covers_of_ascii (by decide +kernel) (by decide +kernel)
  have grammar : shadowingTree.EditGrammar :=
    ⟨by decide +kernel, by decide +kernel, by decide +kernel, by decide +kernel, by decide +kernel⟩
  have open_mem : openTag ∈ (ofRoot shadowingTree).tags :=
    List.mem_filter.2 ⟨Tree.mem_nodes.2 (Cursor.reaches_of_descend? [1] rfl), rfl⟩
  have shadowed_mem : shadowedTag ∈ (ofRoot shadowingTree).tags :=
    List.mem_filter.2 ⟨Tree.mem_nodes.2 (Cursor.reaches_of_descend? [2, 1] rfl), rfl⟩
  have evaluated : ((Resolver.ofTree (Text.encode shadowingSource) shadowingTree).bind
      fun resolver => do return (← parts? resolver openTag,
        (resolver.table.declarations ⟨⟨56, 82⟩, .arrowFunction⟩ generic).length)).toOption =
      some (some ("Flex", [⟨⟨35, 38⟩, "Flex", by decide⟩, ⟨⟨38, 53⟩, "", by decide⟩,
        .insert 10 ", Flex"]), 1) := by
    decide +kernel
  obtain ⟨resolver, built, evaluated⟩ := bind_eq_ok.1 (eq_ok_of_toOption evaluated)
  obtain ⟨_, parts, evaluated⟩ := bind_eq_ok.1 evaluated
  obtain ⟨rfl, declared⟩ := Prod.mk.inj (pure_eq_ok.1 evaluated)
  obtain ⟨issue, -, reported, -⟩ := exists_issue parts (by unfold Edit.Disjoint; decide)
  have flagged := (exists_check_iff covers grammar built (Path.ofString "a.tsx") open_mem).1
    ⟨issue, reported⟩
  have shadowed : Shadowed shadowingTree resolver.table shadowedTag :=
    ⟨_, [shadowedTag], _, _, rfl, rfl, List.length_pos_iff.1 (declared ▸ Nat.one_pos), by decide⟩
  obtain ⟨_, issues, tags, found, same, analyzed, perm, -, -, -, pairs, complete, unshadowed⟩ :=
    @analyze_reports_flagged shadowingLinter _ _ rfl rfl covers grammar (Path.ofString "a.tsx")
  obtain rfl := Except.ok.inj (built.symm.trans same)
  obtain ⟨index, hi, at_open⟩ := List.mem_iff_getElem.1 ((complete openTag open_mem).2 flagged)
  have hf : index < found.length := pairs.length_eq ▸ hi
  have reports := pairs.get hi hf
  refine ⟨resolver, issues, found.get ⟨index, hf⟩, covers, grammar, built, analyzed,
    perm.mem_iff.2 (List.get_mem found _), at_open ▸ reports, shadowed_mem, shadowed, ?_⟩
  intro again
  exact unshadowed shadowedTag ((complete shadowedTag shadowed_mem).2 again) shadowed

end Linter
end JsxLint
