import JsxLint.Proofs.Linter.Analysis
import JsxLint.Proofs.Rule.Registry
import JsxLint.Proofs.StableSort

/-!
Choosing among the rules of a registry. What a chosen rule reports does not depend on which others
are chosen, and the issues stand in the order in which they stand when all rules are checked: the
choice only leaves out issues. An issue is known to be a rule's by its id alone, so this rests on
ids being unique. Sources on which some rule fails are left out, since a rule that is not chosen
cannot fail.
-/

namespace JsxLint
namespace Rule

/-- An entry means the rules whose id begins with it and those whose name it is. -/
def MeantBy (rule : Rule) (entry : String) : Prop :=
  (∃ rest, rule.id = entry ++ rest) ∨ rule.name = entry

/-- Some entry of `select` and no entry of `ignore` means the rule. -/
def Chosen (rule : Rule) (select ignore : List String) : Prop :=
  (∃ entry ∈ select, rule.MeantBy entry) ∧ ¬ ∃ entry ∈ ignore, rule.MeantBy entry

theorem matchesEntry_iff {rule : Rule} {entry : String} :
    rule.matchesEntry entry = true ↔ rule.MeantBy entry := by
  have begins : entry.toList <+: rule.id.toList ↔ ∃ rest, rule.id = entry ++ rest := by
    constructor
    · rintro ⟨rest, h⟩
      exact ⟨String.ofList rest, String.toList_inj.1 (by simp [h])⟩
    · rintro ⟨rest, h⟩
      exact ⟨rest.toList, by simp [h]⟩
  simp [matchesEntry, MeantBy, begins]

instance (rule : Rule) (entry : String) : Decidable (rule.MeantBy entry) :=
  decidable_of_iff _ matchesEntry_iff

instance (rule : Rule) (select ignore : List String) : Decidable (rule.Chosen select ignore) :=
  inferInstanceAs (Decidable (_ ∧ _))

theorem matchesAny_iff {rule : Rule} {entries : List String} :
    rule.matchesAny entries = true ↔ ∃ entry ∈ entries, rule.MeantBy entry := by
  simp [matchesAny, matchesEntry_iff]

/-- An issue bears the id of its rule and the path of its file. -/
theorem origin_of_check {rule : Rule} {context : Context} {tag : Cursor} {issue : Issue}
    (h : (rule.check context tag).result = .ok (some issue)) :
    issue.ruleId = rule.id ∧ issue.path = context.path := by
  obtain ⟨finding, -, made⟩ := check_eq_some.1 h
  obtain ⟨column, -, made⟩ := bind_eq_ok.1 made
  obtain rfl := pure_eq_ok.1 made
  exact ⟨rfl, rfl⟩

end Rule

theorem Registry.enabled_eq_filter (registry : Registry) (select ignore : List String) :
    registry.enabled select ignore =
      registry.rules.filter fun rule => rule.Chosen select ignore := by
  refine List.filter_congr fun rule _ => ?_
  rw [Bool.eq_iff_iff]
  simp [Rule.Chosen, Rule.matchesAny_iff, ← Bool.not_eq_true]

/-- Asking some of the inputs only leaves out the answers of the others. -/
theorem mapM_filter {α β : Type} {f : α → Except Failure (Option β)} {p : α → Bool} {q : β → Bool}
    {xs : List α} {ys : List (Option β)} (asked : xs.mapM f = .ok ys)
    (agree : ∀ x ∈ xs, ∀ y, f x = .ok (some y) → q y = p x) :
    ∃ zs, (xs.filter p).mapM f = .ok zs ∧ zs.filterMap id = (ys.filterMap id).filter q := by
  induction xs generalizing ys with
  | nil =>
      obtain rfl := pure_eq_ok.1 asked
      exact ⟨[], rfl, rfl⟩
  | cons x rest ih =>
      rw [List.mapM_cons] at asked
      obtain ⟨y, hy, asked⟩ := bind_eq_ok.1 asked
      obtain ⟨tail, ht, asked⟩ := bind_eq_ok.1 asked
      obtain rfl := pure_eq_ok.1 asked
      obtain ⟨zs, hz, kept⟩ := ih ht fun other ho => agree other (List.mem_cons_of_mem _ ho)
      have here := agree x List.mem_cons_self
      by_cases chosen : p x = true
      · refine ⟨y :: zs, ?_, ?_⟩
        · rw [List.filter_cons_of_pos chosen, List.mapM_cons, hy, ok_bind, hz]
          rfl
        · cases y with
          | none => simpa using kept
          | some b => simpa [here b hy, chosen] using kept
      · refine ⟨zs, by rwa [List.filter_cons_of_neg chosen], ?_⟩
        cases y with
        | none => simpa using kept
        | some b => simpa [here b hy, chosen] using kept

namespace Linter

variable {linter : Linter} {path : Path} {source : String} {issues : List Issue}

theorem exists_rule_of_analyze (analyzed : (linter.analyze path source).result = .ok issues)
    {issue : Issue} (mem : issue ∈ issues) :
    ∃ rule ∈ linter.rules, issue.ruleId = rule.id ∧ issue.path = path := by
  obtain ⟨resolver, found, -, checked, rfl⟩ := analyze_eq_ok_iff.1 analyzed
  obtain ⟨list, hl, mem⟩ := List.mem_flatten.1 (List.mem_mergeSort.1 mem)
  obtain ⟨tag, -, checked⟩ := exists_of_mapM checked hl
  rw [result_checkTag] at checked
  obtain ⟨answers, asked, rfl⟩ := map_eq_ok.1 checked
  obtain ⟨answer, ha, here⟩ := List.mem_filterMap.1 mem
  obtain rfl : answer = some issue := here
  obtain ⟨rule, hr, reported⟩ := exists_of_mapM asked ha
  exact ⟨rule, hr, Rule.origin_of_check reported⟩

section

variable {p : Rule → Bool} {q : Issue → Bool} {rules : List Rule}

theorem checkTag_filter
    (agree : ∀ rule ∈ rules, ∀ issue, issue.ruleId = rule.id → q issue = p rule)
    {context : Context} {tag : Cursor}
    (checked : (checkTag rules context tag).result = .ok issues) :
    (checkTag (rules.filter p) context tag).result = .ok (issues.filter q) := by
  rw [result_checkTag] at checked ⊢
  obtain ⟨answers, asked, rfl⟩ := map_eq_ok.1 checked
  obtain ⟨kept, hk, same⟩ := mapM_filter asked fun rule hr issue reported =>
    agree rule hr issue (Rule.origin_of_check reported).1
  exact map_eq_ok.2 ⟨kept, hk, same⟩

/-- Linting with some of the rules leaves out the issues of the others. -/
theorem analyze_filter (agree : ∀ rule ∈ rules, ∀ issue, issue.ruleId = rule.id → q issue = p rule)
    {parse : Bytes → Tree} (analyzed : (analyze ⟨parse, rules⟩ path source).result = .ok issues) :
    (analyze ⟨parse, rules.filter p⟩ path source).result = .ok (issues.filter q) := by
  obtain ⟨resolver, found, built, checked, rfl⟩ := analyze_eq_ok_iff.1 analyzed
  refine analyze_eq_ok_iff.2 ⟨resolver, found.map (List.filter q), built, ?_, ?_⟩
  · rw [mapM_eq_ok, List.map_map]
    exact (map_of_mapM checked fun tag list here => (checkTag_filter agree here).symm).symm
  · rw [StableSort.filter_mergeSort Issue.le_trans Issue.le_total, List.filter_flatten]

end

end Linter

namespace Registry

/-- The rule that an issue comes from is chosen. -/
def Keeps (registry : Registry) (select ignore : List String) (issue : Issue) : Prop :=
  ∃ rule ∈ registry.rules, rule.id = issue.ruleId ∧ rule.Chosen select ignore

instance (registry : Registry) (select ignore : List String) (issue : Issue) :
    Decidable (registry.Keeps select ignore issue) :=
  inferInstanceAs (Decidable (∃ rule ∈ registry.rules, _))

variable {registry : Registry} {select ignore : List String}

theorem UniqueIds.keeps_iff (unique : registry.UniqueIds) {rule : Rule}
    (here : rule ∈ registry.rules) {issue : Issue} (reported : issue.ruleId = rule.id) :
    registry.Keeps select ignore issue ↔ rule.Chosen select ignore := by
  constructor
  · rintro ⟨other, there, same, chosen⟩
    rwa [unique.eq_of_id here there (reported.symm.trans same.symm)]
  · intro chosen
    exact ⟨rule, here, reported.symm, chosen⟩

end Registry

namespace Linter

/-- Checking the chosen rules of a registry gives the issues of all rules without those of rules
that are not chosen, in the same order; each issue belongs to one rule. So what a chosen rule
reports is the same whatever else is chosen. -/
theorem enabled_rules_filter_report {registry : Registry} (reached : registry.Reached)
    (parse : Bytes → Tree) (select ignore : List String) (path : Path) (source : String)
    {issues : List Issue}
    (analyzed : (analyze ⟨parse, registry.rules⟩ path source).result = .ok issues) :
    ∃ kept, (analyze ⟨parse, registry.enabled select ignore⟩ path source).result = .ok kept ∧
      kept = issues.filter (fun issue => registry.Keeps select ignore issue) ∧
      (∀ issue ∈ issues, ∃! rule, rule ∈ registry.rules ∧ rule.id = issue.ruleId) ∧
      ∀ rule ∈ registry.rules, rule.Chosen select ignore →
        kept.filter (·.ruleId = rule.id) = issues.filter (·.ruleId = rule.id) := by
  have unique := reached.uniqueIds
  refine ⟨_, ?_, rfl, fun issue mem => ?_, fun rule here chosen => ?_⟩
  · rw [registry.enabled_eq_filter]
    refine analyze_filter (fun rule here issue reported => ?_) analyzed
    simp only [unique.keeps_iff here reported]
  · obtain ⟨rule, here, reported, -⟩ := exists_rule_of_analyze analyzed mem
    refine ⟨rule, ⟨here, reported.symm⟩, ?_⟩
    rintro other ⟨there, same⟩
    exact unique.eq_of_id there here (same.trans reported)
  · rw [List.filter_filter]
    refine List.filter_congr fun issue _ => ?_
    by_cases reported : issue.ruleId = rule.id
    · simp [reported, (unique.keeps_iff here reported).2 chosen]
    · simp [reported]

/-- A source that is taken for a single tag. -/
def tagParse (_ : Bytes) : Tree :=
  .onFirstLine .jsxSelfClosingElement 0 1 none []

/-- A rule that has something to say about every tag. -/
def remark (id name : String) : Rule where
  id := id
  name := name
  severity := .info
  autoFixable := false
  description := ""
  inspect := fun _ _ => pure (some ⟨name, [], none⟩)

/-- Two remarks beside the built-in rule; a third is turned away because its id is taken. -/
def remarkRegistry : Registry :=
  Registry.builtin.attemptAll [remark "A1" "one", remark "B1" "two", remark "A1" "three"]

def remarkIssue (id name : String) : Issue where
  path := Path.ofString "x"
  line := 1
  column := 1
  ruleId := id
  message := name
  severity := .info
  autoFixable := false
  context := some name
  data := []
  fix := none

theorem enabled_rules_filter_report_tied :
    remarkRegistry.rules.map (·.id) = ["C001", "A1", "B1"] ∧
    (analyze ⟨tagParse, remarkRegistry.rules⟩ (Path.ofString "x") "b").result =
      .ok [remarkIssue "A1" "one", remarkIssue "B1" "two"] ∧
    (analyze ⟨tagParse, remarkRegistry.enabled ["A", "two"] ["one"]⟩
      (Path.ofString "x") "b").result = .ok [remarkIssue "B1" "two"] := by
  have found : ((Resolver.ofTree (Text.encode "b") (tagParse (Text.encode "b"))).bind
      fun resolver => (Cursor.ofRoot (tagParse (Text.encode "b"))).tags.mapM fun tag =>
        (checkTag remarkRegistry.rules ⟨Path.ofString "x", resolver⟩ tag).result).toOption =
      some [[remarkIssue "A1" "one", remarkIssue "B1" "two"]] := by
    decide +kernel
  obtain ⟨resolver, built, checked⟩ := bind_eq_ok.1 (eq_ok_of_toOption found)
  have analyzed : (analyze ⟨tagParse, remarkRegistry.rules⟩ (Path.ofString "x")
      "b").result = .ok [remarkIssue "A1" "one", remarkIssue "B1" "two"] :=
    analyze_eq_ok_iff.2 ⟨resolver, _, built, checked, (List.mergeSort_of_pairwise (by decide)).symm⟩
  obtain ⟨kept, selected, rfl, -, -⟩ := enabled_rules_filter_report ⟨_, rfl⟩ tagParse
    ["A", "two"] ["one"] (Path.ofString "x") "b" analyzed
  exact ⟨by decide +kernel, analyzed, selected.trans (congrArg Except.ok (by decide +kernel))⟩

end Linter
end JsxLint
