import JsxLint.Proofs.Linter.Selection
import JsxLint.Proofs.Text.Position

/-!
The order in which issues are found. Tags are visited in the order in which they start, and each
issue has the position of its tag, so the issues of a source come out sorted: sorting them changes
nothing, whatever the rules are. Issues of one position keep the order of their rules. The rows of
a tree have to count the newlines of its text.
-/

namespace JsxLint

open Cursor (ofRoot)

/-- The row of each node is the number of newlines before it. -/
def Tree.CountsRows (tree : Tree) (source : String) : Prop :=
  ∀ c ∈ tree.nodes, c.row = Text.row (Text.encode source) c.start

instance (tree : Tree) (source : String) : Decidable (tree.CountsRows source) :=
  inferInstanceAs (Decidable (∀ c ∈ tree.nodes, _))

namespace Cursor

theorem tags_eq_filter_preorder (c : Cursor) :
    c.tags = c.preorder.filter fun node => node.kind.isTag :=
  c.findAll_eq_filter_preorder _

theorem pairwise_start_tags {tree : Tree} {length : Nat} (wf : tree.WellFormed length) :
    (ofRoot tree).tags.Pairwise fun a b => a.start ≤ b.start := by
  rw [tags_eq_filter_preorder]
  exact (pairwise_start_preorder wf (.refl _)).sublist List.filter_sublist

variable {tree : Tree} {source : String} {a b : Cursor} {m n : Nat}

theorem position_lt (covers : tree.Covers source) (rows : tree.CountsRows source)
    (ha : a ∈ tree.nodes) (hb : b ∈ tree.nodes) (lt : a.start < b.start)
    (left : a.column (Text.encode source) = .ok m)
    (right : b.column (Text.encode source) = .ok n) :
    a.row < b.row ∨ a.row = b.row ∧ m < n := by
  rw [rows a ha, rows b hb]
  exact (covers.cuts a ha).1.position_lt (covers.cuts b hb).1 lt left right

theorem position_eq (rows : tree.CountsRows source) (ha : a ∈ tree.nodes) (hb : b ∈ tree.nodes)
    (same : a.start = b.start) (left : a.column (Text.encode source) = .ok m)
    (right : b.column (Text.encode source) = .ok n) : a.row = b.row ∧ m = n := by
  refine ⟨by rw [rows a ha, rows b hb, same], ?_⟩
  have columns : a.column (Text.encode source) = b.column (Text.encode source) := by
    simp only [column, lineLead, same]
  exact Except.ok.inj (left.symm.trans (columns.trans right))

/-- Two places have one position exactly if they start at one byte. -/
theorem position_eq_iff (covers : tree.Covers source) (rows : tree.CountsRows source)
    (ha : a ∈ tree.nodes) (hb : b ∈ tree.nodes) (left : a.column (Text.encode source) = .ok m)
    (right : b.column (Text.encode source) = .ok n) :
    (a.row = b.row ∧ m = n) ↔ a.start = b.start := by
  refine ⟨fun ⟨row, column⟩ => ?_, fun same => position_eq rows ha hb same left right⟩
  rcases Nat.lt_trichotomy a.start b.start with lt | same | gt
  · have := position_lt covers rows ha hb lt left right
    omega
  · exact same
  · have := position_lt covers rows hb ha gt right left
    omega

end Cursor

/-- The issue has the position of a tag. -/
def Issue.StandsAt (issue : Issue) (source : Bytes) (tag : Cursor) : Prop :=
  issue.line = tag.row + 1 ∧ ∃ column, tag.column source = .ok column ∧ issue.column = column + 1

theorem Issue.StandsAt.le {tree : Tree} {source : String} {a b : Cursor} {first second : Issue}
    (covers : tree.Covers source) (rows : tree.CountsRows source) (ha : a ∈ tree.nodes)
    (hb : b ∈ tree.nodes) (le : a.start ≤ b.start)
    (one : first.StandsAt (Text.encode source) a)
    (other : second.StandsAt (Text.encode source) b) : first.le second = true := by
  obtain ⟨line_a, m, left, column_a⟩ := one
  obtain ⟨line_b, n, right, column_b⟩ := other
  rw [Issue.le, decide_eq_true_eq, line_a, line_b, column_a, column_b]
  rcases Nat.lt_or_eq_of_le le with lt | same
  · have := Cursor.position_lt covers rows ha hb lt left right
    omega
  · have := Cursor.position_eq rows ha hb same left right
    omega

theorem Rule.standsAt_of_check {rule : Rule} {context : Context} {tag : Cursor} {issue : Issue}
    (h : (rule.check context tag).result = .ok (some issue)) :
    issue.StandsAt context.source tag := by
  obtain ⟨finding, -, made⟩ := check_eq_some.1 h
  obtain ⟨column, counted, made⟩ := bind_eq_ok.1 made
  obtain rfl := pure_eq_ok.1 made
  exact ⟨rfl, column, counted, rfl⟩

namespace Linter

variable {rules : List Rule} {context : Context}

/-- Adds the issue of one rule, if it has one for the tag. -/
def addIssue (context : Context) (tag : Cursor) (found : List Issue) (rule : Rule) :
    Logged (List Issue) := do
  match ← rule.check context tag with
  | some issue => return found ++ [issue]
  | none => return found

/-- The issues in the order in which they are found: tag by tag, and rule by rule at each tag. -/
def collect (rules : List Rule) (context : Context) (tags : List Cursor) : Logged (List Issue) :=
  tags.foldlM (fun found tag => rules.foldlM (addIssue context tag) found) []

/-- A loop that adds what each step finds has found the steps' findings in their order. -/
theorem result_foldlM_append {α β : Type} {step : List β → α → Logged (List β)}
    {f : α → Except Failure (List β)}
    (adds : ∀ found x, (step found x).result = (found ++ ·) <$> f x) (xs : List α)
    (found : List β) :
    (xs.foldlM step found).result = (fun lists => found ++ lists.flatten) <$> xs.mapM f := by
  induction xs generalizing found with
  | nil =>
      change Except.ok found = .ok (found ++ [])
      rw [List.append_nil]
  | cons x rest ih =>
      rw [List.foldlM_cons, Logged.result_bind, adds, List.mapM_cons]
      cases f x with
      | error failure => rfl
      | ok list =>
          change (rest.foldlM step (found ++ list)).result = _
          rw [ih]
          cases rest.mapM f with
          | error failure => rfl
          | ok lists =>
              change Except.ok (found ++ list ++ lists.flatten) =
                .ok (found ++ (list :: lists).flatten)
              rw [List.flatten_cons, List.append_assoc]

theorem result_addIssue (context : Context) (tag : Cursor) (found : List Issue) (rule : Rule) :
    (addIssue context tag found rule).result =
      (found ++ ·) <$> (Option.toList <$> (rule.check context tag).result) := by
  rw [addIssue, Logged.result_bind]
  cases (rule.check context tag).result with
  | error failure => rfl
  | ok issue? =>
      cases issue? with
      | none =>
          change Except.ok found = .ok (found ++ [])
          rw [List.append_nil]
      | some issue => rfl

theorem result_foldlM_addIssue (rules : List Rule) (context : Context) (found : List Issue)
    (tag : Cursor) :
    (rules.foldlM (addIssue context tag) found).result =
      (found ++ ·) <$> (checkTag rules context tag).result := by
  rw [result_foldlM_append (result_addIssue context tag), mapM_map, result_checkTag]
  cases rules.mapM fun rule => (rule.check context tag).result with
  | error failure => rfl
  | ok answers =>
      change Except.ok (found ++ (answers.map Option.toList).flatten) =
        .ok (found ++ answers.filterMap id)
      rw [List.filterMap_eq_flatMap_toList, List.flatMap_def]
      rfl

theorem result_collect (rules : List Rule) (context : Context) (tags : List Cursor) :
    (collect rules context tags).result =
      List.flatten <$> tags.mapM fun tag => (checkTag rules context tag).result :=
  result_foldlM_append (result_foldlM_addIssue rules context) tags []

theorem standsAt_of_checkTag {tag : Cursor} {issues : List Issue}
    (checked : (checkTag rules context tag).result = .ok issues) {issue : Issue}
    (mem : issue ∈ issues) : issue.StandsAt context.source tag := by
  rw [result_checkTag] at checked
  obtain ⟨answers, asked, rfl⟩ := map_eq_ok.1 checked
  obtain ⟨answer, ha, rfl⟩ := List.mem_filterMap.1 mem
  obtain ⟨rule, -, reported⟩ := exists_of_mapM asked ha
  exact Rule.standsAt_of_check reported

/-- Tags that are visited in the order in which they start yield sorted issues. -/
theorem sorted_of_checked {tree : Tree} {source : String} (covers : tree.Covers source)
    (rows : tree.CountsRows source) (reads : context.source = Text.encode source)
    {tags : List Cursor} (here : ∀ tag ∈ tags, tag ∈ tree.nodes)
    (order : tags.Pairwise fun a b => a.start ≤ b.start) {found : List (List Issue)}
    (checked : tags.mapM (fun tag => (checkTag rules context tag).result) = .ok found) :
    found.flatten.Pairwise fun a b => a.le b = true := by
  induction tags generalizing found with
  | nil =>
      obtain rfl := pure_eq_ok.1 checked
      exact .nil
  | cons tag rest ih =>
      rw [List.mapM_cons] at checked
      obtain ⟨issues, at_tag, checked⟩ := bind_eq_ok.1 checked
      obtain ⟨later, at_rest, checked⟩ := bind_eq_ok.1 checked
      obtain rfl := pure_eq_ok.1 checked
      obtain ⟨first, order⟩ := List.pairwise_cons.1 order
      have at_first := here tag List.mem_cons_self
      have stands {issue : Issue} (mem : issue ∈ issues) :
          issue.StandsAt (Text.encode source) tag := reads ▸ standsAt_of_checkTag at_tag mem
      rw [List.flatten_cons]
      refine List.pairwise_append.2 ⟨?_, ?_, ?_⟩
      · refine List.pairwise_of_forall_mem_list fun a ha b hb => ?_
        exact (stands ha).le covers rows at_first at_first (Nat.le_refl _) (stands hb)
      · exact ih (fun other ho => here other (List.mem_cons_of_mem _ ho)) order at_rest
      · intro a ha b hb
        obtain ⟨list, hl, hb⟩ := List.mem_flatten.1 hb
        obtain ⟨other, ho, at_other⟩ := exists_of_mapM at_rest hl
        have there := reads ▸ standsAt_of_checkTag at_other hb
        exact (stands ha).le covers rows at_first (here other (List.mem_cons_of_mem _ ho))
          (first other ho) there

/-- Linting sorts what the loop over tags and rules has found. -/
theorem result_analyze {linter : Linter} {source : String} {tree : Tree} {resolver : Resolver}
    (parsed : linter.parse (Text.encode source) = tree)
    (built : Resolver.ofTree (Text.encode source) tree = .ok resolver) (path : Path) :
    (linter.analyze path source).result =
      (·.mergeSort Issue.le) <$>
        (collect linter.rules ⟨path, resolver⟩ (ofRoot tree).tags).result := by
  rw [result_collect]
  simp only [analyze, Logged.result_bind, Logged.result_record, Logged.result_liftM,
    Logged.result_mapM, Logged.result_pure, ok_bind, parsed, built]
  cases (ofRoot tree).tags.mapM fun tag => (checkTag linter.rules ⟨path, resolver⟩ tag).result with
  | error failure => rfl
  | ok found => rfl

/-- The loop comes to its end if no rule fails at a tag. -/
theorem exists_collect {tags : List Cursor}
    (counted : ∀ tag ∈ tags, ∃ column, tag.column context.source = .ok column)
    (inspected : ∀ tag ∈ tags, ∀ rule ∈ rules, ∃ finding?,
      (rule.inspect context tag).result = .ok finding?) :
    ∃ issues, (collect rules context tags).result = .ok issues := by
  have checked : ∀ tag ∈ tags, ∃ issues, (checkTag rules context tag).result = .ok issues := by
    intro tag ht
    obtain ⟨column, at_tag⟩ := counted tag ht
    obtain ⟨answers, asked⟩ := exists_mapM fun rule hr => by
      obtain ⟨finding?, found⟩ := inspected tag ht rule hr
      exact rule.exists_check found at_tag
    exact ⟨answers.filterMap id, by rw [result_checkTag, asked]; rfl⟩
  obtain ⟨found, all⟩ := exists_mapM checked
  exact ⟨found.flatten, by rw [result_collect, all]; rfl⟩

/-- The issues of any rules are found in the order of their positions, so linting returns them as
they are found, and it does so unless a rule fails. Two tags have one position exactly if they start
at one byte. -/
theorem issues_found_in_order {linter : Linter} {source : String} {tree : Tree}
    (parsed : linter.parse (Text.encode source) = tree) (covers : tree.Covers source)
    (rows : tree.CountsRows source) (path : Path) :
    ∃ resolver tags,
      Resolver.ofTree (Text.encode source) tree = .ok resolver ∧
      tags = (ofRoot tree).preorder.filter (fun node => node.kind.isTag) ∧
      (linter.analyze path source).result =
        (collect linter.rules ⟨path, resolver⟩ tags).result ∧
      (∀ issues, (collect linter.rules ⟨path, resolver⟩ tags).result = .ok issues →
        issues.Pairwise fun a b => a.le b = true) ∧
      ((∀ tag ∈ tags, ∀ rule ∈ linter.rules, ∃ finding?,
          (rule.inspect ⟨path, resolver⟩ tag).result = .ok finding?) →
        ∃ issues, (linter.analyze path source).result = .ok issues) ∧
      ∀ a ∈ tags, ∀ b ∈ tags, ∃ m n,
        a.column (Text.encode source) = .ok m ∧ b.column (Text.encode source) = .ok n ∧
        ((a.row = b.row ∧ m = n) ↔ a.start = b.start) := by
  obtain ⟨resolver, built⟩ := Resolver.exists_ofTree covers
  have reads : Context.source ⟨path, resolver⟩ = Text.encode source :=
    (Resolver.ofTree_eq_ok built).1
  have here : ∀ tag ∈ (ofRoot tree).tags, tag ∈ tree.nodes :=
    fun tag ht => (List.mem_filter.1 ht).1
  have sorted : ∀ issues,
      (collect linter.rules ⟨path, resolver⟩ (ofRoot tree).tags).result = .ok issues →
        issues.Pairwise fun a b => a.le b = true := by
    intro issues collected
    rw [result_collect] at collected
    obtain ⟨found, checked, rfl⟩ := map_eq_ok.1 collected
    exact sorted_of_checked covers rows reads here (Cursor.pairwise_start_tags covers.fits) checked
  have same : (linter.analyze path source).result =
      (collect linter.rules ⟨path, resolver⟩ (ofRoot tree).tags).result := by
    rw [result_analyze parsed built]
    cases collected : (collect linter.rules ⟨path, resolver⟩ (ofRoot tree).tags).result with
    | error failure => rfl
    | ok issues =>
        exact congrArg Except.ok (List.mergeSort_of_pairwise (sorted issues collected))
  refine ⟨resolver, _, built, Cursor.tags_eq_filter_preorder _, same, sorted, ?_, ?_⟩
  · intro inspected
    rw [same]
    refine exists_collect (fun tag ht => ?_) inspected
    rw [reads]
    exact Cursor.exists_column covers (here tag ht)
  · intro a ha b hb
    obtain ⟨m, left⟩ := Cursor.exists_column covers (here a ha)
    obtain ⟨n, right⟩ := Cursor.exists_column covers (here b hb)
    exact ⟨m, n, left, right, Cursor.position_eq_iff covers rows (here a ha) (here b hb) left right⟩

def accentedSource : String :=
  "é<a/><b/>\n<c/>"

/-- Two tags behind a character of two bytes, and one on the next line. -/
def accentedTree : Tree :=
  .onFirstLine .program 0 15 none
    [.onFirstLine .jsxSelfClosingElement 2 6 none [],
     .onFirstLine .jsxSelfClosingElement 6 10 none [],
     .node { start := 11, stop := 15, kind := .jsxSelfClosingElement, row := 1, column := 0,
             named := true, missing := false, hasError := false, field := none } []]

def accentedLinter : Linter :=
  ⟨fun _ => accentedTree, [remark "B1" "two", remark "A1" "one"]⟩

theorem issues_found_in_order_accented :
    accentedTree.Covers accentedSource ∧ accentedTree.CountsRows accentedSource ∧
    ∃ issues, (accentedLinter.analyze (Path.ofString "a.tsx") accentedSource).result = .ok issues ∧
      issues.map (fun issue => (issue.line, issue.column, issue.ruleId)) =
        [(1, 2, "B1"), (1, 2, "A1"), (1, 6, "B1"), (1, 6, "A1"), (2, 1, "B1"), (2, 1, "A1")] := by
  have covers : accentedTree.Covers accentedSource := ⟨by decide +kernel, by decide +kernel⟩
  have rows : accentedTree.CountsRows accentedSource := by decide +kernel
  obtain ⟨resolver, _, built, rfl, same, -, -, -⟩ :=
    @issues_found_in_order accentedLinter _ _ rfl covers rows (Path.ofString "a.tsx")
  have found : ((Resolver.ofTree (Text.encode accentedSource) accentedTree).bind fun resolver =>
      (collect accentedLinter.rules ⟨Path.ofString "a.tsx", resolver⟩
        (ofRoot accentedTree).tags).result).toOption.map
          (List.map fun issue => (issue.line, issue.column, issue.ruleId)) =
      some [(1, 2, "B1"), (1, 2, "A1"), (1, 6, "B1"), (1, 6, "A1"), (2, 1, "B1"),
        (2, 1, "A1")] := by
    decide +kernel
  obtain ⟨issues, collected, positions⟩ := Option.map_eq_some_iff.1 found
  obtain ⟨_, again, collected⟩ := bind_eq_ok.1 (eq_ok_of_toOption collected)
  obtain rfl := Except.ok.inj (built.symm.trans again)
  rw [Cursor.tags_eq_filter_preorder] at collected
  exact ⟨covers, rows, issues, same.trans collected, positions⟩

end Linter
end JsxLint
